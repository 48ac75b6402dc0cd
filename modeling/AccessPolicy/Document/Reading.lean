import AccessPolicy.Document.Basic
import AccessPolicy.Error
import AccessPolicy.Json.Reader
import AccessPolicy.Text.Utf8

namespace AccessPolicy

open Json

/-- The members of the object that the bytes are a JSON text of. A text that begins with something
else is refused at that beginning. -/
def readMembers (bytes : List UInt8) : Except ReadError (List (String × Value)) :=
  let (cs, rest) := Text.Utf8.decode bytes
  let tokens := scan cs
  let whole : Except ReadError (List (String × Value)) :=
    match (Reader.run Reader.maxDepth Reader.start tokens).bind Reader.value?, rest with
    | some (.object members), [] => .ok members
    | _, _ => .error .malformed
  match tokens.head?.bind Token.beginning? with
  | some (.object _) => whole
  | some v => .error (.undecodable (.invalidType v.shape "a map"))
  | none => .error .malformed

/-- Checks that the members of a document name the namespace, and gives the others. -/
def checkNamespace (members : List (String × Value)) :
    Except SchemaFault (List (String × Value)) :=
  match member? "xmlns" members with
  | none => .error .noNamespace
  | some (.string s) =>
    if s = policyNamespace then .ok (members.filter fun m => m.1 ≠ "xmlns")
    else .error (.unexpectedNamespace (.string s))
  | some v => .error (.unexpectedNamespace v)

/-- The kind of the root and what stands under its name. -/
def findRoot : List (String × Value) → Except SchemaFault (ArtifactKind × Value)
  | [] => .error .noRoot
  | [(name, body)] =>
    match ArtifactKind.ofName? name with
    | some kind => .ok (kind, body)
    | none =>
      if (ElementKind.ofLocalName? name).isSome then .error (.notARoot name)
      else .error (.unknownElement name)
  | _ => .error .severalRoots

namespace PolicyDocument

/-- A document must have no defect and a version that is one. -/
def validate (d : PolicyDocument) : Except SchemaFault Unit :=
  match d.defects with
  | e :: _ => .error (.incomplete e)
  | [] =>
    match Version.parse d.version with
    | .error e => .error (.invalidVersion d.id e)
    | .ok _ => .ok ()

/-- Reads a document, of the expected kind if there is one. The namespace is checked first, then the
name of the root, and only then what stands under it. -/
def read (expected : Option ArtifactKind) (bytes : List UInt8) :
    Except ConstructionError PolicyDocument := do
  let members ← (readMembers bytes).mapError .malformed
  let others ← (checkNamespace members).mapError .schema
  let (kind, body) ← (findRoot others).mapError .schema
  if let some e := expected then
    if e ≠ kind then throw (.kindMismatch e kind)
  let document ← (decodeRoot kind body).mapError fun e => .malformed (.undecodable e)
  document.validate.mapError .schema
  return document

end PolicyDocument

end AccessPolicy
