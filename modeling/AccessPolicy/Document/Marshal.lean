import AccessPolicy.Document.Basic
import AccessPolicy.Error
import AccessPolicy.Text.Utf8

namespace AccessPolicy

/-- The document with one root: the namespace, and then what is written for the root. -/
def envelopeOf (tag : String) (payload : Json.Value) : Json.Value :=
  .object [("xmlns", .string policyNamespace), (tag, payload)]

/-- The bytes of the document with one root. -/
def encodeRoot (tag : String) (payload : Json.Value) : List UInt8 :=
  Text.Utf8.encode (envelopeOf tag payload).text.toList

/-- The first defect, if there is any. -/
def checkDefects : List Defect → Except MarshalError Unit
  | d :: _ => .error (.incomplete d)
  | [] => .ok ()

/-- The document that holds the node. -/
def Node.envelope (n : Node) : Json.Value :=
  envelopeOf n.tag n.payload

/-- Nothing is written of a node that has a defect. -/
def Node.marshal (n : Node) : Except MarshalError (List UInt8) := do
  checkDefects n.defects
  return encodeRoot n.tag n.payload

def QualifiedElement.marshal (e : QualifiedElement) : Except MarshalError (List UInt8) :=
  e.node.marshal

/-- Nothing is written of a document that has a defect. -/
def PolicyDocument.marshal (d : PolicyDocument) : Except MarshalError (List UInt8) := do
  checkDefects d.defects
  return encodeRoot d.tag d.payload

/-- A document is written like its root. -/
theorem PolicyDocument.marshal_toNode (d : PolicyDocument) : d.toNode.marshal = d.marshal := by
  rw [Node.marshal, marshal, defects_toNode, tag_toNode, payload_toNode]

/-- A place to write bytes to; `σ` is its state. A write takes bytes from the front of what it is
given and says how many. -/
structure Sink (σ : Type) where
  write : List UInt8 → EStateM IoError σ Nat
  flush : EStateM IoError σ Unit

namespace Sink

/-- Writes again until everything is taken. A write that takes nothing is a failure. -/
def writeAll (sink : Sink σ) (bytes : List UInt8) : EStateM IoError σ Unit := fun s =>
  if _h : bytes = [] then .ok () s
  else
    match sink.write bytes s with
    | .error e s => .error e s
    | .ok 0 s => .error .writeZero s
    | .ok (n + 1) s => writeAll sink (bytes.drop (n + 1)) s
termination_by bytes.length
decreasing_by
  have := List.length_pos_iff.2 _h
  simp only [List.length_drop]
  omega

/-- Writes everything and flushes once. -/
def deliver (sink : Sink σ) (bytes : List UInt8) : EStateM IoError σ Unit := do
  sink.writeAll bytes
  sink.flush

end Sink

/-- Writes to the sink what was marshalled, if that did not fail. -/
def Sink.accept (sink : Sink σ) :
    Except MarshalError (List UInt8) → EStateM MarshalError σ Unit
  | .error e => throw e
  | .ok bytes => (sink.deliver bytes).adaptExcept .io

def Node.marshalTo (n : Node) (sink : Sink σ) : EStateM MarshalError σ Unit :=
  sink.accept n.marshal

def QualifiedElement.marshalTo (e : QualifiedElement) (sink : Sink σ) :
    EStateM MarshalError σ Unit :=
  sink.accept e.marshal

def PolicyDocument.marshalTo (d : PolicyDocument) (sink : Sink σ) : EStateM MarshalError σ Unit :=
  sink.accept d.marshal

theorem PolicyDocument.marshalTo_toNode (d : PolicyDocument) (sink : Sink σ) :
    d.toNode.marshalTo sink = d.marshalTo sink := by
  rw [Node.marshalTo, marshal_toNode, marshalTo]

/-- A sink that takes a number of bytes and then fails, and whose flush may fail; its state is what
it has taken, the latest byte first. -/
def limitedSink (limit : Option Nat) (flushFails : Bool) : Sink (List UInt8) where
  write bytes taken :=
    match limit with
    | none => .ok bytes.length (bytes.reverse ++ taken)
    | some n =>
      let room := n - taken.length
      if room = 0 then .error (.other "writer full") taken
      else .ok (min room bytes.length) ((bytes.take room).reverse ++ taken)
  flush taken :=
    if flushFails then .error (.other "flush failed") taken else .ok () taken

end AccessPolicy
