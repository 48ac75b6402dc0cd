import AccessPolicy.Grammar.Decode
import AccessPolicy.Grammar.Defect
import AccessPolicy.Grammar.Encode

namespace AccessPolicy

/-- A policy or a policy set as the root of a document. -/
inductive PolicyDocument where
  | policy (p : Policy)
  | policySet (s : PolicySet)

/-- A reference with the kind that it must resolve to. -/
structure Reference where
  kind : ArtifactKind
  target : IdReference
deriving DecidableEq

mutual

/-- The references in a set, those in the sets inside it included, in document order. -/
def PolicySet.references : PolicySet → List Reference
  | ⟨_, _, _, _, _, _, content, _⟩ => referencesOf content

def PolicySet.referencesOf : List (SetMember PolicySet) → List Reference
  | [] => []
  | .policySet s :: rest => s.references ++ referencesOf rest
  | .reference kind r :: rest => ⟨kind, r⟩ :: referencesOf rest
  | .policy _ :: rest => referencesOf rest
  | .parameters _ :: rest => referencesOf rest
  | .policyParameters _ :: rest => referencesOf rest
  | .setParameters _ :: rest => referencesOf rest

end

namespace PolicyDocument

def kind : PolicyDocument → ArtifactKind
  | policy _ => .policy
  | policySet _ => .policySet

def id : PolicyDocument → String
  | policy p => p.policyId
  | policySet s => s.setId

def version : PolicyDocument → String
  | policy p => p.version
  | policySet s => s.version

def references : PolicyDocument → List Reference
  | policy _ => []
  | policySet s => s.references

def toNode : PolicyDocument → Node
  | policy p => .policy p
  | policySet s => .policySet s

def ofNode? : Node → Option PolicyDocument
  | .policy p => some (policy p)
  | .policySet s => some (policySet s)
  | _ => none

def defects : PolicyDocument → List Defect
  | policy p => p.defects
  | policySet s => s.defects

/-- The name that a document is written under. -/
def tag : PolicyDocument → String
  | policy _ => "Policy"
  | policySet _ => "PolicySet"

/-- What stands under the name of the document. -/
def payload : PolicyDocument → Json.Value
  | policy p => p.encode
  | policySet s => s.encode

def encode (d : PolicyDocument) : Json.Value :=
  variant d.tag d.payload

@[simp] theorem defects_toNode (d : PolicyDocument) : d.toNode.defects = d.defects := by
  cases d <;> rfl

@[simp] theorem tag_toNode (d : PolicyDocument) : d.toNode.tag = d.tag := by
  cases d <;> rfl

@[simp] theorem payload_toNode (d : PolicyDocument) : d.toNode.payload = d.payload := by
  cases d <;> rfl

def kinds : List ElementKind := [.policy, .policySet]

/-- Reads the root of a document under its kind. -/
def decodeRoot (k : ArtifactKind) (v : Json.Value) : Except Json.DecodeError PolicyDocument :=
  match k with
  | .policy => (Policy.decode v).map policy
  | .policySet => (PolicySet.decode v).map policySet

def decode : Json.Decoder PolicyDocument :=
  decodeMember kinds fun k v =>
    match k with
    | .policy => decodeRoot .policy v
    | .policySet => decodeRoot .policySet v
    | k => .error (unexpectedKind k kinds)

end PolicyDocument

/-- A node under its canonical name. -/
structure QualifiedElement where
  name : QualifiedName
  substitutionHead : Option QualifiedName
  node : Node

namespace QualifiedElement

def of (n : Node) : QualifiedElement where
  name := n.kind.qualifiedName
  substitutionHead := n.kind.substitutionHead.map ElementKind.qualifiedName
  node := n

def kind (e : QualifiedElement) : ElementKind :=
  e.node.kind

def isSubstitutableFor (e : QualifiedElement) (position : ElementKind) : Bool :=
  e.kind.isSubstitutableFor position

end QualifiedElement

end AccessPolicy
