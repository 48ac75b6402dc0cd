import AccessPolicy.Json.Decode

namespace AccessPolicy

/-- The two kinds of documents: single policies and policy sets. -/
inductive ArtifactKind where
  | policy
  | policySet
deriving DecidableEq

namespace ArtifactKind

def name : ArtifactKind → String
  | policy => "Policy"
  | policySet => "PolicySet"

def table : List (String × ArtifactKind) :=
  [("Policy", policy), ("PolicySet", policySet)]

def ofName? (name : String) : Option ArtifactKind :=
  table.lookup name

def encode (k : ArtifactKind) : Json.Value :=
  .string k.name

def decode : Json.Decoder ArtifactKind :=
  Json.named table

end ArtifactKind

end AccessPolicy
