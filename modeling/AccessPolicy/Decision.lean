import AccessPolicy.Grammar.Basic
import AccessPolicy.Json.Decode

namespace AccessPolicy

/-- The outcomes of an evaluation. -/
inductive Decision where
  | permit
  | deny
  | notApplicable
  | indeterminate
deriving DecidableEq

namespace Decision

def name : Decision → String
  | permit => "Permit"
  | deny => "Deny"
  | notApplicable => "NotApplicable"
  | indeterminate => "Indeterminate"

def table : List (String × Decision) :=
  [permit, deny, notApplicable, indeterminate].map fun d => (d.name, d)

/-- What a rule with the effect decides. -/
def ofEffect : Effect → Decision
  | .permit => permit
  | .deny => deny

def encode (d : Decision) : Json.Value :=
  .string d.name

def decode : Json.Decoder Decision :=
  Json.named table

end Decision

end AccessPolicy
