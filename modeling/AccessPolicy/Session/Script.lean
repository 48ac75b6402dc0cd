import AccessPolicy.Construction.Standard
import AccessPolicy.Session.Basic

namespace AccessPolicy

/-- Which targets a scripted engine takes to apply. -/
inductive Matching where
  | always
  | never
  /-- Only where there is no target. -/
  | untargeted
  | failing
deriving DecidableEq

/-- An engine whose answers are laid down beforehand. -/
structure EngineScript where
  matching : Matching
  /-- The policies whose evaluation fails. -/
  failing : List String
  decisions : List (String × Decision)
  unknownAlgorithms : List String
  /-- Whether the last decision of a set counts; otherwise the first does. -/
  lastCounts : Bool

namespace EngineScript

/-- The decision on a policy: the one laid down for it, or else the effect of its first rule. -/
def decisionOn (script : EngineScript) (p : Policy) : Except EvaluationError Decision :=
  if script.failing.contains p.policyId then
    .error (.engine ("policy " ++ p.policyId ++ " failed"))
  else
    match script.decisions.lookup p.policyId with
    | some d => .ok d
    | none => .ok ((p.rules.head?.map fun r => Decision.ofEffect r.effect).getD .notApplicable)

def combination (script : EngineScript) (algorithm : String) (ds : List Decision) :
    Except EvaluationError Decision :=
  if script.unknownAlgorithms.contains algorithm then
    .error (.engine ("unknown algorithm " ++ algorithm))
  else
    .ok ((if script.lastCounts then ds.getLast? else ds.head?).getD .notApplicable)

def applies (script : EngineScript) (target : Option Target) : Except EvaluationError Bool :=
  match script.matching with
  | .always => .ok true
  | .never => .ok false
  | .untargeted => .ok target.isNone
  | .failing => .error (.engine "match failed")

/-- Logs an entry and gives what is laid down. -/
def reply (entry : String) (laidDown : Except EvaluationError α) :
    EStateM EvaluationError Holdings α := do
  Holdings.say entry
  match laidDown with
  | .ok a => return a
  | .error e => throw e

def toEvaluator (script : EngineScript) : Evaluator Holdings where
  applies target :=
    reply ("matches " ++ (target.map fun t => t.encode.text).getD "none") (script.applies target)
  policy p := reply ("policy " ++ p.policyId ++ " " ++ p.version) (script.decisionOn p)
  combine algorithm ds :=
    reply ("combine " ++ algorithm ++ " [" ++ ",".intercalate (ds.map Decision.name) ++ "]")
      (script.combination algorithm ds)

end EngineScript

/-- A constructor that logs each operation and leaves the work to the standard constructor `inner`.
One that is `streamOnly` has only the first operation. -/
structure ConstructorScript where
  name : String
  capabilities : CapabilitySet
  streamOnly : Bool
  inner : StandardConstructor

namespace ConstructorScript

/-- Logs an entry before the work. -/
def logging (entry : String) (x : Consuming Lookup Decision Holdings α) :
    Consuming Lookup Decision Holdings α := do
  Consuming.constructing (World.ask (Holdings.say entry))
  x

def toConstructor (script : ConstructorScript) : Constructor Lookup Decision Holdings :=
  let work := script.inner.toConstructor Session.surroundings
  let plain : Constructor Lookup Decision Holdings :=
    { name := script.name
      capabilities := script.capabilities
      construct := fun kind =>
        logging (script.name ++ " construct " ++ kind.name) (work.construct kind) }
  if script.streamOnly then plain
  else
    { plain with
      constructWithResolver := fun kind resolver =>
        logging (script.name ++ " construct_with_resolver " ++ kind.name)
          (work.constructWithResolver kind resolver)
      constructInferred := fun resolver =>
        logging (script.name ++ " construct_inferred") (work.constructInferred resolver) }

end ConstructorScript

end AccessPolicy
