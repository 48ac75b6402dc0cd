import AccessPolicy.CommandLine.Arguments
import AccessPolicy.Document.Basic
import AccessPolicy.Error

namespace AccessPolicy.CommandLine

/-- What can go wrong in a command, with what it was about. -/
inductive CommandError where
  | configuration (e : ConfigurationError)
  | factory (e : FactoryError)
  | opening (path : String) (e : IoError)
  | constructing (path : String) (e : ConstructionError)
  | marshalling (id : String) (e : MarshalError)
  | writing (path : String) (e : IoError)
  | listing (directory : String) (e : IoError)
  | storing (e : ResolutionError)
  | readingVersion (label : String) (e : VersionError)
  | unresolved (count total : Nat)

/-- The texts of an error, from what was being done down to the first cause. -/
def CommandError.causes : CommandError → List String
  | configuration e => ["loading factory configuration", e.message]
  | factory e => [e.message]
  | opening path e => ["opening " ++ path, e.message]
  | constructing path e => ("constructing " ++ path) :: e.causes
  | marshalling id e => ["marshalling " ++ id, e.message]
  | writing path e => ["writing " ++ path, e.message]
  | listing directory e => ["reading " ++ directory, e.message]
  | storing e => e.causes
  | readingVersion label e => ["parsing version of " ++ label, e.message]
  | unresolved count total =>
    [toString count ++ " of " ++ toString total ++ " references unresolved"]

/-- What a reference turned out to mean. -/
inductive Finding where
  | resolved (id version : String)
  | mismatch (id : String) (actual : ArtifactKind)
  | missing (e : ResolutionError)
deriving DecidableEq

def Finding.isResolved : Finding → Bool
  | resolved _ _ => true
  | _ => false

/-- A reference as it is shown. -/
def label (r : Reference) : String :=
  r.kind.referenceKind.localName ++ " " ++ r.target.value ++
    match r.target.version with
    | none => ""
    | some v => " (version " ++ v ++ ")"

def reportLine (r : Reference) : Finding → String
  | .resolved id version => "ok       " ++ label r ++ " -> " ++ id ++ " " ++ version
  | .mismatch id actual => "mismatch " ++ label r ++ " -> " ++ id ++ " is a " ++ actual.name
  | .missing e => "missing  " ++ label r ++ ": " ++ e.message

/-- The findings on references in document order. -/
structure Report where
  findings : List (Reference × Finding)
deriving DecidableEq

namespace Report

def lines (r : Report) : List String :=
  r.findings.map fun f => reportLine f.1 f.2

def unresolved (r : Report) : Nat :=
  r.findings.countP fun f => !f.2.isResolved

end Report

/-- What a command does: it prints, may write one file, and may fail. -/
structure Outcome where
  printed : List UInt8
  saved : Option (String × List UInt8)
  failure : Option CommandError

end AccessPolicy.CommandLine
