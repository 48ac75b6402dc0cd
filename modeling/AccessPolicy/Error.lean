import AccessPolicy.Capability
import AccessPolicy.Grammar.Defect
import AccessPolicy.Json.Printer
import AccessPolicy.Version.Pattern

namespace AccessPolicy

/-- Failures of reading and writing. -/
inductive IoError where
  | notFound
  | notADirectory
  | isADirectory
  | nameTooLong
  | invalidUtf8
  | writeZero
  | other (text : String)
deriving DecidableEq

def IoError.message : IoError → String
  | notFound => "No such file or directory (os error 2)"
  | notADirectory => "Not a directory (os error 20)"
  | isADirectory => "Is a directory (os error 21)"
  | nameTooLong => "File name too long (os error 36)"
  | invalidUtf8 => "stream did not contain valid UTF-8"
  | writeZero => "failed to write whole buffer"
  | other text => text

/-- Why a text does not give a value of the type that is read from it. -/
inductive ReadError where
  /-- The text is not JSON. -/
  | malformed
  | undecodable (e : Json.DecodeError)

def ReadError.message : ReadError → String
  | malformed => "syntax error"
  | undecodable e => e.message

inductive MarshalError where
  | incomplete (d : Defect)
  | io (e : IoError)
deriving DecidableEq

def MarshalError.message : MarshalError → String
  | incomplete d => d.message
  | io e => "Failed to write document: " ++ e.message

inductive ResolutionError where
  | noResolver (id : String)
  | notFound (id : String) (pattern : Option String)
  | kindMismatch (id : String) (expected actual : ArtifactKind)
  | invalidVersion (e : VersionError)
  | circular (id : String)
  | tooDeep (id : String) (limit : Nat)
deriving DecidableEq

namespace ResolutionError

def message : ResolutionError → String
  | noResolver id => "No resolver available for reference " ++ id
  | notFound id none => "Referenced policy not found: " ++ id
  | notFound id (some p) => "Referenced policy not found: " ++ id ++ " (version " ++ p ++ ")"
  | kindMismatch id expected actual =>
    "Reference " ++ id ++ " expected a " ++ expected.name ++ ", resolved a " ++ actual.name
  | invalidVersion e => "Invalid version on reference: " ++ e.message
  | circular id => "Circular policy reference through " ++ id
  | tooDeep id limit =>
    "Reference chain through " ++ id ++ " exceeds " ++ toString limit ++ " artifacts"

/-- The texts from an error down to what lies behind it. -/
def causes (e : ResolutionError) : List String :=
  match e with
  | invalidVersion v => [e.message, v.message]
  | e => [e.message]

end ResolutionError

/-- What keeps a well-formed JSON document from being a policy document. -/
inductive SchemaFault where
  | unexpectedNamespace (found : Json.Value)
  | noNamespace
  | noRoot
  | severalRoots
  | notARoot (element : String)
  | unknownElement (name : String)
  | incomplete (d : Defect)
  | invalidVersion (id : String) (e : VersionError)

def SchemaFault.message : SchemaFault → String
  | unexpectedNamespace found => "unexpected namespace " ++ found.text
  | noNamespace => "document has no xmlns"
  | noRoot => "document has no root element"
  | severalRoots => "document has more than one root element"
  | notARoot element => element ++ " cannot be a document root"
  | unknownElement name => "unknown element " ++ name
  | incomplete d => d.message
  | invalidVersion id e => id ++ " has an invalid Version: " ++ e.message

inductive ConstructionError where
  | io (e : IoError)
  | malformed (e : ReadError)
  | schema (f : SchemaFault)
  | kindMismatch (expected actual : ArtifactKind)
  | tooLarge (limit : UInt64)
  | unsupported (constructor : String) (capability : Capability)
  | resolution (e : ResolutionError)
  | marshal (e : MarshalError)

namespace ConstructionError

def message : ConstructionError → String
  | io e => "Failed to read policy document: " ++ e.message
  | malformed e => "Malformed policy document: " ++ e.message
  | schema f => "Schema violation: " ++ f.message
  | kindMismatch expected actual =>
    "Expected a " ++ expected.name ++ " document, found root element " ++ actual.name
  | tooLarge limit => "Policy document exceeds limit of " ++ Text.numeral limit ++ " bytes"
  | unsupported constructor capability =>
    "Constructor " ++ constructor ++ " does not support " ++ capability.display
  | resolution e => "Reference resolution failed during construction: " ++ e.message
  | marshal e => "Failed to marshal node graph: " ++ e.message

/-- The texts from an error down to what lies behind it. -/
def causes (e : ConstructionError) : List String :=
  match e with
  | io i => [e.message, i.message]
  | malformed r => [e.message, r.message]
  | resolution r => e.message :: r.causes
  | marshal m => [e.message, m.message]
  | e => [e.message]

end ConstructionError

inductive ConfigurationError where
  | missingCapabilities (constructor : String) (missing : List Capability)
  | alreadyRegistered (name : String)
  | invalid (field reason : String)
deriving DecidableEq

def ConfigurationError.message : ConfigurationError → String
  | missingCapabilities constructor missing =>
    "Constructor " ++ constructor ++ " is missing capabilities: " ++
      ", ".intercalate (missing.map Capability.display)
  | alreadyRegistered name => "Constructor already registered: " ++ name
  | invalid field reason => "Invalid configuration for " ++ field ++ ": " ++ reason

/-- No constructor is registered under the name. -/
structure LoadError where
  name : String
deriving DecidableEq

def LoadError.message (e : LoadError) : String :=
  "No policy constructor registered under " ++ Text.quoted e.name

inductive EvaluationError where
  | resolution (e : ResolutionError)
  | engine (text : String)
deriving DecidableEq

def EvaluationError.message : EvaluationError → String
  | resolution e => e.message
  | engine text => "Evaluation failed: " ++ text

/-- What can go wrong when a factory is set up or its constructor is changed. -/
inductive FactoryError where
  | configuration (e : ConfigurationError)
  | load (e : LoadError)
deriving DecidableEq

def FactoryError.message : FactoryError → String
  | configuration e => e.message
  | load e => e.message

end AccessPolicy
