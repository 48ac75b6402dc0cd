import AccessPolicy.Error
import AccessPolicy.Text.Blank

namespace AccessPolicy

/-- When the references of a document are resolved: at the first evaluation of each of them, or all
of them during construction. -/
inductive ResolutionMode where
  | lazy
  | eager
deriving DecidableEq

namespace ResolutionMode

def name : ResolutionMode → String
  | lazy => "lazy"
  | eager => "eager"

def table : List (String × ResolutionMode) :=
  [lazy, eager].map fun m => (m.name, m)

/-- Reads a mode without regard to case and to blanks around it. -/
def parse (s : String) : Except ConfigurationError ResolutionMode :=
  let word := (Text.trim s).map Char.toLower
  match table.lookup word with
  | some m => .ok m
  | none => .error (.invalid "resolution" ("expected lazy or eager, got " ++ Text.quoted word))

end ResolutionMode

/-- Which constructor is used, when references are resolved and how large a document may be. -/
structure FactoryConfig where
  constructor : String
  resolution : ResolutionMode
  maxDocumentBytes : UInt64
deriving DecidableEq

/-- The name of the constructor that every factory knows. -/
def standardName : String := "standard"

/-- The settings that may be overridden. -/
inductive Setting where
  | constructor
  | resolution
  | maxDocumentBytes
deriving DecidableEq

namespace Setting

def all : List Setting := [constructor, resolution, maxDocumentBytes]

/-- The name of the setting in a configuration file. -/
def field : Setting → String
  | constructor => "constructor"
  | resolution => "resolution"
  | maxDocumentBytes => "max_document_bytes"

/-- The variable of the environment that overrides the setting. -/
def variableName : Setting → String
  | constructor => "XACML_FACTORY_CONSTRUCTOR"
  | resolution => "XACML_FACTORY_RESOLUTION"
  | maxDocumentBytes => "XACML_FACTORY_MAX_DOCUMENT_BYTES"

def ofField? (name : String) : Option Setting :=
  all.find? fun s => s.field = name

def ofVariable? (name : String) : Option Setting :=
  all.find? fun s => s.variableName = name

end Setting

namespace FactoryConfig

/-- Lazy resolution by the standard constructor, and documents of at most ten mebibytes. -/
def default : FactoryConfig := ⟨standardName, .lazy, 10 * 1024 * 1024⟩

def validate (c : FactoryConfig) : Except ConfigurationError Unit :=
  if Text.blank c.constructor then .error (.invalid "constructor" "must not be empty")
  else if c.maxDocumentBytes = 0 then .error (.invalid "max_document_bytes" "must be positive")
  else .ok ()

def parseByteCount (s : String) : Except ConfigurationError UInt64 :=
  match Text.signedWord? (Text.trim s).toList with
  | some n => .ok n
  | none =>
    .error (.invalid "max_document_bytes" ("expected a byte count, got " ++ Text.quoted s))

/-- Sets one setting from the text of a variable. -/
def set (c : FactoryConfig) (setting : Setting) (s : String) :
    Except ConfigurationError FactoryConfig :=
  match setting with
  | .constructor => .ok { c with constructor := Text.trim s }
  | .resolution => (ResolutionMode.parse s).map fun m => { c with resolution := m }
  | .maxDocumentBytes => (parseByteCount s).map fun n => { c with maxDocumentBytes := n }

/-- Applies the value of a variable. A variable that overrides no setting is ignored. -/
def override (c : FactoryConfig) (assignment : String × String) :
    Except ConfigurationError FactoryConfig :=
  match Setting.ofVariable? assignment.1 with
  | some setting => c.set setting assignment.2
  | none => .ok c

/-- Applies the values of variables in order and checks what comes of it. -/
def withOverrides (c : FactoryConfig) (assignments : List (String × String)) :
    Except ConfigurationError FactoryConfig := do
  let c ← assignments.foldlM override c
  c.validate
  return c

end FactoryConfig

end AccessPolicy
