import AccessPolicy.Config.Basic
import AccessPolicy.Json.Decode

namespace AccessPolicy

open Json

namespace ResolutionMode

def encode (m : ResolutionMode) : Value :=
  .string m.name

def decode : Decoder ResolutionMode :=
  named table

end ResolutionMode

namespace FactoryConfig

def fields : List String := Setting.all.map Setting.field

def layout : Layout := ⟨"FactoryConfig", fields⟩

def encode (c : FactoryConfig) : Value :=
  .object [("constructor", .string c.constructor), ("resolution", c.resolution.encode),
    ("max_document_bytes", .number (.natural c.maxDocumentBytes))]

/-- The members that are no settings, each with the error that it is. -/
def strangers : Value → List (String × DecodeError)
  | .object members =>
    (members.filter fun m => !fields.contains m.1).map fun m => (m.1, .unknownField m.1 fields)
  | _ => []

/-- A setting that is left out has its default; a field that is no setting is refused. -/
def decode (v : Value) : Except DecodeError FactoryConfig :=
  let settings := FactoryConfig.mk <$>
    layout.defaulted v "constructor" default.constructor string <*>
    layout.defaulted v "resolution" default.resolution ResolutionMode.decode <*>
    layout.defaulted v "max_document_bytes" default.maxDocumentBytes word
  layout.finish .standing v { settings with faults := strangers v ++ settings.faults }

end FactoryConfig

end AccessPolicy
