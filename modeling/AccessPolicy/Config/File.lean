import AccessPolicy.Config.Codec
import AccessPolicy.Json.Reader
import AccessPolicy.Text.Utf8

namespace AccessPolicy

open Json

namespace ConfigReader

/-- The settings met so far. -/
structure Draft where
  constructor : Option String
  resolution : Option ResolutionMode
  maxDocumentBytes : Option UInt64

namespace Draft

def empty : Draft := ⟨none, none, none⟩

def has (d : Draft) : Setting → Bool
  | .constructor => d.constructor.isSome
  | .resolution => d.resolution.isSome
  | .maxDocumentBytes => d.maxDocumentBytes.isSome

def toConfig (d : Draft) : FactoryConfig where
  constructor := d.constructor.getD FactoryConfig.default.constructor
  resolution := d.resolution.getD FactoryConfig.default.resolution
  maxDocumentBytes := d.maxDocumentBytes.getD FactoryConfig.default.maxDocumentBytes

end Draft

/-- Where the value of a setting stands: in a member of an object, or in an array. -/
inductive Form where
  | object
  | array

/-- What may come next. -/
inductive Stage where
  | start
  /-- A key, or the end of an object in which `closable` holds. -/
  | key (closable : Bool)
  | colon (s : Setting)
  | firstItem
  | value (form : Form) (s : Setting)
  /-- The name of a mode that is written as an object with one member. -/
  | modeName (form : Form)
  | modeColon (form : Form) (m : ResolutionMode)
  | modePayload (form : Form) (m : ResolutionMode)
  | modeEnd (form : Form) (m : ResolutionMode)
  | afterMember
  /-- What follows the item for a setting. -/
  | afterItem (s : Setting)
  | done

structure State where
  draft : Draft
  stage : Stage

def start : State := ⟨.empty, .start⟩

/-- The setting whose item follows that of `s` in an array. -/
def next? : Setting → Option Setting
  | .constructor => some .resolution
  | .resolution => some .maxDocumentBytes
  | .maxDocumentBytes => none

def after : Form → Setting → Stage
  | .object, _ => .afterMember
  | .array, s => .afterItem s

/-- Reads the value that the token begins, unless the token begins no value. -/
def leaf (decode : Decoder α) (t : Token) : Except ReadError α :=
  match t.beginning? with
  | none => .error .malformed
  | some v =>
    match decode v with
    | .ok a => .ok a
    | .error e => .error (.undecodable e)

def invalidType (expected : String) (t : Token) : Except ReadError α :=
  leaf (fun v => .error (.invalidType v.shape expected)) t

def modeNamed (name : String) : Except ReadError ResolutionMode :=
  match pick ResolutionMode.table name with
  | .ok m => .ok m
  | .error e => .error (.undecodable e)

def key (d : Draft) (name : String) : Except ReadError State :=
  match Setting.ofField? name with
  | none => .error (.undecodable (.unknownField name FactoryConfig.fields))
  | some s =>
    if d.has s then .error (.undecodable (.duplicateField name)) else .ok ⟨d, .colon s⟩

def value (d : Draft) (form : Form) (s : Setting) (t : Token) : Except ReadError State :=
  match s, t with
  | .constructor, t =>
    (leaf Json.string t).map fun text => ⟨{ d with constructor := some text }, after form s⟩
  | .maxDocumentBytes, t =>
    (leaf Json.word t).map fun n => ⟨{ d with maxDocumentBytes := some n }, after form s⟩
  | .resolution, .string name =>
    (modeNamed name).map fun m => ⟨{ d with resolution := some m }, after form s⟩
  | .resolution, .openObject => .ok ⟨d, .modeName form⟩
  | .resolution, _ => .error .malformed

def step (state : State) (t : Token) : Except ReadError State :=
  let d := state.draft
  match state.stage, t with
  | .start, .openObject => .ok ⟨d, .key true⟩
  | .start, .openArray => .ok ⟨d, .firstItem⟩
  | .start, t => invalidType FactoryConfig.layout.expectation t
  | .key _, .string name => key d name
  | .key true, .closeObject => .ok ⟨d, .done⟩
  | .colon s, .colon => .ok ⟨d, .value .object s⟩
  | .firstItem, .closeArray => .ok ⟨d, .done⟩
  | .firstItem, t => value d .array .constructor t
  | .value form s, t => value d form s t
  | .modeName form, .string name => (modeNamed name).map fun m => ⟨d, .modeColon form m⟩
  | .modeColon form m, .colon => .ok ⟨d, .modePayload form m⟩
  | .modePayload form m, .null => .ok ⟨d, .modeEnd form m⟩
  | .modePayload _ _, t => invalidType "unit" t
  | .modeEnd form m, .closeObject =>
    .ok ⟨{ d with resolution := some m }, after form .resolution⟩
  | .afterMember, .comma => .ok ⟨d, .key false⟩
  | .afterMember, .closeObject => .ok ⟨d, .done⟩
  | .afterItem _, .closeArray => .ok ⟨d, .done⟩
  | .afterItem s, .comma =>
    match next? s with
    | some s => .ok ⟨d, .value .array s⟩
    | none => .error .malformed
  | _, _ => .error .malformed

def finish (state : State) : Except ReadError FactoryConfig :=
  match state.stage with
  | .done => .ok state.draft.toConfig
  | _ => .error .malformed

/-- Reads the text of a configuration token by token. A setting is checked as soon as it is met, so
the fault that comes first in the text is the one reported. -/
def read (cs : List Char) : Except ReadError FactoryConfig :=
  ((scan cs).foldlM step start).bind finish

end ConfigReader

namespace FactoryConfig

def unreadable (path reason : String) : ConfigurationError :=
  .invalid "config file" (path ++ ": " ++ reason)

/-- The configuration in a file with the contents `content`, or what kept the file from being
read. -/
def ofFile (path : String) (content : Except IoError (List UInt8)) :
    Except ConfigurationError FactoryConfig :=
  match content with
  | .error e => .error (unreadable path e.message)
  | .ok bytes =>
    match Text.Utf8.decode bytes with
    | (_, _ :: _) => .error (unreadable path IoError.invalidUtf8.message)
    | (cs, []) =>
      match ConfigReader.read cs with
      | .error e => .error (unreadable path e.message)
      | .ok c => c.validate.map fun _ => c

/-- The overrides in an environment. -/
def overridesOf (environment : List (String × String)) : List (String × String) :=
  Setting.all.filterMap fun s =>
    (environment.lookup s.variableName).map fun value => (s.variableName, value)

/-- The defaults, or the file if there is one, and then the environment. -/
def load (file : Option (String × Except IoError (List UInt8)))
    (environment : List (String × String)) : Except ConfigurationError FactoryConfig := do
  let base ← match file with
    | none => .ok default
    | some (path, content) => ofFile path content
  base.withOverrides (overridesOf environment)

end FactoryConfig

end AccessPolicy
