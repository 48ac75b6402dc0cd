import AccessPolicy.Version.Pattern
import AccessPolicy.Json.Decode

namespace AccessPolicy

open Json

namespace Version

def layout : Layout := ⟨"PolicyVersion", ["components"]⟩

def encode (v : Version) : Value :=
  .object [("components", .array (v.components.map fun n => .number (.natural n)))]

def decode (v : Value) : Except DecodeError Version :=
  layout.finish .standing v (Version.mk <$> layout.required v "components" (list word))

end Version

namespace PatternPart

def encode : PatternPart → Value
  | exact n => .object [("Exact", .number (.natural n))]
  | anyOne => .string "AnyOne"
  | anyRest => .string "AnyRest"

/-- The alternatives by name; the one that needs a number has no part yet. -/
def table : List (String × Option PatternPart) :=
  [("Exact", none), ("AnyOne", some anyOne), ("AnyRest", some anyRest)]

def decode : Value → Except DecodeError PatternPart
  | .string name =>
    (pick table name).bind fun
      | some part => .ok part
      | none => .error (.invalidType .unitVariant "newtype variant")
  | .object [(name, payload)] =>
    (pick table name).bind fun
      | none => (word payload).map exact
      | some part =>
        match payload with
        | .null => .ok part
        | v => .error (.invalidType v.shape "unit")
  | .object _ => .error singleKey
  | v => .error (.invalidType v.shape "string or map")

end PatternPart

namespace VersionPattern

def layout : Layout := ⟨"VersionMatch", ["source", "parts"]⟩

def encode (p : VersionPattern) : Value :=
  .object [("source", .string p.source), ("parts", .array (p.parts.map PatternPart.encode))]

def decode (v : Value) : Except DecodeError VersionPattern :=
  layout.finish .standing v
    (VersionPattern.mk <$> layout.required v "source" string <*>
      layout.required v "parts" (list PatternPart.decode))

end VersionPattern

end AccessPolicy
