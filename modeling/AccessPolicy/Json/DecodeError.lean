import AccessPolicy.Json.Basic
import AccessPolicy.Text.Quoted

namespace AccessPolicy.Json

/-- What was found, as far as a message tells it. -/
inductive Shape where
  | null
  | bool (b : Bool)
  | number (n : Number)
  | string (s : String)
  | sequence
  | map
  /-- The bare name of an alternative that needs a payload. -/
  | unitVariant

def Value.shape : Value → Shape
  | .null => .null
  | .bool b => .bool b
  | .number n => .number n
  | .string s => .string s
  | .array _ => .sequence
  | .object _ => .map

def tick (s : String) : String :=
  "`" ++ s ++ "`"

def Shape.describe : Shape → String
  | null => "null"
  | bool b => "boolean " ++ tick (if b then "true" else "false")
  | number (.real x) => "floating point " ++ tick (String.ofList (Number.realChars x))
  | number n => "integer " ++ tick (String.ofList n.chars)
  | string s => "string " ++ Text.quoted s
  | sequence => "sequence"
  | map => "map"
  | unitVariant => "unit variant"

/-- Why a JSON value does not stand for a value of some type. -/
inductive DecodeError where
  | invalidType (found : Shape) (expected : String)
  | invalidValue (found : Shape) (expected : String)
  | invalidLength (length : Nat) (expected : String)
  | missingField (name : String)
  | duplicateField (name : String)
  | unknownField (name : String) (known : List String)
  | unknownVariant (name : String) (known : List String)
  /-- No member of an object names an alternative of `choice`. -/
  | noVariant (choice : String)

/-- The names that would have been accepted. -/
def oneOf : List String → String
  | [] => "nothing"
  | [a] => tick a
  | [a, b] => tick a ++ " or " ++ tick b
  | names => "one of " ++ ", ".intercalate (names.map tick)

def DecodeError.message : DecodeError → String
  | invalidType found expected => "invalid type: " ++ found.describe ++ ", expected " ++ expected
  | invalidValue found expected => "invalid value: " ++ found.describe ++ ", expected " ++ expected
  | invalidLength length expected =>
    "invalid length " ++ toString length ++ ", expected " ++ expected
  | missingField name => "missing field " ++ tick name
  | duplicateField name => "duplicate field " ++ tick name
  | unknownField name known => "unknown field " ++ tick name ++ ", expected " ++ oneOf known
  | unknownVariant name known => "unknown variant " ++ tick name ++ ", expected " ++ oneOf known
  | noVariant choice => "no variant of enum " ++ choice ++ " found in flattened data"

end AccessPolicy.Json
