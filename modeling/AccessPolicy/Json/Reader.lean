import AccessPolicy.Json.Basic
import AccessPolicy.Json.Token

namespace AccessPolicy.Json

/-- A value of the kind that begins with the token, as far as the token tells. -/
def Token.beginning? : Token → Option Value
  | null => some .null
  | bool b => some (.bool b)
  | number n => some (.number n)
  | string s => some (.string s)
  | openArray => some (.array [])
  | openObject => some (.object [])
  | _ => none

/-- An open array or object that waits for a value. What it holds so far is kept latest first. -/
inductive Frame where
  | array (items : List Value)
  | object (members : List (String × Value)) (key : String)

/-- What may come next. -/
inductive Stage where
  | value
  | firstItem
  /-- A key, or the end of an object in which `closable` holds. -/
  | key (members : List (String × Value)) (closable : Bool)
  | colon (members : List (String × Value)) (key : String)
  | nextItem (items : List Value)
  | nextMember (members : List (String × Value))
  | done (v : Value)

/-- The arrays and objects that are still open, the innermost first, and what may come next. -/
structure Reader where
  frames : List Frame
  stage : Stage

namespace Reader

/-- Most arrays and objects that a text may open one inside the other. -/
def maxDepth : Nat := 127

def start : Reader := ⟨[], .value⟩

/-- Hands a finished value to the innermost open frame. -/
def deliver (v : Value) : List Frame → Reader
  | [] => ⟨[], .done v⟩
  | .array items :: outer => ⟨outer, .nextItem (v :: items)⟩
  | .object members key :: outer => ⟨outer, .nextMember ((key, v) :: members)⟩

/-- Takes the first token of a value. -/
def beginValue (limit : Nat) (frames : List Frame) : Token → Option Reader
  | .null => some (deliver .null frames)
  | .bool b => some (deliver (.bool b) frames)
  | .number n => some (deliver (.number n) frames)
  | .string s => some (deliver (.string s) frames)
  | .openArray => if frames.length < limit then some ⟨frames, .firstItem⟩ else none
  | .openObject => if frames.length < limit then some ⟨frames, .key [] true⟩ else none
  | _ => none

def step (limit : Nat) (r : Reader) (t : Token) : Option Reader :=
  match r.stage, t with
  | .value, t => beginValue limit r.frames t
  | .firstItem, .closeArray => some (deliver (.array []) r.frames)
  | .firstItem, t => beginValue limit (.array [] :: r.frames) t
  | .key members _, .string key => some ⟨r.frames, .colon members key⟩
  | .key members true, .closeObject => some (deliver (.object (sortMembers members)) r.frames)
  | .colon members key, .colon => some ⟨.object members key :: r.frames, .value⟩
  | .nextItem items, .comma => some ⟨.array items :: r.frames, .value⟩
  | .nextItem items, .closeArray => some (deliver (.array items.reverse) r.frames)
  | .nextMember members, .comma => some ⟨r.frames, .key members false⟩
  | .nextMember members, .closeObject => some (deliver (.object (sortMembers members)) r.frames)
  | _, _ => none

def run (limit : Nat) (r : Reader) (tokens : List Token) : Option Reader :=
  tokens.foldlM (step limit) r

def value? (r : Reader) : Option Value :=
  match r.frames, r.stage with
  | [], .done v => some v
  | _, _ => none

end Reader

/-- Reads a text that is one value, with at most `limit` open arrays and objects at a time. -/
def readWithin (limit : Nat) (cs : List Char) : Option Value :=
  (Reader.run limit Reader.start (scan cs)).bind Reader.value?

def read (cs : List Char) : Option Value :=
  readWithin Reader.maxDepth cs

end AccessPolicy.Json
