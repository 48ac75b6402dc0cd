import AccessPolicy.Json.Basic
import AccessPolicy.Json.Text

namespace AccessPolicy.Json

def boolChars (b : Bool) : List Char :=
  if b then ['t', 'r', 'u', 'e'] else ['f', 'a', 'l', 's', 'e']

mutual

/-- The text of a value, written compactly: no spaces, and members in the order in which they are
held. -/
def Value.chars : Value → List Char
  | .null => ['n', 'u', 'l', 'l']
  | .bool b => boolChars b
  | .number n => n.chars
  | .string s => stringChars s
  | .array [] => ['[', ']']
  | .array (v :: vs) => '[' :: v.chars ++ itemChars vs
  | .object [] => ['\x7b', '\x7d']
  | .object ((key, v) :: ms) => '\x7b' :: stringChars key ++ ':' :: v.chars ++ memberChars ms

/-- The items after the first, and the end of the array. -/
def Value.itemChars : List Value → List Char
  | [] => [']']
  | v :: vs => ',' :: v.chars ++ itemChars vs

/-- The members after the first, and the end of the object. -/
def Value.memberChars : List (String × Value) → List Char
  | [] => ['\x7d']
  | (key, v) :: ms => ',' :: stringChars key ++ ':' :: v.chars ++ memberChars ms

end

def appendChars (out : String) (cs : List Char) : String :=
  cs.foldl String.push out

mutual

/-- Appends the text of a value to `out`. -/
def Value.appendTo (out : String) : Value → String
  | .null => appendChars out ['n', 'u', 'l', 'l']
  | .bool b => appendChars out (boolChars b)
  | .number n => appendChars out n.chars
  | .string s => appendChars out (stringChars s)
  | .array [] => appendChars out ['[', ']']
  | .array (v :: vs) => appendItems (v.appendTo (out.push '[')) vs
  | .object [] => appendChars out ['\x7b', '\x7d']
  | .object ((key, v) :: ms) =>
    appendMembers (v.appendTo ((appendChars (out.push '\x7b') (stringChars key)).push ':')) ms

def Value.appendItems (out : String) : List Value → String
  | [] => out.push ']'
  | v :: vs => appendItems (v.appendTo (out.push ',')) vs

def Value.appendMembers (out : String) : List (String × Value) → String
  | [] => out.push '\x7d'
  | (key, v) :: ms =>
    appendMembers (v.appendTo ((appendChars (out.push ',') (stringChars key)).push ':')) ms

end

def Value.text (v : Value) : String :=
  v.appendTo ""

theorem toList_appendChars (out : String) (cs : List Char) :
    (appendChars out cs).toList = out.toList ++ cs := by
  induction cs generalizing out with
  | nil => simp [appendChars]
  | cons c cs ih => simpa [appendChars, String.toList_push] using ih (out.push c)

mutual

theorem Value.toList_appendTo (out : String) : (v : Value) →
    (v.appendTo out).toList = out.toList ++ v.chars
  | .null => by simp [appendTo, chars, toList_appendChars]
  | .bool _ => by simp [appendTo, chars, toList_appendChars]
  | .number _ => by simp [appendTo, chars, toList_appendChars]
  | .string _ => by simp [appendTo, chars, toList_appendChars]
  | .array [] => by simp [appendTo, chars, toList_appendChars]
  | .array (v :: vs) => by
    simp [appendTo, chars, toList_appendItems _ vs, toList_appendTo _ v, String.toList_push]
  | .object [] => by simp [appendTo, chars, toList_appendChars]
  | .object ((key, v) :: ms) => by
    simp [appendTo, chars, toList_appendMembers _ ms, toList_appendTo _ v, toList_appendChars,
      String.toList_push]

theorem Value.toList_appendItems (out : String) : (vs : List Value) →
    (appendItems out vs).toList = out.toList ++ itemChars vs
  | [] => by simp [appendItems, itemChars, String.toList_push]
  | v :: vs => by
    simp [appendItems, itemChars, toList_appendItems _ vs, toList_appendTo _ v, String.toList_push]

theorem Value.toList_appendMembers (out : String) : (ms : List (String × Value)) →
    (appendMembers out ms).toList = out.toList ++ memberChars ms
  | [] => by simp [appendMembers, memberChars, String.toList_push]
  | (key, v) :: ms => by
    simp [appendMembers, memberChars, toList_appendMembers _ ms, toList_appendTo _ v,
      toList_appendChars, String.toList_push]

end

theorem Value.toList_text (v : Value) : v.text.toList = v.chars := by
  simp [text, toList_appendTo]

end AccessPolicy.Json
