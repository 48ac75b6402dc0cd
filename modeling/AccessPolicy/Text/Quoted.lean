import AccessPolicy.Text.Unprintable

namespace AccessPolicy.Text

/-- One character inside quotes. -/
def quotedChar (c : Char) : List Char :=
  match c with
  | '"' => ['\\', '"']
  | '\\' => ['\\', '\\']
  | '\n' => ['\\', 'n']
  | '\r' => ['\\', 'r']
  | '\t' => ['\\', 't']
  | '\x00' => ['\\', '0']
  | c =>
    if isUnprintable c then '\\' :: 'u' :: '\x7b' :: Nat.toDigits 16 c.toNat ++ ['\x7d'] else [c]

/-- A text as it is shown in messages: between double quotes, on one line, and with unprintable
characters written by number. -/
def quoted (s : String) : String :=
  String.ofList ('"' :: s.toList.flatMap quotedChar ++ ['"'])

example :
    quoted "a\"\t\x00\u200b\u3164\uff9eé'" =
      "\"a\\\"\\t\\0\\u\x7b200b\x7d\\u\x7b3164\x7d\uff9eé'\"" := by
  decide +kernel

end AccessPolicy.Text
