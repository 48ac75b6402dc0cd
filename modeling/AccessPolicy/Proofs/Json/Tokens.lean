import AccessPolicy.Json.Printer
import AccessPolicy.Json.Token
import AccessPolicy.Proofs.Json.Text

namespace AccessPolicy.Json

/-- What may stand behind a value in a text without spaces. -/
def Delimits (rest : List Char) : Prop :=
  ∀ c ∈ rest.head?, c = ',' ∨ c = ']' ∨ c = '\x7d'

/-- A number whose digits are cut off as that number again. -/
def Number.Legible (n : Number) : Prop :=
  ∀ rest, Delimits rest →
    ∃ c cs, n.chars = c :: cs ∧ ¬ isSpace c ∧ Token.cut c (cs ++ rest) = some (.number n, rest)

mutual

/-- Whether every number in a value is legible. -/
def Value.Legible : Value → Prop
  | .number n => n.Legible
  | .array items => LegibleItems items
  | .object members => LegibleMembers members
  | _ => True

def Value.LegibleItems : List Value → Prop
  | [] => True
  | v :: vs => v.Legible ∧ LegibleItems vs

def Value.LegibleMembers : List (String × Value) → Prop
  | [] => True
  | (_, v) :: ms => v.Legible ∧ LegibleMembers ms

end

mutual

/-- The tokens of a value's text. -/
def Value.tokens : Value → List Token
  | .null => [.null]
  | .bool b => [.bool b]
  | .number n => [.number n]
  | .string s => [.string s]
  | .array [] => [.openArray, .closeArray]
  | .array (v :: vs) => .openArray :: v.tokens ++ itemTokens vs
  | .object [] => [.openObject, .closeObject]
  | .object ((key, v) :: ms) =>
    .openObject :: .string key :: .colon :: v.tokens ++ memberTokens ms

def Value.itemTokens : List Value → List Token
  | [] => [.closeArray]
  | v :: vs => .comma :: v.tokens ++ itemTokens vs

def Value.memberTokens : List (String × Value) → List Token
  | [] => [.closeObject]
  | (key, v) :: ms => .comma :: .string key :: .colon :: v.tokens ++ memberTokens ms

end

theorem scanOnto_cut {c : Char} {cs rest : List Char} {t : Token} (hspace : ¬ isSpace c)
    (hcut : Token.cut c cs = some (t, rest)) (done : List Token) :
    scanOnto done (c :: cs) = scanOnto (t :: done) rest := by
  rw [scanOnto, if_neg hspace]
  split
  · next heq => simp [hcut] at heq
  · next heq =>
    rw [hcut] at heq
    cases heq
    rfl

theorem scanOnto_stringChars (done : List Token) (s : String) (rest : List Char) :
    scanOnto done (stringChars s ++ rest) = scanOnto (.string s :: done) rest := by
  obtain ⟨cs, hchars, hread⟩ := readString_stringChars s rest
  rw [hchars, List.cons_append]
  exact scanOnto_cut (by decide) (by simp [Token.cut, hread]) done

theorem scanOnto_boolChars (done : List Token) (b : Bool) (rest : List Char) :
    scanOnto done (boolChars b ++ rest) = scanOnto (.bool b :: done) rest := by
  cases b <;> exact scanOnto_cut (by decide) (by simp [Token.cut, dropWord]) done

theorem delimits_itemChars (vs : List Value) (rest : List Char) :
    Delimits (Value.itemChars vs ++ rest) := by
  cases vs <;> simp [Delimits, Value.itemChars]

theorem delimits_memberChars (ms : List (String × Value)) (rest : List Char) :
    Delimits (Value.memberChars ms ++ rest) := by
  cases ms <;> simp [Delimits, Value.memberChars]

theorem scanOnto_mark {c : Char} {t : Token} (hspace : ¬ isSpace c)
    (hcut : ∀ rest, Token.cut c rest = some (t, rest)) (done : List Token) (rest : List Char) :
    scanOnto done (c :: rest) = scanOnto (t :: done) rest :=
  scanOnto_cut hspace (hcut rest) done

mutual

theorem Value.scanOnto_chars (done : List Token) (rest : List Char) : (v : Value) → v.Legible →
    Delimits rest → scanOnto done (v.chars ++ rest) = scanOnto (v.tokens.reverse ++ done) rest
  | .null, _, _ => by
    simpa [chars, tokens] using scanOnto_cut (by decide) (by simp [Token.cut, dropWord]) done
  | .bool b, _, _ => scanOnto_boolChars done b rest
  | .number n, hv, hrest => by
    simp only [Legible] at hv
    obtain ⟨c, cs, hchars, hspace, hcut⟩ := hv rest hrest
    simpa [chars, tokens, hchars] using scanOnto_cut hspace hcut done
  | .string s, _, _ => scanOnto_stringChars done s rest
  | .array [], _, _ => by
    simp only [chars, tokens, List.cons_append, List.nil_append]
    rw [scanOnto_mark (by decide) (fun _ => rfl), scanOnto_mark (by decide) (fun _ => rfl)]
    simp
  | .array (v :: vs), hv, hrest => by
    simp only [Legible, LegibleItems] at hv
    have hfirst := scanOnto_chars (.openArray :: done) (itemChars vs ++ rest) v hv.1
      (delimits_itemChars vs rest)
    simp only [chars, tokens, List.cons_append, List.append_assoc]
    rw [scanOnto_mark (by decide) (fun _ => rfl), hfirst, scanOnto_itemChars _ _ vs hv.2 hrest]
    simp
  | .object [], _, _ => by
    simp only [chars, tokens, List.cons_append, List.nil_append]
    rw [scanOnto_mark (by decide) (fun _ => rfl), scanOnto_mark (by decide) (fun _ => rfl)]
    simp
  | .object ((key, v) :: ms), hv, hrest => by
    simp only [Legible, LegibleMembers] at hv
    have hfirst := scanOnto_chars (.colon :: .string key :: .openObject :: done)
      (memberChars ms ++ rest) v hv.1 (delimits_memberChars ms rest)
    simp only [chars, tokens, List.cons_append, List.append_assoc]
    rw [scanOnto_mark (by decide) (fun _ => rfl), scanOnto_stringChars,
      scanOnto_mark (by decide) (fun _ => rfl), hfirst, scanOnto_memberChars _ _ ms hv.2 hrest]
    simp

theorem Value.scanOnto_itemChars (done : List Token) (rest : List Char) : (vs : List Value) →
    LegibleItems vs → Delimits rest →
    scanOnto done (itemChars vs ++ rest) = scanOnto ((itemTokens vs).reverse ++ done) rest
  | [], _, _ => scanOnto_mark (by decide) (fun _ => rfl) done rest
  | v :: vs, hvs, hrest => by
    simp only [LegibleItems] at hvs
    have hfirst := scanOnto_chars (.comma :: done) (itemChars vs ++ rest) v hvs.1
      (delimits_itemChars vs rest)
    simp only [itemChars, itemTokens, List.cons_append, List.append_assoc]
    rw [scanOnto_mark (by decide) (fun _ => rfl), hfirst, scanOnto_itemChars _ _ vs hvs.2 hrest]
    simp

theorem Value.scanOnto_memberChars (done : List Token) (rest : List Char) :
    (ms : List (String × Value)) → LegibleMembers ms → Delimits rest →
    scanOnto done (memberChars ms ++ rest) = scanOnto ((memberTokens ms).reverse ++ done) rest
  | [], _, _ => scanOnto_mark (by decide) (fun _ => rfl) done rest
  | (key, v) :: ms, hms, hrest => by
    simp only [LegibleMembers] at hms
    have hfirst := scanOnto_chars (.colon :: .string key :: .comma :: done)
      (memberChars ms ++ rest) v hms.1 (delimits_memberChars ms rest)
    simp only [memberChars, memberTokens, List.cons_append, List.append_assoc]
    rw [scanOnto_mark (by decide) (fun _ => rfl), scanOnto_stringChars,
      scanOnto_mark (by decide) (fun _ => rfl), hfirst, scanOnto_memberChars _ _ ms hms.2 hrest]
    simp

end

/-- The text of a legible value is cut into the value's tokens. -/
theorem Value.scan_chars {v : Value} (h : v.Legible) : scan v.chars = v.tokens := by
  have hscan := scanOnto_chars [] [] v h (by simp [Delimits])
  rw [List.append_nil] at hscan
  rw [scan, hscan, scanOnto]
  simp

end AccessPolicy.Json
