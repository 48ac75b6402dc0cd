import AccessPolicy.Json.Number
import AccessPolicy.Json.Text

namespace AccessPolicy.Json

inductive Token where
  | openObject
  | closeObject
  | openArray
  | closeArray
  | colon
  | comma
  | null
  | bool (b : Bool)
  | number (n : Number)
  | string (s : String)
  | stray

def isSpace (c : Char) : Bool :=
  c = ' ' || c = '\t' || c = '\n' || c = '\r'

/-- Cuts `word` off the front. -/
def dropWord : List Char → List Char → Option (List Char)
  | [], cs => some cs
  | w :: ws, c :: cs => if w = c then dropWord ws cs else none
  | _ :: _, [] => none

/-- The token that begins with `c`, and what follows it. -/
def Token.cut (c : Char) (rest : List Char) : Option (Token × List Char) :=
  match c with
  | '\x7b' => some (openObject, rest)
  | '\x7d' => some (closeObject, rest)
  | '[' => some (openArray, rest)
  | ']' => some (closeArray, rest)
  | ':' => some (colon, rest)
  | ',' => some (comma, rest)
  | '"' => (readString [] rest).map fun (s, rest) => (string s, rest)
  | 'n' => (dropWord ['u', 'l', 'l'] rest).map fun rest => (null, rest)
  | 't' => (dropWord ['r', 'u', 'e'] rest).map fun rest => (bool true, rest)
  | 'f' => (dropWord ['a', 'l', 's', 'e'] rest).map fun rest => (bool false, rest)
  | c => (Number.read (c :: rest)).map fun (n, rest) => (number n, rest)

theorem length_le_of_dropWord {word cs rest : List Char} (h : dropWord word cs = some rest) :
    rest.length ≤ cs.length := by
  fun_induction dropWord word cs <;> grind

theorem Token.length_le_of_cut {c : Char} {cs rest : List Char} {t : Token}
    (h : cut c cs = some (t, rest)) : rest.length ≤ cs.length := by
  unfold cut at h
  split at h
  case h_7 =>
    obtain ⟨_, hread, heq⟩ := Option.map_eq_some_iff.1 h
    cases heq
    exact length_le_of_readString hread
  case h_8 | h_9 | h_10 =>
    obtain ⟨_, hdrop, heq⟩ := Option.map_eq_some_iff.1 h
    cases heq
    exact length_le_of_dropWord hdrop
  case h_11 =>
    obtain ⟨_, hread, heq⟩ := Option.map_eq_some_iff.1 h
    cases heq
    exact Nat.le_of_lt_succ (Number.length_lt_of_read hread)
  all_goals cases h; exact Nat.le_refl _

/-- Cuts a text into tokens after those in `done`, which are held latest first. -/
def scanOnto (done : List Token) : List Char → List Token
  | [] => done.reverse
  | c :: cs =>
    if isSpace c then scanOnto done cs
    else
      match _h : Token.cut c cs with
      | none => (.stray :: done).reverse
      | some (t, rest) => scanOnto (t :: done) rest
termination_by cs => cs.length
decreasing_by
  · exact Nat.lt_succ_self _
  · exact Nat.lt_succ_of_le (Token.length_le_of_cut _h)

/-- The tokens of a text. One that cannot be cut further ends in the token `stray`, so that a reader
meets the fault only when it gets that far. -/
def scan (cs : List Char) : List Token :=
  scanOnto [] cs

theorem scanOnto_eq_append (done : List Token) (cs : List Char) :
    scanOnto done cs = done.reverse ++ scan cs := by
  have hgeneral : ∀ (more done : List Token) (cs : List Char),
      scanOnto (more ++ done) cs = done.reverse ++ scanOnto more cs := by
    intro more done cs
    fun_induction scanOnto more cs with
    | case1 => simp [scanOnto]
    | case2 more c cs hspace ih => rw [scanOnto, if_pos hspace, ih]
    | case3 more c cs hspace hcut => rw [scanOnto, if_neg hspace]; split <;> simp_all
    | case4 more c cs hspace t rest hcut ih =>
      rw [scanOnto, if_neg hspace]
      split
      · simp_all
      · next heq =>
        rw [heq] at hcut
        cases hcut
        exact ih
  simpa [scan] using hgeneral [] done cs

end AccessPolicy.Json
