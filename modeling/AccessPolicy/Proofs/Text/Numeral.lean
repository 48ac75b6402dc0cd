import AccessPolicy.Text.Numeral
import Mathlib.Algebra.Group.Nat.Defs
import Mathlib.Logic.Basic

namespace AccessPolicy.Text

/-- The number that a run of decimal digits stands for. -/
def value (cs : List Char) : Nat :=
  Nat.ofDigitChars 10 cs 0

/-- One or more decimal digits, any number of zeros in front, whose value fits into a word. -/
structure IsNumeral (cs : List Char) : Prop where
  ne_nil : cs ≠ []
  digits : ∀ c ∈ cs, c.isDigit
  fits : value cs ≤ 2 ^ 64 - 1

theorem value_lt_size_iff {cs : List Char} : value cs < UInt64.size ↔ value cs ≤ 2 ^ 64 - 1 := by
  rw [UInt64.size]
  omega

theorem word?_eq_some_iff {cs : List Char} {n : UInt64} :
    word? cs = some n ↔ IsNumeral cs ∧ value cs = n.toNat := by
  unfold word?
  by_cases hdigits : cs ≠ [] ∧ ∀ c ∈ cs, c.isDigit
  · have hread : (cs.isEmpty || !cs.all Char.isDigit) = false := by simpa using hdigits
    rw [hread, if_neg Bool.false_ne_true, wordOfDigits, valueBelow?_eq (by decide), ← value]
    by_cases hfits : value cs < UInt64.size
    · have hnumeral : IsNumeral cs := ⟨hdigits.1, hdigits.2, value_lt_size_iff.1 hfits⟩
      simp only [if_pos hfits, Option.map_some, Option.some.injEq, hnumeral, true_and]
      rw [← UInt64.toNat_inj, UInt64.toNat_ofNat_of_lt' hfits]
    · simp only [if_neg hfits, Option.map_none, reduceCtorEq, false_iff]
      rintro ⟨hnumeral, -⟩
      exact hfits (value_lt_size_iff.2 hnumeral.fits)
  · have hread : (cs.isEmpty || !cs.all Char.isDigit) = true := by
      rw [not_and_or, not_not] at hdigits
      simpa using hdigits
    rw [hread, if_pos rfl]
    simp only [reduceCtorEq, false_iff]
    rintro ⟨hnumeral, -⟩
    exact hdigits ⟨hnumeral.ne_nil, hnumeral.digits⟩

theorem word?_eq_none_iff {cs : List Char} : word? cs = none ↔ ¬IsNumeral cs := by
  constructor
  · intro h hnumeral
    have hsome : word? cs = some (UInt64.ofNat (value cs)) := word?_eq_some_iff.2
      ⟨hnumeral, (UInt64.toNat_ofNat_of_lt' (value_lt_size_iff.2 hnumeral.fits)).symm⟩
    cases h.symm.trans hsome
  · intro h
    cases hword : word? cs with
    | none => rfl
    | some n => exact absurd (word?_eq_some_iff.1 hword).1 h

theorem isNumeral_digits (n : UInt64) : IsNumeral (digits n) :=
  (word?_eq_some_iff.1 (word?_digits n)).1

/-- The numeral without the zeros in front that another character follows. -/
def trimZeros : List Char → List Char
  | '0' :: c :: cs => trimZeros (c :: cs)
  | cs => cs

theorem exists_digitChar_eq {c : Char} (h : c.isDigit) : ∃ d < 10, Nat.digitChar d = c := by
  simp only [Char.isDigit, Bool.and_eq_true, decide_eq_true_eq] at h
  have hlow : 48 ≤ c.toNat := h.1
  have hhigh : c.toNat ≤ 57 := h.2
  have hdigits : ∀ d < 10, Nat.digitChar d = Char.ofNat (48 + d) := by decide
  refine ⟨c.toNat - 48, by omega, ?_⟩
  rw [hdigits _ (by omega), Nat.add_sub_cancel' hlow, Char.ofNat_toNat]

/-- Digits behind a number that is not zero are the last digits of what they make of it. -/
theorem toDigits_ofDigitChars {cs : List Char} (h : ∀ c ∈ cs, c.isDigit) {n : Nat} (hn : 0 < n) :
    Nat.toDigits 10 (Nat.ofDigitChars 10 cs n) = Nat.toDigits 10 n ++ cs := by
  induction cs generalizing n with
  | nil => simp
  | cons c cs ih =>
    obtain ⟨hc, hcs⟩ := List.forall_mem_cons.1 h
    obtain ⟨d, hd, rfl⟩ := exists_digitChar_eq hc
    rw [Nat.ofDigitChars_cons_digitChar_of_lt_ten hd, ih hcs (by omega),
      ← Nat.toDigits_append_toDigits (by decide) hn hd, Nat.toDigits_of_lt_base hd,
      List.append_assoc, List.singleton_append]

/-- The value of a numeral is written without the zeros that are not needed. -/
theorem toDigits_value {cs : List Char} (hne : cs ≠ []) (h : ∀ c ∈ cs, c.isDigit) :
    Nat.toDigits 10 (value cs) = trimZeros cs := by
  fun_induction trimZeros cs with
  | case1 c cs ih =>
    rw [← ih (by simp) (List.forall_mem_cons.1 h).2]
    rfl
  | case2 cs hplain =>
    obtain ⟨c, rest, rfl⟩ := List.exists_cons_of_ne_nil hne
    obtain ⟨hc, hrest⟩ := List.forall_mem_cons.1 h
    obtain ⟨d, hd, rfl⟩ := exists_digitChar_eq hc
    rw [value, Nat.ofDigitChars_cons_digitChar_of_lt_ten hd]
    obtain rfl | hpos := Nat.eq_zero_or_pos d
    · cases rest with
      | nil => rfl
      | cons e rest => exact absurd rfl (hplain e rest)
    · rw [toDigits_ofDigitChars hrest (by omega), Nat.mul_zero, Nat.zero_add,
        Nat.toDigits_of_lt_base hd, List.singleton_append]

/-- The word that a numeral is read as is written as the numeral without the zeros in front that it
does not need. -/
theorem IsNumeral.digits_eq {cs : List Char} (h : IsNumeral cs) {n : UInt64}
    (hvalue : value cs = n.toNat) : Text.digits n = trimZeros cs := by
  rw [Text.digits, ← hvalue, toDigits_value h.ne_nil h.digits]

end AccessPolicy.Text
