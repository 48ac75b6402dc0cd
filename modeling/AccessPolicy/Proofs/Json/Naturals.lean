import AccessPolicy.Proofs.Json.Tokens
import AccessPolicy.Proofs.Text.Numeral

namespace AccessPolicy.Json.Number

open Text

theorem length_trimZeros_le (cs : List Char) : (trimZeros cs).length ≤ cs.length := by
  fun_induction trimZeros cs with
  | case1 c cs ih => exact Nat.le_succ_of_le ih
  | case2 cs hplain => exact Nat.le_refl _

/-- No zero is written in front of other digits. -/
theorem digits_ne_zero_cons (n : UInt64) (c : Char) (cs : List Char) :
    Text.digits n ≠ '0' :: c :: cs := by
  intro h
  have hword := (word?_eq_some_iff.1 (word?_digits n)).2
  have htrim := (isNumeral_digits n).digits_eq hword
  rw [h, trimZeros] at htrim
  have hlength := length_trimZeros_le (c :: cs)
  rw [← htrim] at hlength
  simp only [List.length_cons] at hlength
  omega

/-- Digits are absorbed as long as their value fits into a word. -/
theorem absorb_eq {cs : List Char} {n : Nat} (h : Nat.ofDigitChars 10 cs n < UInt64.size) :
    absorb n cs = (Nat.ofDigitChars 10 cs n, []) := by
  induction cs generalizing n with
  | nil => rfl
  | cons c cs ih =>
    rw [Nat.ofDigitChars_cons] at h
    have hle := le_ofDigitChars cs (10 * n + (c.toNat - '0'.toNat))
    rw [absorb, Nat.mul_comm n 10, if_pos (by omega), ih h, Nat.ofDigitChars_cons]

theorem digitRun_append_delimiter {ds rest : List Char} (hds : ∀ c ∈ ds, c.isDigit)
    (hrest : Delimits rest) : digitRun (ds ++ rest) = (ds, rest) := by
  have hnone : rest.takeWhile Char.isDigit = [] ∧ rest.dropWhile Char.isDigit = rest := by
    cases rest with
    | nil => exact ⟨rfl, rfl⟩
    | cons c rest => obtain rfl | rfl | rfl := hrest c rfl <;> exact ⟨rfl, rfl⟩
  rw [digitRun, List.takeWhile_append_of_pos hds, List.dropWhile_append_of_pos hds, hnone.1,
    hnone.2, List.append_nil]

theorem readUnsigned_digits (n : UInt64) {rest : List Char} (hrest : Delimits rest) :
    readUnsigned false (Text.digits n ++ rest) = some (.natural n, rest) := by
  obtain ⟨hnumeral, hvalue⟩ := word?_eq_some_iff.1 (word?_digits n)
  have habsorb : absorb 0 (Text.digits n) = (n.toNat, []) := by
    rw [absorb_eq (value_lt_size_iff.2 hnumeral.fits), ← hvalue, value]
  unfold readUnsigned
  rw [digitRun_append_delimiter hnumeral.digits hrest]
  split
  · next heq => exact absurd (Prod.mk.inj heq).1 hnumeral.ne_nil
  · next heq => exact absurd (Prod.mk.inj heq).1 (digits_ne_zero_cons n _ _)
  · next heq =>
    obtain ⟨rfl, rfl⟩ := Prod.mk.inj heq
    rw [habsorb]
    cases rest with
    | nil => simp [ofInteger]
    | cons c rest => obtain rfl | rfl | rfl := hrest c rfl <;> simp [ofInteger]

end Number

theorem Token.cut_digit {c : Char} (h : c.isDigit) (cs : List Char) :
    cut c cs = (Number.read (c :: cs)).map fun (n, rest) => (number n, rest) := by
  unfold cut
  split <;> first | rfl | exact absurd h (by decide)

/-- Every word of 64 bits is cut off a text as the integer it was written for, the largest as well,
and never as a double. -/
theorem Number.legible_natural (n : UInt64) : (natural n).Legible := by
  intro rest hrest
  have hnumeral := Text.isNumeral_digits n
  obtain ⟨c, cs, hdigits⟩ := List.exists_cons_of_ne_nil hnumeral.ne_nil
  have hc : c.isDigit := hnumeral.digits c (by simp [hdigits])
  have hread := readUnsigned_digits n hrest
  rw [hdigits, List.cons_append] at hread
  refine ⟨c, cs, hdigits, ?_, ?_⟩
  · intro hspace
    simp only [isSpace, Bool.or_eq_true, decide_eq_true_eq] at hspace
    obtain ((rfl | rfl) | rfl) | rfl := hspace <;> cases hc
  · rw [Token.cut_digit hc, read, hread]
    · rfl
    · rintro _ ⟨⟩
      cases hc

theorem Value.legible_natural (n : UInt64) : (Value.number (.natural n)).Legible := by
  rw [Legible]
  exact Number.legible_natural n

end AccessPolicy.Json
