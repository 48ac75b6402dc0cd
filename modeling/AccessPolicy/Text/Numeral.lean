namespace AccessPolicy.Text

def digits (n : UInt64) : List Char :=
  Nat.toDigits 10 n.toNat

def numeral (n : UInt64) : String :=
  String.ofList (digits n)

/-- Reads digits after others of the value `n`, up to the first that takes the value to `bound`. -/
def valueOnto (bound n : Nat) : List Char → Option Nat
  | [] => some n
  | c :: cs =>
    let next := 10 * n + (c.toNat - '0'.toNat)
    if next < bound then valueOnto bound next cs else none

/-- The value of a run of digits if it is below `bound`, which is not 0. However long the run is, no
number much larger than `bound` is computed. -/
def valueBelow? (bound : Nat) (cs : List Char) : Option Nat :=
  valueOnto bound 0 cs

theorem le_ofDigitChars (cs : List Char) (n : Nat) : n ≤ Nat.ofDigitChars 10 cs n := by
  induction cs generalizing n with
  | nil => simp
  | cons c cs ih =>
    rw [Nat.ofDigitChars_cons]
    exact Nat.le_trans (by omega) (ih _)

theorem valueOnto_eq {bound n : Nat} (h : n < bound) (cs : List Char) :
    valueOnto bound n cs =
      if Nat.ofDigitChars 10 cs n < bound then some (Nat.ofDigitChars 10 cs n) else none := by
  induction cs generalizing n with
  | nil => simp [valueOnto, h]
  | cons c cs ih =>
    simp only [valueOnto, Nat.ofDigitChars_cons]
    split
    · next hnext => exact ih hnext
    · have hle := le_ofDigitChars cs (10 * n + (c.toNat - '0'.toNat))
      rw [if_neg (by omega)]

/-- Reading a run of digits up to a bound gives its value if that is below the bound. -/
theorem valueBelow?_eq {bound : Nat} (h : 0 < bound) (cs : List Char) :
    valueBelow? bound cs =
      if Nat.ofDigitChars 10 cs 0 < bound then some (Nat.ofDigitChars 10 cs 0) else none :=
  valueOnto_eq h cs

/-- The word that a run of digits stands for; no word if the value needs more than 64 bits. -/
def wordOfDigits (cs : List Char) : Option UInt64 :=
  (valueBelow? UInt64.size cs).map UInt64.ofNat

/-- Reads one or more decimal digits and nothing else; leading zeros are allowed. -/
def word? (cs : List Char) : Option UInt64 :=
  if cs.isEmpty || !cs.all Char.isDigit then none else wordOfDigits cs

/-- Like `word?`, with one plus sign allowed in front. -/
def signedWord? : List Char → Option UInt64
  | '+' :: cs => word? cs
  | cs => word? cs

theorem wordOfDigits_digits (n : UInt64) : wordOfDigits (digits n) = some n := by
  rw [wordOfDigits, valueBelow?_eq (by decide), digits, Nat.ofDigitChars_ten_toDigits,
    if_pos n.toNat_lt_size]
  simp

/-- A word is read back from the digits written for it. -/
theorem word?_digits (n : UInt64) : word? (digits n) = some n := by
  have hdigit : (digits n).all Char.isDigit :=
    List.all_eq_true.2 fun _ hc => Nat.isDigit_of_mem_toDigits (by decide) (by decide) hc
  have hne : (digits n).isEmpty = false := by
    simp [digits]
  simp [word?, hdigit, hne, wordOfDigits_digits]

end AccessPolicy.Text
