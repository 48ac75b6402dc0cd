import AccessPolicy.Json.Text

namespace AccessPolicy.Json

theorem hexDigit?_digitChar : ∀ n < 16, hexDigit? (Nat.digitChar n) = some n := by
  decide

theorem hexWord?_controlChar {c : Char} (h : c < ' ') :
    hexWord? '0' '0' (Nat.digitChar (c.toNat / 16)) (Nat.digitChar (c.toNat % 16)) =
      some c.toNat := by
  have hbound : c.toNat < 32 := h
  have hhigh := hexDigit?_digitChar (c.toNat / 16) (by omega)
  have hlow := hexDigit?_digitChar (c.toNat % 16) (by omega)
  have hzero : hexDigit? '0' = some 0 := rfl
  simp only [hexWord?, hzero, hhigh, hlow, bind, Option.bind, pure]
  congr 1
  omega

/-- A control character is written by its number, which is not half of a surrogate pair. -/
theorem readString_controlChar (done : List Char) {c : Char} (h : c < ' ') (rest : List Char) :
    readString done ('\\' :: 'u' :: '0' :: '0' :: Nat.digitChar (c.toNat / 16) ::
      Nat.digitChar (c.toNat % 16) :: rest) = readString (c :: done) rest := by
  have hbound : c.toNat < 32 := h
  have hhigh : isHighSurrogate c.toNat = false := by
    simp only [isHighSurrogate, Bool.and_eq_false_iff, decide_eq_false_iff_not]
    omega
  have hlow : isLowSurrogate c.toNat = false := by
    simp only [isLowSurrogate, Bool.and_eq_false_iff, decide_eq_false_iff_not]
    omega
  rw [readString]
  simp [hexWord?_controlChar h, hhigh, hlow, Char.ofNat_toNat]

theorem readString_escapedChar (done : List Char) (c : Char) (rest : List Char) :
    readString done (escapedChar c ++ rest) = readString (c :: done) rest := by
  unfold escapedChar
  split
  case h_8 hquote hback _ _ _ _ _ =>
    split
    · next hcontrol => exact readString_controlChar done hcontrol rest
    · next hplain =>
      have hstop : ¬ (c = '\\' ∨ c < ' ') := not_or.2 ⟨hback, hplain⟩
      rw [List.singleton_append, readString, if_neg hstop]
      · exact hquote
      · rintro _ _ _ _ _ rfl
        exact (hback rfl).elim
      · rintro _ _ rfl
        exact (hback rfl).elim
  all_goals simp [readString, plainEscape?]

theorem readString_escaped (done cs rest : List Char) :
    readString done (cs.flatMap escapedChar ++ '"' :: rest) =
      some (String.ofList (done.reverse ++ cs), rest) := by
  induction cs generalizing done with
  | nil => simp [readString]
  | cons c cs ih =>
    rw [List.flatMap_cons, List.append_assoc, readString_escapedChar, ih]
    simp

/-- Reading starts behind the opening quote. -/
theorem readString_stringChars (s : String) (rest : List Char) :
    ∃ cs, stringChars s = '"' :: cs ∧ readString [] (cs ++ rest) = some (s, rest) := by
  refine ⟨s.toList.flatMap escapedChar ++ ['"'], rfl, ?_⟩
  rw [List.append_assoc, List.singleton_append, readString_escaped]
  simp

end AccessPolicy.Json
