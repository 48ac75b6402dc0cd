import AccessPolicy.Text.Utf8

namespace AccessPolicy.Text.Utf8

/-- A byte with its highest bit set is not the encoding of a character by itself. -/
theorem not_lt_or {m : UInt8} (x : UInt8) (h : 0x80 ≤ m) : ¬ x ||| m < 0x80 := by
  have hle : m.toNat ≤ (x ||| m).toNat := by
    rw [UInt8.toNat_or]
    exact Nat.right_le_or
  rw [UInt8.le_iff_toNat_le] at h
  rw [UInt8.lt_iff_toNat_lt]
  omega

theorem head?_of_utf8Size_eq_one {c : Char} (h : c.utf8Size = 1) (rest : List UInt8) :
    head? (String.utf8EncodeChar c ++ rest) = some c := by
  rw [String.utf8EncodeChar_eq_singleton h]
  have hval : c.val.toNat ≤ 127 := by
    simpa [UInt32.le_iff_toNat_le] using Char.utf8Size_eq_one_iff.1 h
  have hlow : c.val.toUInt8 < 0x80 := by
    rw [UInt8.lt_iff_toNat_lt, UInt32.toNat_toUInt8]
    have hmod := Nat.mod_eq_of_lt (show c.val.toNat < 2 ^ 8 by omega)
    have hbound : (0x80 : UInt8).toNat = 128 := rfl
    omega
  have hchar : Char.ofUInt8 c.val.toUInt8 = c := by
    apply Char.ext
    apply UInt32.toNat.inj
    change c.val.toUInt8.toUInt32.toNat = c.val.toNat
    rw [UInt8.toNat_toUInt32, UInt32.toNat_toUInt8]
    exact Nat.mod_eq_of_lt (by omega)
  simp only [List.singleton_append, head?, if_pos hlow, hchar]

/-- The first byte of a longer encoding says that more bytes follow. -/
theorem lead_of_utf8Size_ne_one {c : Char} (h : c.utf8Size ≠ 1) :
    ∃ b rest, String.utf8EncodeChar c = b :: rest ∧ ¬ b < 0x80 := by
  have hpos := c.utf8Size_pos
  have hfour := c.utf8Size_le_four
  obtain h2 | h3 | h4 : c.utf8Size = 2 ∨ c.utf8Size = 3 ∨ c.utf8Size = 4 := by omega
  · exact ⟨_, _, String.utf8EncodeChar_eq_cons_cons h2, not_lt_or _ (by decide)⟩
  · exact ⟨_, _, String.utf8EncodeChar_eq_cons_cons_cons h3, not_lt_or _ (by decide)⟩
  · exact ⟨_, _, String.utf8EncodeChar_eq_cons_cons_cons_cons h4, not_lt_or _ (by decide)⟩

/-- The character is read off the front of its encoding, whatever follows. -/
theorem head?_append (c : Char) (rest : List UInt8) :
    head? (String.utf8EncodeChar c ++ rest) = some c := by
  by_cases hone : c.utf8Size = 1
  · exact head?_of_utf8Size_eq_one hone rest
  · obtain ⟨b, tail, hbytes, hlead⟩ := lead_of_utf8Size_ne_one hone
    have htake : (String.utf8EncodeChar c ++ rest).take 4 =
        String.utf8EncodeChar c ++ rest.take (4 - c.utf8Size) := by
      rw [List.take_append, String.length_utf8EncodeChar, List.take_of_length_le]
      rw [String.length_utf8EncodeChar]
      exact c.utf8Size_le_four
    have hdecode := ByteArray.utf8DecodeChar?_utf8EncodeChar_append
      (b := (rest.take (4 - c.utf8Size)).toByteArray) (c := c)
    rw [← List.toByteArray_append, ← htake, hbytes] at hdecode
    rw [hbytes]
    simpa only [List.cons_append, head?, if_neg hlead] using hdecode

theorem decodeOnto_encode (done cs : List Char) :
    decodeOnto done (encode cs) = (done.reverse ++ cs, []) := by
  induction cs generalizing done with
  | nil =>
    have hnone : head? (encode []) = none := rfl
    rw [decodeOnto]
    split
    · simp [encode]
    · next heq => simp [hnone] at heq
  | cons c cs ih =>
    have hencode : encode (c :: cs) = String.utf8EncodeChar c ++ encode cs := rfl
    have hdrop : (String.utf8EncodeChar c ++ encode cs).drop c.utf8Size = encode cs := by
      rw [← String.length_utf8EncodeChar c, List.drop_left]
    rw [decodeOnto, hencode]
    split
    · next heq => simp [head?_append] at heq
    · next d heq =>
      obtain rfl : c = d := by simpa [head?_append] using heq
      rw [hdrop, ih]
      simp

/-- The bytes of a text decode to the text. -/
theorem decode_encode (cs : List Char) : decode (encode cs) = (cs, []) := by
  simpa [decode] using decodeOnto_encode [] cs

theorem utf8Size_ofUInt8 {b : UInt8} (h : b < 0x80) : (Char.ofUInt8 b).utf8Size = 1 := by
  rw [Char.utf8Size_eq_one_iff, UInt32.le_iff_toNat_le]
  have hval : (Char.ofUInt8 b).val.toNat = b.toNat := UInt8.toNat_toUInt32 b
  have hlow : b.toNat < 128 := UInt8.lt_iff_toNat_lt.1 h
  have hbound : (127 : UInt32).toNat = 127 := rfl
  omega

/-- A character that the bytes begin with takes no more bytes than there are. -/
theorem utf8Size_le_of_head? {bytes : List UInt8} {c : Char} (h : head? bytes = some c) :
    c.utf8Size ≤ bytes.length := by
  obtain ⟨b, rest, rfl⟩ := List.exists_cons_of_ne_nil (ne_nil_of_head? h)
  rw [head?] at h
  split at h
  · next hlow =>
    obtain rfl := Option.some.inj h
    rw [utf8Size_ofUInt8 hlow]
    exact Nat.succ_pos _
  · have hsize := ByteArray.le_size_of_utf8DecodeChar?_eq_some h
    rw [List.size_toByteArray, List.length_take, Nat.zero_add] at hsize
    omega

theorem head?_append_of_eq_some {bytes : List UInt8} {c : Char} (h : head? bytes = some c)
    (more : List UInt8) : head? (bytes ++ more) = some c := by
  obtain ⟨b, rest, rfl⟩ := List.exists_cons_of_ne_nil (ne_nil_of_head? h)
  rw [List.cons_append]
  rw [head?] at h ⊢
  split at h
  · next hlow => rw [if_pos hlow, h]
  · next hhigh =>
    rw [if_neg hhigh, ← List.cons_append, List.take_append, List.toByteArray_append]
    exact ByteArray.utf8DecodeChar?_append_eq_some h _

theorem decodeOnto_append {done cs : List Char} {bytes : List UInt8}
    (h : decodeOnto done bytes = (cs, [])) (more : List UInt8) :
    decodeOnto done (bytes ++ more) = decodeOnto cs.reverse more := by
  fun_induction decodeOnto done bytes with
  | case1 done bytes hnone =>
    obtain ⟨rfl, rfl⟩ := Prod.mk.inj h
    rw [List.nil_append, List.reverse_reverse]
  | case2 done bytes c hhead ih =>
    have hdrop : (bytes ++ more).drop c.utf8Size = bytes.drop c.utf8Size ++ more :=
      List.drop_append_of_le_length (utf8Size_le_of_head? hhead)
    have hlonger := head?_append_of_eq_some hhead more
    rw [decodeOnto]
    split
    · next heq => rw [hlonger] at heq; cases heq
    · next d heq =>
      obtain rfl : c = d := Option.some.inj (hlonger.symm.trans heq)
      rw [hdrop, ih h]

theorem exists_decodeOnto_eq_append (done : List Char) (bytes : List UInt8) :
    ∃ cs, (decodeOnto done bytes).1 = done.reverse ++ cs := by
  fun_induction decodeOnto done bytes with
  | case1 done bytes hnone => exact ⟨[], (List.append_nil _).symm⟩
  | case2 done bytes c hhead ih =>
    obtain ⟨cs, hcs⟩ := ih
    exact ⟨c :: cs, by rw [hcs, List.reverse_cons, List.append_assoc, List.singleton_append]⟩

/-- Bytes that are the encoding of a text are decoded to it whatever follows them. -/
theorem exists_decode_append {cs : List Char} {bytes : List UInt8} (h : decode bytes = (cs, []))
    (more : List UInt8) : ∃ tail, (decode (bytes ++ more)).1 = cs ++ tail := by
  rw [decode, decodeOnto_append h]
  simpa using exists_decodeOnto_eq_append cs.reverse more

end AccessPolicy.Text.Utf8
