namespace AccessPolicy.Text.Utf8

def encode (cs : List Char) : List UInt8 :=
  cs.flatMap String.utf8EncodeChar

/-- The character whose encoding the bytes begin with, if there is one. -/
def head? : List UInt8 → Option Char
  | [] => none
  | b :: rest =>
    if b < 0x80 then some (Char.ofUInt8 b) else ((b :: rest).take 4).toByteArray.utf8DecodeChar? 0

theorem ne_nil_of_head? {bytes : List UInt8} {c : Char} (h : head? bytes = some c) :
    bytes ≠ [] := by
  rintro rfl
  simp [head?] at h

theorem length_drop_lt_of_head? {bytes : List UInt8} {c : Char} (h : head? bytes = some c) :
    (bytes.drop c.utf8Size).length < bytes.length := by
  have hbytes := List.length_pos_iff.2 (ne_nil_of_head? h)
  have hsize := c.utf8Size_pos
  simp only [List.length_drop]
  omega

/-- Decodes onto `done`, which holds the characters already found, latest first. -/
def decodeOnto (done : List Char) (bytes : List UInt8) : List Char × List UInt8 :=
  match _h : head? bytes with
  | none => (done.reverse, bytes)
  | some c => decodeOnto (c :: done) (bytes.drop c.utf8Size)
termination_by bytes.length
decreasing_by exact length_drop_lt_of_head? _h

/-- The characters up to the first bytes that encode none, and the bytes from there on. -/
def decode (bytes : List UInt8) : List Char × List UInt8 :=
  decodeOnto [] bytes

end AccessPolicy.Text.Utf8
