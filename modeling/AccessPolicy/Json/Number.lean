import AccessPolicy.Decimal.Shortest
import AccessPolicy.Text.Numeral

namespace AccessPolicy.Json

/-- Integers of 64 bits and doubles. -/
inductive Number where
  | natural (n : UInt64)
  /-- The integer `-magnitude`. -/
  | negative (magnitude : UInt64)
  | real (x : Float)

namespace Number

/-- Doubles with a leading digit from `10 ^ low` to `10 ^ high` are written without an exponent. -/
structure RealStyle where
  low : Int
  high : Int
  point : Char
  mark : List Char
  plus : List Char
  minus : List Char

/-- An integral double keeps one zero after the point, and an exponent always has a sign. -/
def realStyle : RealStyle where
  low := -5
  high := 15
  point := '.'
  mark := ['e']
  plus := ['+']
  minus := ['-']

def digitChars (ds : List Nat) : List Char :=
  ds.map Nat.digitChar

def RealStyle.write (style : RealStyle) (d : Decimal.Scientific) : List Char :=
  let shown := digitChars d.digits
  if style.low ≤ d.exponent ∧ d.exponent < 0 then
    '0' :: style.point :: List.replicate ((-d.exponent).toNat - 1) '0' ++ shown
  else if 0 ≤ d.exponent ∧ d.exponent ≤ style.high then
    let whole := d.exponent.toNat + 1
    if shown.length ≤ whole then
      shown ++ List.replicate (whole - shown.length) '0' ++ [style.point, '0']
    else
      shown.take whole ++ style.point :: shown.drop whole
  else
    let fraction := shown.drop 1
    let power := style.mark ++ (if 0 ≤ d.exponent then style.plus else style.minus) ++
      Nat.toDigits 10 d.exponent.natAbs
    shown.take 1 ++ (if fraction.isEmpty then [] else style.point :: fraction) ++ power

/-- The shortest text that reads back as `x`, which is finite. -/
def realChars (x : Float) : List Char :=
  let bits := x.toBits
  let sign := if bits >>> 63 = 0 then [] else ['-']
  let binary := Decimal.Binary.ofBits bits
  if binary.mantissa = 0 then sign ++ ['0', realStyle.point, '0']
  else sign ++ realStyle.write (Decimal.shortest binary)

def chars : Number → List Char
  | natural n => Text.digits n
  | negative n => '-' :: Text.digits n
  | real x => realChars x

/-- `significand * 10 ^ exponent`, the significand a word. Digits that do not fit are left out. -/
structure Scaled where
  significand : Nat
  exponent : Int

/-- Appends digits to a significand while it fits a word; also gives the digits that are left. -/
def absorb (significand : Nat) : List Char → Nat × List Char
  | [] => (significand, [])
  | c :: cs =>
    let next := significand * 10 + (c.toNat - '0'.toNat)
    if next < UInt64.size then absorb next cs else (significand, c :: cs)

/-- The double nearest to `n`. Of a large number the first 64 bits are rounded, the last of them set
if anything but zeros follows, so that no tie is seen where there is none. -/
def nearestReal (n : Nat) : Float :=
  let shift := n.log2 - 63
  let front := n >>> shift
  let sticky := if front <<< shift = n then front else front ||| 1
  (UInt64.ofNat sticky).toFloat.scaleB shift

def tenTo (n : Nat) : Float :=
  nearestReal (Decimal.tenTo n)

/-- The double for `f / 10 ^ n`, divided in steps of `10 ^ 308`. A few steps take every double to
zero. -/
def scaleDown (f : Float) : Nat → Nat → Float
  | 0, _ => 0
  | steps + 1, n =>
    if n ≤ 308 then f / tenTo n
    else if f == 0 then f
    else scaleDown (f / tenTo 308) steps (n - 308)

/-- The double for a scaled significand; none if it is too large. -/
def Scaled.real? (s : Scaled) : Option Float :=
  let f := (UInt64.ofNat s.significand).toFloat
  if s.exponent < 0 then
    some (scaleDown f 4 s.exponent.natAbs)
  else if s.exponent ≤ 308 then
    let x := f * tenTo s.exponent.toNat
    if x.isInf then none else some x
  else if f == 0 then some f
  else none

def withSign (minus : Bool) (x : Float) : Number :=
  .real (if minus then -x else x)

/-- Cuts the run of digits off the front. -/
def digitRun (cs : List Char) : List Char × List Char :=
  (cs.takeWhile Char.isDigit, cs.dropWhile Char.isDigit)

/-- Exponents below this are read as numbers. -/
def exponentBound : Nat := 2147483648

/-- Reads the digits of an exponent; `down` says that its sign is minus. -/
def readPower (minus down : Bool) (s : Scaled) (cs : List Char) : Option (Number × List Char) :=
  match digitRun cs with
  | ([], _) => none
  | (ds, rest) =>
    match Text.valueBelow? exponentBound ds with
    | none => if s.significand ≠ 0 ∧ !down then none else some (withSign minus 0, rest)
    | some n =>
      let exponent := if down then s.exponent - n else s.exponent + n
      (Scaled.real? ⟨s.significand, exponent⟩).map fun x => (withSign minus x, rest)

/-- Reads what follows the mark of an exponent. -/
def readExponent (minus : Bool) (s : Scaled) : List Char → Option (Number × List Char)
  | '+' :: cs => readPower minus false s cs
  | '-' :: cs => readPower minus true s cs
  | cs => readPower minus false s cs

/-- Ends a number that has a point or an exponent, or is too long for a word. -/
def finish (minus : Bool) (s : Scaled) : List Char → Option (Number × List Char)
  | 'e' :: rest => readExponent minus s rest
  | 'E' :: rest => readExponent minus s rest
  | rest => s.real?.map fun x => (withSign minus x, rest)

/-- Reads what follows the point. -/
def readFraction (minus : Bool) (s : Scaled) (cs : List Char) : Option (Number × List Char) :=
  match digitRun cs with
  | ([], _) => none
  | (ds, rest) =>
    let (significand, left) := absorb s.significand ds
    finish minus ⟨significand, s.exponent - (ds.length - left.length : Nat)⟩ rest

/-- An integer with its sign; one that fits no integer type is a double. -/
def ofInteger (minus : Bool) (significand : Nat) : Number :=
  if !minus then .natural (UInt64.ofNat significand)
  else if significand = 0 ∨ UInt64.size / 2 < significand then
    .real (-(UInt64.ofNat significand).toFloat)
  else .negative (UInt64.ofNat significand)

/-- Reads a number without its sign. A leading zero stands alone. -/
def readUnsigned (minus : Bool) (cs : List Char) : Option (Number × List Char) :=
  match digitRun cs with
  | ([], _) => none
  | ('0' :: _ :: _, _) => none
  | (ds, rest) =>
    let (significand, left) := absorb 0 ds
    match rest with
    | '.' :: rest => readFraction minus ⟨significand, left.length⟩ rest
    | 'e' :: rest => readExponent minus ⟨significand, left.length⟩ rest
    | 'E' :: rest => readExponent minus ⟨significand, left.length⟩ rest
    | rest =>
      if left.isEmpty then some (ofInteger minus significand, rest)
      else finish minus ⟨significand, left.length⟩ rest

/-- Reads a number from the front of `cs` and gives what follows it. -/
def read : List Char → Option (Number × List Char)
  | '-' :: cs => readUnsigned true cs
  | cs => readUnsigned false cs

theorem length_digitRun (cs : List Char) :
    (digitRun cs).1.length + (digitRun cs).2.length = cs.length := by
  rw [← List.length_append]
  simp [digitRun]

theorem length_le_of_readPower {minus down : Bool} {s : Scaled} {cs rest : List Char} {n : Number}
    (h : readPower minus down s cs = some (n, rest)) : rest.length ≤ cs.length := by
  have hrun := length_digitRun cs
  unfold readPower at h
  grind [Option.map_eq_some_iff]

theorem length_le_of_readExponent {minus : Bool} {s : Scaled} {cs rest : List Char} {n : Number}
    (h : readExponent minus s cs = some (n, rest)) : rest.length ≤ cs.length := by
  unfold readExponent at h
  split at h <;> have := length_le_of_readPower h <;> grind

theorem length_le_of_finish {minus : Bool} {s : Scaled} {cs rest : List Char} {n : Number}
    (h : finish minus s cs = some (n, rest)) : rest.length ≤ cs.length := by
  unfold finish at h
  split at h
  · exact Nat.le_succ_of_le (length_le_of_readExponent h)
  · exact Nat.le_succ_of_le (length_le_of_readExponent h)
  · grind [Option.map_eq_some_iff]

theorem length_le_of_readFraction {minus : Bool} {s : Scaled} {cs rest : List Char} {n : Number}
    (h : readFraction minus s cs = some (n, rest)) : rest.length ≤ cs.length := by
  have hrun := length_digitRun cs
  unfold readFraction at h
  split at h
  · cases h
  · next ds after _ heq =>
    have := length_le_of_finish h
    grind

theorem length_lt_of_readUnsigned {minus : Bool} {cs rest : List Char} {n : Number}
    (h : readUnsigned minus cs = some (n, rest)) : rest.length < cs.length := by
  have hrun := length_digitRun cs
  unfold readUnsigned at h
  split at h
  · cases h
  · cases h
  · next ds after hne _ heq =>
    have hds : 0 < ds.length := List.length_pos_iff.2 hne
    simp only [heq] at hrun
    split at h
    split at h
    · have := length_le_of_readFraction h
      grind
    · have := length_le_of_readExponent h
      grind
    · have := length_le_of_readExponent h
      grind
    · split at h
      · grind
      · have := length_le_of_finish h
        omega

theorem length_lt_of_read {cs rest : List Char} {n : Number} (h : read cs = some (n, rest)) :
    rest.length < cs.length := by
  unfold read at h
  split at h
  · have := length_lt_of_readUnsigned h
    simp only [List.length_cons]
    omega
  · exact length_lt_of_readUnsigned h

end Number

end AccessPolicy.Json
