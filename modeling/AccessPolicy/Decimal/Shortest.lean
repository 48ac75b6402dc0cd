namespace AccessPolicy.Decimal

def twoTo (n : Nat) : Nat := Nat.pow 2 n

def tenTo (n : Nat) : Nat := Nat.pow 10 n

/-- A finite double without its sign, as `mantissa * 2 ^ exponent`. -/
structure Binary where
  mantissa : Nat
  exponent : Int

/-- The finite double with the given bits, its sign left out. -/
def Binary.ofBits (bits : UInt64) : Binary :=
  let fraction := (bits &&& 0xFFFFFFFFFFFFF).toNat
  let scale := ((bits >>> 52) &&& 0x7FF).toNat
  if scale = 0 then ⟨fraction, -1074⟩ else ⟨fraction + twoTo 52, scale - 1075⟩

/-- The decimal `d₀.d₁d₂… * 10 ^ exponent`. -/
structure Scientific where
  digits : List Nat
  exponent : Int

/-- A positive double as a quotient, with the ends of the interval that reads back as it. All four
numbers have the same scale. -/
structure Interval where
  value : Nat
  low : Nat
  high : Nat
  unit : Nat
  /-- Whether the ends themselves read back as the double. -/
  closed : Bool

/-- Below a power of two the neighbour is half as far away as above it. -/
def Binary.interval (b : Binary) : Interval :=
  let shift := b.exponent - 2
  let up := twoTo shift.toNat
  let gap := if b.mantissa = twoTo 52 ∧ b.exponent ≠ -1074 then 1 else 2
  { value := 4 * b.mantissa * up
    low := (4 * b.mantissa - gap) * up
    high := (4 * b.mantissa + 2) * up
    unit := twoTo (-shift).toNat
    closed := b.mantissa % 2 = 0 }

/-- The power of ten that the leading digit of the value counts. -/
def Interval.magnitude (i : Interval) : Int :=
  if i.unit ≤ i.value then
    ((Nat.toDigits 10 (i.value / i.unit)).length : Int) - 1
  else
    -((Nat.toDigits 10 ((i.unit - 1) / i.value)).length : Int)

/-- Whether `n * 10 ^ k` reads back as the double. -/
def Interval.contains (i : Interval) (n : Nat) (k : Int) : Bool :=
  let point := n * tenTo k.toNat * i.unit
  let scale := tenTo (-k).toNat
  if i.closed then i.low * scale ≤ point && point ≤ i.high * scale
  else i.low * scale < point && point < i.high * scale

/-- The multiple of `10 ^ k` that reads back as the double and is nearest to it. A tie goes to the
even multiple. -/
def Interval.nearest? (i : Interval) (k : Int) : Option Nat :=
  let num := i.value * tenTo (-k).toNat
  let den := i.unit * tenTo k.toNat
  let below := num / den
  let rest := num % den
  match i.contains below k, i.contains (below + 1) k with
  | true, true =>
    if 2 * rest < den ∨ (2 * rest = den ∧ below % 2 = 0) then some below else some (below + 1)
  | true, false => some below
  | false, true => some (below + 1)
  | false, false => none

def digitsOf (n : Nat) : List Nat :=
  (Nat.toDigits 10 n).map fun c => c.toNat - '0'.toNat

/-- Tries the multiples of `10 ^ k`, then of lower powers. -/
def Interval.shortestFrom (i : Interval) (k : Int) : Nat → Scientific
  | 0 => ⟨[0], 0⟩
  | more + 1 =>
    match i.nearest? k with
    | some n =>
      let ds := digitsOf n
      let shown := (ds.reverse.dropWhile (· = 0)).reverse
      ⟨shown, k + ds.length - 1⟩
    | none => i.shortestFrom (k - 1) more

/-- The shortest decimal for a positive finite double: of the decimals that read back as the double
the ones with the fewest digits, and of those the nearest. Seventeen digits are always enough. -/
def shortest (b : Binary) : Scientific :=
  b.interval.shortestFrom b.interval.magnitude 18

end AccessPolicy.Decimal
