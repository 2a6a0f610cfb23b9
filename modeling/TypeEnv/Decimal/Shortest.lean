import TypeEnv.Binary64

/-! The shortest decimal of a binary64 number: the fewest significant digits that read back as the
number, and of the decimals with that many digits the one nearest to it. -/

namespace TypeEnv.Decimal

/-- The value `0.d₁d₂… * 10 ^ (exponent + 1)`: significant digits, and the power of ten of the first
of them. -/
structure Digits where
  digits : List Char
  exponent : Int
  deriving DecidableEq, Repr

/-- The positive numbers that round to a magnitude, all over the same denominator. -/
structure Interval where
  low : Nat
  value : Nat
  high : Nat
  den : Nat
  /-- Whether the ends round to the magnitude too. -/
  closed : Bool

/-- Half a step of the grid lies on either side, but a quarter below a power of two. -/
def Interval.of (x : Binary64) : Interval :=
  let (m, e) := x.parts
  let scale := 1 <<< e.toNat
  let below := if m = Binary64.hiddenBit ∧ -1074 < e then 1 else 2
  { low := (4 * m - below) * scale
    value := 4 * m * scale
    high := (4 * m + 2) * scale
    den := 4 <<< (-e).toNat
    closed := m % 2 = 0 }

def Interval.contains (i : Interval) (num den : Nat) : Bool :=
  let n := num * i.den
  if i.closed then i.low * den ≤ n ∧ n ≤ i.high * den else i.low * den < n ∧ n < i.high * den

/-- How often `value` has to be multiplied by ten to reach `den`. -/
def leadingZeros (den : Nat) : Nat → Nat → Nat
  | 0, _ => 0
  | limit + 1, value => if den ≤ value then 0 else leadingZeros den limit (10 * value) + 1

/-- The power of ten of the first digit of `num / den`. No binary64 number has 330 zeros there. -/
def leadingExponent (num den : Nat) : Int :=
  if den ≤ num then (Nat.toDigits 10 (num / den)).length - 1
  else -(leadingZeros den 330 num : Int)

/-- The decimal with `count` digits that is nearest to the value, if it is in the interval: the
multiple of a power of ten below the value, or the one above. -/
def nearestDecimal (i : Interval) (exponent : Int) (count : Nat) : Option Nat :=
  let shift : Int := exponent - count + 1
  let up := Nat.pow 10 (-shift).toNat
  let step := Nat.pow 10 shift.toNat
  let floor := i.value * up / (i.den * step)
  let inside (n : Nat) := i.contains (n * step) up
  let twice := 2 * i.value * up
  let middle := (2 * floor + 1) * step * i.den
  let nearer := if twice < middle ∨ (twice = middle ∧ floor % 2 = 0) then floor else floor + 1
  if inside nearer then some nearer
  else if inside (2 * floor + 1 - nearer) then some (2 * floor + 1 - nearer)
  else none

/-- Seventeen digits always read back. -/
def shortestNat (i : Interval) (exponent : Int) : Nat × Nat :=
  match (List.range' 1 17).findSome? fun count =>
      (nearestDecimal i exponent count).map (count, ·) with
  | some found => found
  | none => (17, 0)

/-- The shortest decimal of a magnitude that is not zero. -/
def shortest (x : Binary64) : Digits :=
  let i := Interval.of x
  let exponent := leadingExponent i.value i.den
  let (count, n) := shortestNat i exponent
  let digits := Nat.toDigits 10 n
  let kept := (digits.reverse.dropWhile (· == '0')).reverse
  { digits := kept, exponent := exponent + (digits.length - count) }

/-! ### Layout -/

/-- Which powers of ten of the first digit are written without an exponent. -/
structure Layout where
  positionalFrom : Int
  positionalBelow : Int

/-- Digits before and after the point; there is always at least one on either side. -/
def positional (d : Digits) : String :=
  if d.exponent < 0 then
    "0." ++ String.ofList (List.replicate (-d.exponent - 1).toNat '0' ++ d.digits)
  else
    let places := d.exponent.toNat + 1
    let whole := d.digits.take places
    let rest := d.digits.drop places
    String.ofList (whole ++ List.replicate (places - whole.length) '0') ++ "." ++
      (if rest.isEmpty then "0" else String.ofList rest)

/-- One digit before the point, the exponent with its sign. -/
def scientific (d : Digits) : String :=
  let point := if d.digits.length ≤ 1 then "" else "."
  String.ofList (d.digits.take 1) ++ point ++ String.ofList (d.digits.drop 1) ++
    (if d.exponent < 0 then "e-" else "e+") ++ toString d.exponent.natAbs

/-- The shortest decimal of a finite number, with its sign. -/
def Layout.write (layout : Layout) (x : Binary64) : String :=
  let magnitude :=
    if x.parts.1 = 0 then "0.0" else
    let d := shortest x
    if layout.positionalFrom ≤ d.exponent ∧ d.exponent < layout.positionalBelow then positional d
    else scientific d
  if x.isNegative then "-" ++ magnitude else magnitude

end TypeEnv.Decimal
