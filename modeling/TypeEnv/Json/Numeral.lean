import TypeEnv.Json.Basic

/-! The numbers that JSON texts write. Digits are gathered into a significand of 64 bits; those
that no longer fit only move the point. What comes of it is rounded to binary64 three times, the
significand, the power of ten, and their product or quotient, so the last bit can differ from the
number nearest to the text. -/

namespace TypeEnv

/-- The digits of a numeral, in the order they are written. -/
structure Numeral where
  negative : Bool := false
  whole : List Nat := []
  /-- The digits after the point, if there is one. -/
  fraction : Option (List Nat) := none
  /-- Whether the exponent is negative, and its digits. -/
  exponent : Option (Bool × List Nat) := none
  deriving DecidableEq, Repr, Inhabited

namespace Numeral

/-- A significand and how many places the point is to be moved to the right. -/
structure Scaled where
  significand : Nat
  places : Int
  deriving DecidableEq, Repr

def fits (significand digit : Nat) : Bool := 10 * significand + digit < 0x10000000000000000

/-- Digits before the point: from the first that does not fit on, each moves the point. -/
def gatherWhole (significand : Nat) : List Nat → Scaled
  | [] => ⟨significand, 0⟩
  | digit :: digits =>
    if fits significand digit then gatherWhole (10 * significand + digit) digits
    else ⟨significand, digits.length + 1⟩

/-- Digits after the point: from the first that does not fit on, they are dropped. -/
def gatherFraction (s : Scaled) : List Nat → Scaled
  | [] => s
  | digit :: digits =>
    if fits s.significand digit then
      gatherFraction ⟨10 * s.significand + digit, s.places - 1⟩ digits
    else s

def ofDigits (digits : List Nat) : Nat :=
  digits.foldl (fun n digit => 10 * n + digit) 0

/-- The greatest power of ten below the greatest number. -/
def maxPower : Nat := 308

def powerOfTen (n : Nat) : Binary64 := Binary64.ofNat (Nat.pow 10 n)

/-- Divides by `10 ^ n`, in steps that each are a power of ten in range. -/
def divideByPower (x : Binary64) (n : Nat) : Nat → Binary64
  | 0 => x
  | steps + 1 =>
    if n ≤ maxPower then x.div (powerOfTen n)
    else if x.parts.1 = 0 then x
    else divideByPower (x.div (powerOfTen maxPower)) (n - maxPower) steps

/-- The magnitude, if it is in range. -/
def Scaled.magnitude? (s : Scaled) : Option Binary64 :=
  let x := Binary64.ofNat s.significand
  if s.places < 0 then
    let n := s.places.natAbs
    some (divideByPower x n (n / maxPower + 1))
  else if s.places ≤ maxPower then
    let y := x.mul (powerOfTen s.places.natAbs)
    if y = .infinity then none else some y
  else if s.significand = 0 then some x
  else none

/-- Exponents past 31 bits are too large for any number, and too small for any but zero. -/
def scale? (s : Scaled) : Option (Bool × List Nat) → Option Scaled
  | none => some s
  | some (negative, digits) =>
    let e := ofDigits digits
    if e < 0x80000000 then some ⟨s.significand, if negative then s.places - e else s.places + e⟩
    else if s.significand = 0 ∨ negative then some ⟨0, 0⟩
    else none

/-- The number that a numeral writes, or `none` if it is out of range. A negative integer that does
not fit, and negative zero, are floats. -/
def value? (n : Numeral) : Option JsonNumber := do
  let signed (x : Binary64) : JsonNumber := .float (if n.negative then x.neg else x)
  let whole := gatherWhole 0 n.whole
  match n.fraction, n.exponent with
  | none, none =>
    if whole.places = 0 then
      if !n.negative then
        return .int whole.significand
      if 0 < whole.significand ∧ whole.significand ≤ 0x8000000000000000 then
        return .int (-whole.significand)
    return signed (← whole.magnitude?)
  | fraction, exponent =>
    let s ← scale? (gatherFraction whole (fraction.getD [])) exponent
    return signed (← s.magnitude?)

end Numeral

end TypeEnv
