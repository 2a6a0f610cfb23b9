/-! Numbers of IEEE 754 binary64, held as their bits so that equality is equality of bits and every
NaN keeps its payload. Arithmetic is on exact ratios of naturals, rounded once to the nearest
number; of two that are equally near the one with the even significand is taken. -/

namespace TypeEnv

structure Binary64 where
  bits : UInt64
  deriving DecidableEq, Repr, Inhabited

namespace Binary64

def zero : Binary64 := ⟨0⟩
def infinity : Binary64 := ⟨0x7ff0000000000000⟩

/-- The bit that is not written of a significand of 53 bits. -/
def hiddenBit : Nat := 0x10000000000000

/-- The number with its sign bit turned over. -/
def neg (x : Binary64) : Binary64 := ⟨x.bits ^^^ 0x8000000000000000⟩

def isNegative (x : Binary64) : Bool := x.bits.toNat >>> 63 % 2 == 1

/-- Significand and exponent of a finite magnitude `m * 2 ^ e`. -/
def parts (x : Binary64) : Nat × Int :=
  let fraction := x.bits.toNat % hiddenBit
  match x.bits.toNat >>> 52 % 0x800 with
  | 0 => (fraction, -1074)
  | exponent + 1 => (hiddenBit + fraction, exponent - 1074)

/-- A finite magnitude as a ratio. -/
def ratio (x : Binary64) : Nat × Nat :=
  let (m, e) := x.parts
  (m <<< e.toNat, 1 <<< (-e).toNat)

/-- The quotient rounded to the nearest natural, to the even one of two that are equally near. -/
def roundDiv (num den : Nat) : Nat :=
  let q := num / den
  let r := num % den
  if 2 * r < den then q else if den < 2 * r then q + 1 else q + q % 2

/-- The exponent that leaves 53 bits of `num / den` before the point, or as many as there are down
to the least exponent. -/
def exponentFor (num den : Nat) : Int :=
  let e : Int := num.log2 - den.log2 - 52
  let e := if num <<< (-e).toNat < (hiddenBit * den) <<< e.toNat then e - 1 else e
  max e (-1074)

/-- The number nearest to `num / den`; infinite if that is past the greatest. A significand that is
rounded up to 54 bits carries into the exponent. -/
def ofRatio (num den : Nat) : Binary64 :=
  if num = 0 then zero else
  let e := exponentFor num den
  let m := roundDiv (num <<< (-e).toNat) (den <<< e.toNat)
  let bits := if m < hiddenBit then m else (e + 1075).toNat <<< 52 + (m - hiddenBit)
  if bits < infinity.bits.toNat then ⟨bits.toUInt64⟩ else infinity

def ofNat (n : Nat) : Binary64 := ofRatio n 1

def ofInt (n : Int) : Binary64 :=
  if n < 0 then (ofNat n.natAbs).neg else ofNat n.natAbs

/-- Product of two finite magnitudes. -/
def mul (x y : Binary64) : Binary64 :=
  ofRatio (x.ratio.1 * y.ratio.1) (x.ratio.2 * y.ratio.2)

/-- Quotient of two finite magnitudes, the second not zero. -/
def div (x y : Binary64) : Binary64 :=
  ofRatio (x.ratio.1 * y.ratio.2) (x.ratio.2 * y.ratio.1)

end Binary64

end TypeEnv
