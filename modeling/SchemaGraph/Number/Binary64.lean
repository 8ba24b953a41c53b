/-!
# Binary floating point numbers by their bits

A 64-bit floating point number is kept as its bit pattern, so that two numbers
are the same exactly when their bits are, and so that reading and printing are
plain arithmetic on natural numbers. A finite number stands for
`(-1)^sign * significand * 2^exponent`.
-/

set_option autoImplicit false

namespace SchemaGraph

/-- Two to the power `n`. -/
def powTwo (n : Nat) : Nat := Nat.pow 2 n

/-- Ten to the power `n`. -/
def powTen (n : Nat) : Nat := Nat.pow 10 n

structure Binary64 where
  bits : UInt64
deriving DecidableEq, Repr, Inhabited

namespace Binary64

def zero : Binary64 := ⟨0⟩

/-- Whether the sign bit is set; also of a zero. -/
def isNegative (f : Binary64) : Bool := powTwo 63 ≤ f.bits.toNat

/-- The eleven bits between sign and fraction. -/
def biasedExponent (f : Binary64) : Nat := f.bits.toNat / powTwo 52 % powTwo 11

/-- The lowest fifty-two bits. -/
def fraction (f : Binary64) : Nat := f.bits.toNat % powTwo 52

/-- Neither infinite nor not-a-number. -/
def isFinite (f : Binary64) : Bool := f.biasedExponent ≠ 2047

/-- Either of the two zeros. -/
def isZero (f : Binary64) : Bool := f.bits.toNat % powTwo 63 = 0

/-- The integer multiplied by `2 ^ exponent`, for a finite number. -/
def significand (f : Binary64) : Nat :=
  if f.biasedExponent = 0 then f.fraction else f.fraction + powTwo 52

def exponent (f : Binary64) : Int :=
  if f.biasedExponent = 0 then -1074 else (f.biasedExponent : Int) - 1075

/-- Equality as numbers: the two zeros are equal. -/
def sameNumber (f g : Binary64) : Bool := f = g || (f.isZero && g.isZero)

def withSign (negative : Bool) (magnitude : Nat) : Binary64 :=
  ⟨UInt64.ofNat (magnitude + if negative then powTwo 63 else 0)⟩

/-- The quotient rounded to the nearest integer, a tie to the even one. -/
def roundQuotient (num den : Nat) : Nat :=
  let q := num / den
  let r := num % den
  if 2 * r < den then q
  else if den < 2 * r then q + 1
  else if q % 2 = 0 then q else q + 1

/-- The number nearest to `num / den`, a tie going to the even significand;
nothing if that is beyond the largest finite number. -/
def ofQuotient? (negative : Bool) (num den : Nat) : Option Binary64 :=
  if num = 0 then some (withSign negative 0) else
    let guess : Int := (num.log2 : Int) - den.log2 - 52
    -- `num / den * 2 ^ (-e)`, as a fraction of naturals
    let scaled (e : Int) : Nat × Nat :=
      if e < 0 then (num * powTwo (-e).toNat, den) else (num, den * powTwo e.toNat)
    let e := if (scaled guess).1 < powTwo 52 * (scaled guess).2 then guess - 1 else guess
    let e := max e (-1074)
    let m := roundQuotient (scaled e).1 (scaled e).2
    -- a significand of 2 ^ 52 or more carries into the exponent bits
    let magnitude := m + (e + 1074).toNat * powTwo 52
    if magnitude < 2047 * powTwo 52 then some (withSign negative magnitude) else none

/-! The magnitude of a finite number as a fraction of naturals. -/

def numerator (f : Binary64) : Nat := f.significand * powTwo f.exponent.toNat

def denominator (f : Binary64) : Nat := powTwo (-f.exponent).toNat

/-- The rounded product of two finite numbers that are not negative. -/
def mul? (f g : Binary64) : Option Binary64 :=
  ofQuotient? false (f.numerator * g.numerator) (f.denominator * g.denominator)

/-- The rounded quotient of two finite numbers that are not negative; the
divisor is not zero. -/
def div? (f g : Binary64) : Option Binary64 :=
  ofQuotient? false (f.numerator * g.denominator) (f.denominator * g.numerator)

/-- The number of the same magnitude with the given sign. -/
def setSign (negative : Bool) (f : Binary64) : Binary64 :=
  withSign negative (f.bits.toNat % powTwo 63)

/-- The number nearest to an integer. -/
def ofInt? (i : Int) : Option Binary64 := ofQuotient? (i < 0) i.natAbs 1

end Binary64

end SchemaGraph
