import SchemaGraph.Number.Binary64

/-!
# Decimals, and the floating point numbers they are read as

A numeral is read in two steps. Its digits are taken for as long as the integer
they make fits into 64 bits; that integer is then multiplied or divided by a
power of ten in floating point arithmetic. Each step rounds, so a numeral with
many digits or with a large exponent may come out as a neighbour of the number
nearest to it.
-/

set_option autoImplicit false

namespace SchemaGraph

/-- The integer `digits` times ten to the power `power`. -/
structure Decimal where
  digits : Nat
  power : Int
deriving DecidableEq, Repr

namespace Decimal

/-- Move trailing zeros of the digits into the power of ten. -/
def trim : Nat → Decimal → Decimal
  | 0, d => d
  | fuel + 1, d =>
    if d.digits ≠ 0 ∧ d.digits % 10 = 0 then trim fuel ⟨d.digits / 10, d.power + 1⟩ else d

def digitValue (c : Char) : Nat := c.toNat - '0'.toNat

/-- Append digits to an integer up to the first one that would take it beyond
64 bits; that digit and those after it remain. -/
def appendDigits (n : Nat) : List Char → Nat × List Char
  | [] => (n, [])
  | c :: rest =>
    if 10 * n + digitValue c < powTwo 64 then appendDigits (10 * n + digitValue c) rest
    else (n, c :: rest)

/-- The decimal of the digits before and after the point. A digit before the
point that is not taken still counts as a place; one after it is dropped. -/
def ofDigits (whole fraction : List Char) : Decimal :=
  let (n, beyond) := appendDigits 0 whole
  let (n, dropped) := appendDigits n fraction
  ⟨n, beyond.length + dropped.length - fraction.length⟩

/-- The largest power of ten that scaling uses. -/
def maxPower : Nat := 308

/-- Ten to the power `n`, rounded; nothing beyond `maxPower`. -/
def tenTo? (n : Nat) : Option Binary64 :=
  if n ≤ maxPower then Binary64.ofQuotient? false (powTen n) 1 else none

/-- Divide by ten to the power `n`, by at most `maxPower` places at a time. Two
full steps take every integer of 64 bits to zero, where it stays. -/
def scaleDown? (f : Binary64) (n : Nat) : Option Binary64 :=
  if n ≤ maxPower then do f.div? (← tenTo? n)
  else do
    let f ← f.div? (← tenTo? maxPower)
    if n ≤ 2 * maxPower then f.div? (← tenTo? (n - maxPower)) else some Binary64.zero

/-- The number that a decimal of 64 bits is read as; nothing if it is too
large. -/
def toBinary64? (d : Decimal) : Option Binary64 :=
  if d.digits = 0 then some Binary64.zero
  else do
    let f ← Binary64.ofQuotient? false d.digits 1
    if 0 ≤ d.power then f.mul? (← tenTo? d.power.toNat)
    else scaleDown? f (-d.power).toNat

end Decimal

end SchemaGraph
