import SchemaGraph.Number.Decimal

/-!
# The shortest decimal that reads back

A finite number is printed with the fewest significant digits that still round
to it. On the grid of decimals with `n` digits only the two neighbours of the
number matter: if any point of the grid rounds to it, one of those two does.
The first grid with a hit wins, of two hits the nearer, and of two equally near
the even one.
-/

set_option autoImplicit false

namespace SchemaGraph

namespace Binary64

/-- Whether `num / den < 10 ^ k`. -/
def belowPowerOfTen (num den : Nat) (k : Int) : Bool :=
  if k < 0 then num * powTen (-k).toNat < den else num < powTen k.toNat * den

/-- For a positive quotient, the least `k` with `num / den < 10 ^ k`. -/
def decimalPoint (num den : Nat) : Int :=
  let guess := ((num.log2 : Int) - den.log2 - 1) * 30103 / 100000
  let steps := (List.range 4).find? fun (i : Nat) => belowPowerOfTen num den (guess + i)
  guess + (steps.getD 4 : Nat)

/-- The better of the two neighbours of `4 * m * 2 ^ (q - 2)` on the grid of
multiples of `10 ^ t`, if one of them rounds to `m * 2 ^ q`. -/
def gridHit (m : Nat) (q : Int) (boundary : Bool) (t : Int) : Option Nat :=
  -- both sides are multiplied out: a grid point `c` becomes `c * x`, the
  -- quarter units of the number become multiples of `y`
  let x := (if t < 0 then 1 else powTen t.toNat) * (if q < 2 then powTwo (2 - q).toNat else 1)
  let y := (if t < 0 then powTen (-t).toNat else 1) * (if q < 2 then 1 else powTwo (q - 2).toNat)
  let low := (if boundary then 4 * m - 1 else 4 * m - 2) * y
  let high := (4 * m + 2) * y
  let inside (c : Nat) : Bool :=
    if m % 2 = 0 then low ≤ c * x && c * x ≤ high else low < c * x && c * x < high
  let c := 4 * m * y / x
  match inside c, inside (c + 1) with
  | true, true =>
    let down := 4 * m * y - c * x
    let up := (c + 1) * x - 4 * m * y
    if down < up ∨ (down = up ∧ c % 2 = 0) then some c else some (c + 1)
  | true, false => some c
  | false, true => some (c + 1)
  | false, false => none

/-- The shortest decimal of a finite number other than zero, sign apart. -/
def shortest (f : Binary64) : Decimal :=
  let m := f.significand
  let q := f.exponent
  let boundary := f.fraction = 0 ∧ 1 < f.biasedExponent
  let k := if q < 0 then decimalPoint m (powTwo (-q).toNat)
    else decimalPoint (m * powTwo q.toNat) 1
  let hit := (List.range 17).findSome? fun n =>
    let t := k - (n + 1 : Nat)
    (gridHit m q boundary t).map fun c => Decimal.mk c t
  (hit.getD ⟨m, q⟩).trim 400

end Binary64

/-- How a decimal is laid out: numbers below `10 ^ wholeDigits` and not below
`10 ^ (-leadingZeros - 1)` are written in positional notation, all others with
an exponent. -/
structure DecimalLayout where
  wholeDigits : Int
  leadingZeros : Int

namespace DecimalLayout

/-- The layout of numbers in JSON text. -/
def json : DecimalLayout := ⟨16, 4⟩

def zeros (n : Nat) : String := String.ofList (List.replicate n '0')

/-- A whole number keeps one decimal; an exponent always has its sign. -/
def render (layout : DecimalLayout) (d : Decimal) : String :=
  let digits := toString d.digits
  let length : Int := digits.length
  let point := length + d.power
  if 0 ≤ d.power ∧ point ≤ layout.wholeDigits then
    digits ++ zeros d.power.toNat ++ ".0"
  else if 0 < point ∧ point ≤ layout.wholeDigits then
    (digits.take point.toNat).toString ++ "." ++ (digits.drop point.toNat).toString
  else if -layout.leadingZeros ≤ point ∧ point ≤ 0 then
    "0." ++ zeros (-point).toNat ++ digits
  else
    let exponent := (if 0 < point then "+" else "") ++ toString (point - 1)
    if digits.length = 1 then digits ++ "e" ++ exponent
    else (digits.take 1).toString ++ "." ++ (digits.drop 1).toString ++ "e" ++ exponent

end DecimalLayout

/-- A finite number as JSON writes it. -/
def Binary64.render (f : Binary64) : String :=
  let sign := if f.isNegative then "-" else ""
  if f.isZero then sign ++ "0.0" else sign ++ DecimalLayout.json.render f.shortest

end SchemaGraph
