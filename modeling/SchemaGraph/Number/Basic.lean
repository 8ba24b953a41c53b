import SchemaGraph.Number.Shortest

/-!
# Numbers as documents write them

A numeral without fraction and exponent that fits into 64 bits, signed or
unsigned, is an integer; every other numeral is a floating point number. The
two never coincide: `1` and `1.0` are different numbers.
-/

set_option autoImplicit false

namespace SchemaGraph

inductive Number where
  | int (value : Int)
  | float (value : Binary64)
deriving DecidableEq, Repr, Inhabited

namespace Number

/-- Equality of numbers: kinds must agree, and zeros of either sign are
equal. -/
def same : Number → Number → Bool
  | .int a, .int b => a = b
  | .float a, .float b => a.sameNumber b
  | _, _ => false

def render : Number → String
  | .int i => toString i
  | .float f => f.render

/-- Whether an integer is kept as one: it fits into 64 bits. -/
def fitsInteger (i : Int) : Bool := -(powTwo 63 : Int) ≤ i && i < powTwo 64

def digitsValue (digits : List Char) : Nat :=
  digits.foldl (fun n c => 10 * n + Decimal.digitValue c) 0

/-- The number written by a sign, whole digits, decimals and an exponent;
decimals or exponent that are absent from the text are `none`. A minus sign
before a bare zero makes it a floating point zero. -/
def ofNumeral? (negative : Bool) (whole : List Char) (decimals : Option (List Char))
    (exponent : Option Int) : Option Number :=
  let d := Decimal.ofDigits whole (decimals.getD [])
  let scaled : Decimal := ⟨d.digits, d.power + exponent.getD 0⟩
  let float := scaled.toBinary64?.map (Binary64.setSign negative)
  match decimals, exponent with
  | none, none =>
    let i : Int := if negative then -(digitsValue whole) else digitsValue whole
    if fitsInteger i ∧ ¬ (negative ∧ i = 0) then some (.int i) else float.map .float
  | _, _ => float.map .float

/-- Digits at the start of `cs`, at least one. -/
def lexDigits? (cs : List Char) : Option (List Char × List Char) :=
  match cs.span Char.isDigit with
  | ([], _) => none
  | (digits, rest) => some (digits, rest)

/-- The sign at the start of `cs`: whether there is a minus. -/
def lexSign (cs : List Char) : Bool × List Char :=
  match cs with
  | '-' :: rest => (true, rest)
  | cs => (false, cs)

/-- The digits before the point. A leading zero stands alone. -/
def lexWhole? (cs : List Char) : Option (List Char × List Char) :=
  match cs with
  | '0' :: rest => some (['0'], rest)
  | cs => lexDigits? cs

/-- Point and decimals at the start of `cs`, if there is a point. -/
def lexDecimals? (cs : List Char) : Option (Option (List Char) × List Char) :=
  match cs with
  | '.' :: rest => (lexDigits? rest).map fun (d, r) => (some d, r)
  | cs => some (none, cs)

/-- An exponent at the start of `cs`, if there is one. -/
def lexExponent? (cs : List Char) : Option (Option Int × List Char) :=
  match cs with
  | c :: rest =>
    if c = 'e' ∨ c = 'E' then
      match rest with
      | '-' :: rest => (lexDigits? rest).map fun (d, r) => (some (-(digitsValue d : Int)), r)
      | '+' :: rest => (lexDigits? rest).map fun (d, r) => (some (digitsValue d : Int), r)
      | rest => (lexDigits? rest).map fun (d, r) => (some (digitsValue d : Int), r)
    else some (none, cs)
  | [] => some (none, [])

/-- The numeral at the start of `cs`. Digits must follow a point and the mark of
an exponent. -/
def lex? (cs : List Char) : Option (Number × List Char) := do
  let (negative, cs) := lexSign cs
  let (whole, cs) ← lexWhole? cs
  let (decimals, cs) ← lexDecimals? cs
  let (exponent, cs) ← lexExponent? cs
  let n ← ofNumeral? negative whole decimals exponent
  pure (n, cs)

/-- The longest numeral at the start of `cs`. A point or the mark of an exponent
that no digits follow is not part of it. -/
def lexLongest? (cs : List Char) : Option (Number × List Char) := do
  let (negative, cs) := lexSign cs
  let (whole, cs) ← lexWhole? cs
  let (decimals, cs) := (lexDecimals? cs).getD (none, cs)
  let (exponent, cs) := (lexExponent? cs).getD (none, cs)
  let n ← ofNumeral? negative whole decimals exponent
  pure (n, cs)

end Number

end SchemaGraph
