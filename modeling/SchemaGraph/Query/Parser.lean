import SchemaGraph.OrderedMap
import SchemaGraph.Query.Lexeme
import SchemaGraph.Query.Syntax

/-!
# Parsing queries

Every function takes a text and answers what it read together with the text
after it. `fuel` bounds how often functions call each other; between two
characters that are consumed there are at most three calls.
-/

set_option autoImplicit false

namespace SchemaGraph.Query

def fuelFor (cs : List Char) : Nat := 3 * (cs.length + 1)

/-! ## Values -/

/-- The values that have a keyword. -/
def valueWords : List (String × Literal) :=
  [("true", .bool true), ("false", .bool false), ("null", .null)]

/-- A value with a keyword. -/
def parseValueWord (cs : List Char) : Option (Literal × List Char) :=
  valueWords.findSome? fun w => (keyword? w.1 cs).map fun rest => (w.2, rest)

/-- A value that contains no other. What starts with a keyword is that keyword,
and only then the name of an enum value. -/
def parseScalar (cs : List Char) : Option (Literal × List Char) :=
  ((Number.lexLongest? (next cs)).map fun (n, r) => (.num n, r))
    <|> ((lexString? (next cs)).map fun (s, r) => (.str s, r))
    <|> parseValueWord cs
    <|> ((name? cs).map fun (n, r) => (.enum n, r))

/-- A name and the colon after it. -/
def parseKey (cs : List Char) : Option (String × List Char) := do
  let (k, cs) ← name? cs
  let cs ← sign? ':' cs
  return (k, cs)

/-- An object. Of two entries with one key the later counts, in the place of the
earlier one. -/
def object (entries : List (String × Literal)) : Literal :=
  .obj (OrderedMap.ofList entries).entries

mutual

def parseLiteral (fuel : Nat) (cs : List Char) : Option (Literal × List Char) :=
  match fuel with
  | 0 => none
  | fuel + 1 =>
    match next cs with
    | '$' :: rest => (name? rest).map fun (n, r) => (.var n, r)
    | '[' :: rest => (parseItems fuel rest).map fun (items, r) => (.list items, r)
    | '\x7b' :: rest => (parseEntries fuel '\x7d' rest).map fun (es, r) => (object es, r)
    | cs => parseScalar cs
termination_by structural fuel

/-- Items up to the closing bracket. -/
def parseItems (fuel : Nat) (cs : List Char) : Option (List Literal × List Char) :=
  match fuel with
  | 0 => none
  | fuel + 1 =>
    match sign? ']' cs with
    | some rest => some ([], rest)
    | none =>
      match parseLiteral fuel cs with
      | none => none
      | some (l, rest) => (parseItems fuel rest).map fun (items, r) => (l :: items, r)
termination_by structural fuel

/-- Keys and values up to the sign `close`. -/
def parseEntries (fuel : Nat) (close : Char) (cs : List Char) :
    Option (List (String × Literal) × List Char) :=
  match fuel with
  | 0 => none
  | fuel + 1 =>
    match sign? close cs with
    | some rest => some ([], rest)
    | none =>
      match parseKey cs with
      | none => none
      | some (k, rest) =>
        match parseLiteral fuel rest with
        | none => none
        | some (l, rest) =>
          (parseEntries fuel close rest).map fun (es, r) => ((k, l) :: es, r)
termination_by structural fuel

end

/-! ## Selections -/

def parseOptionalArgs (cs : List Char) : Option (List (String × Literal) × List Char) :=
  match sign? '(' cs with
  | some rest => parseEntries (fuelFor rest) ')' rest
  | none => some ([], cs)

/-- A name after at least one blank and nothing but blanks; a comment is none. -/
def spacedName? (cs : List Char) : Option (String × List Char) :=
  let rest := cs.dropWhile isIgnored
  if rest.length < cs.length ∧ rest.head? ≠ some '#' then name? rest else none

/-- The type that selections apply to, up to the brace that opens them. -/
def parseCondition (cs : List Char) : Option (String × List Char) := do
  let cs ← keyword? "on" cs
  let (t, cs) ← spacedName? cs
  let cs ← sign? '\x7b' cs
  return (t, cs)

mutual

/-- Selections up to the closing brace. -/
def parseSelections (fuel : Nat) (cs : List Char) : Option (List Selection × List Char) :=
  match fuel with
  | 0 => none
  | fuel + 1 =>
    match sign? '\x7d' cs with
    | some rest => some ([], rest)
    | none =>
      match parseSelection fuel cs with
      | none => none
      | some (s, rest) => (parseSelections fuel rest).map fun (ss, r) => (s :: ss, r)
termination_by structural fuel

/-- After three dots: selections of their own, with or without a condition, or
else the name of a fragment. -/
def parseSelection (fuel : Nat) (cs : List Char) : Option (Selection × List Char) :=
  match fuel with
  | 0 => none
  | fuel + 1 =>
    match keyword? "..." cs with
    | some rest =>
      match parseCondition rest, sign? '\x7b' rest with
      | some (t, rest), _ =>
        (parseSelections fuel rest).map fun (ss, r) => (.fragment (some t) ss, r)
      | none, some rest =>
        (parseSelections fuel rest).map fun (ss, r) => (.fragment none ss, r)
      | none, none => (name? rest).map fun (n, r) => (.spread n, r)
    | none =>
      match parseKey cs, name? cs with
      | some (key, rest), _ =>
        match name? rest with
        | some (n, rest) => parseField fuel key n rest
        | none => none
      | none, some (n, rest) => parseField fuel n n rest
      | none, none => none
termination_by structural fuel

/-- The field after its name. -/
def parseField (fuel : Nat) (key name : String) (cs : List Char) : Option (Selection × List Char) :=
  match fuel with
  | 0 => none
  | fuel + 1 =>
    match parseOptionalArgs cs with
    | none => none
    | some (args, rest) =>
      match sign? '\x7b' rest with
      | some rest => (parseSelections fuel rest).map fun (ss, r) => (.field key name args ss, r)
      | none => some (.field key name args [], rest)
termination_by structural fuel

end

/-! ## Documents -/

/-- Whether the type of a variable admits null. Nothing else about it matters. -/
def parseType (fuel : Nat) (cs : List Char) : Option (Bool × List Char) :=
  match fuel with
  | 0 => none
  | fuel + 1 =>
    let core :=
      match sign? '[' cs with
      | some rest => (parseType fuel rest).bind fun item => sign? ']' item.2
      | none => (name? cs).map Prod.snd
    core.map fun rest =>
      match sign? '!' rest with
      | some rest => (false, rest)
      | none => (true, rest)

/-- Variables up to the closing parenthesis. -/
def parseVariables (fuel : Nat) (cs : List Char) : Option (List VariableDef × List Char) :=
  match fuel with
  | 0 => none
  | fuel + 1 =>
    match sign? ')' cs with
    | some rest => some ([], rest)
    | none => do
      let (name, cs) ← parseKey (← sign? '$' cs)
      let (nullable, cs) ← parseType (fuelFor cs) cs
      let (default?, cs) ← match sign? '=' cs with
        | some rest => (parseLiteral (fuelFor rest) rest).map fun (l, r) => (some l, r)
        | none => some (none, cs)
      let (vars, cs) ← parseVariables fuel cs
      return (⟨name, nullable, default?⟩ :: vars, cs)

/-- The kind of operation that a keyword begins. -/
def operationKind? (cs : List Char) : Option (OperationKind × List Char) :=
  OperationKind.all.findSome? fun kind => (keyword? kind.keyword cs).map (kind, ·)

def parseOperation (kind : OperationKind) (cs : List Char) : Option (Operation × List Char) := do
  let (name?, cs) :=
    match name? cs with
    | some (name, rest) => (some name, rest)
    | none => (none, cs)
  let (vars, cs) ← match sign? '(' cs with
    | some rest => parseVariables (fuelFor rest) rest
    | none => some ([], cs)
  let cs ← sign? '\x7b' cs
  let (selections, cs) ← parseSelections (fuelFor cs) cs
  return (⟨kind, name?, vars, selections⟩, cs)

def parseFragment (cs : List Char) : Option (Fragment × List Char) := do
  let (name, cs) ← name? cs
  let (on, cs) ← parseCondition cs
  let (selections, cs) ← parseSelections (fuelFor cs) cs
  return (⟨name, on, selections⟩, cs)

/-- Operations and fragments up to the end of the text. -/
def parseDocument (fuel : Nat) (cs : List Char) : Option Document :=
  match fuel with
  | 0 => none
  | fuel + 1 =>
    if (next cs).isEmpty then some ⟨[], []⟩
    else
      match keyword? "fragment" cs with
      | some rest => do
        let (f, rest) ← parseFragment rest
        let d ← parseDocument fuel rest
        return { d with fragments := f :: d.fragments }
      | none => do
        let (o, rest) ←
          match operationKind? cs with
          | some (kind, rest) => parseOperation kind rest
          | none => do
            let rest ← sign? '\x7b' cs
            let (selections, rest) ← parseSelections (fuelFor rest) rest
            pure (⟨.query, none, [], selections⟩, rest)
        let d ← parseDocument fuel rest
        return { d with operations := o :: d.operations }

def Document.ofString? (s : String) : Option Document :=
  parseDocument (fuelFor s.toList) s.toList

end SchemaGraph.Query
