import SchemaGraph.Query.Syntax

/-!
# Flaws of documents

What is wrong with a document by itself, whatever schema it is meant for. Braces
may be nested only so deep. There has to be an operation; if there are several,
all of them have names, and no two operations and no two fragments share one.
-/

set_option autoImplicit false

namespace SchemaGraph.Query

inductive Flaw where
  | tooNested
  | noOperation
  /-- An operation without a name is not alone. -/
  | severalOperations
  | operationTwice (name : String)
  | fragmentTwice (name : String)
deriving DecidableEq, Repr

def Flaw.message : Flaw → String
  | .tooNested => "recursion limit exceeded."
  | .noOperation => "document does not contain an operation"
  | .severalOperations => "document contains multiple operations"
  | .operationTwice name => s!"operation {name} is defined twice"
  | .fragmentTwice name => s!"fragment {name} is defined twice"

/-- How deep braces may be nested below those of an operation or a fragment. -/
def maxWrittenLevels : Nat := 64

/-- The first flaw of operations of these names that follow others of the names
`seen`. -/
def operationFlaw? (seen : List (Option String)) : List (Option String) → Option Flaw
  | [] => none
  | name? :: rest =>
    match name? with
    | none =>
      if seen.isEmpty then operationFlaw? [none] rest else some .severalOperations
    | some name =>
      if seen.contains none then some .severalOperations
      else if seen.contains (some name) then some (.operationTwice name)
      else operationFlaw? (some name :: seen) rest

/-- The first name of a fragment that an earlier one has. -/
def fragmentFlaw? (seen : List String) : List String → Option Flaw
  | [] => none
  | name :: rest =>
    if seen.contains name then some (.fragmentTwice name) else fragmentFlaw? (name :: seen) rest

namespace Document

/-- The selections that a document holds, of operations and fragments alike. -/
def bodies (d : Document) : List (List Selection) :=
  d.operations.map (·.selections) ++ d.fragments.map (·.selections)

def flaw? (d : Document) : Option Flaw :=
  if d.bodies.any fun b => maxWrittenLevels < Selection.levelsIn b then some .tooNested
  else
    (operationFlaw? [] (d.operations.map (·.name?)))
      <|> (fragmentFlaw? [] (d.fragments.map (·.name)))
      <|> (if d.operations.isEmpty then some .noOperation else none)

end Document

end SchemaGraph.Query
