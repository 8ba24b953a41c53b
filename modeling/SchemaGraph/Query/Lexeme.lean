import SchemaGraph.Query.Strings
import SchemaGraph.Text.Name

/-!
# The words and signs of queries

A query is read from left to right, and what can be read is not looked at again.
A name goes on for as long as it can; a keyword ends with its last letter,
whatever follows. Nothing has to stand between two words, so `trueish` in a list
is the keyword `true` and the name `ish`. Blanks, commas and comments mean
nothing; a comment goes to the end of its line.
-/

set_option autoImplicit false

namespace SchemaGraph.Query

def isIgnored (c : Char) : Bool :=
  c = ' ' || c = '\t' || c = ',' || c = '\ufeff' || isLineEnd c

/-- The text without what means nothing at its start. -/
def skipIgnored (inComment : Bool) : List Char → List Char
  | [] => []
  | c :: rest =>
    if inComment then skipIgnored (!isLineEnd c) rest
    else if c = '#' then skipIgnored true rest
    else if isIgnored c then skipIgnored false rest
    else c :: rest

/-- The text from the next word or sign on. -/
def next (cs : List Char) : List Char := skipIgnored false cs

/-- The text after the sign `c`. -/
def sign? (c : Char) (cs : List Char) : Option (List Char) :=
  match next cs with
  | d :: rest => if c = d then some rest else none
  | [] => none

/-- The text after a keyword. -/
def keyword? (word : String) (cs : List Char) : Option (List Char) :=
  if word.toList.isPrefixOf (next cs) then some ((next cs).drop word.length) else none

def name? (cs : List Char) : Option (String × List Char) :=
  match next cs with
  | c :: rest =>
    if Text.isNameStart c then
      let (more, rest) := rest.span Text.isNameContinue
      some (String.ofList (c :: more), rest)
    else none
  | [] => none

end SchemaGraph.Query
