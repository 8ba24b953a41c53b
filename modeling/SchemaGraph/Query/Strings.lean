import SchemaGraph.Json.Reader

/-!
# Strings in queries

A string that opens with one quote lies on one line and has the escapes of JSON;
any other character, a tab for instance, stands for itself. A string that opens
with three quotes is a block: it has no escapes, and the indentation that its
lines share is not part of the text.
-/

set_option autoImplicit false

namespace SchemaGraph.Query

def isLineEnd (c : Char) : Bool := c = '\n' || c = '\r'

/-- The text after an opening quote, up to the closing one. `read` holds the
characters so far, last first. -/
def readLine (fuel : Nat) (read : List Char) (cs : List Char) :
    Option (String × List Char) :=
  match fuel with
  | 0 => none
  | fuel + 1 =>
    match cs with
    | [] => none
    | '"' :: rest => some (String.ofList read.reverse, rest)
    | '\\' :: rest =>
      match Json.escape? rest with
      | some (c, rest) => readLine fuel (c :: read) rest
      | none => none
    | c :: rest => if isLineEnd c then none else readLine fuel (c :: read) rest

/-- What stands before the closing triple quotes. A backslash keeps triple
quotes from closing, and stays. -/
def readBlock (read : List Char) : List Char → Option (List Char × List Char)
  | [] => none
  | '\\' :: '"' :: '"' :: '"' :: rest => readBlock ('"' :: '"' :: '"' :: '\\' :: read) rest
  | '"' :: '"' :: '"' :: rest => some (read.reverse, rest)
  | c :: rest => readBlock (c :: read) rest

/-- The lines of a text. `line` holds the one being read, last character
first. -/
def splitLines (line : List Char) : List Char → List (List Char)
  | [] => [line.reverse]
  | '\r' :: '\n' :: rest => line.reverse :: splitLines [] rest
  | c :: rest =>
    if isLineEnd c then line.reverse :: splitLines [] rest else splitLines (c :: line) rest

def isIndent (c : Char) : Bool := c = ' ' || c = '\t'

def isBlankLine (line : List Char) : Bool := line.all isIndent

/-- The indentation that all lines with content share, the first line apart. -/
def sharedIndent (lines : List (List Char)) : Nat :=
  let indents := (lines.drop 1).filter (!isBlankLine ·) |>.map (·.takeWhile isIndent |>.length)
  indents.min?.getD 0

/-- A line that is shorter than the indentation stays as it is. -/
def dropIndent (indent : Nat) (line : List Char) : List Char :=
  if indent ≤ line.length then line.drop indent else line

/-- Without the blank lines at both ends. -/
def trimLines (lines : List (List Char)) : List (List Char) :=
  ((lines.dropWhile isBlankLine).reverse.dropWhile isBlankLine).reverse

/-- The text of a block. -/
def blockText (cs : List Char) : String :=
  let lines := splitLines [] cs
  let flush := lines.take 1 ++ (lines.drop 1).map (dropIndent (sharedIndent lines))
  "\n".intercalate ((trimLines flush).map String.ofList)

/-- The string at the start of `cs`, if one starts there. Where no triple quotes
close a block, its first two quotes are an empty string. -/
def lexString? (cs : List Char) : Option (String × List Char) :=
  match cs with
  | '"' :: '"' :: '"' :: rest =>
    match readBlock [] rest with
    | some (text, rest) => some (blockText text, rest)
    | none => some ("", '"' :: rest)
  | '"' :: rest => readLine (rest.length + 1) [] rest
  | _ => none

end SchemaGraph.Query
