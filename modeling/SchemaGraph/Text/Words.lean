import SchemaGraph.Text.Alphanumeric
import SchemaGraph.Text.LetterCase

/-!
# Words inside an identifier

`superAdmin`, `guest_user` and `HTTPServer` are each two words. Everything that
is neither letter nor digit separates words; inside a piece a word also ends
where lower case is followed by upper case, and before the last letter of an
upper-case run that goes on in lower case. Digits take the case of the letter
before them.
-/

set_option autoImplicit false

namespace SchemaGraph.Text

/-- The case of the letters last seen, or that none was seen since the word
began. -/
inductive CaseMode where
  | boundary
  | lower
  | upper
deriving DecidableEq, Repr

def CaseMode.after (mode : CaseMode) (c : Char) : CaseMode :=
  if isLowercase c then .lower else if isUppercase c then .upper else mode

/-- The words of a piece of letters and digits. `word` holds the word being
read, last character first. -/
def wordsOfPiece (mode : CaseMode) (word : List Char) : List Char → List (List Char)
  | [] => []
  | [c] => [(c :: word).reverse]
  | c :: next :: rest =>
    let now := mode.after c
    if now = .lower ∧ isUppercase next then
      (c :: word).reverse :: wordsOfPiece .boundary [] (next :: rest)
    else if mode = .upper ∧ isUppercase c ∧ isLowercase next then
      word.reverse :: wordsOfPiece .boundary [c] (next :: rest)
    else
      wordsOfPiece now (c :: word) (next :: rest)

/-- The maximal runs of letters and digits, in order. -/
def pieces (cs : List Char) : List (List Char) :=
  (go [] cs).filter (!·.isEmpty)
where
  go (piece : List Char) : List Char → List (List Char)
    | [] => [piece.reverse]
    | c :: rest =>
      if isAlphanumeric c then go (c :: piece) rest else piece.reverse :: go [] rest

def words (s : String) : List (List Char) :=
  (pieces s.toList).flatMap (wordsOfPiece .boundary [])

/-- Lower case throughout; a capital sigma that ends the word takes its final
form. -/
def lowerTail : List Char → List Char
  | [] => []
  | [c] => if c = 'Σ' then ['ς'] else toLowercase c
  | c :: rest => toLowercase c ++ lowerTail rest

/-- First character in upper case, the rest in lower case. -/
def capitalize : List Char → List Char
  | [] => []
  | c :: rest => toUppercase c ++ lowerTail rest

/-- Words capitalized and run together: `SuperAdmin`. -/
def pascalCase (s : String) : String :=
  String.ofList ((words s).flatMap capitalize)

/-- Words in upper case, joined by underscores: `SUPER_ADMIN`. -/
def constantCase (s : String) : String :=
  "_".intercalate ((words s).map fun w => String.ofList (w.flatMap toUppercase))

end SchemaGraph.Text
