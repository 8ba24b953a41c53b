/-!
# Names

Everything a schema names is named by a letter or an underscore followed by
letters, digits and underscores, all of them ASCII.
-/

set_option autoImplicit false

namespace SchemaGraph.Text

def isNameStart (c : Char) : Bool := c.isAlpha || c = '_'

def isNameContinue (c : Char) : Bool := c.isAlphanum || c = '_'

/-- Whether the characters form a name. -/
def isNameChars : List Char → Bool
  | [] => false
  | c :: rest => isNameStart c && rest.all isNameContinue

def isName (s : String) : Bool := isNameChars s.toList

end SchemaGraph.Text
