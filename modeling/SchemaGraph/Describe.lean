import SchemaGraph.Declared.Node
import SchemaGraph.Value.Literal

/-!
# One-line descriptions

How values of the library show up in logs. Functions and data of the host are
not shown; that something is left out is marked by two dots.
-/

set_option autoImplicit false

namespace SchemaGraph

/-- The name of a structure with its fields in braces. -/
def describeFields (name : String) (fields : List String) : String :=
  name ++ " \x7b " ++ ", ".intercalate fields ++ " \x7d"

def HostType.describe (t : HostType) : String := "Target(" ++ Text.quoted t.path ++ ")"

def InputConstructor.describe (c : InputConstructor) : String :=
  describeFields "InputConstructor" ["target: " ++ c.type.describe, ".."]

def Extends.describe (e : Extends) : String :=
  describeFields "Extends" ["parent: " ++ e.parent.describe, ".."]

def Instance.describe (i : Instance) : String :=
  describeFields "Instance" ["target: " ++ i.type.describe, ".."]

def Value.describe : Value → String
  | .null => "Null"
  | v => v.literal

def Parent.describe : Parent → String
  | .none => "None"
  | .instance i => "Instance(" ++ i.describe ++ ")"
  | .value v => "Value(" ++ v.describe ++ ")"

def Arguments.describe : Arguments → String
  | .none => "None"
  | .raw v => "Raw(" ++ v.describe ++ ")"
  | .instance _ => "Instance(..)"

/-- A resolver is not shown. -/
def describeResolver : String := "Resolver(..)"

/-- A context is not shown. -/
def describeContext : String := "ContextValue(..)"

def FieldCall.describe (call : FieldCall) : String :=
  describeFields "FieldCall"
    ["field: " ++ Text.quoted call.field, "parent: " ++ call.parent.describe,
      "args: " ++ call.args.describe, ".."]

def ScalarDef.describe (d : ScalarDef) : String :=
  describeFields "ScalarDefinition"
    ["name: " ++ Text.quoted d.name, "builtin: " ++ toString d.builtin]

/-- A type given on the spot, by the text of its kind. -/
def describeGiven (t : TypeExpr) (kind : String) : String :=
  "Wrapper(" ++ describeFields "Wrapper"
    ["kind: " ++ Text.quoted kind, "nullable: " ++ toString t.isNullable,
      "transform_output: " ++ toString t.hook?.isSome] ++ ")"

/-- The text of an inner type is quoted once more at every level. -/
def TypeExpr.describe : TypeExpr → String
  | .ref t => "Target(" ++ t.describe ++ ")"
  | .scalar d => describeGiven (.scalar d) ("Scalar(" ++ d.name ++ ")")
  | .enum d => describeGiven (.enum d) ("Enum(" ++ d.name ++ ")")
  | .union d => describeGiven (.union d) ("Union(" ++ d.name ++ ")")
  | .list item => describeGiven (.list item) ("List(" ++ describe item ++ ")")
  | .nullable inner => describeGiven (.nullable inner) ("Nullable(" ++ describe inner ++ ")")

end SchemaGraph
