import SchemaGraph.Schema.Basic
import SchemaGraph.Value.Literal

/-!
# The schema as a document

A schema is written type by type in the order of their names, one member per
line, each type followed by an empty line; then come the directives and the
roots. Descriptions stand in block quotes before what they describe, at the
same indentation. The built-in scalars are not written.
-/

set_option autoImplicit false

namespace SchemaGraph.Schema

def tabs (n : Nat) : String := String.ofList (List.replicate n '\t')

/-- The text with `indent` after every line break. -/
def indentLines (indent : String) (text : String) : String :=
  String.ofList (text.toList.flatMap fun c => if c = '\n' then c :: indent.toList else [c])

def descriptionText (level : Nat) (text : String) : String :=
  let t := tabs level
  t ++ "\"\"\"\n" ++ t ++ indentLines t text ++ "\n" ++ t ++ "\"\"\"\n"

def descriptionLines (level : Nat) : Option String → String
  | some text => descriptionText level text
  | none => ""

/-- Backslashes and controls are escaped in a reason, quotes are not. -/
def reasonChar (c : Char) : List Char :=
  if c = '\\' then ['\\', '\\']
  else if c = '\x08' then ['\\', 'b']
  else if c = '\x0c' then ['\\', 'f']
  else if c = '\n' then ['\\', 'n']
  else if c = '\r' then ['\\', 'r']
  else if c = '\t' then ['\\', 't']
  else [c]

def deprecationText : Option String → String
  | some reason =>
    " @deprecated(reason: \"" ++ String.ofList (reason.toList.flatMap reasonChar) ++ "\")"
  | none => ""

def inputText (i : CompiledInput) : String :=
  i.name ++ ": " ++ i.typeRef.render ++
    match i.default? with
    | some d => " = " ++ (Value.ofJson d).literal
    | none => ""

/-- One argument; `broken` says that arguments stand on lines of their own. -/
def argText (broken : Bool) (first : Bool) (i : CompiledInput) : String :=
  (if first then "" else ",")
    ++ (match i.description with
      | some text => "\n" ++ descriptionText 2 text
      | none => "")
    ++ (if broken then tabs 2 else if first then "" else " ")
    ++ inputText i

def argsText (args : List CompiledInput) : String :=
  match args with
  | [] => ""
  | first :: rest =>
    let broken := args.any (·.description.isSome)
    "(" ++ argText broken true first ++ "".intercalate (rest.map (argText broken false))
      ++ (if broken then "\n\t)" else ")")

def fieldLine (f : CompiledField) : String :=
  descriptionLines 1 f.description ++ "\t" ++ f.name ++ argsText f.args.values ++ ": "
    ++ f.typeRef.render ++ deprecationText f.deprecation ++ "\n"

def inputLine (i : CompiledInput) : String :=
  descriptionLines 1 i.description ++ "\t" ++ inputText i ++ "\n"

def enumLine (v : EnumValue) : String :=
  descriptionLines 1 v.description ++ "\t" ++ v.name ++ deprecationText v.deprecation ++ "\n"

/-- The values of an enum, the last one of a name counting. -/
def enumValues (d : EnumDef) : List EnumValue :=
  (OrderedMap.ofList (d.values.map fun v => (v.name, v))).values

def body (lines : List String) : String := " \x7b\n" ++ "".intercalate lines ++ "\x7d\n\n"

def implementsText (names : List String) : String :=
  match names.eraseDups with
  | [] => ""
  | names => " implements " ++ " & ".intercalate names

/-- The members of a union, each once. -/
def unionText (names : List String) : String :=
  match names.eraseDups with
  | [] => " ="
  | names => " = " ++ " | ".intercalate names

def typeText : CompiledType → String
  | .object t =>
    descriptionLines 0 t.description ++ "type " ++ t.name ++ implementsText t.interfaces
      ++ body (t.fields.values.map fieldLine)
  | .interface t =>
    descriptionLines 0 t.description ++ "interface " ++ t.name
      ++ body (t.fields.values.map fieldLine)
  | .inputObject t =>
    descriptionLines 0 t.description ++ "input " ++ t.name
      ++ body (t.fields.values.map inputLine)
  | .union t =>
    descriptionLines 0 t.description ++ "union " ++ t.name ++ unionText t.possibleTypes
      ++ "\n\n"
  | .enum d =>
    descriptionLines 0 d.description ++ "enum " ++ d.name
      ++ body ((enumValues d).map enumLine)
  | .scalar d => descriptionLines 0 d.description ++ "scalar " ++ d.name ++ "\n\n"

/-- Types of reserved names are not written. -/
def isWritten (t : CompiledType) : Bool := !isReserved t.name

/-- Whether something is deprecated that only the directive can say. -/
def hasDeprecation (t : CompiledType) : Bool :=
  match t with
  | .object t => t.fields.values.any (·.deprecation.isSome)
  | .enum d => (enumValues d).any (·.deprecation.isSome)
  | _ => false

def deprecatedDirective : String :=
  descriptionText 0 "Marks an element of a GraphQL schema as no longer supported."
    ++ "directive @deprecated(reason: String = \"No longer supported\") on "
    ++ "FIELD_DEFINITION | ARGUMENT_DEFINITION | INPUT_FIELD_DEFINITION | ENUM_VALUE\n"

def includeDirective : String :=
  descriptionText 0
      ("Directs the executor to include this field or fragment only when the `if` "
        ++ "argument is true.")
    ++ "directive @include(if: Boolean!) on FIELD | FRAGMENT_SPREAD | INLINE_FRAGMENT\n"

def skipDirective : String :=
  descriptionText 0
      ("Directs the executor to skip this field or fragment when the `if` "
        ++ "argument is true.")
    ++ "directive @skip(if: Boolean!) on FIELD | FRAGMENT_SPREAD | INLINE_FRAGMENT\n"

def sdl (s : Schema) : String :=
  let types := (Entries.ofList s.types.entries).map (·.2)
  "".intercalate ((types.filter isWritten).map typeText)
    ++ (if types.any hasDeprecation then deprecatedDirective else "")
    ++ includeDirective ++ skipDirective
    ++ "schema \x7b\n\tquery: " ++ s.query ++ "\n"
    ++ (match s.mutation? with
      | some name => "\tmutation: " ++ name ++ "\n"
      | none => "")
    ++ "\x7d\n"

end SchemaGraph.Schema
