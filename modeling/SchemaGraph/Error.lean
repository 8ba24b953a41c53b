import SchemaGraph.Host.Shape

/-!
# What can go wrong

Declaring, compiling and resolving fail for the reasons listed here. Each has a
stable code and a message; those that can only arise while a query runs are
told apart.
-/

set_option autoImplicit false

namespace SchemaGraph

inductive SchemaError where
  /-- A type was referred to and never declared. -/
  | notDeclared (type : String)
  | alreadyDeclared (type : String)
  /-- Two different definitions share a name. -/
  | nameCollision (type : String)
  | invalidName (name : String)
  /-- A type implements something that is not an interface. -/
  | notAnInterface (type interface : String)
  /-- A parent or a union member is not an object type. -/
  | notAnObject (type : String)
  /-- An object type extends itself, directly or through others. -/
  | inheritanceCycle (type : String)
  | duplicateArg (type field : String)
  /-- A field gives the type of an argument that nothing declares. -/
  | missingArg (type field : String)
  | argAndArgs (type field : String)
  | argsNotDeclared (type : String)
  /-- An arguments type has no input fields. -/
  | noArgsFound (type : String)
  | missingType (type field : String)
  | notOutputType (type field : String)
  | notInputType (type field : String)
  /-- A named type was asked for, and the reference has a modifier. -/
  | notNamedType (reference : String)
  /-- Nothing that can be compiled. -/
  | typeNotFound (type : String)
  | invalidRoot (root type : String)
  /-- Members were declared for types that were not. -/
  | orphanedDeclarations (types : List String)
  /-- Arguments were declared for fields that were not. -/
  | orphanedArgs (fields : List String)
  | unresolvedImplementation (interface type : String)
  | unresolvedUnionMember (union type : String)
  | unexpectedParent (field expected : String)
  | unexpectedArguments (field expected : String)
  /-- Arguments do not fit the type they are built into. -/
  | inputConstruction (type : String) (cause : DecodeError)
  /-- The compiled types do not form a schema. -/
  | schemaRejected (reason : String)
  | invalidConfig (reason : String)
  /-- Following references from the type comes to no end. -/
  | endless (type : String)
deriving Repr, Inhabited

namespace SchemaError

def code : SchemaError → String
  | .notDeclared _ => "NOT_DECORATED"
  | .alreadyDeclared _ => "DUPLICATE_DECLARATION"
  | .nameCollision _ => "NAME_COLLISION"
  | .invalidName _ => "INVALID_NAME"
  | .notAnInterface .. => "NOT_AN_INTERFACE"
  | .notAnObject _ => "NOT_AN_OBJECT"
  | .inheritanceCycle _ => "INHERITANCE_CYCLE"
  | .duplicateArg .. => "DUPLICATE_ARG"
  | .missingArg .. => "MISSING_ARG"
  | .argAndArgs .. => "ARG_AND_ARGS"
  | .argsNotDeclared _ => "ARGS_NOT_DECLARED"
  | .noArgsFound _ => "NO_ARGS_FOUND"
  | .missingType .. => "MISSING_TYPE"
  | .notOutputType .. => "NOT_OUTPUT_TYPE"
  | .notInputType .. => "NOT_INPUT_TYPE"
  | .notNamedType _ => "NOT_NAMED_TYPE"
  | .typeNotFound _ => "TYPE_NOT_FOUND"
  | .invalidRoot .. => "INVALID_ROOT"
  | .orphanedDeclarations _ => "ORPHANED_DECLARATIONS"
  | .orphanedArgs _ => "ORPHANED_ARGS"
  | .unresolvedImplementation .. => "UNRESOLVED_IMPLEMENTATION"
  | .unresolvedUnionMember .. => "UNRESOLVED_UNION_MEMBER"
  | .unexpectedParent .. => "UNEXPECTED_PARENT"
  | .unexpectedArguments .. => "UNEXPECTED_ARGUMENTS"
  | .inputConstruction .. => "INPUT_CONSTRUCTION"
  | .schemaRejected _ => "SCHEMA_BUILD_FAILED"
  | .invalidConfig _ => "INVALID_CONFIG"
  | .endless _ => "ENDLESS_REFERENCES"

def message : SchemaError → String
  | .notDeclared type => s!"Could not find metadata for '{type}'. Is it declared?"
  | .alreadyDeclared type => s!"'{type}' is already declared"
  | .nameCollision type => s!"Conflicting definitions share the type name '{type}'"
  | .invalidName name => s!"'{name}' is not a valid GraphQL name"
  | .notAnInterface type interface =>
    s!"Unexpected use of implements in '{type}'. " ++
      s!"Expected '{interface}' to be an interface type."
  | .notAnObject type => s!"Expected '{type}' to be an object type"
  | .inheritanceCycle type => s!"Inheritance cycle detected at '{type}'"
  | .duplicateArg type field =>
    s!"Unexpected number of arg uses for '{type}.{field}'. " ++
      "Only one arg is allowed, use args for multiple arguments."
  | .missingArg type field =>
    s!"Defined the option 'arg' in '{type}.{field}' but no arg declaration was found"
  | .argAndArgs type field =>
    s!"Both 'arg' and 'args' are set in '{type}.{field}'. " ++
      "Define a single parameter arg or args, not both."
  | .argsNotDeclared type => s!"Args not found for '{type}'. Is it declared as args?"
  | .noArgsFound type =>
    s!"No args found. Are you missing input field declarations on '{type}'?"
  | .missingType type field => s!"Could not determine the type of '{type}.{field}'"
  | .notOutputType type field =>
    s!"Expected the type of '{type}.{field}' to be an object, interface or wrapper type"
  | .notInputType type field => s!"Expected '{type}.{field}' to be an input type"
  | .notNamedType reference => s!"Named type not found for '{reference}'"
  | .typeNotFound type => s!"Type not found for '{type}'"
  | .invalidRoot root type => s!"Expected {root} type '{type}' to be an object type"
  | .orphanedDeclarations types =>
    "Declarations without a declared type: " ++ ", ".intercalate types
  | .orphanedArgs fields =>
    "Arg declarations without a declared field: " ++ ", ".intercalate fields
  | .unresolvedImplementation interface type =>
    s!"Error resolving type for {interface}: {type} not found in implementations"
  | .unresolvedUnionMember union type =>
    s!"Source not instance of passed types for {union}: {type}"
  | .unexpectedParent field expected =>
    s!"Field '{field}' expected a parent of type '{expected}'"
  | .unexpectedArguments field expected =>
    s!"Field '{field}' has no arguments of type '{expected}'"
  | .inputConstruction type cause =>
    s!"Failed to construct '{type}' from arguments: {cause.message}"
  | .schemaRejected reason => s!"Failed to build GraphQL schema: {reason}"
  | .invalidConfig reason => s!"Invalid configuration: {reason}"
  | .endless type => s!"The references of '{type}' have no end"

/-- Whether the error can only arise while a query runs. -/
def isRuntime : SchemaError → Bool
  | .unresolvedImplementation .. => true
  | .unresolvedUnionMember .. => true
  | .unexpectedParent .. => true
  | .unexpectedArguments .. => true
  | .inputConstruction .. => true
  | _ => false

end SchemaError

end SchemaGraph
