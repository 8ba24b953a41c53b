/-!
# Host types

Schemas are declared on behalf of types of the host program. A host type is
known by its full path; messages and default schema names use the last segment
of the path, without type arguments.
-/

set_option autoImplicit false

namespace SchemaGraph

/-- A type of the host program, identified by its full path. -/
structure HostType where
  path : String
deriving DecidableEq, Repr, Inhabited

namespace HostType

/-- What follows the last double colon, or `found` if there is none. -/
def lastSegment (found : List Char) : List Char → List Char
  | [] => found
  | c :: rest =>
    if c = ':' ∧ rest.head? = some ':' then lastSegment rest.tail rest
    else lastSegment found rest

/-- The unqualified name: `app::model::Page<app::User>` is `Page`. -/
def shortName (t : HostType) : String :=
  let base := t.path.toList.takeWhile (· ≠ '<')
  String.ofList (lastSegment base base)

end HostType

end SchemaGraph
