import SchemaGraph.Host.Type
import SchemaGraph.OrderedMap
import SchemaGraph.Json.Basic

/-!
# Host values and the types they extend

A host value belongs to a host type and carries data. A type that extends
another lets its values be seen as values of the extended type; a view keeps
the data and remembers the types it was seen from. The links of all declared
objects together are the lineage, along which a value is looked for as a value
of some other type.
-/

set_option autoImplicit false

namespace SchemaGraph

/-- A value of a host type. -/
structure HostValue where
  type : HostType
  data : Json
  /-- The types this value was seen from, the first one first. -/
  seenFrom : List HostType := []
deriving Repr, Inhabited

/-- The same value as a value of `parent`. -/
def HostValue.seenAs (v : HostValue) (parent : HostType) : HostValue :=
  ⟨parent, v.data, v.seenFrom ++ [v.type]⟩

/-- A link from an extending type to the type it extends. -/
structure Extends where
  child : HostType
  parent : HostType
deriving DecidableEq, Repr, Inhabited

/-- The part of a value that belongs to the extended type; only values of the
extending type have one. -/
def Extends.upcast (link : Extends) (v : HostValue) : Option HostValue :=
  if v.type = link.child then some (v.seenAs link.parent) else none

/-- The links of the declared object types, by declaring type. -/
abbrev Lineage := OrderedMap HostType Extends

/-- What comes of looking for a value along a lineage. -/
inductive Sighting where
  | found (value : HostValue)
  | absent
  /-- The links lead in a circle that passes no value of the type asked for. -/
  | endless
deriving Repr, Inhabited

namespace Lineage

/-- Follow at most `steps` links from `v`, which stands where the links of
`current` begin, to a value of type `wanted`. -/
def follow (lineage : Lineage) (wanted : HostType) :
    Nat → HostValue → HostType → Sighting
  | 0, v, current =>
    if v.type = wanted then .found v
    else if (lineage.find? current).bind (·.upcast v) |>.isNone then .absent
    else .endless
  | steps + 1, v, current =>
    if v.type = wanted then .found v
    else
      match lineage.find? current with
      | none => .absent
      | some link =>
        match link.upcast v with
        | none => .absent
        | some v => follow lineage wanted steps v link.parent

/-- A walk that does not come to an end after as many steps as there are links
goes in a circle. -/
def view (lineage : Lineage) (wanted : HostType) (v : HostValue) : Sighting :=
  follow lineage wanted lineage.size v v.type

end Lineage

end SchemaGraph
