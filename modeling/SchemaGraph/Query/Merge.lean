import SchemaGraph.Value.Basic

/-!
# Merging answers

Two selections of one key are answered one after the other. Objects are merged
entry by entry, lists element by element; of anything else the first stays.
-/

set_option autoImplicit false

namespace SchemaGraph.Query

mutual

/-- Add an answer to the one before it. -/
def mergeInto (old : Value) : Value → Value
  | .obj entries =>
    match old with
    | .obj olds => .obj (mergeEntries olds entries)
    | old => old
  | .list items =>
    match old with
    | .list olds => .list (mergeItems olds items)
    | old => old
  | _ => old
termination_by structural new => new

def mergeEntries (olds : List (String × Value)) :
    List (String × Value) → List (String × Value)
  | [] => olds
  | (k, v) :: rest =>
    match Entries.find? olds k with
    | some old => mergeEntries (Entries.insert k (mergeInto old v) olds) rest
    | none => mergeEntries (Entries.insert k v olds) rest
termination_by structural entries => entries

/-- Only objects are merged inside lists. -/
def mergeItems (olds : List Value) : List Value → List Value
  | [] => olds
  | v :: rest =>
    match olds with
    | [] => []
    | .obj es :: olds => mergeInto (.obj es) v :: mergeItems olds rest
    | old :: olds => old :: mergeItems olds rest
termination_by structural items => items

end

/-- The object that the answers of selections make up, in the order in which
they were selected. -/
def objectOf (answers : List (String × Value)) : Value := .obj (mergeEntries [] answers)

end SchemaGraph.Query
