/-!
# Similar names

A name that is not known may be a known one misspelled. Two names are as far
apart as the fewest bytes that have to be inserted, removed or exchanged to
turn one into the other; they are similar if that is less than half the length
of the longer one, rounded down. Names of up to three bytes are similar only to
themselves.
-/

set_option autoImplicit false

namespace SchemaGraph.Text

section Distance

variable {α : Type} [DecidableEq α]

/-- The next row of distances after its first entry. `left` is the entry before,
`diagonal` the one above it, and `row` what is left of the row above. -/
def rowFrom (a : α) (left diagonal : Nat) : List α → List Nat → List Nat
  | b :: bs, above :: row =>
    let exchanged := if a = b then diagonal else diagonal + 1
    let entry := min exchanged (min (left + 1) (above + 1))
    entry :: rowFrom a entry above bs row
  | _, _ => []

/-- From the distances between some word and every prefix of `bs`, shortest
first, to those between the word with `a` at its end and every prefix. -/
def nextRow (bs : List α) (a : α) : List Nat → List Nat
  | [] => []
  | diagonal :: row => (diagonal + 1) :: rowFrom a (diagonal + 1) diagonal bs row

/-- The fewest insertions, removals and exchanges that turn one word into the
other. -/
def distance (as bs : List α) : Nat :=
  (as.foldl (fun row a => nextRow bs a row) (List.range (bs.length + 1))).getLast?.getD 0

end Distance

/-- How far apart two names are, in bytes. -/
def nameDistance (a b : String) : Nat :=
  distance a.toUTF8.data.toList b.toUTF8.data.toList

/-- Whether one name may have been meant by the other. -/
def isSimilar (a b : String) : Bool :=
  nameDistance a b < max (a.utf8ByteSize / 2) (max (b.utf8ByteSize / 2) 1)

/-- The names that may have been meant, the nearest first; of equally near ones
the one that is known first. -/
def similar (name : String) (known : List String) : List String :=
  (known.filter (isSimilar name)).mergeSort fun a b =>
    nameDistance name a ≤ nameDistance name b

end SchemaGraph.Text
