/-!
# Entries sorted by key

Objects of documents and of values are lists of entries in ascending order of
their keys, each key once. Keys are compared by code points, which is the order
of their UTF-8 bytes.
-/

set_option autoImplicit false

namespace SchemaGraph.Entries

universe u

variable {α : Type u}

/-- Store `a` under `k`, at its place in the order, replacing what was there. -/
def insert (k : String) (a : α) : List (String × α) → List (String × α)
  | [] => [(k, a)]
  | (l, b) :: rest =>
    if k = l then (k, a) :: rest
    else if k < l then (k, a) :: (l, b) :: rest
    else (l, b) :: insert k a rest

/-- The entries stored one after the other. -/
def ofList (entries : List (String × α)) : List (String × α) :=
  entries.foldl (fun sorted e => insert e.1 e.2 sorted) []

def find? (entries : List (String × α)) (k : String) : Option α := entries.lookup k

theorem find?_insert (k l : String) (a : α) (entries : List (String × α)) :
    find? (insert k a entries) l = if l = k then some a else find? entries l := by
  induction entries with
  | nil => by_cases h : l = k <;> simp [insert, find?, h]
  | cons e rest ih =>
    obtain ⟨m, b⟩ := e
    unfold find? at ih ⊢
    by_cases h : l = k
    · subst h
      simp only [insert]
      split
      · simp
      · split
        · simp
        · rename_i hlm _
          simp only [List.lookup_cons, beq_eq_false_iff_ne.2 hlm]
          simpa using ih
    · simp only [insert, h, if_false]
      split
      · rename_i hkm
        subst hkm
        simp [List.lookup_cons, beq_eq_false_iff_ne.2 h]
      · split
        · simp [List.lookup_cons, beq_eq_false_iff_ne.2 h]
        · by_cases hm : l = m
          · subst hm; simp
          · simp only [List.lookup_cons, beq_eq_false_iff_ne.2 hm]
            simpa [h] using ih

end SchemaGraph.Entries
