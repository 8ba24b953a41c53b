/-!
# Maps that remember the order of insertion

Declared types, compiled fields and caches are all answered in the order in
which they were first stored, so a map here is a list of entries whose keys
are distinct. Storing under a key that is present replaces the value where it
stands; storing under a new key appends.
-/

set_option autoImplicit false

namespace SchemaGraph

universe u v

/-- Entries in the order of first insertion, no key twice. -/
structure OrderedMap (κ : Type u) (α : Type v) where
  entries : List (κ × α)
  nodup_keys : (entries.map Prod.fst).Nodup

namespace OrderedMap

variable {κ : Type u} {α : Type v}

@[ext] theorem ext {m n : OrderedMap κ α} (h : m.entries = n.entries) : m = n := by
  cases m; cases n; cases h; rfl

def empty : OrderedMap κ α := ⟨[], List.nodup_nil⟩

instance : EmptyCollection (OrderedMap κ α) := ⟨empty⟩

instance : Inhabited (OrderedMap κ α) := ⟨empty⟩

def keys (m : OrderedMap κ α) : List κ := m.entries.map Prod.fst

/-- The values, in the order of their keys. -/
def values (m : OrderedMap κ α) : List α := m.entries.map Prod.snd

def size (m : OrderedMap κ α) : Nat := m.entries.length

def isEmpty (m : OrderedMap κ α) : Bool := m.entries.isEmpty

variable [DecidableEq κ]

def find? (m : OrderedMap κ α) (k : κ) : Option α := m.entries.lookup k

def contains (m : OrderedMap κ α) (k : κ) : Bool := m.keys.contains k

theorem keys_replace (entries : List (κ × α)) (k : κ) (a : α) :
    (entries.map fun e => if e.1 = k then (k, a) else e).map Prod.fst
      = entries.map Prod.fst := by
  rw [List.map_map]
  apply List.map_congr_left
  intro e _
  by_cases h : e.1 = k <;> simp [h]

/-- Store `a` under `k`: in place if the key is present, at the end
otherwise. -/
def insert (m : OrderedMap κ α) (k : κ) (a : α) : OrderedMap κ α :=
  if h : k ∈ m.entries.map Prod.fst then
    { entries := m.entries.map fun e => if e.1 = k then (k, a) else e
      nodup_keys := by rw [keys_replace]; exact m.nodup_keys }
  else
    { entries := m.entries ++ [(k, a)]
      nodup_keys := by
        rw [List.map_append, List.nodup_append]
        refine ⟨m.nodup_keys, by simp, ?_⟩
        intro x hx y hy hxy
        simp only [List.map_cons, List.map_nil, List.mem_singleton] at hy
        exact h (hy ▸ hxy ▸ hx) }

/-- Store `a` under `k` unless the key is present. -/
def insertNew (m : OrderedMap κ α) (k : κ) (a : α) : OrderedMap κ α :=
  if m.contains k then m else m.insert k a

/-- Forget `k`; the other entries keep their order. -/
def erase (m : OrderedMap κ α) (k : κ) : OrderedMap κ α where
  entries := m.entries.filter fun e => e.1 ≠ k
  nodup_keys := m.nodup_keys.sublist (List.filter_sublist.map Prod.fst)

def insertAll (m : OrderedMap κ α) (entries : List (κ × α)) : OrderedMap κ α :=
  entries.foldl (fun m e => m.insert e.1 e.2) m

/-- The map built by storing `entries` one after the other. -/
def ofList (entries : List (κ × α)) : OrderedMap κ α := insertAll ∅ entries

/-! Looking up after storing: the key that was stored answers the new value,
every other key answers as before. -/

theorem lookup_replace (entries : List (κ × α)) (k l : κ) (a : α)
    (h : k ∈ entries.map Prod.fst) :
    (entries.map fun e => if e.1 = k then (k, a) else e).lookup l
      = if l = k then some a else entries.lookup l := by
  induction entries with
  | nil => simp at h
  | cons e r ih =>
    obtain ⟨x, b⟩ := e
    by_cases hx : x = k
    · subst hx
      by_cases hl : l = x
      · subst hl; simp
      · have hmap : ∀ r : List (κ × α),
            (r.map fun e => if e.1 = x then (x, a) else e).lookup l = r.lookup l := by
          intro r
          induction r with
          | nil => rfl
          | cons e r ih =>
            obtain ⟨y, c⟩ := e
            by_cases hy : y = x
            · subst hy
              simp [List.lookup_cons, ih, beq_eq_false_iff_ne.2 hl]
            · simp only [List.map_cons, hy, if_false, List.lookup_cons]
              rw [ih]
        simp [List.lookup_cons, hl, hmap, beq_eq_false_iff_ne.2 hl]
    · have hk : k ∈ r.map Prod.fst := by
        simpa [Ne.symm hx, eq_comm, hx] using h
      have := ih hk
      by_cases hl : l = x
      · subst hl
        simp [hx]
      · simp only [List.map_cons, hx, if_false, List.lookup_cons, beq_eq_false_iff_ne.2 hl]
        exact this

theorem lookup_append_new (entries : List (κ × α)) (k l : κ) (a : α)
    (h : k ∉ entries.map Prod.fst) :
    (entries ++ [(k, a)]).lookup l = if l = k then some a else entries.lookup l := by
  induction entries with
  | nil =>
    by_cases hl : l = k
    · simp [hl]
    · simp [List.lookup_cons, hl, beq_eq_false_iff_ne.2 hl]
  | cons e r ih =>
    obtain ⟨x, b⟩ := e
    have hx : k ≠ x := fun hk => h (by simp [hk])
    have hr : k ∉ r.map Prod.fst := fun hk => h (by simp [hk])
    by_cases hl : l = x
    · subst hl
      simp [Ne.symm hx]
    · simp only [List.cons_append, List.lookup_cons, beq_eq_false_iff_ne.2 hl]
      exact ih hr

theorem find?_insert (m : OrderedMap κ α) (k l : κ) (a : α) :
    (m.insert k a).find? l = if l = k then some a else m.find? l := by
  unfold insert find?
  by_cases h : k ∈ m.entries.map Prod.fst
  · rw [dif_pos h]; exact lookup_replace _ _ _ _ h
  · rw [dif_neg h]; exact lookup_append_new _ _ _ _ h

theorem find?_empty (k : κ) : (∅ : OrderedMap κ α).find? k = none := rfl

end OrderedMap

end SchemaGraph
