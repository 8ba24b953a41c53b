import SchemaGraph.OrderedMap

/-!
# What an ordered map holds

Looking a key up, asking for it and listing the values are three views of the
same entries. Keys are distinct, so an entry is found under its key and under
no other, and what the operations do to one view says what they do to all.
-/

set_option autoImplicit false

namespace SchemaGraph.OrderedMap

universe u v

variable {κ : Type u} {α : Type v}

theorem mem_values {m : OrderedMap κ α} {a : α} :
    a ∈ m.values ↔ ∃ k, (k, a) ∈ m.entries := by
  simp [values]

variable [DecidableEq κ]

theorem mem_of_lookup {entries : List (κ × α)} {k : κ} {a : α}
    (h : entries.lookup k = some a) : (k, a) ∈ entries := by
  obtain ⟨l₁, l₂, hl, -⟩ := List.lookup_eq_some_iff.mp h
  rw [hl]
  simp

theorem exists_lookup_of_mem {entries : List (κ × α)} {k : κ} {a : α}
    (h : (k, a) ∈ entries) : ∃ b, entries.lookup k = some b ∧ (k, b) ∈ entries := by
  cases hfind : entries.lookup k with
  | none =>
      have hne := List.lookup_eq_none_iff.mp hfind (k, a) h
      simp at hne
  | some b => exact ⟨b, rfl, mem_of_lookup hfind⟩

theorem lookup_eq_none {entries : List (κ × α)} {k : κ} (h : ∀ a, (k, a) ∉ entries) :
    entries.lookup k = none := by
  cases hfind : entries.lookup k with
  | none => rfl
  | some a => exact absurd (mem_of_lookup hfind) (h a)

theorem mem_of_find? {m : OrderedMap κ α} {k : κ} {a : α} (h : m.find? k = some a) :
    (k, a) ∈ m.entries := mem_of_lookup h

theorem lookup_of_mem {entries : List (κ × α)} (hnd : (entries.map Prod.fst).Nodup)
    {k : κ} {a : α} (h : (k, a) ∈ entries) : entries.lookup k = some a := by
  induction entries with
  | nil => cases h
  | cons e rest ih =>
      obtain ⟨l, b⟩ := e
      rw [List.map_cons, List.nodup_cons] at hnd
      rcases List.mem_cons.mp h with heq | hrest
      · cases heq
        simp
      · have hkl : k ≠ l := by
          rintro rfl
          exact hnd.1 (List.mem_map.mpr ⟨(k, a), hrest, rfl⟩)
        rw [List.lookup_cons, beq_eq_false_iff_ne.mpr hkl]
        exact ih hnd.2 hrest

theorem find?_eq_some_iff {m : OrderedMap κ α} {k : κ} {a : α} :
    m.find? k = some a ↔ (k, a) ∈ m.entries :=
  ⟨mem_of_find?, lookup_of_mem m.nodup_keys⟩

/-- Where no key comes twice it does not matter from which end one looks. -/
theorem lookup_reverse {entries : List (κ × α)} (hnd : (entries.map Prod.fst).Nodup) (k : κ) :
    entries.reverse.lookup k = entries.lookup k := by
  have hrev : (entries.reverse.map Prod.fst).Nodup := by
    rw [List.map_reverse]
    exact (List.reverse_perm _).nodup_iff.mpr hnd
  refine Option.ext fun a => ⟨fun h => ?_, fun h => ?_⟩
  · exact lookup_of_mem hnd (List.mem_reverse.mp (mem_of_lookup h))
  · exact lookup_of_mem hrev (List.mem_reverse.mpr (mem_of_lookup h))

/-- What holds of every entry, and of a new one, holds of all once that is
stored. -/
theorem forall_find?_insert {P : κ → α → Prop} {m : OrderedMap κ α} {k : κ} {a : α}
    (hm : ∀ {l b}, m.find? l = some b → P l b) (ha : P k a) {l : κ} {b : α}
    (h : (m.insert k a).find? l = some b) : P l b := by
  rw [find?_insert] at h
  split at h
  · next heq =>
      cases h
      exact heq ▸ ha
  · exact hm h

theorem contains_iff {m : OrderedMap κ α} {k : κ} :
    m.contains k = true ↔ ∃ a, m.find? k = some a := by
  simp only [contains, keys, find?_eq_some_iff, List.contains_iff_mem, List.mem_map,
    Prod.exists, exists_and_right, exists_eq_right]

theorem contains_of_find? {m : OrderedMap κ α} {k : κ} {a : α} (h : m.find? k = some a) :
    m.contains k = true := contains_iff.mpr ⟨a, h⟩

theorem mem_keys_iff {m : OrderedMap κ α} {k : κ} : k ∈ m.keys ↔ m.contains k = true := by
  simp [contains]

theorem contains_insert {m : OrderedMap κ α} {k l : κ} {a : α} :
    (m.insert k a).contains l = true ↔ l = k ∨ m.contains l = true := by
  simp only [contains_iff, find?_insert]
  by_cases h : l = k
  · simp [h]
  · simp [h]

theorem mem_values_insert {m : OrderedMap κ α} {k : κ} {a b : α}
    (h : b ∈ (m.insert k a).values) : b = a ∨ b ∈ m.values := by
  obtain ⟨l, hl⟩ := mem_values.mp h
  rw [← find?_eq_some_iff, find?_insert] at hl
  split at hl
  · exact Or.inl (Option.some.inj hl).symm
  · exact Or.inr (mem_values.mpr ⟨l, mem_of_find? hl⟩)

/-- A new key comes last. -/
theorem values_insert {m : OrderedMap κ α} {k : κ} (h : m.contains k = false) (a : α) :
    (m.insert k a).values = m.values ++ [a] := by
  have hk : k ∉ m.entries.map Prod.fst := fun hk => by
    rw [contains, keys, List.contains_iff_mem.mpr hk] at h
    cases h
  rw [insert, dif_neg hk, values, values, List.map_append]
  rfl

theorem find?_erase (m : OrderedMap κ α) (k l : κ) :
    (m.erase k).find? l = if l = k then none else m.find? l := by
  refine Option.ext fun a => ?_
  by_cases h : l = k
  · simp [find?_eq_some_iff, erase, h]
  · simp [find?_eq_some_iff, erase, h]

/-! ## Many insertions

However values are stored, a key takes its place when it comes first. Which
value it ends up with depends: storing replaces, storing what is new does
not. -/

theorem eraseDups_concat (l : List κ) (k : κ) :
    (l ++ [k]).eraseDups = if k ∈ l then l.eraseDups else l.eraseDups ++ [k] := by
  rw [List.eraseDups_append]
  by_cases h : k ∈ l
  · simp [h, List.removeAll]
  · simp [h, List.removeAll, List.eraseDups_cons]

/-- Erasing duplicates changes nothing where there are none. -/
theorem eraseDups_of_nodup {l : List κ} (h : l.Nodup) : l.eraseDups = l := by
  induction l with
  | nil => rfl
  | cons k rest ih =>
      obtain ⟨hk, hrest⟩ := List.nodup_cons.mp h
      have hkeep : rest.filter (fun l => !l == k) = rest := by
        refine List.filter_eq_self.mpr fun l hl => ?_
        have hne : l ≠ k := fun heq => hk (heq ▸ hl)
        simpa using hne
      rw [List.eraseDups_cons, hkeep, ih hrest]

theorem keys_insert (m : OrderedMap κ α) (k : κ) (a : α) :
    (m.insert k a).keys = if k ∈ m.keys then m.keys else m.keys ++ [k] := by
  unfold insert keys
  split
  · exact keys_replace m.entries k a
  · rw [List.map_append]
    rfl

theorem keys_insertNew (m : OrderedMap κ α) (k : κ) (a : α) :
    (m.insertNew k a).keys = if k ∈ m.keys then m.keys else m.keys ++ [k] := by
  unfold insertNew
  by_cases h : k ∈ m.keys
  · rw [if_pos (mem_keys_iff.mp h), if_pos h]
  · rw [if_neg (mt mem_keys_iff.mpr h), keys_insert]

theorem find?_eq_none_iff {m : OrderedMap κ α} {k : κ} :
    m.find? k = none ↔ k ∉ m.keys := by
  rw [mem_keys_iff, contains_iff, not_exists, Option.eq_none_iff_forall_not_mem]
  exact Iff.rfl

theorem find?_eq_none_of_contains {m : OrderedMap κ α} {k : κ} (h : m.contains k = false) :
    m.find? k = none := by
  rw [find?_eq_none_iff, mem_keys_iff, h]
  exact Bool.false_ne_true

theorem contains_eq_false {m : OrderedMap κ α} {k : κ} (h : m.find? k = none) :
    m.contains k = false := by
  rw [find?_eq_none_iff, mem_keys_iff, Bool.not_eq_true] at h
  exact h

/-- A free key is none of those that something is stored under. -/
theorem ne_of_free {m : OrderedMap κ α} {k l : κ} {a : α} (hfree : m.find? k = none)
    (h : m.find? l = some a) : l ≠ k := by
  rintro rfl
  rw [hfree] at h
  cases h

theorem find?_insert_self (m : OrderedMap κ α) (k : κ) (a : α) :
    (m.insert k a).find? k = some a := by
  rw [find?_insert, if_pos rfl]

/-- Storing under a free key leaves what is found. -/
theorem find?_insert_of_free {m : OrderedMap κ α} {k l : κ} {a b : α}
    (hfree : m.find? k = none) (h : m.find? l = some b) : (m.insert k a).find? l = some b := by
  rw [find?_insert, if_neg (ne_of_free hfree h)]
  exact h

theorem find?_insertNew (m : OrderedMap κ α) (k l : κ) (a : α) :
    (m.insertNew k a).find? l = (m.find? l).or (if l = k then some a else none) := by
  unfold insertNew
  split
  · next h =>
      obtain ⟨b, hb⟩ := contains_iff.mp h
      by_cases heq : l = k
      · simp [heq, hb]
      · simp [heq]
  · next h =>
      have hnone : m.find? k = none := find?_eq_none_iff.mpr (mt mem_keys_iff.mp h)
      rw [find?_insert]
      by_cases heq : l = k
      · simp [heq, hnone]
      · simp [heq]

/-- Keys stand in the order of their first entries. -/
theorem keys_foldl {f : OrderedMap κ α → κ × α → OrderedMap κ α}
    (hf : ∀ m e, (f m e).keys = if e.1 ∈ m.keys then m.keys else m.keys ++ [e.1])
    (entries : List (κ × α)) : ∀ {m : OrderedMap κ α} {ks : List κ},
      m.keys = ks.eraseDups →
      (entries.foldl f m).keys = (ks ++ entries.map Prod.fst).eraseDups := by
  induction entries with
  | nil =>
      intro m ks h
      rw [List.map_nil, List.append_nil]
      exact h
  | cons e rest ih =>
      intro m ks h
      have hstep : (f m e).keys = (ks ++ [e.1]).eraseDups := by
        simp only [hf, h, eraseDups_concat, List.mem_eraseDups]
      rw [List.foldl_cons, ih hstep, List.map_cons, List.append_assoc]
      rfl

theorem lookup_cons_ite (e : κ × α) (rest : List (κ × α)) (k : κ) :
    (e :: rest).lookup k = if k = e.1 then some e.2 else rest.lookup k := by
  obtain ⟨l, a⟩ := e
  by_cases h : k = l
  · simp [h]
  · simp [h, List.lookup_cons, beq_eq_false_iff_ne.mpr h]

/-- Of entries that are stored the last one of a key counts. -/
theorem find?_insertAll (entries : List (κ × α)) (k : κ) : ∀ m : OrderedMap κ α,
    (m.insertAll entries).find? k = (entries.reverse.lookup k).or (m.find? k) := by
  induction entries with
  | nil => exact fun m => rfl
  | cons e rest ih =>
      intro m
      have hrest := ih (m.insert e.1 e.2)
      rw [insertAll] at hrest ⊢
      rw [List.foldl_cons, hrest, find?_insert, List.reverse_cons, List.lookup_append,
        lookup_cons_ite, Option.or_assoc]
      congr 1
      split <;> rfl

/-- Of entries that are stored where their keys are new the first one counts. -/
theorem find?_foldl_insertNew (entries : List (κ × α)) (k : κ) : ∀ m : OrderedMap κ α,
    (entries.foldl (fun m e => m.insertNew e.1 e.2) m).find? k
      = (m.find? k).or (entries.lookup k) := by
  induction entries with
  | nil => exact fun m => (Option.or_none).symm
  | cons e rest ih =>
      intro m
      rw [List.foldl_cons, ih, find?_insertNew, Option.or_assoc, lookup_cons_ite]
      congr 1
      split <;> rfl

end SchemaGraph.OrderedMap
