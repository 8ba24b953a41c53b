import SchemaGraph.Proofs.Compile.Builds

/-!
# Requests that fail

A request that fails leaves behind what was kept before it failed. Put again to the same
compiler it fails again, and then keeps nothing more, so it fails for good; and an object or an
input object that was asked for is not among what is kept. The exception is what was kept and
not finished. A repeated run passes over it, and gets further than the one before: an interface
is found although its implementers failed, a union although its members did, and a shape
although it was never filled.

An interface that was met by way of one of its implementers is kept without it too, as long as
the implementer is in progress. That does no harm: whatever comes to the implementer again
builds it again, and fails where it failed.
-/

set_option autoImplicit false

namespace SchemaGraph

open CompileState Compile

variable {r : Registry} {s s' s₁ t : CompileState}

/-! ## Requests as runs -/

theorem CompileState.Retains.keptDefinition (h : Retains r s s') {l : Link} {name : String}
    {d : CompiledType} (hd : Compile.keptDefinition r l name s = some d) :
    Compile.keptDefinition r l name s' = some d := by
  cases l with
  | node id =>
      simp only [Compile.keptDefinition] at hd ⊢
      split at hd
      · obtain ⟨c, hc, rfl⟩ := Option.map_eq_some_iff.mp hd
        rw [h.objects hc, Option.map_some]
      · obtain ⟨c, hc, rfl⟩ := Option.map_eq_some_iff.mp hd
        rw [h.interfaces hc, Option.map_some]
      · obtain ⟨c, hc, rfl⟩ := Option.map_eq_some_iff.mp hd
        rw [h.inputObjects hc, Option.map_some]
      · cases hd
  | given t =>
      cases t with
      | scalar d' =>
          simp only [Compile.keptDefinition] at hd ⊢
          split at hd
          · next hbuiltin => rwa [if_pos hbuiltin]
          · next hcustom =>
              rw [if_neg hcustom]
              exact h.given hd
      | ref _ | enum _ | union _ | list _ | nullable _ => exact h.given hd

namespace Compile

theorem namedType_repeats (l : Link) : Repeats r (l.Mentions r) (namedType r l) := by
  refine (Repeats.link (enterable_enter r) l false).bind fun c => ?_
  dsimp only
  split
  · exact Repeats.throw _
  intro s hs
  cases hkept : keptDefinition r l c.typeRef.render s with
  | none =>
      refine .refused (e := .typeNotFound c.typeRef.render) ?_
      simp only [get_bind, hkept]
      rfl
  | some d =>
      refine .answered (a := d) ?_ (.refl r s) fun t ht => ?_
      · simp only [get_bind, hkept]
        rfl
      · simp only [get_bind, ht.keptDefinition hkept]
        rfl

end Compile

namespace Request

/-- What a request mentions by itself. -/
def Mentions (r : Registry) : Request → Mention → Prop
  | .type l _ | .outputType l _ _ _ | .inputType l _ _ _ | .named l => l.Mentions r
  | .object id | .interface id | .inputObject id => (· = .node id)
  | .fieldMap _ ids => fun m => ∃ i ∈ ids, r.FieldMentions i m

/-- Between requests every request can be repeated. -/
theorem ask_repeats (q : Request) (hs : s.Proper r) (hidle : s.inProgress = []) :
    RepeatsAt r (q.Mentions r) (q.ask r) s := by
  have henter := enterable_enter r
  have hid : ∀ id, id ∉ s.inProgress := by
    intro id
    rw [hidle]
    exact List.not_mem_nil
  cases q with
  | type l nonNull => exact (Repeats.link henter l nonNull s hs).map _
  | outputType l nonNull owner field =>
      exact (Repeats.outputLink henter l nonNull owner field s hs).map _
  | inputType l nonNull owner field =>
      exact (Repeats.inputLink henter l nonNull owner field s hs).map _
  | object id => exact (objectWith_repeats henter hs (hid id)).map _
  | interface id => exact (interfaceWith_repeats henter hs (hid id)).map _
  | inputObject id => exact (inputObjectWith_repeats henter hs (hid id)).map _
  | named l => exact (namedType_repeats l s hs).map _
  | fieldMap owner ids => exact (Repeats.fields henter owner ids ∅ s hs).map _

/-- It is never the bound on the depth that a request fails by. -/
theorem isEndless_of_ask {q : Request} {e : SchemaError} (h : q.ask r s = .error e s') :
    e.isEndless = false := by
  have hagree : Agree (fun _ => True) (fun _ => True) (q.askBy r (enter r))
      (q.askBy r (enter r)) :=
    askBy_agree (fun n hn => compileWithin_agree (by omega) (by omega)) q
  rw [ask_eq_askBy] at h
  exact (hagree s trivial).2.1 e s' h

end Request

/-! ## Compilers that have met failures -/

namespace CompileState

/-- A compiler gets from one state to the other by requests, whether they are answered or
fail. -/
def Visits (r : Registry) : CompileState → CompileState → Prop :=
  Relation.ReflTransGen fun s s' => ∃ q : Request, q.after r s = s'

theorem Visits.retains (h : Visits r s s') (hs : s.Proper r) (hidle : s.inProgress = []) :
    Retains r s s' := by
  induction h with
  | refl => exact .refl r s
  | tail _ hask ih =>
      obtain ⟨q, rfl⟩ := hask
      rw [Request.after_eq_stateAfter]
      exact ih.trans (q.ask_repeats (ih.proper hs) (ih.inProgress.trans hidle)).ext

/-- Whatever a new compiler has been asked, nothing is in progress between requests. -/
theorem Visits.idle (h : Visits r {} s) : s.Proper r ∧ s.inProgress = [] := by
  have hext := h.retains (.start r) rfl
  exact ⟨hext.proper (.start r), hext.inProgress⟩

/-- What a request asks for is not kept, or, if it is an interface, is kept without one of its
implementers. -/
def Lacks (r : Registry) (s : CompileState) : Request → Prop
  | .object id => s.objects.find? id = none
  | .inputObject id => s.inputObjects.find? id = none
  | .interface id => s.interfaces.find? id = none ∨
      ∃ implementers, r.implementers id = .ok implementers ∧
        ∃ i ∈ implementers, s.objects.find? i = none
  | _ => True

end CompileState

namespace Request

theorem ask_of_not_isAnswered {q : Request} (h : q.isAnswered r s = false) :
    ∃ e, q.ask r s = .error e (q.after r s) := by
  unfold isAnswered at h
  unfold after
  cases hrun : q.ask r s with
  | ok a s' => simp [hrun] at h
  | error e s' => exact ⟨e, rfl⟩

theorem lacks_of_failed {q : Request} {e : SchemaError} (hs : s.Proper r)
    (hidle : s.inProgress = []) (h : q.ask r s = .error e s') : s'.Lacks r q := by
  have hend := isEndless_of_ask h
  have henter := enterable_enter r
  cases q with
  | object id => exact objectWith_unkept henter hs (map_eq_error_iff.mp h)
  | inputObject id => exact inputObjectWith_unkept henter hs (map_eq_error_iff.mp h)
  | interface id =>
      have hid : id ∉ s.inProgress := by
        rw [hidle]
        exact List.not_mem_nil
      exact interfaceWith_open henter hs hid hend (map_eq_error_iff.mp h)
  | type _ _ | outputType _ _ _ _ | inputType _ _ _ _ | named _ | fieldMap _ _ => trivial

/-- A request that fails, put to a compiler that may have met failures before, fails again when
it is repeated, and then leaves the compiler as it is, so it fails however often it is repeated;
unless the first run left something half done. A declared type that was asked for is not kept,
or, if it is an interface, not with all its implementers. -/
theorem fails_again {q : Request} {e : SchemaError} (hs : Visits r {} s)
    (h : q.ask r s = .error e s') :
    ((∃ e', q.ask r s' = .error e' s') ∨ HalfDone r (q.Mentions r) s s') ∧
      s'.Lacks r q := by
  obtain ⟨hproper, hidle⟩ := hs.idle
  exact ⟨(q.ask_repeats hproper hidle).fails h (isEndless_of_ask h),
    lacks_of_failed hproper hidle h⟩

end Request

/-! ### An owner who is not declared

A user has an owner, and owners are not declared. A user is an entity besides. -/

namespace Unowned

def entity : HostType := ⟨"Entity"⟩

def user : HostType := ⟨"User"⟩

def owner : HostType := ⟨"Owner"⟩

/-- The types are nodes 1 and 4. -/
def registry : Registry := .ofDeclarations [
  .field entity { name := "id", type? := some .string },
  .interface entity {},
  .implement user entity,
  .field user { name := "owner", type? := some (.ref owner) },
  .object user {}]

/-- The user fails, and leaves the entities behind. -/
theorem user_fails : (Request.object 4).isAnswered registry {} = false ∧
    ((Request.object 4).after registry {}).interfaces.keys = [1] := by decide

theorem entity_kept :
    ((Request.object 4).after registry {}).interfaces.contains 1 = true := by
  rw [OrderedMap.contains, user_fails.2]
  rfl

/-- Of what is kept after a user failed nothing is half done, for a run that comes from it. -/
theorem not_halfDone : ¬ HalfDone registry ((Request.object 4).Mentions registry) {}
    ((Request.object 4).after registry {}) := by
  intro hopen
  cases hopen with
  | interface _ hkept hmet himplementers hi =>
      have hmem := OrderedMap.mem_keys_iff.mpr (OrderedMap.contains_of_find? hkept)
      rw [user_fails.2, List.mem_singleton] at hmem
      subst hmem
      obtain rfl := Except.ok.inj (himplementers.symm.trans (show _ = Except.ok [4] from rfl))
      obtain rfl := List.mem_singleton.mp hi
      cases hmet.eq_of_self
  | union _ hkept => cases hkept
  | shape _ hopen => cases hopen

/-- A user fails. Entities are kept by then, without it; but they were met by way of the user,
so nothing is half done, and the user fails again. -/
theorem user_fails_again : ∃ e e' s',
    (Request.object 4).ask registry {} = .error e s' ∧ s'.interfaces.contains 1 = true ∧
      (Request.object 4).ask registry s' = .error e' s' ∧ s'.objects.find? 4 = none := by
  obtain ⟨e, hfails⟩ := Request.ask_of_not_isAnswered user_fails.1
  obtain ⟨⟨e', hagain⟩ | hopen, hlacks⟩ := Request.fails_again .refl hfails
  · exact ⟨e, e', _, hfails, entity_kept, hagain, hlacks⟩
  · exact absurd hopen not_halfDone

/-- The entities fail with the user among them, and are answered the next time, from what
is kept. -/
theorem entity_answered : ∃ e a s' t,
    (Request.interface 1).ask registry {} = .error e s' ∧
      (Request.interface 1).ask registry s' = .ok a t ∧
      registry.implementers 1 = .ok [4] ∧ t.objects.find? 4 = none := by
  obtain ⟨e, hfails⟩ := Request.ask_of_not_isAnswered
    (show (Request.interface 1).isAnswered registry {} = false by decide)
  obtain ⟨a, hanswered⟩ := Request.ask_of_isAnswered
    (show (Request.interface 1).isAnswered registry
      ((Request.interface 1).after registry {}) = true by decide)
  exact ⟨e, a, _, _, hfails, hanswered, rfl, by decide⟩

end Unowned

end SchemaGraph
