import ClassScript.Proofs.Assembly
import ClassScript.Proofs.Lists

/-!
What the names of fields are made of. Whatever order fields are named in, and
whatever ancestors they avoid, a name has no characters but those of the declared
name and underscores.
-/

namespace ClassScript.Emission

/-- All characters of a name are from the declared name or underscores. -/
def MadeOf (declared name : String) : Prop :=
  ∀ c ∈ name.toList, c ∈ declared.toList ∨ c = '_'

/-- All names in the memo are made of the declared ones. -/
def AllMadeOf (known : FieldNames) : Prop :=
  ∀ entry ∈ known, MadeOf entry.1.name entry.2

theorem madeOf_append_underscore {declared name : String} (h : MadeOf declared name) :
    MadeOf declared (name ++ "_") := by
  intro c hc
  rw [String.toList_append, List.mem_append] at hc
  rcases hc with hname | hlast
  · exact h c hname
  · exact .inr (List.mem_singleton.1 hlast)

theorem madeOf_plainFieldName (name : String) : MadeOf name (plainFieldName name) := by
  intro c hc
  rw [plainFieldName, String.toList_append, String.toList_map, List.mem_append] at hc
  rcases hc with hfirst | hlater
  · exact .inr (List.mem_singleton.1 hfirst)
  · exact forall_mem_replaced (P := fun c => c ∈ name.toList ∨ c = '_') (.inr rfl)
      (fun _ hd _ => .inl hd) c hlater

theorem madeOf_freeName {declared name : String} (taken : List String) (h : MadeOf declared name) :
    MadeOf declared (freeName taken name) := by
  fun_induction freeName taken name with
  | case1 taken name hmem ih => exact ih (madeOf_append_underscore h)
  | case2 taken name hfree => exact h

/-- Fields of one declared name are given names made of it. -/
theorem allMadeOf_assignNames {declared name : String} (h : MadeOf declared name) {refs : List FieldRef}
    (hrefs : ∀ r ∈ refs, r.name = declared) (taken : List String) {known : FieldNames}
    (hknown : AllMadeOf known) : AllMadeOf (assignNames taken name refs known) := by
  induction refs generalizing taken name known with
  | nil => exact hknown
  | cons r rest ih =>
      have hfree := madeOf_freeName taken h
      refine ih hfree (fun s hs => hrefs s (List.mem_cons_of_mem _ hs)) _ fun entry hentry => ?_
      rcases List.mem_cons.1 hentry with rfl | hold
      · rw [hrefs r List.mem_cons_self]
        exact hfree
      · exact hknown entry hold

theorem name_of_mem_ownNamesakes {p : Program} {r other : FieldRef} (h : other ∈ ownNamesakes p r) :
    other.name = r.name := by
  unfold ownNamesakes at h
  split at h
  · next c _ =>
      obtain ⟨f, hf, rfl⟩ := List.mem_map.1 h
      have hname : f.name = r.name := by simpa using (List.mem_filter.1 hf).2
      exact hname
  · rw [List.mem_singleton.1 h]

/-- Naming one field names others on the way, and all of them so. -/
theorem nameField_keeps (p : Program) (fuel : Nat) (r : FieldRef) :
    Keeps AllMadeOf (nameField p fuel r) := by
  induction fuel generalizing r with
  | zero => exact .throw r
  | succ fuel ih =>
      rw [nameField]
      refine .get fun known => ?_
      cases known.lookup r with
      | some name => exact .pure name
      | none =>
          refine .bind (.mapM (fun f : Field => ih f.reference) _) fun taken => .bind (.modify ?_) fun _ => ?_
          · exact fun known hknown => allMadeOf_assignNames (madeOf_plainFieldName r.name)
              (fun other hother => name_of_mem_ownNamesakes hother) taken hknown
          · refine .get fun filled => ?_
            cases filled.lookup r with
            | some name => exact .pure name
            | none => exact .throw r

/-- A name that is given is in the memo afterwards. -/
theorem lookup_of_nameField {p : Program} {fuel : Nat} {r : FieldRef} {known filled : FieldNames}
    {name : String} (h : (nameField p fuel r).run known = (.ok name, filled)) :
    filled.lookup r = some name := by
  cases fuel with
  | zero => cases h
  | succ fuel =>
      rw [nameField, run_bind_ok (run_get known)] at h
      split at h
      · next given hgiven =>
          obtain ⟨rfl, rfl⟩ := eq_of_run_pure h
          exact hgiven
      · obtain ⟨taken, u, -, h⟩ := exists_of_run_bind_ok h
        obtain ⟨_, v, -, h⟩ := exists_of_run_bind_ok h
        rw [run_bind_ok (run_get v)] at h
        split at h
        · next given hgiven =>
            obtain ⟨rfl, rfl⟩ := eq_of_run_pure h
            exact hgiven
        · cases h

section Questions

variable {job : Job}

theorem run_declaredFieldName_fieldNames (f : Field) (s : State) :
    ((job.declaredFieldName f).run s).2.fieldNames =
      ((nameField job.program (namingDepth job.program) f.reference).run s.fieldNames).2 := by
  rw [Job.declaredFieldName, run_bind_ok (run_get s)]
  generalize (nameField job.program (namingDepth job.program) f.reference).run s.fieldNames = named
  obtain ⟨result, known⟩ := named
  cases result <;> rfl

/-- Nothing that is emitted brings other characters into the memo. -/
theorem Assembled.allMadeOf {α : Type} {x : Emit α} (h : Assembled job True x) {s t : State} {result : Except EmitError α} (hs : AllMadeOf s.fieldNames)
    (hrun : x.run s = (result, t)) : AllMadeOf t.fieldNames := by
  have hend : (x.run s).2 = t := by rw [hrun]
  rw [← hend]
  refine h.leads (P := fun s t => AllMadeOf s.fieldNames → AllMadeOf t.fieldNames) (fun _ => id)
    (fun h h' hs => h' (h hs)) ?_ ?_ ?_ ?_ s hs
  · intro v s hs
    rcases run_literal v with ⟨text, rfl⟩ | hrun
    · exact hs
    · rw [hrun]
      exact hs
  · intro site text s hs
    rw [run_render]
    exact hs
  · intro f s hs
    rw [run_declaredFieldName_fieldNames]
    exact nameField_keeps _ _ _ _ hs
  · intro _ level message values s hs
    rw [run_note]
    exact hs

/-- The name of a field is made of its declared name. -/
theorem madeOf_declaredFieldName {f : Field} {s t : State} (hs : AllMadeOf s.fieldNames) {name : String}
    (h : (job.declaredFieldName f).run s = (.ok name, t)) : MadeOf f.name name := by
  have hkeeps := nameField_keeps job.program (namingDepth job.program) f.reference s.fieldNames hs
  rw [Job.declaredFieldName, run_bind_ok (run_get s)] at h
  generalize hnamed : (nameField job.program (namingDepth job.program) f.reference).run s.fieldNames =
    named at h hkeeps
  obtain ⟨result, known⟩ := named
  cases result with
  | error e => cases h
  | ok given =>
      obtain ⟨_, u, -, h⟩ := exists_of_run_bind_ok h
      obtain ⟨rfl, -⟩ := eq_of_run_pure h
      obtain ⟨front, back, hknown, -⟩ := List.lookup_eq_some_iff.1 (lookup_of_nameField hnamed)
      have hentry : (f.reference, given) ∈ known := by
        rw [hknown]
        simp
      exact hkeeps _ hentry

end Questions

end ClassScript.Emission
