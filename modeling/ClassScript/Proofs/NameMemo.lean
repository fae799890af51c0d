import ClassScript.Proofs.FieldNaming

/-!
The memo of field names for references of all kinds, also such as no class of
the program declares. What a question is answered with depends on the program
alone: the memo holds nothing that the program does not determine.
-/

namespace ClassScript.Emission

/-- The name that the program determines for a reference. None is given to a
field that its class lacks; a field of no class goes by its plain name. -/
def settledName? (p : Program) (r : FieldRef) : Option String :=
  match p.class? r.owner with
  | some c => (namesAlong r.name (p.lineage c)).lookup r
  | none => some (plainFieldName r.name)

/-- Every name in the memo is the one that the program determines. -/
def Determined (p : Program) (known : FieldNames) : Prop :=
  ∀ r name, known.lookup r = some name → settledName? p r = some name

theorem determined_nil (p : Program) : Determined p [] := by
  intro r name h
  simp at h

section Settling

variable {p : Program} (hacyclic : p.Acyclic) (howns : p.OwnsFields)

theorem settledName?_of_class? {c : Class} {r : FieldRef} (h : p.class? r.owner = some c) :
    settledName? p r = (namesAlong r.name (p.lineage c)).lookup r := by
  simp [settledName?, h]

theorem settledName?_of_none {r : FieldRef} (h : p.class? r.owner = none) :
    settledName? p r = some (plainFieldName r.name) := by
  simp [settledName?, h]

theorem settledName?_own {c : Class} {r : FieldRef} (h : p.class? r.owner = some c)
    (hown : r ∈ ownNamesakes p r) : settledName? p r = some (settledName p r) := by
  rw [ownNamesakes_of_class? h] at hown
  obtain ⟨given, hgiven⟩ := lookup_assignNames_of_mem (takenAlong r.name (p.ancestors c))
    (plainFieldName r.name) hown
  have hlookup : settledName? p r = some given := by
    rw [settledName?_of_class? h, Program.lineage, namesAlong_cons, hgiven]
  have hname : settledName p r = given := by
    rw [settledName, h]
    rw [settledName?_of_class? h] at hlookup
    simp [hlookup]
  rw [hlookup, hname]

include howns in
theorem settledName?_absent {c : Class} {r : FieldRef} (h : p.class? r.owner = some c)
    (hown : r ∉ ownNamesakes p r) : settledName? p r = none := by
  have hc : c ∈ p.classes := List.mem_of_find?_eq_some h
  have howner : c.name = r.owner := by simpa using List.find?_some h
  have hancestors : ∀ d ∈ p.ancestors c, d ∈ p.classes := fun d hd =>
    Program.mem_classes_of_mem_ancestors hd
  have hother : ∀ d ∈ p.ancestors c, d.name ≠ r.owner := by
    intro d hd hname
    obtain rfl := Program.eq_of_name_eq (hancestors d hd) hc (hname.trans howner.symm)
    exact Program.not_self_mem_ancestors hd
  have habove : (namesAlong r.name (p.ancestors c ++ [])).lookup r = (namesAlong r.name []).lookup r :=
    lookup_namesAlong_append howns hancestors hother
  rw [List.append_nil] at habove
  rw [ownNamesakes_of_class? h] at hown
  rw [settledName?_of_class? h, Program.lineage, namesAlong_cons, lookup_assignNames_of_notMem hown,
    habove]
  rfl

include howns in
theorem settledName?_declared {c : Class} (hc : c ∈ p.classes) {f : Field} (hf : f ∈ c.fields) :
    settledName? p f.reference = some (settledName p f.reference) := by
  have hclass := class?_owner howns hc hf
  refine settledName?_own (c := c) hclass ?_
  rw [ownNamesakes_of_class? (c := c) hclass]
  exact List.mem_map_of_mem (Class.mem_fieldsNamed.2 ⟨hf, rfl⟩)

include hacyclic howns in
theorem determined_assignNames {c : Class} {r : FieldRef} (h : p.class? r.owner = some c)
    {known : FieldNames} (hknown : Determined p known) :
    Determined p (assignNames
      ((inheritedNamesakes p r).map fun g => settledName p g.reference)
      (plainFieldName r.name) (ownNamesakes p r) known) := by
  have hc : c ∈ p.classes := List.mem_of_find?_eq_some h
  intro other name hother
  by_cases hown : other ∈ ownNamesakes p r
  · rw [lookup_assigned_namesake hacyclic howns hc h hown] at hother
    rw [ownNamesakes_of_class? h] at hown
    obtain ⟨f, hf, rfl⟩ := List.mem_map.1 hown
    rw [settledName?_declared howns hc (Class.mem_fieldsNamed.1 hf).1]
    exact hother
  · rw [lookup_assignNames_of_notMem hown] at hother
    exact hknown other name hother

/-- The answer to a question for a name. -/
def answer (r : FieldRef) : Option String → Except FieldRef String
  | some name => .ok name
  | none => .error r

/-- A new reference of no class gets its plain name. -/
theorem nameField_foreign {r : FieldRef} (hclass : p.class? r.owner = none) (fuel : Nat)
    {known : FieldNames} (hlookup : known.lookup r = none) (hknown : Determined p known) :
    ∃ filled, Determined p filled ∧
      (nameField p (fuel + 1) r).run known = (answer r (settledName? p r), filled) := by
  have hinherited : inheritedNamesakes p r = [] := by simp [inheritedNamesakes, hclass]
  have hown : ownNamesakes p r = [r] := by simp [ownNamesakes, hclass]
  have hfree : freeName [] (plainFieldName r.name) = plainFieldName r.name := by simp [freeName]
  refine ⟨(r, plainFieldName r.name) :: known, ?_, ?_⟩
  · intro other name hother
    rw [List.lookup_cons] at hother
    split at hother
    · next heq =>
        obtain rfl : other = r := by simpa using heq
        rw [settledName?_of_none hclass, Option.some.inj hother]
    · exact hknown other name hother
  · rw [nameField, run_bind_ok (run_get known), hlookup, settledName?_of_none hclass, hinherited, hown]
    dsimp only
    rw [List.mapM_nil, pure_bind, run_bind_ok (run_modify _ _), run_bind_ok (run_get _)]
    simp only [assignNames, hfree, List.lookup_cons, beq_self_eq_true]
    rfl

include hacyclic howns in
/-- A new reference of a class gets its settled name once the inherited fields
of that name have theirs, or fails where the class lacks it. -/
theorem nameField_ofClass {c : Class} {r : FieldRef} (hclass : p.class? r.owner = some c) {fuel : Nat}
    (hinherited : ∀ g ∈ inheritedNamesakes p r,
      Yields (Determined p) (nameField p fuel g.reference) (settledName p g.reference))
    {known : FieldNames} (hlookup : known.lookup r = none) (hknown : Determined p known) :
    ∃ filled, Determined p filled ∧
      (nameField p (fuel + 1) r).run known = (answer r (settledName? p r), filled) := by
  have hc : c ∈ p.classes := List.mem_of_find?_eq_some hclass
  obtain ⟨filled, hrun, hfilled⟩ := Yields.mapM hinherited known hknown
  refine ⟨_, determined_assignNames hacyclic howns hclass hfilled, ?_⟩
  rw [nameField, run_bind_ok (run_get known), hlookup]
  dsimp only
  rw [run_bind_ok hrun, run_bind_ok (run_modify _ _), run_bind_ok (run_get _)]
  by_cases hown : r ∈ ownNamesakes p r
  · rw [lookup_assigned_namesake hacyclic howns hc hclass hown, settledName?_own hclass hown]
    rfl
  · have hnone := settledName?_absent howns hclass hown
    have hlast : filled.lookup r = none := by
      cases hfound : filled.lookup r with
      | none => rfl
      | some name => exact absurd (hfilled r name hfound) (by simp [hnone])
    rw [lookup_assignNames_of_notMem hown, hlast, hnone]
    rfl

include hacyclic howns in
/-- Whatever the memo holds, a reference gets the name that the program
determines, or fails if there is none. -/
theorem nameField_settled {r : FieldRef} {fuel : Nat}
    (hfuel : (inheritedNamesakes p r).length < fuel) {known : FieldNames}
    (hknown : Determined p known) :
    ∃ filled, Determined p filled ∧
      (nameField p fuel r).run known = (answer r (settledName? p r), filled) := by
  induction fuel generalizing r known with
  | zero => omega
  | succ fuel ih =>
      cases hlookup : known.lookup r with
      | some name =>
          rw [nameField, run_bind_ok (run_get known), hlookup, hknown r name hlookup]
          exact ⟨known, hknown, rfl⟩
      | none =>
          cases hclass : p.class? r.owner with
          | none => exact nameField_foreign hclass fuel hlookup hknown
          | some c =>
              have hc : c ∈ p.classes := List.mem_of_find?_eq_some hclass
              refine nameField_ofClass hacyclic howns hclass (fun g hg s hs => ?_) hlookup hknown
              rw [inheritedNamesakes_of_class? hclass] at hg
              obtain ⟨d, hd, hgd⟩ := List.mem_flatMap.1 hg
              rw [List.mem_reverse] at hd
              have hless := length_inheritedNamesakes_inherited hacyclic howns hc hd hclass hgd
              obtain ⟨filled, hfilled, hrun⟩ := ih (r := g.reference) (by omega) hs
              rw [settledName?_declared howns (Program.mem_classes_of_mem_ancestors hd)
                (Class.mem_fieldsNamed.1 hgd).1] at hrun
              exact ⟨filled, hrun, hfilled⟩

end Settling

section Questions

variable {job : Job} (hacyclic : job.program.Acyclic) (howns : job.program.OwnsFields)

include hacyclic howns in
/-- A question for the name of any field is answered alike from all states whose
memo is determined, and changes nothing but the memo. -/
theorem declaredFieldName_settled (f : Field) {s : State}
    (hs : Determined job.program s.fieldNames) :
    ∃ filled, Determined job.program filled ∧
      (job.declaredFieldName f).run s =
        ((answer f.reference (settledName? job.program f.reference)).mapError .resolverInvariant,
          { s with fieldNames := filled }) := by
  obtain ⟨filled, hfilled, hrun⟩ :=
    nameField_settled hacyclic howns (length_inheritedNamesakes_lt f.reference) hs
  refine ⟨filled, hfilled, ?_⟩
  rw [Job.declaredFieldName, run_bind_ok (run_get s), hrun]
  dsimp only
  rw [run_bind_ok (run_set _ _)]
  cases settledName? job.program f.reference with
  | none => rfl
  | some name => rfl

end Questions

end ClassScript.Emission
