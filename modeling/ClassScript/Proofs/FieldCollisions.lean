import ClassScript.Proofs.FieldNumbering
import Mathlib.Data.List.DropRight
import Mathlib.Data.Nat.Find

/-!
Where the names of two fields of one object meet. A name is the declared one with
`$` read as `_`, and then as many `_` as it takes to stay clear of the namesakes
of the field; fields of other declared names are not looked at. So names that
differ in more than `$` and the `_` at their ends are kept apart by any number of
namesakes, and names that differ in nothing else can become the same.
-/

namespace ClassScript

namespace Emission

/-- A text without the `_` at its end. -/
def stem (text : String) : List Char :=
  text.toList.rdropWhile (· = '_')

section Stems

variable {a b : String} {m n : Nat}

theorem toList_append_underscores (a : String) (m : Nat) :
    (a ++ underscores m).toList = a.toList ++ List.replicate m '_' := by
  rw [String.toList_append, underscores, String.toList_ofList]

theorem length_append_underscores (a : String) (m : Nat) :
    (a ++ underscores m).length = a.length + m := by
  simp [underscores]

theorem stem_append_underscores (a : String) (m : Nat) : stem (a ++ underscores m) = stem a := by
  rw [stem, toList_append_underscores]
  induction m with
  | zero => rw [List.replicate_zero, List.append_nil, stem]
  | succ m ih =>
      rw [List.replicate_succ', ← List.append_assoc, List.rdropWhile_concat_pos _ _ _ (by simp), ih]

/-- A text is its stem and some `_`. -/
theorem exists_toList_eq_stem (a : String) : ∃ k, a.toList = stem a ++ List.replicate k '_' := by
  have hends : a.toList.rtakeWhile (· = '_') =
      List.replicate (a.toList.rtakeWhile (· = '_')).length '_' :=
    List.eq_replicate_of_mem fun c hc => by simpa using List.mem_rtakeWhile_imp hc
  refine ⟨(a.toList.rtakeWhile (· = '_')).length, ?_⟩
  rw [stem, ← hends, List.rdropWhile_append_rtakeWhile]

/-- Texts that are extended by `_` meet just if they differ in nothing else and
come to the same length. -/
theorem append_underscores_eq_iff :
    a ++ underscores m = b ++ underscores n ↔ stem a = stem b ∧ a.length + m = b.length + n := by
  constructor
  · intro h
    rw [← stem_append_underscores a m, ← length_append_underscores, h, stem_append_underscores,
      length_append_underscores]
    exact ⟨rfl, rfl⟩
  · rintro ⟨hstem, hlength⟩
    obtain ⟨j, hj⟩ := exists_toList_eq_stem a
    obtain ⟨k, hk⟩ := exists_toList_eq_stem b
    have ha : a.length = (stem a).length + j := by
      rw [← String.length_toList, hj, List.length_append, List.length_replicate]
    have hb : b.length = (stem a).length + k := by
      rw [← String.length_toList, hk, List.length_append, List.length_replicate, hstem]
    have hsame : j + m = k + n := by omega
    rw [← String.toList_inj, toList_append_underscores, toList_append_underscores, hj, hk, hstem,
      List.append_assoc, List.append_assoc, List.replicate_append_replicate,
      List.replicate_append_replicate, hsame]

end Stems

section Extensions

variable {name : String} {taken : List String} {i n : Nat}

/-- So many different extensions need as many places. -/
theorem le_length_of_taken (h : ∀ m < n, name ++ underscores m ∈ taken) : n ≤ taken.length := by
  have hnodup : ((List.range n).map fun m => name ++ underscores m).Nodup :=
    List.nodup_range.map fun _ _ => append_underscores_inj.1
  have hsub : ((List.range n).map fun m => name ++ underscores m) ⊆ taken := by
    intro text htext
    obtain ⟨m, hm, rfl⟩ := List.mem_map.1 htext
    exact h m (List.mem_range.1 hm)
  have hlength := (hnodup.subperm hsub).length_le
  rwa [List.length_map, List.length_range] at hlength

/-- A name is extended to the first extension that is not taken, and there is
one among the first. -/
theorem exists_freeName (hbelow : ∀ m < i, name ++ underscores m ∈ taken) :
    ∃ k ≤ taken.length, freeName taken (name ++ underscores i) = name ++ underscores k ∧
      ∀ m < k, name ++ underscores m ∈ taken := by
  have hfree : ∃ k, name ++ underscores k ∉ taken := by
    by_contra hall
    have hmany := le_length_of_taken (n := taken.length + 1)
      fun m _ => not_not.1 (not_exists.1 hall m)
    omega
  classical
  have hfirst : ∀ m < Nat.find hfree, name ++ underscores m ∈ taken := fun m hm =>
    not_not.1 (Nat.find_min hfree hm)
  have hle : i ≤ Nat.find hfree := by
    by_contra hlt
    exact Nat.find_spec hfree (hbelow _ (by omega))
  have hextend : ∀ m, name ++ underscores i ++ underscores m = name ++ underscores (i + m) := by
    simp [underscores, ← String.toList_inj, List.replicate_append_replicate]
  refine ⟨Nat.find hfree, le_length_of_taken hfirst, ?_, hfirst⟩
  rw [freeName_eq (n := Nat.find hfree - i), hextend, Nat.add_sub_cancel' hle]
  · intro m hm
    rw [hextend]
    exact hfirst _ (by omega)
  · rw [hextend, Nat.add_sub_cancel' hle]
    exact Nat.find_spec hfree

/-- Fields that are named in turn get extensions of the name they start from. -/
theorem exists_of_mem_assignNames (hbelow : ∀ m < i, name ++ underscores m ∈ taken)
    {refs : List FieldRef} {entry : FieldRef × String}
    (h : entry ∈ assignNames taken (name ++ underscores i) refs []) :
    ∃ k < taken.length + refs.length, entry.2 = name ++ underscores k := by
  induction refs generalizing taken i with
  | nil => simp [assignNames] at h
  | cons r rest ih =>
      obtain ⟨k, hk, hfree, hfirst⟩ := exists_freeName hbelow
      simp only [assignNames, hfree] at h
      rw [assignNames_append] at h
      rw [List.length_cons]
      rcases List.mem_append.1 h with hlater | hhere
      · obtain ⟨l, hl, hname⟩ := ih (fun m hm => List.mem_cons_of_mem _ (hfirst m hm)) hlater
        rw [List.length_cons] at hl
        exact ⟨l, by omega, hname⟩
      · rw [List.mem_singleton.1 hhere]
        exact ⟨k, by omega, rfl⟩

/-- Along a line a field gets one of as many extensions of its declared name as
there are fields of that name, also where a class repeats a field. -/
theorem exists_lookup_namesAlong {line : List Class} {f : Field} (hf : f ∈ namesakesAlong name line) :
    ∃ k < (namesakesAlong name line).length,
      (namesAlong name line).lookup f.reference = some (plainFieldName name ++ underscores k) := by
  induction line with
  | nil => simp [namesakesAlong] at hf
  | cons c above ih =>
      have htaken : (takenAlong name above).length = (namesakesAlong name above).length := by
        rw [takenAlong, List.length_map, namesakesAlong]
      rw [namesakesAlong_cons] at hf
      rw [namesAlong_cons, namesakesAlong_cons, List.length_append]
      by_cases hown : f.reference ∈ (c.fieldsNamed name).map Field.reference
      · obtain ⟨given, hgiven⟩ := lookup_assignNames_of_mem (takenAlong name above)
          (plainFieldName name) hown
        have hmem : (f.reference, given) ∈ assignNames (takenAlong name above)
            (plainFieldName name ++ underscores 0) ((c.fieldsNamed name).map Field.reference) [] := by
          rw [append_underscores_zero]
          obtain ⟨front, back, hsplit, -⟩ := List.lookup_eq_some_iff.1 (hgiven [])
          rw [hsplit]
          simp
        obtain ⟨k, hk, hname⟩ := exists_of_mem_assignNames (fun m hm => absurd hm (Nat.not_lt_zero m)) hmem
        rw [htaken, List.length_map] at hk
        exact ⟨k, hk, by rw [hgiven, ← hname]⟩
      · have habove : f ∈ namesakesAlong name above :=
          (List.mem_append.1 hf).resolve_right fun h => hown (List.mem_map_of_mem h)
        obtain ⟨k, hk, hname⟩ := ih habove
        rw [lookup_assignNames_of_notMem hown]
        exact ⟨k, by omega, hname⟩

end Extensions

/-- How many fields of that declared name an object of the class has. -/
def namesakeCount (p : Program) (c : Class) (name : String) : Nat :=
  ((p.lineage c).flatMap (·.fieldsNamed name)).length

theorem exists_settledName {p : Program} (hacyclic : p.Acyclic) (howns : p.OwnsFields) {c : Class}
    (hc : c ∈ p.classes) {f : Field} (hf : f ∈ (p.lineage c).flatMap (·.fields)) :
    ∃ k < namesakeCount p c f.name,
      settledName p f.reference = plainFieldName f.name ++ underscores k := by
  obtain ⟨k, hk, hname⟩ := exists_lookup_namesAlong (mem_namesakesAlong hf)
  have hcount : (namesakesAlong f.name (p.lineage c)).length = namesakeCount p c f.name :=
    ((List.reverse_perm _).flatMap_right _).length_eq
  refine ⟨k, hcount ▸ hk, ?_⟩
  rw [settledName_visible hacyclic howns hc hf, hname, Option.getD_some]

/-- After any questions, every field of an object has an extension of its declared
name by fewer `_` than it has namesakes there, and a reference to it has the same.
The names of two fields are the same just if the declared names differ in nothing
but `$` and the `_` at their ends, and the extensions come to the same length. -/
theorem fieldNames_meet_iff (job : Job) (hacyclic : job.program.Acyclic)
    (howns : job.program.OwnsFields) (calls others : List NameCall)
    (hcalls : ∀ call ∈ calls, call.About job.program)
    (hothers : ∀ call ∈ others, call.About job.program) {c : Class} (hc : c ∈ job.program.classes)
    {f g : Field} (hf : f ∈ (job.program.lineage c).flatMap (·.fields))
    (hg : g ∈ (job.program.lineage c).flatMap (·.fields)) :
    ∃ i < namesakeCount job.program c f.name, ∃ j < namesakeCount job.program c g.name,
      ((job.declaredFieldName f).runFrom (stateAfter job calls)).1 =
        .ok (plainFieldName f.name ++ underscores i) ∧
      ((job.declaredFieldName g).runFrom (stateAfter job others)).1 =
        .ok (plainFieldName g.name ++ underscores j) ∧
      (∀ r, job.program.findField r = some f →
        ((job.fieldName r).runFrom (stateAfter job calls)).1 =
          .ok (plainFieldName f.name ++ underscores i)) ∧
      (plainFieldName f.name ++ underscores i = plainFieldName g.name ++ underscores j ↔
        stem (plainFieldName f.name) = stem (plainFieldName g.name) ∧
          (plainFieldName f.name).length + i = (plainFieldName g.name).length + j) := by
  have hanswer : ∀ {f : Field} {calls : List NameCall},
      f ∈ (job.program.lineage c).flatMap (·.fields) → (∀ call ∈ calls, call.About job.program) →
      ((job.declaredFieldName f).runFrom (stateAfter job calls)).1 =
        .ok (settledName job.program f.reference) := by
    intro f calls hf hcalls
    obtain ⟨t, hrun, _⟩ := declaredFieldName_yields hacyclic howns (declares_of_visible hc hf) _
      (stateAfter_settled hacyclic howns hcalls)
    rw [Emit.runFrom, hrun]
  obtain ⟨i, hi, hfname⟩ := exists_settledName hacyclic howns hc hf
  obtain ⟨j, hj, hgname⟩ := exists_settledName hacyclic howns hc hg
  refine ⟨i, hi, j, hj, hfname ▸ hanswer hf hcalls, hgname ▸ hanswer hg hothers, fun r hr => ?_,
    append_underscores_eq_iff⟩
  have hfield : (job.field r).run (stateAfter job calls) = (.ok f, stateAfter job calls) := by
    rw [Job.field, hr]
    rfl
  rw [Emit.runFrom, Job.fieldName, run_bind_ok hfield, ← hfname]
  exact hanswer hf hcalls

section Twins

/-- A field of the class of that name. -/
def Field.plain (owner name : String) : Field := ⟨name, ⟨owner⟩, false, .int, none⟩

/-- A class with two fields whose names differ in `$` and `_` alone, and a third. -/
def twinClass : Class :=
  { Class.bare "Main" none with
    fields := [Field.plain "Main" "a$", Field.plain "Main" "a_", Field.plain "Main" "b"] }

/-- The program of that class, with all settings at their defaults. -/
def twinJob : Job where
  program :=
    { classes := [twinClass]
      entry := ⟨"Main"⟩
      customMains := []
      distinct := by simp
      hasEntry := by simp [twinClass, Class.bare] }
  config := {}
  templater := plainTemplater

theorem twinJob_root (d : Class) : ¬ ExtendsIn twinJob.program.classes twinClass d := by
  simp [ExtendsIn, twinClass, Class.bare]

theorem twinJob_acyclic : twinJob.program.Acyclic := by
  refine Program.acyclic_of_rank (fun _ => 0) fun c hc d hstep => ?_
  obtain rfl : c = twinClass := List.mem_singleton.1 hc
  exact absurd hstep (twinJob_root d)

theorem twinJob_ownsFields : twinJob.program.OwnsFields := by
  simp [Program.OwnsFields, twinJob, twinClass, Class.bare, Field.plain]

theorem lineage_twinClass : twinJob.program.lineage twinClass = [twinClass] := by
  rw [Program.lineage, Program.ancestors_of_root twinJob_root]

/-- Names that differ otherwise are kept apart, whatever has been asked before. -/
theorem fieldNames_meet_iff_twins :
    twinJob.program.Acyclic ∧ twinJob.program.OwnsFields ∧
      NameCall.About twinJob.program (.declared (Field.plain "Main" "a_")) ∧
      ((twinJob.declaredFieldName (Field.plain "Main" "a$")).runFrom
          (stateAfter twinJob [.declared (Field.plain "Main" "a_")])).1 ≠
        ((twinJob.declaredFieldName (Field.plain "Main" "b")).runFrom (stateAfter twinJob [])).1 := by
  have hmem : ∀ f ∈ twinClass.fields, f ∈ (twinJob.program.lineage twinClass).flatMap (·.fields) := by
    intro f hf
    rw [lineage_twinClass]
    exact List.mem_flatMap.2 ⟨twinClass, List.mem_singleton_self _, hf⟩
  have habout : NameCall.About twinJob.program (.declared (Field.plain "Main" "a_")) :=
    ⟨twinClass, List.mem_singleton_self _, by simp [twinClass]⟩
  obtain ⟨i, -, j, -, hfirst, hsecond, -, hmeet⟩ := fieldNames_meet_iff twinJob twinJob_acyclic
    twinJob_ownsFields [.declared (Field.plain "Main" "a_")] []
    (by simpa using habout) (by simp) (c := twinClass) (List.mem_singleton_self _)
    (f := Field.plain "Main" "a$") (g := Field.plain "Main" "b")
    (hmem _ (by simp [twinClass])) (hmem _ (by simp [twinClass]))
  refine ⟨twinJob_acyclic, twinJob_ownsFields, habout, fun hsame => ?_⟩
  rw [hfirst, hsecond, Except.ok.injEq, hmeet] at hsame
  exact absurd hsame.1 (by decide +kernel)

/-- Two fields of one class that differ in `$` and `_` alone get one name. -/
theorem twins_meet :
    twinJob.program.Acyclic ∧ twinJob.program.OwnsFields ∧
      twinClass ∈ twinJob.program.classes ∧
      Field.plain "Main" "a$" ∈ twinClass.fields ∧ Field.plain "Main" "a_" ∈ twinClass.fields ∧
      ((twinJob.declaredFieldName (Field.plain "Main" "a$")).runFrom .initial).1 = .ok "_a_" ∧
      ((twinJob.declaredFieldName (Field.plain "Main" "a_")).runFrom .initial).1 = .ok "_a_" := by
  have hclass : twinClass ∈ twinJob.program.classes := List.mem_singleton_self _
  have hdistinct : twinJob.program.DistinguishesFields := by
    simp [Program.DistinguishesFields, twinJob, twinClass, Class.bare, Field.plain]
  have hanswer : ∀ f ∈ twinClass.fields,
      (namesakesAlong f.name (twinJob.program.lineage twinClass))[0]? = some f →
      ((twinJob.declaredFieldName f).runFrom .initial).1 = .ok (plainFieldName f.name) := by
    intro f hf hnumber
    have hsettled : Settled twinJob.program (stateAfter twinJob []).fieldNames :=
      stateAfter_settled twinJob_acyclic twinJob_ownsFields (by simp)
    obtain ⟨t, hrun, -⟩ := declaredFieldName_yields twinJob_acyclic twinJob_ownsFields
      ⟨twinClass, hclass, hf⟩ .initial hsettled
    rw [Emit.runFrom, hrun, settledName_eq twinJob_acyclic twinJob_ownsFields hdistinct hclass hnumber,
      append_underscores_zero]
  have hfirst := hanswer (Field.plain "Main" "a$") (by simp [twinClass]) (by rw [lineage_twinClass]; rfl)
  have hsecond := hanswer (Field.plain "Main" "a_") (by simp [twinClass]) (by rw [lineage_twinClass]; rfl)
  refine ⟨twinJob_acyclic, twinJob_ownsFields, hclass, by simp [twinClass], by simp [twinClass], ?_, ?_⟩
  · rw [hfirst]
    exact congrArg Except.ok (by decide +kernel)
  · rw [hsecond]
    exact congrArg Except.ok (by decide +kernel)

end Twins

end Emission

end ClassScript
