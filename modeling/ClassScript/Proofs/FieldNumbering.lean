import ClassScript.Proofs.FieldNaming
import ClassScript.Proofs.Lists

/-!
The names of fields in closed form. Along a line of superclasses, farthest
first, the fields of one declared name are numbered from zero, and each has as
many `_` at its end as its number says. So the names of an object's fields are
pairwise different wherever the declared names agree, and no order of questions
can make naming fail.
-/

namespace ClassScript

namespace Emission

/-- A text of that many `_`. -/
def underscores (n : Nat) : String :=
  String.ofList (List.replicate n '_')

theorem append_underscores_zero (name : String) : name ++ underscores 0 = name := by
  simp [underscores]

theorem append_underscores_succ (name : String) (n : Nat) :
    name ++ "_" ++ underscores n = name ++ underscores (n + 1) := by
  simp [underscores, ← String.toList_inj, List.replicate_succ]

theorem append_underscores_inj {name : String} {m n : Nat} :
    name ++ underscores m = name ++ underscores n ↔ m = n := by
  constructor
  · intro h
    have hlength := congrArg String.length h
    simpa [underscores] using hlength
  · rintro rfl
    rfl

/-- A name is extended to the first of its extensions that is not taken. -/
theorem freeName_eq {taken : List String} {name : String} {n : Nat}
    (hbelow : ∀ i < n, name ++ underscores i ∈ taken) (hfree : name ++ underscores n ∉ taken) :
    freeName taken name = name ++ underscores n := by
  induction n generalizing taken name with
  | zero =>
      rw [append_underscores_zero] at hfree ⊢
      rw [freeName, if_neg hfree]
  | succ n ih =>
      have hname : name ∈ taken := by
        simpa only [append_underscores_zero] using hbelow 0 (by omega)
      rw [freeName, if_pos hname, ← append_underscores_succ]
      refine ih (fun i hi => ?_) fun hmem => ?_
      · have hne : name ++ underscores (i + 1) ≠ name := by
          nth_rewrite 2 [← append_underscores_zero name]
          rw [ne_eq, append_underscores_inj]
          omega
        rw [append_underscores_succ, List.mem_erase_of_ne hne]
        exact hbelow (i + 1) (by omega)
      · rw [append_underscores_succ] at hmem
        exact hfree (List.mem_of_mem_erase hmem)

/-- Fields with the extensions of a name from the `k`-th on, in turn. -/
def numbered (name : String) (k : Nat) (refs : List FieldRef) : FieldNames :=
  ((refs.zipIdx k).map fun entry => (entry.1, name ++ underscores entry.2)).reverse

theorem numbered_cons (name : String) (k : Nat) (r : FieldRef) (rest : List FieldRef) :
    numbered name k (r :: rest) =
      numbered name (k + 1) rest ++ [(r, name ++ underscores k)] := by
  simp [numbered]

theorem numbered_keys (name : String) (k : Nat) (refs : List FieldRef) :
    (numbered name k refs).map Prod.fst = refs.reverse := by
  simp [numbered, Function.comp_def]

theorem mem_numbered (name : String) (k : Nat) {refs : List FieldRef} {j : Nat} {r : FieldRef}
    (h : refs[j]? = some r) : (r, name ++ underscores (k + j)) ∈ numbered name k refs := by
  rw [numbered, List.mem_reverse, List.mem_map]
  exact ⟨(r, k + j), List.mk_add_mem_zipIdx_iff_getElem?.2 h, rfl⟩

/-- When the taken extensions are the first `k`, the fields get the next ones
in turn. -/
theorem assignNames_eq {name : String} {k : Nat} {taken : List String}
    (htaken : ∀ m, name ++ underscores m ∈ taken ↔ m < k) {i : Nat} (hi : i ≤ k)
    (refs : List FieldRef) (known : FieldNames) :
    assignNames taken (name ++ underscores i) refs known =
      numbered name k refs ++ known := by
  induction refs generalizing k i taken known with
  | nil => rfl
  | cons r rest ih =>
      have hfree : freeName taken (name ++ underscores i) = name ++ underscores k := by
        have hextend : ∀ m, name ++ underscores i ++ underscores m = name ++ underscores (i + m) := by
          simp [underscores, ← String.toList_inj, List.replicate_append_replicate]
        rw [freeName_eq (n := k - i), hextend, Nat.add_sub_cancel' hi]
        · intro m hm
          rw [hextend, htaken]
          omega
        · rw [hextend, htaken]
          omega
      have hnext : ∀ m, name ++ underscores m ∈ (name ++ underscores k) :: taken ↔ m < k + 1 := by
        intro m
        rw [List.mem_cons, append_underscores_inj, htaken]
        omega
      simp only [assignNames, hfree, ih hnext (Nat.le_succ k), numbered_cons, List.append_assoc,
        List.singleton_append]

/-- The fields of one name along a line, farthest class first. -/
def namesakesAlong (name : String) (line : List Class) : List Field :=
  line.reverse.flatMap (·.fieldsNamed name)

theorem namesakesAlong_cons (name : String) (c : Class) (above : List Class) :
    namesakesAlong name (c :: above) = namesakesAlong name above ++ c.fieldsNamed name := by
  simp [namesakesAlong]

/-- Where names tell numbers, the taken ones are those below the number of fields. -/
theorem mem_takenAlong {name : String} {line : List Class}
    (hnames : ∀ {i f}, (namesakesAlong name line)[i]? = some f →
      (namesAlong name line).lookup f.reference = some (plainFieldName name ++ underscores i))
    (m : Nat) : plainFieldName name ++ underscores m ∈ takenAlong name line ↔
      m < (namesakesAlong name line).length := by
  rw [takenAlong, List.mem_map]
  constructor
  · rintro ⟨g, hg, hname⟩
    obtain ⟨j, hj⟩ := List.getElem?_of_mem hg
    rw [hnames hj, Option.getD_some, append_underscores_inj] at hname
    obtain ⟨hlt, _⟩ := List.getElem?_eq_some_iff.1 hj
    exact hname ▸ hlt
  · intro hm
    have hget := List.getElem?_eq_getElem hm
    exact ⟨_, List.getElem_mem hm, by rw [hnames hget, Option.getD_some]⟩

/-- Along a line that repeats no field, the name of a field tells its number. -/
theorem lookup_namesAlong {name : String} {line : List Class}
    (hnodup : ((namesakesAlong name line).map Field.reference).Nodup) {i : Nat} {f : Field}
    (hf : (namesakesAlong name line)[i]? = some f) :
    (namesAlong name line).lookup f.reference = some (plainFieldName name ++ underscores i) := by
  induction line generalizing i f with
  | nil => simp [namesakesAlong] at hf
  | cons c above ih =>
      rw [namesakesAlong_cons] at hf hnodup
      rw [List.map_append, List.nodup_append] at hnodup
      obtain ⟨habove, hown, hdisjoint⟩ := hnodup
      have htaken := mem_takenAlong fun hj => ih habove hj
      rw [namesAlong_cons, ← append_underscores_zero (plainFieldName name),
        assignNames_eq htaken (Nat.zero_le _), append_underscores_zero, List.lookup_append]
      by_cases hi : i < (namesakesAlong name above).length
      · rw [List.getElem?_append_left hi] at hf
        have hnone : (numbered (plainFieldName name) (namesakesAlong name above).length
            ((c.fieldsNamed name).map Field.reference)).lookup f.reference = none := by
          rw [List.lookup_eq_none_iff]
          intro entry hentry
          have hkey := List.mem_map_of_mem (f := Prod.fst) hentry
          rw [numbered_keys, List.mem_reverse] at hkey
          have hmem := List.mem_map_of_mem (f := Field.reference) (List.mem_of_getElem? hf)
          simpa using hdisjoint _ hmem _ hkey
        rw [hnone, Option.none_or, ih habove hf]
      · rw [List.getElem?_append_right (by omega)] at hf
        have hkeys : ((numbered (plainFieldName name) (namesakesAlong name above).length
            ((c.fieldsNamed name).map Field.reference)).map Prod.fst).Nodup := by
          rw [numbered_keys]
          exact List.nodup_reverse.2 hown
        have hmem := mem_numbered (plainFieldName name) (namesakesAlong name above).length
          (r := f.reference) (by rw [List.getElem?_map, hf]; rfl)
        rw [lookup_of_mem hkeys hmem, Option.some_or, Nat.add_sub_cancel' (by omega)]

theorem declares_of_visible {p : Program} {c : Class} (hc : c ∈ p.classes) {f : Field}
    (hf : f ∈ (p.lineage c).flatMap (·.fields)) : p.Declares f := by
  obtain ⟨d, hd, hfd⟩ := List.mem_flatMap.1 hf
  exact ⟨d, Program.mem_classes_of_mem_lineage hc hd, hfd⟩

theorem mem_namesakesAlong {line : List Class} {f : Field} (hf : f ∈ line.flatMap (·.fields)) :
    f ∈ namesakesAlong f.name line := by
  obtain ⟨d, hd, hfd⟩ := List.mem_flatMap.1 hf
  exact List.mem_flatMap.2 ⟨d, List.mem_reverse.2 hd, Class.mem_fieldsNamed.2 ⟨hfd, rfl⟩⟩

section Numbering

variable {p : Program} (hacyclic : p.Acyclic) (howns : p.OwnsFields)
  (hdistinct : p.DistinguishesFields)

include hdistinct in
theorem references_nodup {c : Class} (hc : c ∈ p.classes) :
    (c.fields.map Field.reference).Nodup := by
  refine List.Nodup.of_map (fun r : FieldRef => (r.name, r.type)) ?_
  rw [List.map_map]
  exact hdistinct c hc

include howns hdistinct in
/-- An object has no field twice. -/
theorem visible_nodup {c : Class} (hc : c ∈ p.classes) :
    (((p.lineage c).flatMap (·.fields)).map Field.reference).Nodup := by
  have hclasses : ∀ d ∈ p.lineage c, d ∈ p.classes := fun d hd =>
    Program.mem_classes_of_mem_lineage hc hd
  rw [List.map_flatMap, List.nodup_flatMap]
  refine ⟨fun d hd => references_nodup hdistinct (hclasses d hd), ?_⟩
  refine Program.lineage_nodup.imp_of_mem fun {d e} hd he hne => ?_
  rw [Function.onFun_apply, List.disjoint_left]
  rintro r hrd hre
  obtain ⟨f, hf, rfl⟩ := List.mem_map.1 hrd
  obtain ⟨g, hg, hsame⟩ := List.mem_map.1 hre
  refine hne (Program.eq_of_name_eq (hclasses d hd) (hclasses e he) ?_)
  rw [← howns d (hclasses d hd) f hf, ← howns e (hclasses e he) g hg]
  exact congrArg FieldRef.owner hsame.symm

include howns hdistinct in
theorem namesakes_nodup {c : Class} (hc : c ∈ p.classes) (name : String) :
    ((namesakesAlong name (p.lineage c)).map Field.reference).Nodup := by
  have hsub : ((p.lineage c).flatMap (·.fieldsNamed name)).Sublist
      ((p.lineage c).flatMap (·.fields)) :=
    List.Sublist.flatMap_right _ fun _ _ => List.filter_sublist
  have hperm : (namesakesAlong name (p.lineage c)).Perm
      ((p.lineage c).flatMap (·.fieldsNamed name)) :=
    (List.reverse_perm _).flatMap_right _
  exact (hperm.map Field.reference).nodup_iff.2
    ((visible_nodup howns hdistinct hc).sublist (hsub.map Field.reference))

include hacyclic howns in
/-- The settled name of a field of an object can be read off the object's line. -/
theorem settledName_visible {c : Class} (hc : c ∈ p.classes) {f : Field}
    (hf : f ∈ (p.lineage c).flatMap (·.fields)) :
    settledName p f.reference = ((namesAlong f.name (p.lineage c)).lookup f.reference).getD "" := by
  obtain ⟨d, hd, hfields⟩ := List.mem_flatMap.1 hf
  have hclasses : ∀ e ∈ p.lineage c, e ∈ p.classes := fun e he =>
    Program.mem_classes_of_mem_lineage hc he
  have hnodup : (p.lineage c).Nodup := Program.lineage_nodup
  rw [Program.lineage, List.mem_cons] at hd
  rcases hd with rfl | habove
  · exact settledName_along howns hc [] (by simp) hnodup hfields
  · obtain ⟨nearer, hsplit⟩ := Program.ancestors_split hacyclic hc habove
    have hline : p.lineage c = (c :: nearer) ++ p.lineage d := by
      rw [Program.lineage, hsplit, List.cons_append]
    have hbelow : ∀ e ∈ c :: nearer, e ∈ p.classes := fun e he =>
      hclasses e (hline ▸ List.mem_append_left _ he)
    rw [settledName_along howns (Program.mem_classes_of_mem_ancestors habove) _ hbelow
      (hline ▸ hnodup) hfields, ← hline]

include hacyclic howns hdistinct in
/-- The settled name of a field of an object tells its number among the
object's fields of that name. -/
theorem settledName_eq {c : Class} (hc : c ∈ p.classes) {name : String} {i : Nat} {f : Field}
    (hf : (namesakesAlong name (p.lineage c))[i]? = some f) :
    settledName p f.reference = plainFieldName name ++ underscores i := by
  have hnumber := lookup_namesAlong (namesakes_nodup howns hdistinct hc name) hf
  obtain ⟨d, hd, hfd⟩ := List.mem_flatMap.1 (List.mem_of_getElem? hf)
  obtain ⟨hfields, rfl⟩ := Class.mem_fieldsNamed.1 hfd
  have hvisible : f ∈ (p.lineage c).flatMap (·.fields) :=
    List.mem_flatMap.2 ⟨d, List.mem_reverse.1 hd, hfields⟩
  rw [settledName_visible hacyclic howns hc hvisible, hnumber, Option.getD_some]

end Numbering

/-- A question for the name of a field: of a declared one, or of the one that a
reference means. -/
inductive NameCall where
  | declared (f : Field)
  | reference (r : FieldRef)

namespace NameCall

def run (job : Job) : NameCall → Emit String
  | .declared f => job.declaredFieldName f
  | .reference r => job.fieldName r

/-- Whether the question is about the program; references may be to nothing. -/
def About (p : Program) : NameCall → Prop
  | .declared f => p.Declares f
  | .reference _ => True

end NameCall

/-- The state after questions in turn, those that failed included. -/
def stateAfter (job : Job) (calls : List NameCall) : State :=
  calls.foldl (fun s call => ((call.run job).runFrom s).2) .initial

section Calls

variable {job : Job} (hacyclic : job.program.Acyclic) (howns : job.program.OwnsFields)

include hacyclic howns in
theorem declaredFieldName_yields {f : Field} (hf : job.program.Declares f) :
    Yields (fun s => Settled job.program s.fieldNames) (job.declaredFieldName f)
      (settledName job.program f.reference) := by
  obtain ⟨c, hc, hfc⟩ := hf
  intro s hs
  obtain ⟨known, hrun, hknown⟩ :=
    nameField_yields hacyclic howns hc hfc (length_inheritedNamesakes_lt _) s.fieldNames hs
  refine ⟨{ s with fieldNames := known }, ?_, hknown⟩
  rw [Job.declaredFieldName, run_bind_ok (run_get s), hrun, run_bind_ok (run_set _ _)]
  rfl

include hacyclic howns in
/-- A question about the program is answered with a settled name, or its
reference means no field; either way the memo stays settled. -/
theorem NameCall.run_settled {call : NameCall} (hcall : call.About job.program) {s : State}
    (hs : Settled job.program s.fieldNames) :
    Settled job.program ((call.run job).runFrom s).2.fieldNames ∧
      ∀ r, ((call.run job).runFrom s).1 ≠ .error (.resolverInvariant r) := by
  have hdeclared : ∀ f, job.program.Declares f →
      Settled job.program ((job.declaredFieldName f).runFrom s).2.fieldNames ∧
        ∀ r, ((job.declaredFieldName f).runFrom s).1 ≠ .error (.resolverInvariant r) := by
    intro f hf
    obtain ⟨t, hrun, ht⟩ := declaredFieldName_yields hacyclic howns hf s hs
    simp [Emit.runFrom, hrun, ht]
  cases call with
  | declared f => exact hdeclared f hcall
  | reference r =>
      cases hfind : job.program.findField r with
      | none =>
          have hfield : (job.field r).run s = (.error (.unresolvedField r), s) := by
            rw [Job.field, hfind]
            rfl
          rw [Emit.runFrom, NameCall.run, Job.fieldName, run_bind_error hfield]
          exact ⟨hs, by simp⟩
      | some f =>
          have hfield : (job.field r).run s = (.ok f, s) := by
            rw [Job.field, hfind]
            rfl
          rw [Emit.runFrom, NameCall.run, Job.fieldName, run_bind_ok hfield]
          exact hdeclared f (Program.declares_of_findField hfind)

include hacyclic howns in
theorem stateAfter_settled {calls : List NameCall}
    (hcalls : ∀ call ∈ calls, call.About job.program) :
    Settled job.program (stateAfter job calls).fieldNames := by
  suffices h : ∀ s : State, Settled job.program s.fieldNames →
      Settled job.program
        (calls.foldl (fun s call => ((call.run job).runFrom s).2) s).fieldNames from
    h .initial (by intro r name h; simp [State.initial] at h)
  induction calls with
  | nil => exact fun s hs => hs
  | cons call rest ih =>
      intro s hs
      exact ih (fun other hother => hcalls other (by simp [hother])) _
        (NameCall.run_settled hacyclic howns (hcalls call (by simp)) hs).1

end Calls

/-- Three classes on a line, which together declare four fields of one name. -/
def shadowing : Program where
  classes :=
    [{ Class.bare "Leaf" (some "Middle") with fields := [⟨"a$", ⟨"Leaf"⟩, false, .int, none⟩] },
     { Class.bare "Middle" (some "Base") with fields := [⟨"a$", ⟨"Middle"⟩, true, .bool, none⟩] },
     { Class.bare "Base" none with
       fields := [⟨"a$", ⟨"Base"⟩, false, .int, none⟩, ⟨"a$", ⟨"Base"⟩, false, .long, none⟩] }]
  entry := ⟨"Leaf"⟩
  customMains := []
  distinct := by decide
  hasEntry := by decide

theorem shadowing_acyclic : shadowing.Acyclic := by
  refine Program.acyclic_of_rank
    (fun c => if c.name = ⟨"Leaf"⟩ then 2 else if c.name = ⟨"Middle"⟩ then 1 else 0) ?_
  simp [shadowing, ExtendsIn, Class.bare]

end Emission

end ClassScript
