import ClassScript.Emission.Names
import ClassScript.Proofs.Lineage
import ClassScript.Proofs.Run
import Mathlib.Data.List.Flatten
import Mathlib.Data.List.Perm.Subperm

/-!
Names of fields. The names given so far are a memo that fills in the order in
which fields are asked for. Its invariant is that every entry is the name that
the line of superclasses alone determines, so the order of the questions does
not show in the answers. Where no class repeats a field, that name is the
declared one with one more `_` for each namesake before it in the line.
-/

namespace ClassScript

/-- Fields carry the name of the class that lists them. -/
def Program.OwnsFields (p : Program) : Prop :=
  ∀ c ∈ p.classes, ∀ f ∈ c.fields, f.owner = c.name

/-- No class lists two fields of one name and type. -/
def Program.DistinguishesFields (p : Program) : Prop :=
  ∀ c ∈ p.classes, (c.fields.map fun f => (f.name, f.type)).Nodup

/-- The field is declared by a class of the program. -/
def Program.Declares (p : Program) (f : Field) : Prop :=
  ∃ c ∈ p.classes, f ∈ c.fields

theorem Program.searchField_declared {r : FieldRef} {pool : List Class} {stack : List ClassName} {f : Field}
    (h : searchField r pool stack = some f) : ∃ c ∈ pool, f ∈ c.fields := by
  fun_induction searchField r pool stack with
  | case1 => simp at h
  | case2 pool name rest hdraw ih => exact ih h
  | case3 pool name rest c hdraw g hg =>
      obtain rfl : g = f := by simpa using h
      exact ⟨c, (mem_of_draw? hdraw).1, List.mem_of_find?_eq_some hg⟩
  | case4 pool name rest c hdraw hnone ih =>
      obtain ⟨d, hd, hf⟩ := ih h
      exact ⟨d, (mem_without.1 hd).1, hf⟩

theorem Program.declares_of_findField {p : Program} {r : FieldRef} {f : Field}
    (h : p.findField r = some f) : p.Declares f :=
  searchField_declared h

@[simp]
theorem Field.reference_name (f : Field) : f.reference.name = f.name := rfl

@[simp]
theorem Field.reference_owner (f : Field) : f.reference.owner = f.owner := rfl

theorem Class.mem_fieldsNamed {c : Class} {name : String} {f : Field} :
    f ∈ c.fieldsNamed name ↔ f ∈ c.fields ∧ f.name = name := by
  simp [fieldsNamed]

namespace Emission

/-- The names that fields of one declared name get along a line of classes,
nearest class first: those of a class avoid the names given above it. -/
def namesAlong (name : String) : List Class → FieldNames
  | [] => []
  | c :: above =>
      let known := namesAlong name above
      let taken := (above.reverse.flatMap (·.fieldsNamed name)).map fun f =>
        (known.lookup f.reference).getD ""
      assignNames taken (plainFieldName name) ((c.fieldsNamed name).map Field.reference) known

/-- The names given to the fields of one declared name along a line. -/
def takenAlong (name : String) (line : List Class) : List String :=
  (line.reverse.flatMap (·.fieldsNamed name)).map fun f =>
    ((namesAlong name line).lookup f.reference).getD ""

theorem namesAlong_cons (name : String) (c : Class) (above : List Class) :
    namesAlong name (c :: above) =
      assignNames (takenAlong name above) (plainFieldName name)
        ((c.fieldsNamed name).map Field.reference) (namesAlong name above) := rfl

/-- The name that the superclasses of a field's class determine for it. -/
def settledName (p : Program) (r : FieldRef) : String :=
  match p.class? r.owner with
  | some c => ((namesAlong r.name (p.lineage c)).lookup r).getD ""
  | none => ""

/-- Every name in the memo is the settled one. -/
def Settled (p : Program) (known : FieldNames) : Prop :=
  ∀ r name, known.lookup r = some name → name = settledName p r

theorem assignNames_append (taken : List String) (name : String) (refs : List FieldRef)
    (known : FieldNames) :
    assignNames taken name refs known = assignNames taken name refs [] ++ known := by
  induction refs generalizing taken name known with
  | nil => rfl
  | cons r rest ih =>
      simp only [assignNames]
      rw [ih, ih _ _ [_], List.append_assoc, List.singleton_append]

theorem assignNames_keys (taken : List String) (name : String) (refs : List FieldRef) :
    (assignNames taken name refs []).map Prod.fst = refs.reverse := by
  induction refs generalizing taken name with
  | nil => rfl
  | cons r rest ih =>
      simp only [assignNames]
      rw [assignNames_append, List.map_append, ih, List.reverse_cons]
      rfl

theorem lookup_assignNames_of_notMem {taken : List String} {name : String} {refs : List FieldRef}
    {known : FieldNames} {r : FieldRef} (h : r ∉ refs) :
    (assignNames taken name refs known).lookup r = known.lookup r := by
  have hnone : (assignNames taken name refs []).lookup r = none := by
    rw [List.lookup_eq_none_iff]
    intro entry hentry
    have hkey : entry.1 ∈ refs.reverse :=
      assignNames_keys taken name refs ▸ List.mem_map_of_mem hentry
    rw [List.mem_reverse] at hkey
    have hne : r ≠ entry.1 := by
      rintro rfl
      exact h hkey
    simpa using hne
  rw [assignNames_append, List.lookup_append, hnone, Option.none_or]

theorem lookup_assignNames_of_mem (taken : List String) (name : String) {refs : List FieldRef}
    {r : FieldRef} (h : r ∈ refs) : ∃ given, ∀ known,
      (assignNames taken name refs known).lookup r = some given := by
  have hsome : ((assignNames taken name refs []).lookup r).isSome := by
    rw [List.lookup_isSome_iff]
    have hkey : r ∈ (assignNames taken name refs []).map Prod.fst := by
      rw [assignNames_keys]
      exact List.mem_reverse.2 h
    obtain ⟨entry, hentry, rfl⟩ := List.mem_map.1 hkey
    exact ⟨entry, hentry, beq_self_eq_true _⟩
  obtain ⟨given, hgiven⟩ := Option.isSome_iff_exists.1 hsome
  refine ⟨given, fun known => ?_⟩
  rw [assignNames_append, List.lookup_append, hgiven, Option.some_or]

/-- A line's names for the fields of a class do not depend on the classes
below it. -/
theorem lookup_namesAlong_append {p : Program} (howns : p.OwnsFields) {name : String}
    {below line : List Class} (hbelow : ∀ c ∈ below, c ∈ p.classes) {r : FieldRef}
    (hr : ∀ c ∈ below, c.name ≠ r.owner) :
    (namesAlong name (below ++ line)).lookup r = (namesAlong name line).lookup r := by
  induction below with
  | nil => rfl
  | cons c rest ih =>
      rw [List.cons_append, namesAlong, lookup_assignNames_of_notMem,
        ih (fun d hd => hbelow d (by simp [hd])) (fun d hd => hr d (by simp [hd]))]
      rw [List.mem_map]
      rintro ⟨f, hf, rfl⟩
      have howner := howns c (hbelow c (by simp)) f (Class.mem_fieldsNamed.1 hf).1
      exact hr c (by simp) howner.symm

section Settling

variable {p : Program} (hacyclic : p.Acyclic) (howns : p.OwnsFields)

include howns in
theorem class?_owner {c : Class} (hc : c ∈ p.classes) {f : Field} (hf : f ∈ c.fields) :
    p.class? f.owner = some c := by
  rw [howns c hc f hf]
  exact Program.class?_name hc

include howns in
/-- The settled name of a field can be read off every line through its class. -/
theorem settledName_along {d : Class} (hd : d ∈ p.classes) (below : List Class)
    (hbelow : ∀ e ∈ below, e ∈ p.classes) (hnodup : (below ++ p.lineage d).Nodup)
    {f : Field} (hf : f ∈ d.fields) :
    settledName p f.reference =
      ((namesAlong f.name (below ++ p.lineage d)).lookup f.reference).getD "" := by
  have hother : ∀ e ∈ below, e.name ≠ f.reference.owner := by
    intro e he hname
    obtain rfl := Program.eq_of_name_eq (hbelow e he) hd (hname.trans (howns d hd f hf))
    exact (List.nodup_append'.1 hnodup).2.2 he (by simp [Program.lineage])
  rw [lookup_namesAlong_append howns hbelow hother, settledName, Field.reference_owner,
    class?_owner howns hd hf, Field.reference_name]

include hacyclic howns in
theorem settledName_inherited {c d : Class} (hc : c ∈ p.classes) (hd : d ∈ p.ancestors c)
    {f : Field} (hf : f ∈ d.fields) :
    settledName p f.reference =
      ((namesAlong f.name (p.ancestors c)).lookup f.reference).getD "" := by
  have hclasses : ∀ e ∈ p.ancestors c, e ∈ p.classes := fun e he =>
    Program.mem_classes_of_mem_ancestors he
  have hnodup : (p.ancestors c).Nodup := climb_nodup _ _
  obtain ⟨nearer, hsplit⟩ := Program.ancestors_split hacyclic hc hd
  rw [hsplit] at hnodup hclasses ⊢
  exact settledName_along howns (hclasses d (by simp [Program.lineage])) _
    (fun e he => hclasses e (List.mem_append_left _ he)) hnodup hf

theorem inheritedNamesakes_of_class? {c : Class} {r : FieldRef} (h : p.class? r.owner = some c) :
    inheritedNamesakes p r = (p.ancestors c).reverse.flatMap (·.fieldsNamed r.name) := by
  simp [inheritedNamesakes, h]

theorem ownNamesakes_of_class? {c : Class} {r : FieldRef} (h : p.class? r.owner = some c) :
    ownNamesakes p r = (c.fieldsNamed r.name).map Field.reference := by
  simp [ownNamesakes, h]

include hacyclic howns in
/-- Naming the fields of a class from the settled names of its ancestors gives
each of them its own settled name, whatever the memo holds. -/
theorem lookup_assigned {c : Class} (hc : c ∈ p.classes) {f : Field} (hf : f ∈ c.fields)
    (known : FieldNames) :
    (assignNames ((inheritedNamesakes p f.reference).map fun g => settledName p g.reference)
      (plainFieldName f.name) (ownNamesakes p f.reference) known).lookup f.reference =
        some (settledName p f.reference) := by
  have hclass := class?_owner howns hc hf
  have hown := ownNamesakes_of_class? (r := f.reference) hclass
  have htaken : (inheritedNamesakes p f.reference).map (fun g => settledName p g.reference) =
      takenAlong f.name (p.ancestors c) := by
    rw [inheritedNamesakes_of_class? hclass]
    apply List.map_congr_left
    intro g hg
    obtain ⟨d, hd, hgd⟩ := List.mem_flatMap.1 hg
    obtain ⟨hmem, hname⟩ := Class.mem_fieldsNamed.1 hgd
    rw [settledName_inherited hacyclic howns hc (List.mem_reverse.1 hd) hmem, hname,
      Field.reference_name]
  have hmem : f.reference ∈ (c.fieldsNamed f.name).map Field.reference :=
    List.mem_map_of_mem (Class.mem_fieldsNamed.2 ⟨hf, rfl⟩)
  obtain ⟨given, hgiven⟩ := lookup_assignNames_of_mem
    (takenAlong f.name (p.ancestors c)) (plainFieldName f.name) hmem
  have hsettled : settledName p f.reference = given := by
    simp only [settledName, Field.reference_owner, hclass, Program.lineage, namesAlong_cons,
      Field.reference_name, hgiven, Option.getD_some]
  rw [htaken, hown, Field.reference_name, hgiven, hsettled]

include hacyclic howns in
/-- So do all fields of its class that share its declared name. -/
theorem lookup_assigned_namesake {c : Class} (hc : c ∈ p.classes) {r other : FieldRef}
    (hclass : p.class? r.owner = some c) (hown : other ∈ ownNamesakes p r) (known : FieldNames) :
    (assignNames ((inheritedNamesakes p r).map fun g => settledName p g.reference)
      (plainFieldName r.name) (ownNamesakes p r) known).lookup other =
        some (settledName p other) := by
  rw [ownNamesakes_of_class? hclass] at hown
  obtain ⟨g, hg, rfl⟩ := List.mem_map.1 hown
  obtain ⟨hgc, hname⟩ := Class.mem_fieldsNamed.1 hg
  have hgclass := class?_owner howns hc hgc
  have hassigned := lookup_assigned hacyclic howns hc hgc known
  rwa [inheritedNamesakes_of_class? hgclass, ownNamesakes_of_class? hgclass, Field.reference_name,
    hname, ← inheritedNamesakes_of_class? hclass, ← ownNamesakes_of_class? hclass] at hassigned

include hacyclic howns in
theorem settled_assignNames {c : Class} (hc : c ∈ p.classes) {f : Field} (hf : f ∈ c.fields)
    {known : FieldNames} (hknown : Settled p known) :
    Settled p (assignNames
      ((inheritedNamesakes p f.reference).map fun g => settledName p g.reference)
      (plainFieldName f.name) (ownNamesakes p f.reference) known) := by
  intro r name hr
  by_cases hown : r ∈ ownNamesakes p f.reference
  · have hassigned := lookup_assigned_namesake hacyclic howns hc (class?_owner howns hc hf) hown known
    exact Option.some.inj (hr.symm.trans hassigned)
  · rw [lookup_assignNames_of_notMem hown] at hr
    exact hknown r name hr

/-- No field has more namesakes above it than the program has fields. -/
theorem length_inheritedNamesakes_lt (f : FieldRef) :
    (inheritedNamesakes p f).length < namingDepth p := by
  suffices h : (inheritedNamesakes p f).length ≤ (p.classes.flatMap (·.fields)).length from
    Nat.lt_succ_of_le h
  cases hclass : p.class? f.owner with
  | none => simp [inheritedNamesakes, hclass]
  | some c =>
      have hsub : (p.ancestors c).reverse.Subperm p.classes := by
        apply List.Nodup.subperm (List.nodup_reverse.2 (climb_nodup _ _))
        intro d hd
        exact Program.mem_classes_of_mem_ancestors (List.mem_reverse.1 hd)
      obtain ⟨listed, hperm, hlisted⟩ := hsub
      calc (inheritedNamesakes p f).length
          = ((p.ancestors c).reverse.flatMap (·.fieldsNamed f.name)).length := by
            rw [inheritedNamesakes_of_class? hclass]
        _ ≤ ((p.ancestors c).reverse.flatMap (·.fields)).length :=
            (List.Sublist.flatMap_right _ fun d _ => List.filter_sublist).length_le
        _ = (listed.flatMap (·.fields)).length := (hperm.flatMap_right _).length_eq.symm
        _ ≤ (p.classes.flatMap (·.fields)).length := (hlisted.flatMap _).length_le

include hacyclic howns in
/-- An inherited field has fewer namesakes above it than its heir. -/
theorem length_inheritedNamesakes_inherited {c d : Class} (hc : c ∈ p.classes)
    (hd : d ∈ p.ancestors c) {r : FieldRef} (hclass : p.class? r.owner = some c) {g : Field}
    (hg : g ∈ d.fieldsNamed r.name) :
    (inheritedNamesakes p g.reference).length < (inheritedNamesakes p r).length := by
  obtain ⟨hgd, hname⟩ := Class.mem_fieldsNamed.1 hg
  have hgclass := class?_owner howns (Program.mem_classes_of_mem_ancestors hd) hgd
  obtain ⟨nearer, hsplit⟩ := Program.ancestors_split hacyclic hc hd
  have hpos : 0 < (d.fieldsNamed r.name).length := List.length_pos_of_mem hg
  rw [inheritedNamesakes_of_class? hgclass, inheritedNamesakes_of_class? hclass,
    Field.reference_name, hname, hsplit, Program.lineage]
  simp only [List.reverse_append, List.reverse_cons, List.flatMap_append, List.flatMap_singleton,
    List.length_append]
  omega

include hacyclic howns in
/-- Naming a declared field gives it its settled name and leaves only settled
names in the memo. -/
theorem nameField_yields {c : Class} (hc : c ∈ p.classes) {f : Field} (hf : f ∈ c.fields)
    {fuel : Nat} (hfuel : (inheritedNamesakes p f.reference).length < fuel) :
    Yields (Settled p) (nameField p fuel f.reference) (settledName p f.reference) := by
  induction fuel generalizing c f with
  | zero => omega
  | succ fuel ih =>
      intro known hknown
      rw [nameField, run_bind_ok (run_get known)]
      cases hlookup : known.lookup f.reference with
      | some name => exact ⟨known, by rw [hknown _ _ hlookup]; rfl, hknown⟩
      | none =>
          have hclass := class?_owner howns hc hf
          have hinherited : ∀ g ∈ inheritedNamesakes p f.reference,
              Yields (Settled p) (nameField p fuel g.reference) (settledName p g.reference) := by
            intro g hg
            rw [inheritedNamesakes_of_class? hclass] at hg
            obtain ⟨d, hd, hgd⟩ := List.mem_flatMap.1 hg
            rw [List.mem_reverse] at hd
            have hless := length_inheritedNamesakes_inherited hacyclic howns hc hd hclass hgd
            exact ih (Program.mem_classes_of_mem_ancestors hd) (Class.mem_fieldsNamed.1 hgd).1
              (by omega)
          obtain ⟨filled, hrun, hfilled⟩ := Yields.mapM hinherited known hknown
          refine ⟨_, ?_, settled_assignNames hacyclic howns hc hf hfilled⟩
          dsimp only
          rw [run_bind_ok hrun, run_bind_ok (run_modify _ _), run_bind_ok (run_get _),
            Field.reference_name, lookup_assigned hacyclic howns hc hf]
          rfl

end Settling

end Emission

end ClassScript
