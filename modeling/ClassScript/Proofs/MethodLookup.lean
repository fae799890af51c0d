import ClassScript.Proofs.RelatedClasses

/-!
Which declaration a method is found by. The search takes the class, its ancestors
and then their interfaces, so the nearest declaration on the line of superclasses
comes first, whatever the interfaces are. But it wants all of them: one interface
that the program lacks hides every declaration, that of the class itself included.
-/

namespace ClassScript

/-- The method is declared by a class of the list, and by none before it. -/
def FirstDeclared (classes : List Class) (name descriptor : String) (m : Method) : Prop :=
  ∃ nearer d farther, classes = nearer ++ d :: farther ∧
    (∀ e ∈ nearer, e.method? name descriptor = none) ∧ d.method? name descriptor = some m

section Declarations

variable {classes others : List Class} {name descriptor : String} {m : Method}

theorem findSome?_method?_eq_some_iff :
    classes.findSome? (·.method? name descriptor) = some m ↔
      FirstDeclared classes name descriptor m := by
  simp only [List.findSome?_eq_some_iff, FirstDeclared, and_comm]

theorem exists_firstDeclared (h : ∃ d ∈ classes, (d.method? name descriptor).isSome) :
    ∃ m, FirstDeclared classes name descriptor m := by
  simp only [← findSome?_method?_eq_some_iff, ← Option.isSome_iff_exists]
  exact List.findSome?_isSome_iff.2 h

/-- Classes that come later do not matter where one before them declares the method. -/
theorem FirstDeclared.append (h : FirstDeclared classes name descriptor m) (others : List Class) :
    FirstDeclared (classes ++ others) name descriptor m := by
  obtain ⟨nearer, d, farther, rfl, hnearer, hd⟩ := h
  exact ⟨nearer, d, farther ++ others, by simp, hnearer, hd⟩

/-- Nor do classes before them that do not declare it. -/
theorem firstDeclared_append_iff (h : ∀ d ∈ classes, d.method? name descriptor = none) :
    FirstDeclared (classes ++ others) name descriptor m ↔
      FirstDeclared others name descriptor m := by
  have hnone : classes.findSome? (·.method? name descriptor) = none :=
    List.findSome?_eq_none_iff.2 h
  rw [← findSome?_method?_eq_some_iff, ← findSome?_method?_eq_some_iff, List.findSome?_append,
    hnone, Option.none_or]

end Declarations

namespace Program

/-- The interfaces of a class and its ancestors, direct or through others, breadth
first and without those that are ancestors. -/
def interfacesOf (p : Program) (c : Class) : List Class :=
  layersFrom (outside p.classes (p.lineage c)) (p.lineage c)

/-- No interface that the class or any of its kin names is absent. -/
def Complete (p : Program) (c : Class) : Prop :=
  ∀ d, p.Kin c d → ∀ name ∈ d.interfaces, (p.class? name).isSome

section Search

variable {p : Program} {c d : Class}

theorem Kin.mem_classes (hc : c ∈ p.classes) (h : p.Kin c d) : d ∈ p.classes := by
  induction h with
  | line hline => exact mem_classes_of_mem_lineage hc hline
  | interface _ himplements _ => exact himplements.1

theorem related_of_complete (hc : c ∈ p.classes) (h : p.Complete c) :
    p.related c = .ok (p.lineage c ++ p.interfacesOf c) :=
  (related_eq_ok_iff hc).2 ⟨rfl, h⟩

theorem complete_of_related (hc : c ∈ p.classes) {classes : List Class}
    (h : p.related c = .ok classes) : p.Complete c :=
  ((related_eq_ok_iff hc).1 h).2

/-- With all interfaces there, the search takes the line of superclasses and then the
interfaces. -/
theorem findMethod_eq_some_iff (hc : c ∈ p.classes) (h : p.Complete c) {name descriptor : String}
    {m : Method} : p.findMethod c.name name descriptor = some m ↔
      FirstDeclared (p.lineage c ++ p.interfacesOf c) name descriptor m := by
  rw [findMethod, class?_name hc, Option.bind_eq_bind, Option.bind_some, related_of_complete hc h,
    ← findSome?_method?_eq_some_iff]
  rfl

/-- Without one of them it finds nothing at all. -/
theorem findMethod_of_incomplete (hc : c ∈ p.classes) (h : ¬ p.Complete c)
    (name descriptor : String) : p.findMethod c.name name descriptor = none := by
  rw [findMethod, class?_name hc, Option.bind_eq_bind, Option.bind_some]
  cases hrelated : p.related c with
  | ok classes => exact absurd (complete_of_related hc hrelated) h
  | error name => rfl

end Search

end Program

open Emission in
/-- Over all hierarchies and for all classes: if no interface of the class's kin is
absent, the declaration found is the nearest among the class and its ancestors, and
where none of these declares the method, the first among their interfaces. If one is
absent, nothing is found. Classes whose members are emitted lack none. -/
theorem findMethod_nearest (p : Program) {c : Class} (hc : c ∈ p.classes)
    (name descriptor : String) :
    (p.Complete c →
      ((∃ d ∈ p.lineage c, (d.method? name descriptor).isSome) →
        ∃ m, FirstDeclared (p.lineage c) name descriptor m ∧
          p.findMethod c.name name descriptor = some m) ∧
      ((∀ d ∈ p.lineage c, d.method? name descriptor = none) → ∀ m,
        p.findMethod c.name name descriptor = some m ↔
          FirstDeclared (p.interfacesOf c) name descriptor m)) ∧
    (¬ p.Complete c → p.findMethod c.name name descriptor = none) ∧
    ∀ job : Job, job.program = p → ∀ s doc t, (lowerClass job c).run s = (.ok doc, t) →
      p.Complete c := by
  refine ⟨fun hcomplete => ⟨fun hline => ?_, fun hline m => ?_⟩, fun hincomplete => ?_, ?_⟩
  · obtain ⟨m, hm⟩ := exists_firstDeclared hline
    exact ⟨m, hm, (Program.findMethod_eq_some_iff hc hcomplete).2 (hm.append _)⟩
  · exact (Program.findMethod_eq_some_iff hc hcomplete).trans (firstDeclared_append_iff hline)
  · exact Program.findMethod_of_incomplete hc hincomplete name descriptor
  · rintro job rfl s doc t hrun
    obtain ⟨classes, hrelated, -⟩ := classIdsLine_of_lowerClass hrun
    exact Program.complete_of_related hc hrelated

/-- A class with one method beside a place in the hierarchy. -/
def Class.offering (name : String) (parent : Option String) (interfaces : List String) : Class :=
  { Class.implementing name parent interfaces with methods := [.mentioning name "hello" .nop] }

/-- A program in which a superclass of the runtime and an interface of the class below
it offer the same method. -/
def Program.contending : Program where
  classes :=
    [.implementing "Sub" (some "Base") ["I"],
     { Class.offering "Base" none ["J"] with isNative := true },
     .offering "I" none ["J"], .offering "J" none []]
  entry := ⟨"Sub"⟩
  customMains := []
  distinct := by simp [Class.offering, Class.implementing, Class.bare]
  hasEntry := by simp [Class.offering, Class.implementing, Class.bare]

/-- The superclass's method is found, although the interface stands nearer. -/
theorem findMethod_nearest_contending :
    let p := Program.contending
    let c := Class.implementing "Sub" (some "Base") ["I"]
    c ∈ p.classes ∧ p.Complete c ∧
      p.findMethod c.name "mention" "()V" = some (.mentioning "Base" "hello" .nop) := by
  intro p c
  have hc : c ∈ p.classes := List.mem_cons_self
  have hcomplete : p.Complete c := by
    have hall : ∀ d ∈ p.classes, ∀ name ∈ d.interfaces, (p.class? name).isSome := by
      simp [p, Program.contending, Program.class?, Class.offering, Class.implementing, Class.bare]
    exact fun d hd => hall d (hd.mem_classes hc)
  have hline : p.lineage c = [c, { Class.offering "Base" none ["J"] with isNative := true }] := by
    refine congrArg _ ((climb_present ?_).trans (congrArg _ (climb_none _)))
    simp [p, c, Program.contending, Class.offering, Class.implementing, Class.bare, without, draw?]
  have hdeclared : ∃ d ∈ p.lineage c, (d.method? "mention" "()V").isSome := by
    rw [hline]
    exact ⟨_, List.mem_cons_of_mem _ List.mem_cons_self, rfl⟩
  obtain ⟨hnearest, -⟩ := (findMethod_nearest p hc "mention" "()V").1 hcomplete
  obtain ⟨m, hfirst, hfound⟩ := hnearest hdeclared
  rw [hline, ← findSome?_method?_eq_some_iff] at hfirst
  exact ⟨hc, hcomplete, hfound.trans hfirst.symm⟩

/-- A program in which a class of the runtime names an interface that is not there. -/
def Program.stranded : Program where
  classes := [.bare "Main" none, { Class.offering "Box" none ["Gone"] with isNative := true }]
  entry := ⟨"Main"⟩
  customMains := []
  distinct := by simp [Class.offering, Class.implementing, Class.bare]
  hasEntry := by simp [Class.bare]

/-- A method that the class declares is not found, since an interface is absent. -/
theorem findMethod_hides_declared :
    ∃ c ∈ Program.stranded.classes, ∃ m, c.method? "mention" "()V" = some m ∧
      Program.stranded.findMethod c.name "mention" "()V" = none := by
  have hmem : { Class.offering "Box" none ["Gone"] with isNative := true } ∈
      Program.stranded.classes := List.mem_cons_of_mem _ List.mem_cons_self
  refine ⟨_, hmem, .mentioning "Box" "hello" .nop, rfl, ?_⟩
  refine Program.findMethod_of_incomplete hmem (fun hcomplete => ?_) _ _
  have hpresent := hcomplete _ (.line List.mem_cons_self) ⟨"Gone"⟩ List.mem_cons_self
  simp [Program.stranded, Program.class?, Class.offering, Class.implementing, Class.bare]
    at hpresent

end ClassScript
