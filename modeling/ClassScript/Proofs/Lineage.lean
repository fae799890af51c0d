import ClassScript.Model.Hierarchy
import Mathlib.Data.List.Nodup
import Mathlib.Logic.Relation

/-!
Superclass chains. A walk up the hierarchy draws its classes from a pool, which
guards it against cycles. Here the walk is compared with the relation of a class
to its superclass: what it meets is what the relation reaches, and in a program
without cycles the ancestors of a class are its superclass and the ancestors of
that.
-/

namespace ClassScript

open Relation

/-- `d` is the superclass of `c` and one of the classes of the pool. -/
def ExtendsIn (pool : List Class) (c d : Class) : Prop :=
  d ∈ pool ∧ c.parent = some d.name

/-- No class is its own ancestor. -/
def Program.Acyclic (p : Program) : Prop :=
  ∀ c, ¬ TransGen (ExtendsIn p.classes) c c

/-- A rank that falls along every step between classes of the pool rules out cycles. -/
theorem not_transGen_self_of_rank {pool : List Class} {R : Class → Class → Prop}
    (rank : Class → Nat) (hpool : ∀ c d, R c d → d ∈ pool)
    (h : ∀ c ∈ pool, ∀ d, R c d → rank d < rank c) (c : Class) : ¬ TransGen R c c := by
  have hfall : ∀ c ∈ pool, ∀ d, TransGen R c d → rank d < rank c := by
    intro c hc d hd
    induction hd using TransGen.head_induction_on with
    | single hstep => exact h _ hc _ hstep
    | head hstep _ ih => exact Nat.lt_trans (ih (hpool _ _ hstep)) (h _ hc _ hstep)
  intro hcycle
  obtain ⟨d, _, hlast⟩ := TransGen.tail'_iff.1 hcycle
  exact absurd (hfall c (hpool _ _ hlast) c hcycle) (Nat.lt_irrefl _)

theorem mem_of_draw? {pool : List Class} {name : ClassName} {c : Class}
    (h : draw? pool name = some c) : c ∈ pool ∧ c.name = name :=
  ⟨List.mem_of_find?_eq_some h, by simpa using List.find?_some h⟩

theorem draw?_eq_none {pool : List Class} {name : ClassName} (h : draw? pool name = none) :
    ∀ c ∈ pool, c.name ≠ name := by
  simpa [draw?] using h

/-- Where names are pairwise different, a class is found under its name. -/
theorem draw?_name {pool : List Class} (hnames : (pool.map Class.name).Nodup) {c : Class}
    (hc : c ∈ pool) : draw? pool c.name = some c := by
  cases hdraw : draw? pool c.name with
  | none => exact absurd rfl (draw?_eq_none hdraw c hc)
  | some d =>
      obtain ⟨hd, hname⟩ := mem_of_draw? hdraw
      rw [List.inj_on_of_nodup_map hnames hd hc hname]

theorem mem_without {pool : List Class} {name : ClassName} {c : Class} :
    c ∈ without pool name ↔ c ∈ pool ∧ c.name ≠ name := by
  simp [without]

theorem without_comm (pool : List Class) (a b : ClassName) :
    without (without pool a) b = without (without pool b) a := by
  simp only [without, List.filter_filter]
  exact List.filter_congr fun c _ => Bool.and_comm _ _

theorem draw?_without {pool : List Class} {name other : ClassName} (h : name ≠ other) :
    draw? (without pool other) name = draw? pool name := by
  induction pool with
  | nil => rfl
  | cons c rest ih =>
      simp only [draw?, without, List.filter_cons] at ih ⊢
      by_cases hname : c.name = name
      · simp [hname, h]
      · by_cases hother : c.name = other
        · simpa [hother, Ne.symm h] using ih
        · simpa [hother, hname] using ih

@[simp]
theorem climb_none (pool : List Class) : climb pool none = [] := by
  rw [climb]

theorem climb_absent {pool : List Class} {name : ClassName} (h : draw? pool name = none) :
    climb pool (some name) = [] := by
  rw [climb]
  split
  · rfl
  · next c hc => simp [h] at hc

theorem climb_present {pool : List Class} {name : ClassName} {c : Class}
    (h : draw? pool name = some c) :
    climb pool (some name) = c :: climb (without pool name) c.parent := by
  rw [climb]
  split
  · next hn => simp [h] at hn
  · next d hd =>
      obtain rfl : d = c := by simpa [h] using hd.symm
      rfl

theorem mem_pool_of_mem_climb {pool : List Class} {next : Option ClassName} {c : Class}
    (h : c ∈ climb pool next) : c ∈ pool := by
  fun_induction climb pool next with
  | case1 => simp at h
  | case2 => simp at h
  | case3 pool name d hd ih =>
      rcases List.mem_cons.1 h with rfl | hrest
      · exact (mem_of_draw? hd).1
      · exact (mem_without.1 (ih hrest)).1

/-- A walk meets no name twice, whether or not the pool repeats names. -/
theorem climb_names_nodup (pool : List Class) (next : Option ClassName) :
    ((climb pool next).map Class.name).Nodup := by
  fun_induction climb pool next with
  | case1 => simp
  | case2 => simp
  | case3 pool name d hd ih =>
      have hname : d.name = name := (mem_of_draw? hd).2
      refine List.nodup_cons.2 ⟨?_, ih⟩
      rw [List.mem_map]
      rintro ⟨e, he, hsame⟩
      exact (mem_without.1 (mem_pool_of_mem_climb he)).2 (hsame.trans hname)

theorem climb_nodup (pool : List Class) (next : Option ClassName) : (climb pool next).Nodup :=
  List.Nodup.of_map _ (climb_names_nodup pool next)

/-- Each class of a walk is the superclass of the one before it. -/
theorem climb_isChain (pool : List Class) (next : Option ClassName) :
    (climb pool next).IsChain (ExtendsIn pool) := by
  fun_induction climb pool next with
  | case1 => exact .nil
  | case2 => exact .nil
  | case3 pool name d hd ih =>
      have hrest : (climb (without pool name) d.parent).IsChain (ExtendsIn pool) :=
        ih.imp fun _ _ h => ⟨(mem_without.1 h.1).1, h.2⟩
      cases hnext : d.parent with
      | none => simp
      | some above =>
          rw [hnext] at hrest
          cases hdraw : draw? (without pool name) above with
          | none => simp [climb_absent hdraw]
          | some e =>
              obtain ⟨he, habove⟩ := mem_of_draw? hdraw
              rw [climb_present hdraw] at hrest ⊢
              exact .cons_cons ⟨(mem_without.1 he).1, hnext.trans (habove ▸ rfl)⟩ hrest

/-- A walk that starts at a class meets only what the class reaches. -/
theorem reaches_of_mem_climb {pool : List Class} {c d : Class} (hc : c ∈ pool)
    (hnames : (pool.map Class.name).Nodup) (h : d ∈ climb pool (some c.name)) :
    ReflTransGen (ExtendsIn pool) c d := by
  have hchain := climb_isChain pool (some c.name)
  rw [climb_present (draw?_name hnames hc)] at h hchain
  rcases List.mem_cons.1 h with rfl | hrest
  · exact .refl
  · have hpairs := List.isChain_iff_pairwise.1
      (hchain.imp fun _ _ hstep => (TransGen.single hstep : TransGen (ExtendsIn pool) _ _))
    exact (List.rel_of_pairwise_cons hpairs hrest).to_reflTransGen

/-- What a walk has met, it goes on from: the superclass of a class that was met
is met too, unless the pool lacks it. -/
theorem climb_closed {pool : List Class} {next : Option ClassName} {c d : Class}
    (hnames : (pool.map Class.name).Nodup) (hc : c ∈ climb pool next)
    (hstep : ExtendsIn pool c d) : d ∈ climb pool next := by
  fun_induction climb pool next with
  | case1 => simp at hc
  | case2 => simp at hc
  | case3 pool name e he ih =>
      have hsub : ((without pool name).map Class.name).Nodup :=
        hnames.sublist (List.filter_sublist.map Class.name)
      obtain ⟨hepool, hename⟩ := mem_of_draw? he
      by_cases hfirst : d.name = name
      · obtain rfl := List.inj_on_of_nodup_map hnames hepool hstep.1 (hename.trans hfirst.symm)
        simp
      · have hd : d ∈ without pool name := mem_without.2 ⟨hstep.1, hfirst⟩
        apply List.mem_cons_of_mem _
        rcases List.mem_cons.1 hc with rfl | hrest
        · rw [hstep.2, climb_present (draw?_name hsub hd)]
          simp
        · exact ih hsub hrest ⟨hd, hstep.2⟩

/-- A walk from a class meets exactly what the class reaches within the pool. -/
theorem mem_climb_iff {pool : List Class} (hnames : (pool.map Class.name).Nodup) {c d : Class}
    (hc : c ∈ pool) :
    d ∈ climb pool (some c.name) ↔ ReflTransGen (ExtendsIn pool) c d := by
  refine ⟨reaches_of_mem_climb hc hnames, fun h => ?_⟩
  induction h with
  | refl =>
      rw [climb_present (draw?_name hnames hc)]
      simp
  | tail _ hstep ih => exact climb_closed hnames ih hstep

/-- Taking a class out of the pool does not change a walk that never meets it. -/
theorem climb_without {pool : List Class} {next : Option ClassName} {name : ClassName}
    (h : ∀ c ∈ climb pool next, c.name ≠ name) :
    climb (without pool name) next = climb pool next := by
  fun_induction climb pool next with
  | case1 pool => simp
  | case2 pool other hother =>
      have hnone : draw? (without pool name) other = none := by
        simp only [draw?, List.find?_eq_none] at hother ⊢
        exact fun c hc => hother c (mem_without.1 hc).1
      exact climb_absent hnone
  | case3 pool other d hd ih =>
      have hne : other ≠ name := (mem_of_draw? hd).2 ▸ h d (by simp)
      have hsame : draw? (without pool name) other = some d := (draw?_without hne).trans hd
      rw [climb_present hsame, without_comm, ih fun c hc => h c (by simp [hc])]

namespace Program

/-- The class itself and its ancestors, nearest first. -/
def lineage (p : Program) (c : Class) : List Class :=
  c :: p.ancestors c

variable {p : Program} {c d : Class}

theorem ancestors_of_root (h : ∀ d, ¬ ExtendsIn p.classes c d) : p.ancestors c = [] := by
  unfold ancestors
  cases hnext : c.parent with
  | none => simp
  | some name =>
      apply climb_absent
      simp only [draw?, List.find?_eq_none, decide_eq_true_eq]
      intro d hd hname
      exact h d ⟨(mem_without.1 hd).1, hnext.trans (hname ▸ rfl)⟩

theorem mem_classes_of_mem_ancestors (h : d ∈ p.ancestors c) : d ∈ p.classes :=
  (mem_without.1 (mem_pool_of_mem_climb h)).1

theorem mem_classes_of_mem_lineage (hc : c ∈ p.classes) (h : d ∈ p.lineage c) : d ∈ p.classes := by
  rcases List.mem_cons.1 h with rfl | habove
  · exact hc
  · exact mem_classes_of_mem_ancestors habove

theorem not_self_mem_ancestors : c ∉ p.ancestors c := fun h =>
  (mem_without.1 (mem_pool_of_mem_climb h)).2 rfl

theorem lineage_nodup : (p.lineage c).Nodup :=
  List.nodup_cons.2 ⟨not_self_mem_ancestors, climb_nodup _ _⟩

/-- Two classes of a program with one name are the same class. -/
theorem eq_of_name_eq (hc : c ∈ p.classes) (hd : d ∈ p.classes) (h : c.name = d.name) : c = d :=
  List.inj_on_of_nodup_map p.distinct hc hd h

theorem class?_name (hc : c ∈ p.classes) : p.class? c.name = some c :=
  draw?_name p.distinct hc

theorem draw?_superclass (hacyclic : p.Acyclic) (hc : c ∈ p.classes)
    (h : ExtendsIn p.classes c d) : draw? (without p.classes c.name) d.name = some d := by
  have hne : d.name ≠ c.name := by
    intro hname
    obtain rfl := eq_of_name_eq h.1 hc hname
    exact hacyclic d (.single h)
  rw [draw?_without hne]
  exact draw?_name p.distinct h.1

/-- Without cycles the ancestors of a class are its superclass and the
ancestors of that. -/
theorem ancestors_eq_cons (hacyclic : p.Acyclic) (hc : c ∈ p.classes)
    (h : ExtendsIn p.classes c d) : p.ancestors c = d :: p.ancestors d := by
  have havoids : ∀ e ∈ p.ancestors d, e.name ≠ c.name := by
    intro e he hname
    obtain rfl := eq_of_name_eq (mem_classes_of_mem_ancestors he) hc hname
    have hwalk : e ∈ climb p.classes (some d.name) := by
      rw [climb_present (draw?_name p.distinct h.1)]
      exact List.mem_cons_of_mem _ he
    exact hacyclic e (.head' h (reaches_of_mem_climb h.1 p.distinct hwalk))
  calc p.ancestors c
      = climb (without p.classes c.name) (some d.name) := by rw [ancestors, h.2]
    _ = d :: climb (without (without p.classes d.name) c.name) d.parent := by
        rw [climb_present (draw?_superclass hacyclic hc h), without_comm]
    _ = d :: p.ancestors d := by rw [climb_without havoids, ancestors]

/-- What holds of a class as soon as it holds of its superclass, holds of every
class of a program without cycles. -/
theorem lineage_induction (hacyclic : p.Acyclic) {motive : Class → Prop}
    (root : ∀ c ∈ p.classes, (∀ d, ¬ ExtendsIn p.classes c d) → motive c)
    (step : ∀ c ∈ p.classes, ∀ d, ExtendsIn p.classes c d → motive d → motive c)
    (hc : c ∈ p.classes) : motive c := by
  induction hlength : (p.ancestors c).length generalizing c with
  | zero =>
      apply root c hc
      intro d hstep
      simp [ancestors_eq_cons hacyclic hc hstep] at hlength
  | succ n ih =>
      by_cases hroot : ∀ d, ¬ ExtendsIn p.classes c d
      · exact root c hc hroot
      · obtain ⟨d, hstep⟩ := not_forall_not.1 hroot
        rw [ancestors_eq_cons hacyclic hc hstep, List.length_cons] at hlength
        exact step c hc d hstep (ih hstep.1 (by omega))

/-- A rank that falls from every class to its superclass rules out cycles. -/
theorem acyclic_of_rank (rank : Class → Nat)
    (h : ∀ c ∈ p.classes, ∀ d, ExtendsIn p.classes c d → rank d < rank c) : p.Acyclic :=
  not_transGen_self_of_rank rank (fun _ _ hstep => hstep.1) h

/-- The ancestors beyond one of them are the ancestors of that one. -/
theorem ancestors_split (hacyclic : p.Acyclic) (hc : c ∈ p.classes) (hd : d ∈ p.ancestors c) :
    ∃ nearer, p.ancestors c = nearer ++ p.lineage d := by
  revert hd
  refine lineage_induction hacyclic
    (motive := fun c => d ∈ p.ancestors c → ∃ nearer, p.ancestors c = nearer ++ p.lineage d)
    (fun c _ hroot hd => ?_) (fun c hc e hstep ih hd => ?_) hc
  · simp [ancestors_of_root hroot] at hd
  · rw [ancestors_eq_cons hacyclic hc hstep] at hd ⊢
    rcases List.mem_cons.1 hd with rfl | hfar
    · exact ⟨[], rfl⟩
    · obtain ⟨nearer, hnearer⟩ := ih hfar
      exact ⟨e :: nearer, by rw [hnearer, List.cons_append]⟩

end Program

/-- A class that has nothing but a place in the hierarchy. -/
def Class.bare (name : String) (parent : Option String) : Class where
  name := ⟨name⟩
  parent := parent.map ClassName.mk
  interfaces := []
  id := 0
  kind := .concrete
  fields := []
  methods := []
  verbatim := none
  isNative := false

/-- A program of one such class. -/
def Program.bare (name : String) : Program where
  classes := [Class.bare name none]
  entry := ⟨name⟩
  customMains := []
  distinct := by simp
  hasEntry := by simp [Class.bare]

/-- A method of a class that mentions a text and then does something else. -/
def Method.mentioning (owner text : String) (next : Stmt) : Method where
  name := "mention"
  owner := ⟨owner⟩
  type := ⟨[], .void⟩
  isStatic := true
  role := .ordinary
  nativeName := none
  body := some ⟨[], .block [.eval (.literal (.string text)), next]⟩
  bodyRef := none
  natives := []
  fluent := false

end ClassScript
