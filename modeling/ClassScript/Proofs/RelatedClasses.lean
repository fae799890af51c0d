import ClassScript.Proofs.AlikeClasses
import ClassScript.Proofs.DocText
import ClassScript.Proofs.Lineage
import Mathlib.Data.List.Chain

/-!
The classes to which the objects of a class belong: the class, its ancestors and
the interfaces that these lead to. The search draws its classes from a pool and
works on a queue of names; here it is compared with a walk that takes one layer
of classes after the other. The walk meets every class once, meets exactly the
closure of the class and its ancestors under interfaces, and the search fails
exactly on the first absent name that it comes across.
-/

namespace ClassScript

/-- `d` is a class of the pool that `c` names as an interface. -/
def ImplementsIn (pool : List Class) (c d : Class) : Prop :=
  d ∈ pool ∧ d.name ∈ c.interfaces

/-- The pool without the classes of the names of these. -/
def outside (pool classes : List Class) : List Class :=
  pool.filter fun d => classes.all (·.name ≠ d.name)

/-- The classes of the pool that the names mean, each where it is first named. -/
def drawAll (pool : List Class) : List ClassName → List Class
  | [] => []
  | name :: rest =>
      match draw? pool name with
      | none => drawAll pool rest
      | some c => c :: drawAll (without pool name) rest

section Pools

variable {pool classes : List Class} {names : List ClassName} {c d : Class}

theorem mem_outside : d ∈ outside pool classes ↔ d ∈ pool ∧ ∀ e ∈ classes, e.name ≠ d.name := by
  simp [outside]

@[simp]
theorem outside_nil (pool : List Class) : outside pool [] = pool := by
  simp [outside]

theorem outside_cons (pool classes : List Class) (c : Class) :
    outside pool (c :: classes) = outside (without pool c.name) classes := by
  simp only [outside, without, List.filter_filter]
  refine List.filter_congr fun d _ => ?_
  rw [List.all_cons, Bool.and_comm]
  simp only [ne_comm]

theorem names_outside_nodup (h : (pool.map Class.name).Nodup) (classes : List Class) :
    ((outside pool classes).map Class.name).Nodup :=
  h.sublist (List.filter_sublist.map Class.name)

theorem mem_pool_of_mem_drawAll (h : d ∈ drawAll pool names) : d ∈ pool := by
  induction names generalizing pool with
  | nil => simp [drawAll] at h
  | cons name rest ih =>
      cases hdraw : draw? pool name with
      | none =>
          simp only [drawAll, hdraw] at h
          exact ih h
      | some c =>
          simp only [drawAll, hdraw, List.mem_cons] at h
          rcases h with rfl | hrest
          · exact (mem_of_draw? hdraw).1
          · exact (mem_without.1 (ih hrest)).1

theorem mem_drawAll_iff (hnames : (pool.map Class.name).Nodup) :
    d ∈ drawAll pool names ↔ d ∈ pool ∧ d.name ∈ names := by
  induction names generalizing pool with
  | nil => simp [drawAll]
  | cons name rest ih =>
      cases hdraw : draw? pool name with
      | none =>
          simp only [drawAll, hdraw, ih hnames, List.mem_cons]
          exact and_congr_right fun hd => (or_iff_right (draw?_eq_none hdraw d hd)).symm
      | some c =>
          obtain ⟨hc, rfl⟩ := mem_of_draw? hdraw
          have hsub : ((without pool c.name).map Class.name).Nodup :=
            hnames.sublist (List.filter_sublist.map Class.name)
          simp only [drawAll, hdraw, List.mem_cons, ih hsub, mem_without]
          constructor
          · rintro (rfl | ⟨⟨hd, -⟩, hrest⟩)
            · exact ⟨hc, .inl rfl⟩
            · exact ⟨hd, .inr hrest⟩
          · rintro ⟨hd, hname⟩
            by_cases hsame : d.name = c.name
            · exact .inl (List.inj_on_of_nodup_map hnames hd hc hsame)
            · exact .inr ⟨⟨hd, hsame⟩, hname.resolve_left hsame⟩

/-- No two classes that are drawn have one name. -/
theorem names_drawAll_nodup (pool : List Class) (names : List ClassName) :
    ((drawAll pool names).map Class.name).Nodup := by
  induction names generalizing pool with
  | nil => simp [drawAll]
  | cons name rest ih =>
      cases hdraw : draw? pool name with
      | none =>
          simp only [drawAll, hdraw]
          exact ih pool
      | some c =>
          obtain ⟨-, rfl⟩ := mem_of_draw? hdraw
          simp only [drawAll, hdraw, List.map_cons, List.nodup_cons, List.mem_map]
          refine ⟨?_, ih _⟩
          rintro ⟨d, hd, hsame⟩
          exact (mem_without.1 (mem_pool_of_mem_drawAll hd)).2 hsame

theorem length_outside_lt (hc : c ∈ pool) (hmem : c ∈ classes) :
    (outside pool classes).length < pool.length := by
  rw [outside, List.length_filter_lt_length_iff_exists]
  exact ⟨c, hc, by simpa using ⟨c, hmem, rfl⟩⟩

end Pools

/-- What a layer of classes leads to within the pool, breadth first: the classes
that the layer implements, in the order in which they are first named, and then
what these lead to without them. -/
def layersFrom (pool layer : List Class) : List Class :=
  match _h : drawAll pool (layer.flatMap (·.interfaces)) with
  | [] => []
  | d :: more => d :: more ++ layersFrom (outside pool (d :: more)) (d :: more)
termination_by pool.length
decreasing_by
  exact length_outside_lt (mem_pool_of_mem_drawAll (_h ▸ List.mem_cons_self)) List.mem_cons_self

section Layers

variable {pool layer : List Class} {c d e : Class}

/-- Classes without interfaces lead nowhere. -/
theorem layersFrom_of_none (h : layer.flatMap (·.interfaces) = []) (pool : List Class) :
    layersFrom pool layer = [] := by
  rw [layersFrom, h]
  rfl

theorem layersFrom_of_draw {found : List Class}
    (h : drawAll pool (layer.flatMap (·.interfaces)) = found) :
    layersFrom pool layer = found ++ layersFrom (outside pool found) found := by
  subst h
  rw [layersFrom]
  split
  · next hnone => rw [hnone, layersFrom_of_none rfl, List.append_nil]
  · next d more hnext => rw [hnext]

theorem mem_pool_of_mem_layersFrom (h : d ∈ layersFrom pool layer) : d ∈ pool := by
  fun_induction layersFrom pool layer with
  | case1 => simp at h
  | case2 pool layer first more hnext ih =>
      rcases List.mem_append.1 h with hlayer | hdeeper
      · exact mem_pool_of_mem_drawAll (hnext ▸ hlayer)
      · exact (mem_outside.1 (ih hdeeper)).1

theorem names_layersFrom_nodup (pool layer : List Class) :
    ((layersFrom pool layer).map Class.name).Nodup := by
  fun_induction layersFrom pool layer with
  | case1 => simp
  | case2 pool layer first more hnext ih =>
      rw [List.map_append, List.nodup_append]
      refine ⟨hnext ▸ names_drawAll_nodup pool _, ih, ?_⟩
      rintro _ hlayer _ hdeeper rfl
      obtain ⟨d, hd, hname⟩ := List.mem_map.1 hdeeper
      obtain ⟨e, he, rfl⟩ := List.mem_map.1 hlayer
      exact (mem_outside.1 (mem_pool_of_mem_layersFrom hd)).2 e he hname.symm

/-- What a layer and interfaces keep, all that the layer leads to has. -/
theorem layersFrom_induction {motive : Class → Prop}
    (hnames : (pool.map Class.name).Nodup) (hlayer : ∀ c ∈ layer, motive c)
    (hstep : ∀ c d, motive c → ImplementsIn pool c d → motive d) :
    ∀ d ∈ layersFrom pool layer, motive d := by
  fun_induction layersFrom pool layer with
  | case1 => simp
  | case2 pool layer first more hnext ih =>
      have hfirst : ∀ d ∈ first :: more, motive d := by
        intro d hd
        rw [← hnext, mem_drawAll_iff hnames] at hd
        obtain ⟨hpool, hnamed⟩ := hd
        obtain ⟨c, hc, hinterface⟩ := List.mem_flatMap.1 hnamed
        exact hstep c d (hlayer c hc) ⟨hpool, hinterface⟩
      have hdeeper := ih (names_outside_nodup hnames _) hfirst fun c d hc himplements =>
        hstep c d hc ⟨(mem_outside.1 himplements.1).1, himplements.2⟩
      rintro d hd
      rcases List.mem_append.1 hd with hmem | hmem
      · exact hfirst d hmem
      · exact hdeeper d hmem

/-- Every interface in the pool of what a layer leads to, and of the layer
itself, is among what the layer leads to. -/
theorem layersFrom_closed (hnames : (pool.map Class.name).Nodup)
    (hc : c ∈ layer ++ layersFrom pool layer) (hstep : ImplementsIn pool c d) :
    d ∈ layersFrom pool layer := by
  have hfirst : ∀ {pool layer : List Class} {c : Class}, (pool.map Class.name).Nodup →
      c ∈ layer → ImplementsIn pool c d → d ∈ drawAll pool (layer.flatMap (·.interfaces)) :=
    fun hnames hmem hstep =>
      (mem_drawAll_iff hnames).2 ⟨hstep.1, List.mem_flatMap.2 ⟨_, hmem, hstep.2⟩⟩
  fun_induction layersFrom pool layer with
  | case1 pool layer hnone =>
      rw [List.append_nil] at hc
      exact hnone ▸ hfirst hnames hc hstep
  | case2 pool layer first more hnext ih =>
      rcases List.mem_append.1 hc with hmem | hdeeper
      · exact List.mem_append_left _ (hnext ▸ hfirst hnames hmem hstep)
      · by_cases hd : d ∈ first :: more
        · exact List.mem_append_left _ hd
        · -- a class that this layer does not draw is left in the pool for the next
          have hleft : d ∈ outside pool (first :: more) := by
            refine mem_outside.2 ⟨hstep.1, fun e he hname => hd ?_⟩
            have hpool : e ∈ pool := mem_pool_of_mem_drawAll (hnext ▸ he)
            rwa [← List.inj_on_of_nodup_map hnames hpool hstep.1 hname]
          exact List.mem_append_right _
            (ih (names_outside_nodup hnames _) hdeeper ⟨hleft, hstep.2⟩)

end Layers

namespace Program

/-- The first of the names that the program lacks. -/
def firstAbsent? (p : Program) (names : List ClassName) : Option ClassName :=
  names.find? fun name => (p.class? name).isNone

/-- A result that stands unless the program lacks one of the names. -/
def unlessAbsent {α : Type} (p : Program) (names : List ClassName) (result : Except ClassName α) :
    Except ClassName α :=
  match p.firstAbsent? names with
  | some name => .error name
  | none => result

section Search

variable {p : Program} {pool : List Class} {names rest : List ClassName} {name : ClassName}
  {α β : Type}

theorem firstAbsent?_eq_none :
    p.firstAbsent? names = none ↔ ∀ name ∈ names, (p.class? name).isSome := by
  simp [firstAbsent?, Option.ne_none_iff_isSome]

@[simp]
theorem unlessAbsent_nil (result : Except ClassName α) : p.unlessAbsent [] result = result := rfl

theorem unlessAbsent_cons_absent (h : (p.class? name).isNone) (names : List ClassName)
    (result : Except ClassName α) : p.unlessAbsent (name :: names) result = .error name := by
  rw [unlessAbsent, firstAbsent?, List.find?_cons]
  simp only [h]

theorem unlessAbsent_cons_present (h : ¬ (p.class? name).isNone) (names : List ClassName)
    (result : Except ClassName α) :
    p.unlessAbsent (name :: names) result = p.unlessAbsent names result := by
  rw [unlessAbsent, firstAbsent?, List.find?_cons]
  simp only [h]
  rfl

theorem unlessAbsent_append (names rest : List ClassName) (result : Except ClassName α) :
    p.unlessAbsent (names ++ rest) result =
      p.unlessAbsent names (p.unlessAbsent rest result) := by
  unfold unlessAbsent firstAbsent?
  rw [List.find?_append]
  cases names.find? fun name => (p.class? name).isNone with
  | some name => rfl
  | none => rfl

theorem map_unlessAbsent (f : α → β) (names : List ClassName) (result : Except ClassName α) :
    f <$> p.unlessAbsent names result = p.unlessAbsent names (f <$> result) := by
  unfold unlessAbsent
  cases p.firstAbsent? names with
  | some name => rfl
  | none => rfl

theorem explore_nil (pool : List Class) : p.explore pool [] = .ok [] := by
  rw [explore]

theorem explore_absent (h : (p.class? name).isNone) (pool : List Class) (rest : List ClassName) :
    p.explore pool (name :: rest) = .error name := by
  rw [explore, if_pos h]

theorem explore_visited (h : ¬ (p.class? name).isNone) (hdraw : draw? pool name = none) :
    p.explore pool (name :: rest) = p.explore pool rest := by
  rw [explore, if_neg h]
  split
  · rfl
  · next hsome => simp [hdraw] at hsome

theorem explore_fresh {c : Class} (h : ¬ (p.class? name).isNone) (hdraw : draw? pool name = some c) :
    p.explore pool (name :: rest) =
      (c :: ·) <$> p.explore (without pool name) (rest ++ c.interfaces) := by
  rw [explore, if_neg h]
  split
  · next hnone => simp [hdraw] at hnone
  · next d hd =>
      obtain rfl : d = c := by simpa [hdraw] using hd.symm
      exact (map_eq_pure_bind _ _).symm

/-- Names that are all present are drawn in turn, and the interfaces of what is
drawn queue up behind the rest; an absent name ends the search. -/
theorem explore_append (pool : List Class) (names rest : List ClassName) :
    p.explore pool (names ++ rest) = p.unlessAbsent names ((drawAll pool names ++ ·) <$>
      p.explore (outside pool (drawAll pool names))
        (rest ++ (drawAll pool names).flatMap (·.interfaces))) := by
  induction names generalizing pool rest with
  | nil => simp [drawAll]
  | cons name names ih =>
      rw [List.cons_append]
      by_cases habsent : (p.class? name).isNone
      · rw [explore_absent habsent, unlessAbsent_cons_absent habsent]
      · rw [unlessAbsent_cons_present habsent]
        cases hdraw : draw? pool name with
        | none =>
            rw [explore_visited habsent hdraw, ih]
            simp only [drawAll, hdraw]
        | some c =>
            obtain ⟨-, rfl⟩ := mem_of_draw? hdraw
            rw [explore_fresh habsent hdraw, List.append_assoc, ih, map_unlessAbsent]
            simp only [drawAll, hdraw, outside_cons, List.flatMap_cons, Functor.map_map,
              List.append_assoc, List.cons_append]

/-- The search goes layer by layer: it lists what the layer leads to unless it
comes across an absent name, and then it names the first. -/
theorem explore_layer (pool layer : List Class) :
    p.explore pool (layer.flatMap (·.interfaces)) =
      p.unlessAbsent ((layer ++ layersFrom pool layer).flatMap (·.interfaces))
        (.ok (layersFrom pool layer)) := by
  fun_induction layersFrom pool layer with
  | case1 pool layer hnone =>
      have hlayer := explore_append (p := p) pool (layer.flatMap (·.interfaces)) []
      rw [hnone, List.append_nil, List.flatMap_nil, List.append_nil, explore_nil] at hlayer
      rw [hlayer, List.append_nil]
      rfl
  | case2 pool layer first more hnext ih =>
      have hlayer := explore_append (p := p) pool (layer.flatMap (·.interfaces)) []
      rw [hnext, List.append_nil, List.nil_append, ih, map_unlessAbsent, ← unlessAbsent_append,
        ← List.flatMap_append] at hlayer
      exact hlayer

end Search

/-- The classes to which the objects of a class belong are the class, its
ancestors, and every class of the program that one of them implements. -/
inductive Kin (p : Program) (c : Class) : Class → Prop where
  | line {d : Class} (h : d ∈ p.lineage c) : p.Kin c d
  | interface {d e : Class} (h : p.Kin c e) (himplements : ImplementsIn p.classes e d) : p.Kin c d

/-- These classes as they are met: the class and its ancestors, and then the
interfaces, breadth first. -/
def breadthFirst (p : Program) (c : Class) : List Class :=
  p.lineage c ++ layersFrom (outside p.classes (p.lineage c)) (p.lineage c)

section Kin

variable {p : Program} {c d : Class}

theorem related_eq (p : Program) (c : Class) :
    p.related c = p.unlessAbsent ((p.breadthFirst c).flatMap (·.interfaces)) (.ok (p.breadthFirst c)) := by
  have hsearch : p.related c = (p.lineage c ++ ·) <$>
      p.explore (outside p.classes (p.lineage c)) ((p.lineage c).flatMap (·.interfaces)) :=
    (map_eq_pure_bind _ _).symm
  rw [hsearch, explore_layer, map_unlessAbsent]
  rfl

/-- No class is met twice. -/
theorem breadthFirst_nodup (p : Program) (c : Class) : (p.breadthFirst c).Nodup := by
  refine List.nodup_append.2 ⟨lineage_nodup, .of_map _ (names_layersFrom_nodup _ _), ?_⟩
  rintro d hline _ hlayer rfl
  exact (mem_outside.1 (mem_pool_of_mem_layersFrom hlayer)).2 d hline rfl

theorem mem_breadthFirst_iff (hc : c ∈ p.classes) : d ∈ p.breadthFirst c ↔ p.Kin c d := by
  have hnames : ((outside p.classes (p.lineage c)).map Class.name).Nodup :=
    names_outside_nodup p.distinct _
  constructor
  · intro h
    rcases List.mem_append.1 h with hline | hlayer
    · exact .line hline
    · refine layersFrom_induction hnames (fun e he => .line he) (fun e d he hstep => ?_) d hlayer
      exact .interface he ⟨(mem_outside.1 hstep.1).1, hstep.2⟩
  · intro h
    induction h with
    | line hline => exact List.mem_append_left _ hline
    | @interface d e _ himplements ih =>
        by_cases hd : d ∈ p.lineage c
        · exact List.mem_append_left _ hd
        · have hpool : d ∈ outside p.classes (p.lineage c) := by
            refine mem_outside.2 ⟨himplements.1, fun e he hname => hd ?_⟩
            rwa [← eq_of_name_eq (mem_classes_of_mem_lineage hc he) himplements.1 hname]
          exact List.mem_append_right _ (layersFrom_closed hnames ih ⟨hpool, himplements.2⟩)

/-- The search fails just if a class that it meets names an interface that the
program lacks. -/
theorem related_eq_ok_iff (hc : c ∈ p.classes) {classes : List Class} :
    p.related c = .ok classes ↔
      classes = p.breadthFirst c ∧ ∀ d, p.Kin c d → ∀ name ∈ d.interfaces, (p.class? name).isSome := by
  have hpresent : p.firstAbsent? ((p.breadthFirst c).flatMap (·.interfaces)) = none ↔
      ∀ d, p.Kin c d → ∀ name ∈ d.interfaces, (p.class? name).isSome := by
    simp only [firstAbsent?_eq_none, List.mem_flatMap, ← mem_breadthFirst_iff hc]
    exact ⟨fun h d hd name hname => h name ⟨d, hd, hname⟩,
      fun h name ⟨d, hd, hname⟩ => h d hd name hname⟩
  rw [related_eq, unlessAbsent, ← hpresent]
  cases p.firstAbsent? ((p.breadthFirst c).flatMap (·.interfaces)) with
  | some name => simp
  | none => simp [eq_comm]

/-- In a program without cycles a class has the kin of its ancestors. -/
theorem Kin.of_ancestor {e : Class} (hacyclic : p.Acyclic) (hd : d ∈ p.classes)
    (hc : c ∈ p.ancestors d) (h : p.Kin c e) : p.Kin d e := by
  induction h with
  | line hline =>
      obtain ⟨nearer, hsplit⟩ := ancestors_split hacyclic hd hc
      refine .line (List.mem_cons_of_mem _ ?_)
      rw [hsplit]
      exact List.mem_append_right _ hline
  | interface _ himplements ih => exact .interface ih himplements

/-- What the search lists for an ancestor, it lists for the class too. -/
theorem exists_related_of_ancestor (hacyclic : p.Acyclic) (hd : d ∈ p.classes)
    (hc : c ∈ p.ancestors d) {classes : List Class} (h : p.related d = .ok classes) :
    ∃ own, p.related c = .ok own ∧ own ⊆ classes := by
  have hmem : c ∈ p.classes := mem_classes_of_mem_ancestors hc
  obtain ⟨rfl, hpresent⟩ := (related_eq_ok_iff hd).1 h
  refine ⟨p.breadthFirst c, (related_eq_ok_iff hmem).2 ⟨rfl, fun e he => ?_⟩, fun e he => ?_⟩
  · exact hpresent e (he.of_ancestor hacyclic hd hc)
  · exact (mem_breadthFirst_iff hd).2 (((mem_breadthFirst_iff hmem).1 he).of_ancestor hacyclic hd hc)

end Kin

section Lines

variable {p : Program} {c : Class}

/-- A walk starts where it is told to. -/
theorem head_climb {pool : List Class} {next : Option ClassName} {d : Class}
    (h : (climb pool next).head? = some d) : d ∈ pool ∧ next = some d.name := by
  cases next with
  | none => simp at h
  | some name =>
      cases hdraw : draw? pool name with
      | none => simp [climb_absent hdraw] at h
      | some e =>
          rw [climb_present hdraw, List.head?_cons, Option.some_inj] at h
          obtain ⟨hpool, rfl⟩ := mem_of_draw? hdraw
          exact ⟨h ▸ hpool, h ▸ rfl⟩

theorem lineage_isChain (p : Program) (c : Class) :
    (p.lineage c).IsChain (ExtendsIn p.classes) := by
  refine List.isChain_cons.2 ⟨fun d hd => ?_, (climb_isChain _ _).imp fun _ _ hstep => ?_⟩
  · obtain ⟨hpool, hparent⟩ := head_climb hd
    exact ⟨(mem_without.1 hpool).1, hparent⟩
  · exact ⟨(mem_without.1 hstep.1).1, hstep.2⟩

theorem mem_pool_of_isChain {pool line : List Class} (h : (c :: line).IsChain (ExtendsIn pool)) :
    ∀ d ∈ line, d ∈ pool := by
  induction line generalizing c with
  | nil => simp
  | cons d rest ih =>
      obtain ⟨hstep, hrest⟩ := List.isChain_cons_cons.1 h
      exact List.forall_mem_cons.2 ⟨hstep.1, ih hrest⟩

/-- A walk goes as far as there are superclasses that it has not met. -/
theorem prefix_climb {pool line : List Class} {next : Option ClassName}
    (hnames : (pool.map Class.name).Nodup) (hpool : ∀ d ∈ line, d ∈ pool) (hnodup : line.Nodup)
    (hfirst : ∀ d ∈ line.head?, next = some d.name)
    (hchain : line.IsChain fun d e => d.parent = some e.name) : line <+: climb pool next := by
  induction line generalizing pool next with
  | nil => exact List.nil_prefix
  | cons d rest ih =>
      obtain ⟨hd, hrest⟩ := List.forall_mem_cons.1 hpool
      obtain ⟨hfresh, hnodup⟩ := List.nodup_cons.1 hnodup
      obtain ⟨hparent, hchain⟩ := List.isChain_cons.1 hchain
      rw [hfirst d rfl, climb_present (draw?_name hnames hd), List.prefix_cons_inj]
      refine ih (hnames.sublist (List.filter_sublist.map Class.name)) (fun e he => ?_) hnodup
        hparent hchain
      refine mem_without.2 ⟨hrest e he, fun hname => hfresh ?_⟩
      rwa [← List.inj_on_of_nodup_map hnames (hrest e he) hd hname]

/-- The ancestors are the longest line of superclasses that starts above the
class and repeats neither the class nor another. -/
theorem prefix_ancestors_iff (hc : c ∈ p.classes) {line : List Class} :
    line <+: p.ancestors c ↔ (c :: line).Nodup ∧ (c :: line).IsChain (ExtendsIn p.classes) := by
  constructor
  · intro h
    obtain ⟨rest, hrest⟩ := h
    have hline : p.lineage c = c :: line ++ rest := congrArg (c :: ·) hrest.symm
    have hchain : (c :: line ++ rest).IsChain (ExtendsIn p.classes) := hline ▸ lineage_isChain p c
    have hnodup : (c :: line ++ rest).Nodup := hline ▸ lineage_nodup
    exact ⟨hnodup.of_append_left, hchain.left_of_append⟩
  · rintro ⟨hnodup, hchain⟩
    obtain ⟨hself, hnodup⟩ := List.nodup_cons.1 hnodup
    obtain ⟨hfirst, hrest⟩ := List.isChain_cons.1 hchain
    have hclasses : ∀ d ∈ line, d ∈ p.classes := mem_pool_of_isChain hchain
    refine prefix_climb (p.distinct.sublist (List.filter_sublist.map Class.name)) (fun d hd => ?_)
      hnodup (fun d hd => (hfirst d hd).2) (hrest.imp fun _ _ hstep => hstep.2)
    refine mem_without.2 ⟨hclasses d hd, fun hname => hself ?_⟩
    rwa [← eq_of_name_eq (hclasses d hd) hc hname]

end Lines

end Program

namespace Emission

open Output

/-- The line of a class that lists the numbers of classes. -/
def classIdsLine (c : Class) (classes : List Class) : String :=
  c.name.identifier ++ ".prototype.$$CLASS_IDS = [" ++
    ",".intercalate (classes.map fun d => Text.natural d.id.toNat) ++ "];"

/-- A class that is emitted lists the numbers of all classes to which its objects
belong. -/
theorem classIdsLine_of_lowerClass {job : Job} {c : Class} {s t : State} {d : Doc}
    (h : (lowerClass job c).run s = (.ok d, t)) :
    ∃ classes, job.program.related c = .ok classes ∧
      ∃ before after : Doc, d.text = before.text ++ (classIdsLine c classes ++ "\n") ++ after.text := by
  simp only [lowerClass] at h
  obtain ⟨parent, _, _, h⟩ := exists_of_run_bind_ok h
  obtain ⟨defaults, _, _, h⟩ := exists_of_run_bind_ok h
  obtain ⟨related, _, hrelated, h⟩ := exists_of_run_bind_ok h
  obtain ⟨staticInit, _, _, h⟩ := exists_of_run_bind_ok h
  obtain ⟨inits, _, _, h⟩ := exists_of_run_bind_ok h
  obtain ⟨others, _, _, h⟩ := exists_of_run_bind_ok h
  obtain ⟨rfl, -⟩ := eq_of_run_pure h
  have hclasses : job.program.related c = .ok related := by
    rw [relatedClasses] at hrelated
    split at hrelated
    · next found hfound => rw [hfound, (eq_of_run_pure hrelated).1]
    · cases hrelated
  have hline : (Doc.line (classIdsLine c related)).text = classIdsLine c related ++ "\n" := by
    refine Doc.text_line ?_
    rw [classIdsLine, Doc.getLast?_append (c := ';') _ rfl]
    decide
  have hbetween : ∀ before : Doc, (before ++ Doc.line (classIdsLine c related) ++ staticInit ++
      Doc.concat inits ++ Doc.concat others).text =
        before.text ++ (classIdsLine c related ++ "\n") ++
          (staticInit ++ Doc.concat inits ++ Doc.concat others).text := by
    intro before
    simp only [Doc.text_append, hline, String.append_assoc]
  exact ⟨related, hclasses, _, _, hbetween _⟩

end Emission

open Emission in
/-- Over all hierarchies, those with cycles included: the ancestors are the
longest line of superclasses above the class that repeats nothing; the search
lists the closure of the class and its ancestors under interfaces, each class
once and breadth first, unless one of these names an absent interface, and then
it gives the first such name in that order; without cycles a class has all that
its ancestors have; and the class numbers in the script are those of the list. -/
theorem related_breadthFirst (p : Program) {c : Class} (hc : c ∈ p.classes) :
    (∀ line : List Class, line <+: p.ancestors c ↔
      (c :: line).Nodup ∧ (c :: line).IsChain (ExtendsIn p.classes)) ∧
    (p.breadthFirst c).Nodup ∧
    (∀ d, d ∈ p.breadthFirst c ↔ p.Kin c d) ∧
    (p.related c =
      match p.firstAbsent? ((p.breadthFirst c).flatMap (·.interfaces)) with
      | none => .ok (p.breadthFirst c)
      | some name => .error name) ∧
    ((∃ classes, p.related c = .ok classes) ↔
      ∀ d, p.Kin c d → ∀ name ∈ d.interfaces, (p.class? name).isSome) ∧
    (p.Acyclic → ∀ d ∈ p.classes, c ∈ p.ancestors d → ∀ classes, p.related d = .ok classes →
      ∃ own, p.related c = .ok own ∧ own ⊆ classes) ∧
    ∀ job : Job, job.program = p → ∀ s doc t, (lowerClass job c).run s = (.ok doc, t) →
      ∃ classes, p.related c = .ok classes ∧ ∃ before after : Output.Doc,
        doc.text = before.text ++ (classIdsLine c classes ++ "\n") ++ after.text := by
  refine ⟨fun line => Program.prefix_ancestors_iff hc, p.breadthFirst_nodup c,
    fun d => Program.mem_breadthFirst_iff hc, ?_, ?_, ?_, ?_⟩
  · rw [Program.related_eq, Program.unlessAbsent]
    cases p.firstAbsent? ((p.breadthFirst c).flatMap (·.interfaces)) with
    | none => rfl
    | some name => rfl
  · simp only [Program.related_eq_ok_iff hc, exists_eq_left]
  · intro hacyclic d hd hancestor classes hrelated
    exact Program.exists_related_of_ancestor hacyclic hd hancestor hrelated
  · rintro job rfl s doc t hrun
    exact classIdsLine_of_lowerClass hrun

/-- A class that has nothing but a superclass and interfaces. -/
def Class.implementing (name : String) (parent : Option String) (interfaces : List String) : Class :=
  { Class.bare name parent with interfaces := interfaces.map .mk }

/-- A program in which two interfaces extend each other. -/
def Program.entwined : Program where
  classes := [.implementing "Sub" (some "Base") ["J"], .implementing "Base" none ["I"],
    .implementing "I" none ["J"], .implementing "J" none ["I", "K"], .implementing "K" none []]
  entry := ⟨"Sub"⟩
  customMains := []
  distinct := by simp [Class.implementing, Class.bare]
  hasEntry := by simp [Class.implementing, Class.bare]

theorem breadthFirst_entwined :
    Program.entwined.breadthFirst (.implementing "Sub" (some "Base") ["J"]) =
      [.implementing "Sub" (some "Base") ["J"], .implementing "Base" none ["I"],
        .implementing "J" none ["I", "K"], .implementing "I" none ["J"],
        .implementing "K" none []] := by
  have hline : Program.entwined.lineage (.implementing "Sub" (some "Base") ["J"]) =
      [.implementing "Sub" (some "Base") ["J"], .implementing "Base" none ["I"]] := by
    refine congrArg _ ((climb_present ?_).trans (congrArg _ (climb_none _)))
    simp [Program.entwined, Class.implementing, Class.bare, without, draw?]
  have hfirst : drawAll (outside Program.entwined.classes [.implementing "Sub" (some "Base") ["J"],
      .implementing "Base" none ["I"]]) [⟨"J"⟩, ⟨"I"⟩] =
        [.implementing "J" none ["I", "K"], .implementing "I" none ["J"]] := by
    simp [Program.entwined, Class.implementing, Class.bare, drawAll, outside, without, draw?]
  have hsecond : drawAll (outside (outside Program.entwined.classes
      [.implementing "Sub" (some "Base") ["J"], .implementing "Base" none ["I"]])
      [.implementing "J" none ["I", "K"], .implementing "I" none ["J"]]) [⟨"I"⟩, ⟨"K"⟩, ⟨"J"⟩] =
        [.implementing "K" none []] := by
    simp [Program.entwined, Class.implementing, Class.bare, drawAll, outside, without, draw?]
  rw [Program.breadthFirst, hline, layersFrom_of_draw hfirst, layersFrom_of_draw hsecond,
    layersFrom_of_none rfl]
  rfl

theorem related_breadthFirst_entwined :
    Class.implementing "Sub" (some "Base") ["J"] ∈ Program.entwined.classes ∧
    Program.entwined.related (.implementing "Sub" (some "Base") ["J"]) =
      .ok [.implementing "Sub" (some "Base") ["J"], .implementing "Base" none ["I"],
        .implementing "J" none ["I", "K"], .implementing "I" none ["J"],
        .implementing "K" none []] := by
  have hmem : Class.implementing "Sub" (some "Base") ["J"] ∈ Program.entwined.classes :=
    List.mem_cons_self
  refine ⟨hmem, (related_breadthFirst Program.entwined hmem).2.2.2.1.trans ?_⟩
  rw [breadthFirst_entwined]
  simp [Program.firstAbsent?, Program.class?, Program.entwined, Class.implementing, Class.bare]

end ClassScript
