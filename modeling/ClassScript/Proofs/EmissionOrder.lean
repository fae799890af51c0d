import ClassScript.Proofs.Lineage
import ClassScript.Proofs.Lists
import Mathlib.Data.List.Sort
import Mathlib.Data.Prod.Lex
import Mathlib.Order.Bounds.Basic
import Mathlib.Order.Lattice.Nat

/-!
The order in which classes are emitted. Whatever the hierarchy, every class that
is not native is emitted once. Without cycles the order is the one given by a
key: the first place in the input of a class or of one below it, and then the
number of superclasses above.
-/

namespace ClassScript

open Relation

namespace Program

/-- The classes that are emitted, in input order. -/
def emitted (p : Program) : List Class :=
  p.classes.filter (!·.isNative)

/-- The index of a class in the input. -/
def place (p : Program) (c : Class) : Nat :=
  (p.classes.map Class.name).idxOf c.name

/-- How many links to emitted superclasses lie above a class. -/
inductive LinksAbove (p : Program) : Class → Nat → Prop where
  | root {c : Class} (h : ∀ d, ¬ ExtendsIn p.emitted c d) : LinksAbove p c 0
  | link {c d : Class} {n : Nat} (h : ExtendsIn p.emitted c d) (above : LinksAbove p d n) :
      LinksAbove p c (n + 1)

/-- What a class is ordered by: the smallest index of a counted class from which
links lead to it, and the number of links above it. -/
structure HasKey (p : Program) (counted : List Class) (c : Class) (first above : Nat) : Prop where
  first : IsLeast {i | ∃ d ∈ counted, ReflTransGen (ExtendsIn p.emitted) d c ∧ p.place d = i} first
  above : p.LinksAbove c above

/-- A list whose keys strictly increase. -/
def SortedByKey (p : Program) (counted order : List Class) : Prop :=
  order.Pairwise fun c d => ∀ i m j n, p.HasKey counted c i m → p.HasKey counted d j n →
    toLex (i, m) < toLex (j, n)

variable {p : Program} {c d : Class}

theorem mem_emitted : c ∈ p.emitted ↔ c ∈ p.classes ∧ c.isNative = false := by
  simp [emitted]

theorem emitted_names_nodup : (p.emitted.map Class.name).Nodup :=
  p.distinct.sublist (List.filter_sublist.map Class.name)

theorem emitted_nodup : p.emitted.Nodup :=
  List.Nodup.of_map _ emitted_names_nodup

theorem extendsIn_classes (h : ExtendsIn p.emitted c d) : ExtendsIn p.classes c d :=
  ⟨(mem_emitted.1 h.1).1, h.2⟩

/-- A class has at most one superclass. -/
theorem superclass_unique {e : Class} (hd : ExtendsIn p.emitted c d)
    (he : ExtendsIn p.emitted c e) : d = e := by
  have hname : d.name = e.name := Option.some.inj (hd.2.symm.trans he.2)
  exact List.inj_on_of_nodup_map emitted_names_nodup hd.1 he.1 hname

theorem mem_emitted_of_reaches (hc : c ∈ p.emitted)
    (h : ReflTransGen (ExtendsIn p.emitted) c d) : d ∈ p.emitted := by
  rcases reflTransGen_iff_eq_or_transGen.1 h with rfl | hsteps
  · exact hc
  · obtain ⟨e, _, hlast⟩ := TransGen.tail'_iff.1 hsteps
    exact hlast.1

theorem classes_pairwise_place : p.classes.Pairwise (p.place · < p.place ·) := by
  have hindex : ∀ i (h : i < p.classes.length), p.place p.classes[i] = i := by
    intro i h
    have hbound : i < (p.classes.map Class.name).length := by simpa using h
    have hmap : p.classes[i].name = (p.classes.map Class.name)[i] := by simp
    rw [place, hmap, p.distinct.idxOf_getElem]
  rw [List.pairwise_iff_getElem]
  intro i j hi hj hlt
  rwa [hindex i hi, hindex j hj]

theorem emitted_pairwise_place : p.emitted.Pairwise (p.place · < p.place ·) :=
  classes_pairwise_place.sublist List.filter_sublist

theorem LinksAbove.unique {m n : Nat} (hm : p.LinksAbove c m) (hn : p.LinksAbove c n) : m = n := by
  induction hm generalizing n with
  | root hroot =>
      cases hn with
      | root => rfl
      | link h _ => exact absurd h (hroot _)
  | link h _ ih =>
      cases hn with
      | root hroot => exact absurd h (hroot _)
      | link h' above' =>
          obtain rfl := superclass_unique h h'
          rw [ih above']

theorem exists_linksAbove (hacyclic : p.Acyclic) (hc : c ∈ p.classes) :
    ∃ n, p.LinksAbove c n := by
  refine lineage_induction hacyclic (motive := fun c => ∃ n, p.LinksAbove c n)
    (fun c _ hroot => ⟨0, .root fun d h => hroot d (extendsIn_classes h)⟩)
    (fun c _ d hstep ih => ?_) hc
  by_cases hlink : ExtendsIn p.emitted c d
  · obtain ⟨n, hn⟩ := ih
    exact ⟨n + 1, .link hlink hn⟩
  · refine ⟨0, .root fun e he => hlink ?_⟩
    have hname : e.name = d.name := Option.some.inj (he.2.symm.trans hstep.2)
    obtain rfl := eq_of_name_eq (extendsIn_classes he).1 hstep.1 hname
    exact he

theorem exists_key (hacyclic : p.Acyclic) (hc : c ∈ p.emitted) :
    ∃ first above, p.HasKey p.emitted c first above := by
  have hplaces : {i | ∃ d ∈ p.emitted, ReflTransGen (ExtendsIn p.emitted) d c ∧
      p.place d = i}.Nonempty := ⟨_, c, hc, .refl, rfl⟩
  obtain ⟨n, hn⟩ := exists_linksAbove hacyclic (mem_emitted.1 hc).1
  exact ⟨_, n, ⟨Nat.sInf_mem hplaces, fun _ hi => Nat.sInf_le hi⟩, hn⟩

theorem linksAbove_lt {m n : Nat} (h : TransGen (ExtendsIn p.emitted) c d)
    (hc : p.LinksAbove c m) (hd : p.LinksAbove d n) : n < m := by
  induction h using TransGen.head_induction_on generalizing m with
  | single hstep =>
      have hm := hc.unique (.link hstep hd)
      omega
  | head hstep _ ih =>
      cases hc with
      | root hroot => exact absurd hstep (hroot _)
      | link hstep' above =>
          obtain rfl := superclass_unique hstep hstep'
          exact Nat.lt_succ_of_lt (ih above)

/-- A class above has the smaller key. -/
theorem key_lt_of_above {i m j n : Nat} (h : TransGen (ExtendsIn p.emitted) c d)
    (hc : p.HasKey p.emitted c i m) (hd : p.HasKey p.emitted d j n) :
    toLex (j, n) < toLex (i, m) := by
  have hfirst : j ≤ i := by
    obtain ⟨e, he, hreach, hplace⟩ := hc.first.1
    exact hd.first.2 ⟨e, he, hreach.trans h.to_reflTransGen, hplace⟩
  have habove : n < m := linksAbove_lt h hc.above hd.above
  rw [Prod.Lex.toLex_lt_toLex]
  rcases Nat.lt_or_eq_of_le hfirst with hlt | heq
  · exact .inl hlt
  · exact .inr ⟨heq, habove⟩

/-- When a class gets ahead of one listed earlier, a class below it is listed no
later than that one. -/
theorem exists_below_of_key_lt {i m j n : Nat} (hlisted : p.place d < p.place c)
    (hdmem : d ∈ p.emitted) (hc : p.HasKey p.emitted c i m) (hd : p.HasKey p.emitted d j n)
    (hlt : toLex (i, m) < toLex (j, n)) :
    ∃ e ∈ p.emitted, TransGen (ExtendsIn p.emitted) e c ∧ p.place e ≤ p.place d := by
  obtain ⟨e, he, hreach, hplace⟩ := hc.first.1
  have hle : i ≤ j := by
    rw [Prod.Lex.toLex_lt_toLex] at hlt
    rcases hlt with h | ⟨h, _⟩
    · exact Nat.le_of_lt h
    · exact Nat.le_of_eq h
  have hnear : p.place e ≤ p.place d := by
    have hself : j ≤ p.place d := hd.first.2 ⟨d, hdmem, .refl, rfl⟩
    omega
  refine ⟨e, he, ?_, hnear⟩
  rcases reflTransGen_iff_eq_or_transGen.1 hreach with rfl | hsteps
  · omega
  · exact hsteps

/-- The emitted classes that are not placed. -/
def pending (p : Program) (placed : List Class) : List Class :=
  p.emitted.filter fun d => placed.all (·.name ≠ d.name)

/-- Placing a class: it and what it still needs come after what is placed. -/
def placeNext (p : Program) (placed : List Class) (c : Class) : List Class :=
  placed ++ (climb (p.pending placed) (some c.name)).reverse

theorem emissionOrder_eq : p.emissionOrder = p.emitted.foldl p.placeNext [] := rfl

/-- The placed classes are the ones needed by the classes gone through. -/
structure PlacedFrom (p : Program) (gone placed : List Class) : Prop where
  nodup : placed.Nodup
  mem : ∀ c, c ∈ placed ↔ ∃ d ∈ gone, ReflTransGen (ExtendsIn p.emitted) d c

section Placing

variable {gone placed : List Class} (hplaced : p.PlacedFrom gone placed)
  (hgone : ∀ d ∈ gone, d ∈ p.emitted)

include hplaced hgone

theorem PlacedFrom.mem_emitted (hc : c ∈ placed) : c ∈ p.emitted := by
  obtain ⟨d, hd, hreach⟩ := (hplaced.mem c).1 hc
  exact mem_emitted_of_reaches (hgone d hd) hreach

theorem PlacedFrom.mem_pending : c ∈ p.pending placed ↔ c ∈ p.emitted ∧ c ∉ placed := by
  simp only [pending, List.mem_filter, List.all_eq_true, decide_eq_true_eq, and_congr_right_iff]
  intro hc
  constructor
  · intro h hmem
    exact h c hmem rfl
  · intro h d hd hname
    have hd' := hplaced.mem_emitted hgone hd
    obtain rfl := List.inj_on_of_nodup_map emitted_names_nodup hd' hc hname
    exact h hd

/-- A class whose turn comes brings what it needs and is not yet placed. -/
theorem PlacedFrom.mem_climb (hc : c ∈ p.emitted) :
    d ∈ climb (p.pending placed) (some c.name) ↔
      ReflTransGen (ExtendsIn p.emitted) c d ∧ d ∉ placed := by
  have hnames : ((p.pending placed).map Class.name).Nodup :=
    emitted_names_nodup.sublist (List.filter_sublist.map Class.name)
  constructor
  · intro h
    refine ⟨?_, ((hplaced.mem_pending hgone).1 (mem_pool_of_mem_climb h)).2⟩
    by_cases hfirst : c ∈ placed
    · have hdraw : draw? (p.pending placed) c.name = none := by
        rw [draw?, List.find?_eq_none]
        intro e he hname
        have he' := (hplaced.mem_pending hgone).1 he
        obtain rfl := List.inj_on_of_nodup_map emitted_names_nodup he'.1 hc (by simpa using hname)
        exact he'.2 hfirst
      simp [climb_absent hdraw] at h
    · have hpool := (hplaced.mem_pending hgone).2 ⟨hc, hfirst⟩
      have hreach := reaches_of_mem_climb hpool hnames h
      apply hreach.lift id
      intro a b hab
      exact ⟨((hplaced.mem_pending hgone).1 hab.1).1, hab.2⟩
  · rintro ⟨hreach, hd⟩
    induction hreach with
    | refl =>
        have hpool := (hplaced.mem_pending hgone).2 ⟨hc, hd⟩
        exact (mem_climb_iff hnames hpool).2 .refl
    | @tail b d hreach hstep ih =>
        -- What is placed is closed upwards, so the class below was not placed either.
        have hb : b ∉ placed := by
          intro hb
          obtain ⟨e, he, hbelow⟩ := (hplaced.mem b).1 hb
          exact hd ((hplaced.mem d).2 ⟨e, he, hbelow.tail hstep⟩)
        have hpool := (hplaced.mem_pending hgone).2 ⟨hstep.1, hd⟩
        exact climb_closed hnames (ih hb) ⟨hpool, hstep.2⟩

theorem PlacedFrom.step (hc : c ∈ p.emitted) :
    p.PlacedFrom (gone ++ [c]) (p.placeNext placed c) := by
  constructor
  · refine List.nodup_append'.2 ⟨hplaced.nodup, List.nodup_reverse.2 (climb_nodup _ _), ?_⟩
    intro d hd hnew
    exact ((hplaced.mem_climb hgone hc).1 (List.mem_reverse.1 hnew)).2 hd
  · intro d
    rw [placeNext, List.mem_append, List.mem_reverse, hplaced.mem_climb hgone hc]
    simp only [List.mem_append, List.mem_singleton]
    constructor
    · rintro (hd | ⟨hreach, _⟩)
      · obtain ⟨e, he, hreach⟩ := (hplaced.mem d).1 hd
        exact ⟨e, .inl he, hreach⟩
      · exact ⟨c, .inr rfl, hreach⟩
    · rintro ⟨e, he | rfl, hreach⟩
      · exact .inl ((hplaced.mem d).2 ⟨e, he, hreach⟩)
      · by_cases hd : d ∈ placed
        · exact .inl hd
        · exact .inr ⟨hreach, hd⟩

end Placing

theorem placedFrom_emissionOrder : p.PlacedFrom p.emitted p.emissionOrder := by
  rw [emissionOrder_eq]
  suffices h : ∀ rest gone placed, (∀ d ∈ gone ++ rest, d ∈ p.emitted) →
      p.PlacedFrom gone placed → p.PlacedFrom (gone ++ rest) (rest.foldl p.placeNext placed) from
    h p.emitted [] [] (fun d hd => hd) ⟨List.nodup_nil, by simp⟩
  intro rest
  induction rest with
  | nil =>
      intro gone placed _ hplaced
      simpa using hplaced
  | cons c rest ih =>
      intro gone placed hmem hplaced
      have hstep := hplaced.step (fun d hd => hmem d (by simp [hd])) (hmem c (by simp))
      simpa using ih (gone ++ [c]) _ (by simpa using hmem) hstep

/-- Whatever the hierarchy, each class that is not native is emitted once. -/
theorem emissionOrder_perm : p.emissionOrder.Perm p.emitted := by
  apply (List.perm_ext_iff_of_nodup placedFrom_emissionOrder.nodup emitted_nodup).2
  intro c
  rw [placedFrom_emissionOrder.mem]
  constructor
  · rintro ⟨d, hd, hreach⟩
    exact mem_emitted_of_reaches hd hreach
  · intro hc
    exact ⟨c, hc, .refl⟩

/-- Placing the next class of the input keeps the keys increasing. What it
brings is needed by no class gone through, so its first place is the class's. -/
theorem PlacedFrom.sorted_step {gone rest placed : List Class} (hplaced : p.PlacedFrom gone placed)
    (hsplit : p.emitted = gone ++ c :: rest) (hsorted : p.SortedByKey p.emitted placed) :
    p.SortedByKey p.emitted (p.placeNext placed c) := by
  have hgone : ∀ d ∈ gone, d ∈ p.emitted := fun d hd => hsplit ▸ List.mem_append_left _ hd
  have hc : c ∈ p.emitted := hsplit ▸ by simp
  have hplace := emitted_pairwise_place (p := p)
  rw [hsplit, List.pairwise_append, List.pairwise_cons] at hplace
  obtain ⟨_, ⟨hlater, _⟩, hearlier⟩ := hplace
  refine List.pairwise_append.2 ⟨hsorted, ?_, ?_⟩
  · have hchain : (climb (p.pending placed) (some c.name)).IsChain
        (TransGen (ExtendsIn p.emitted)) := by
      refine (climb_isChain (p.pending placed) (some c.name)).imp fun a b hab => .single ?_
      exact ⟨((hplaced.mem_pending hgone).1 hab.1).1, hab.2⟩
    rw [List.pairwise_reverse]
    exact (List.isChain_iff_pairwise.1 hchain).imp fun h i m j n hd he => key_lt_of_above h he hd
  · intro d hd e he i m j n hkeyd hkeye
    rw [List.mem_reverse, hplaced.mem_climb hgone hc] at he
    have hbefore : i < p.place c := by
      obtain ⟨a, ha, hreach⟩ := (hplaced.mem d).1 hd
      have hle : i ≤ p.place a := hkeyd.first.2 ⟨a, hgone a ha, hreach, rfl⟩
      have hlt := hearlier a ha c (by simp)
      omega
    have hafter : p.place c ≤ j := by
      obtain ⟨a, ha, hreach, rfl⟩ := hkeye.first.1
      rw [hsplit, List.mem_append, List.mem_cons] at ha
      rcases ha with ha | rfl | ha
      · exact absurd ((hplaced.mem e).2 ⟨a, ha, hreach⟩) he.2
      · exact Nat.le_refl _
      · exact Nat.le_of_lt (hlater a ha)
    exact Prod.Lex.toLex_lt_toLex.2 (.inl (by omega))

theorem emissionOrder_sorted : p.SortedByKey p.emitted p.emissionOrder := by
  rw [emissionOrder_eq]
  suffices h : ∀ rest gone placed, p.emitted = gone ++ rest → p.PlacedFrom gone placed →
      p.SortedByKey p.emitted placed →
      p.SortedByKey p.emitted (rest.foldl p.placeNext placed) from
    h p.emitted [] [] rfl ⟨List.nodup_nil, by simp⟩ List.Pairwise.nil
  intro rest
  induction rest with
  | nil => exact fun _ _ _ _ hsorted => hsorted
  | cons c rest ih =>
      intro gone placed hsplit hplaced hsorted
      have hstep : p.PlacedFrom (gone ++ [c]) (p.placeNext placed c) :=
        hplaced.step (fun d hd => hsplit ▸ List.mem_append_left _ hd) (hsplit ▸ by simp)
      exact ih (gone ++ [c]) _ (by simpa using hsplit) hstep (hplaced.sorted_step hsplit hsorted)

/-- A program is superclass-first when its input lists superclasses first. -/
def SuperclassFirst (p : Program) : Prop :=
  ∀ c ∈ p.emitted, ∀ d, ExtendsIn p.emitted c d → [d, c].Sublist p.classes

theorem place_le_of_reaches (hfirst : p.SuperclassFirst) (hc : c ∈ p.emitted)
    (h : ReflTransGen (ExtendsIn p.emitted) c d) : p.place d ≤ p.place c := by
  induction h with
  | refl => exact Nat.le_refl _
  | tail hreach hstep ih =>
      have hlisted := hfirst _ (mem_emitted_of_reaches hc hreach) _ hstep
      have hlt := List.pairwise_iff_forall_sublist.1 classes_pairwise_place hlisted
      omega

theorem emitted_sorted (hfirst : p.SuperclassFirst) : p.SortedByKey p.emitted p.emitted := by
  refine emitted_pairwise_place.imp_of_mem fun {c d} hc _ hlt i m j n hkeyc hkeyd => ?_
  have hbefore : i ≤ p.place c := hkeyc.first.2 ⟨c, hc, .refl, rfl⟩
  have hafter : p.place d ≤ j := by
    obtain ⟨e, he, hreach, rfl⟩ := hkeyd.first.1
    exact place_le_of_reaches hfirst he hreach
  exact Prod.Lex.toLex_lt_toLex.2 (.inl (by omega))

/-- The keys leave one order only. -/
theorem sortedByKey_unique (hacyclic : p.Acyclic) {order other : List Class}
    (hperm : order.Perm p.emitted) (hother : other.Perm p.emitted)
    (hsorted : p.SortedByKey p.emitted order) (hsorted' : p.SortedByKey p.emitted other) :
    order = other := by
  refine List.Perm.eq_of_pairwise (fun c d hc hd hlt hgt => ?_) hsorted hsorted'
    (hperm.trans hother.symm)
  obtain ⟨i, m, hkeyc⟩ := exists_key hacyclic (hperm.subset hc)
  obtain ⟨j, n, hkeyd⟩ := exists_key hacyclic (hother.subset hd)
  exact absurd (hlt i m j n hkeyc hkeyd) (lt_asymm (hgt j n i m hkeyd hkeyc))

theorem superclass_sublist (hacyclic : p.Acyclic) (hc : c ∈ p.emitted)
    (hstep : ExtendsIn p.emitted c d) : [d, c].Sublist p.emissionOrder := by
  have hne : d ≠ c := by
    rintro rfl
    exact hacyclic d (.single (extendsIn_classes hstep))
  have hmem : ∀ e ∈ p.emitted, e ∈ p.emissionOrder := fun e he => emissionOrder_perm.mem_iff.2 he
  apply (pair_sublist (hmem d hstep.1) (hmem c hc) hne).resolve_right
  intro h
  have hlt := List.pairwise_iff_forall_sublist.1 emissionOrder_sorted h
  obtain ⟨i, m, hkeyc⟩ := exists_key hacyclic hc
  obtain ⟨j, n, hkeyd⟩ := exists_key hacyclic hstep.1
  exact lt_asymm (hlt i m j n hkeyc hkeyd) (key_lt_of_above (.single hstep) hkeyc hkeyd)

theorem emissionOrder_eq_emitted (hacyclic : p.Acyclic) (hfirst : p.SuperclassFirst) :
    p.emissionOrder = p.emitted :=
  sortedByKey_unique hacyclic emissionOrder_perm (.refl _) emissionOrder_sorted
    (emitted_sorted hfirst)

/-- The emission order. Without cycles it is sorted by the keys, which count only
emitted classes; so superclasses come first, a class gets ahead of another only
for one below it that is listed no later, and a list with superclasses first
keeps its order. -/
theorem emissionOrder_by_key (p : Program) :
    p.emissionOrder.Nodup ∧ p.emissionOrder.Perm p.emitted ∧
    (p.Acyclic →
      (∀ c ∈ p.emitted, ∀ d, ExtendsIn p.emitted c d → [d, c].Sublist p.emissionOrder) ∧
      (∀ c ∈ p.emitted, ∃ first above, p.HasKey p.emitted c first above) ∧
      p.SortedByKey p.emitted p.emissionOrder ∧
      (∀ b c, [b, c].Sublist p.emitted → [c, b].Sublist p.emissionOrder →
        ∃ d ∈ p.emitted, TransGen (ExtendsIn p.emitted) d c ∧ p.place d ≤ p.place b) ∧
      (p.SuperclassFirst → p.emissionOrder = p.emitted)) := by
  refine ⟨placedFrom_emissionOrder.nodup, emissionOrder_perm, fun hacyclic =>
    ⟨fun c hc d hstep => superclass_sublist hacyclic hc hstep,
      fun c hc => exists_key hacyclic hc, emissionOrder_sorted, fun b c hlisted hahead => ?_,
      emissionOrder_eq_emitted hacyclic⟩⟩
  have hlt := List.pairwise_iff_forall_sublist.1 emitted_pairwise_place hlisted
  have hb : b ∈ p.emitted := hlisted.subset (by simp)
  have hc : c ∈ p.emitted := hlisted.subset (by simp)
  obtain ⟨i, m, hkeyc⟩ := exists_key hacyclic hc
  obtain ⟨j, n, hkeyb⟩ := exists_key hacyclic hb
  exact exists_below_of_key_lt hlt hb hkeyc hkeyb
    (List.pairwise_iff_forall_sublist.1 emissionOrder_sorted hahead i m j n hkeyc hkeyb)

/-- A class listed before the class it extends. -/
def subclassFirst : Program where
  classes := [Class.bare "Main" (some "Base"), Class.bare "Base" none]
  entry := ⟨"Main"⟩
  customMains := []
  distinct := by decide
  hasEntry := by decide

theorem subclassFirst_acyclic : subclassFirst.Acyclic := by
  refine acyclic_of_rank (fun c => if c.name = ⟨"Main"⟩ then 1 else 0) ?_
  simp [subclassFirst, ExtendsIn, Class.bare]

theorem emissionOrder_by_key_subclassFirst :
    subclassFirst.Acyclic ∧
      [Class.bare "Base" none, Class.bare "Main" (some "Base")].Sublist
        subclassFirst.emissionOrder := by
  refine ⟨subclassFirst_acyclic, ?_⟩
  refine ((emissionOrder_by_key subclassFirst).2.2 subclassFirst_acyclic).1 _ ?_ _ ⟨?_, rfl⟩
  · simp [emitted, subclassFirst, Class.bare]
  · simp [emitted, subclassFirst, Class.bare]

/-- A native class listed before the class it extends, with another between. -/
def nativeSubclassFirst : Program where
  classes :=
    [{ Class.bare "Boot" (some "Base") with isNative := true },
     Class.bare "Main" none,
     Class.bare "Base" none]
  entry := ⟨"Main"⟩
  customMains := []
  distinct := by decide
  hasEntry := by decide

/-- Keys that count native classes too do not sort the emission order: a native
class below another does not bring that one forward. -/
theorem emissionOrder_not_by_native_key :
    nativeSubclassFirst.Acyclic ∧
      ¬ nativeSubclassFirst.SortedByKey nativeSubclassFirst.classes
        nativeSubclassFirst.emissionOrder := by
  have hacyclic : nativeSubclassFirst.Acyclic := by
    refine acyclic_of_rank (fun c => if c.name = ⟨"Boot"⟩ then 1 else 0) ?_
    simp [nativeSubclassFirst, ExtendsIn, Class.bare]
  have hemitted : nativeSubclassFirst.emitted = [Class.bare "Main" none, Class.bare "Base" none] := by
    simp [emitted, nativeSubclassFirst, Class.bare]
  have hroot : ∀ c ∈ nativeSubclassFirst.emitted, ∀ d,
      ¬ ExtendsIn nativeSubclassFirst.emitted c d := by
    simp [hemitted, ExtendsIn, Class.bare]
  have hmain : nativeSubclassFirst.HasKey nativeSubclassFirst.classes (.bare "Main" none) 1 0 := by
    refine ⟨⟨⟨.bare "Main" none, by simp [nativeSubclassFirst], .refl, by decide⟩, ?_⟩,
      .root (hroot _ (by simp [hemitted]))⟩
    rintro i ⟨d, hd, hreach, rfl⟩
    simp only [nativeSubclassFirst, List.mem_cons, List.not_mem_nil, or_false] at hd
    rcases hd with rfl | rfl | rfl
    · -- The native class leads to nothing but its superclass.
      obtain h | ⟨e, hstep, hrest⟩ := hreach.cases_head
      · simp [Class.bare] at h
      · obtain h | ⟨_, hstep', _⟩ := hrest.cases_head
        · simp [h, ExtendsIn, Class.bare] at hstep
        · exact absurd hstep' (hroot _ hstep.1 _)
    · decide
    · decide
  have hbase : nativeSubclassFirst.HasKey nativeSubclassFirst.classes (.bare "Base" none) 0 0 := by
    have hlink : ExtendsIn nativeSubclassFirst.emitted nativeSubclassFirst.classes[0]
        (.bare "Base" none) := ⟨by simp [hemitted], rfl⟩
    exact ⟨⟨⟨_, List.getElem_mem _, .single hlink, by decide⟩, fun _ _ => Nat.zero_le _⟩,
      .root (hroot _ (by simp [hemitted]))⟩
  refine ⟨hacyclic, fun hsorted => ?_⟩
  rw [emissionOrder_eq_emitted hacyclic fun c hc d h => absurd h (hroot c hc d), hemitted] at hsorted
  have hlt := List.rel_of_pairwise_cons hsorted (by simp) 1 0 0 0 hmain hbase
  simp [Prod.Lex.toLex_lt_toLex] at hlt

end Program

end ClassScript
