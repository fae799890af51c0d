import ClassScript.Proofs.FieldNaming
import ClassScript.Proofs.RelatedClasses

/-!
The search for a field. It goes depth first through the classes that a class leads
to, and a class that has been met leaves the pool, so that cycles end. What it finds
is declared by some class that the first one leads to, and it finds something whenever
there is such a class. Without cycles it finds what a recursion finds that forgets
what it has met.
-/

namespace ClassScript

open Relation

/-- `d` is a class of the pool that `c` names as an interface or as its superclass. -/
def LinkedIn (pool : List Class) (c d : Class) : Prop :=
  ImplementsIn pool c d ∨ ExtendsIn pool c d

/-- The names that a class leads to, in the order in which they are searched. -/
def Class.links (c : Class) : List ClassName := c.interfaces ++ c.parent.toList

section Links

variable {pool : List Class} {name : ClassName} {c d : Class}

theorem linkedIn_iff : LinkedIn pool c d ↔ d ∈ pool ∧ d.name ∈ c.links := by
  have hparent : d.name ∈ c.parent.toList ↔ c.parent = some d.name := by simp
  rw [LinkedIn, ImplementsIn, ExtendsIn, Class.links, List.mem_append, hparent, and_or_left]

end Links

namespace Program

/-- The class of that name leads to `d` by any number of links between classes of
the program; it leads to itself. -/
def LeadsTo (p : Program) (name : ClassName) (d : Class) : Prop :=
  ∃ c, p.class? name = some c ∧ ReflTransGen (LinkedIn p.classes) c d

theorem mem_classes_of_leadsTo {p : Program} {name : ClassName} {d : Class}
    (h : p.LeadsTo name d) : d ∈ p.classes := by
  obtain ⟨c, hc, hpath⟩ := h
  cases hpath with
  | refl => exact (mem_of_draw? hc).1
  | tail _ hstep => exact (linkedIn_iff.1 hstep).1

/-- The recursion for a field that remembers nothing, over a list of names: the class
of the first one is asked for a field of its own, then its interfaces in order and its
superclass are, in the same way, and then come the other names. A name that the
program lacks is passed over. -/
inductive Recurses (p : Program) (r : FieldRef) : List ClassName → Option Field → Prop where
  | done : p.Recurses r [] none
  | absent {name : ClassName} {rest : List ClassName} {result : Option Field}
      (h : p.class? name = none) (hrest : p.Recurses r rest result) :
      p.Recurses r (name :: rest) result
  | own {name : ClassName} {rest : List ClassName} {c : Class} {f : Field}
      (h : p.class? name = some c) (hown : c.field? r = some f) :
      p.Recurses r (name :: rest) (some f)
  | inside {name : ClassName} {rest : List ClassName} {c : Class} {f : Field}
      (h : p.class? name = some c) (hown : c.field? r = none)
      (hlinks : p.Recurses r (c.interfaces ++ c.parent.toList) (some f)) :
      p.Recurses r (name :: rest) (some f)
  | past {name : ClassName} {rest : List ClassName} {c : Class} {result : Option Field}
      (h : p.class? name = some c) (hown : c.field? r = none)
      (hlinks : p.Recurses r (c.interfaces ++ c.parent.toList) none)
      (hrest : p.Recurses r rest result) : p.Recurses r (name :: rest) result

section Search

variable {r : FieldRef} {pool : List Class} {name : ClassName} {c : Class}

theorem searchField_nil (r : FieldRef) (pool : List Class) : searchField r pool [] = none := by
  rw [searchField]

theorem searchField_absent (h : draw? pool name = none) (rest : List ClassName) :
    searchField r pool (name :: rest) = searchField r pool rest := by
  rw [searchField]
  split
  · rfl
  · next c hc => simp [h] at hc

theorem searchField_present (h : draw? pool name = some c) (rest : List ClassName) :
    searchField r pool (name :: rest) =
      (c.field? r).or (searchField r (without pool name) (c.links ++ rest)) := by
  rw [searchField]
  split
  · next hnone => simp [h] at hnone
  · next d hd =>
      obtain rfl : d = c := by simpa [h] using hd.symm
      cases d.field? r <;> rfl

/-- A field of the class itself is found first. -/
theorem findField_own {p : Program} {f : Field} (hc : p.class? r.owner = some c)
    (hf : c.field? r = some f) : p.findField r = some f := by
  rw [findField, searchField_present hc, hf, Option.some_or]

/-- What is found is declared by a class that something on the stack leads to. -/
theorem exists_of_searchField {p : Program} {stack : List ClassName} {f : Field}
    (hpool : ∀ c ∈ pool, c ∈ p.classes) (h : searchField r pool stack = some f) :
    ∃ name ∈ stack, ∃ d, p.LeadsTo name d ∧ d.field? r = some f := by
  fun_induction searchField r pool stack with
  | case1 => cases h
  | case2 pool name rest hnone ih =>
      obtain ⟨other, hother, hfound⟩ := ih hpool h
      exact ⟨other, List.mem_cons_of_mem _ hother, hfound⟩
  | case3 pool name rest c hc g hg =>
      obtain ⟨hmem, rfl⟩ := mem_of_draw? hc
      exact ⟨c.name, List.mem_cons_self, c, ⟨c, class?_name (hpool c hmem), .refl⟩, hg.trans h⟩
  | case4 pool name rest c hc hnone ih =>
      obtain ⟨hmem, rfl⟩ := mem_of_draw? hc
      obtain ⟨other, hother, d, ⟨e, he, hpath⟩, hd⟩ := ih (fun d hd => hpool d (mem_without.1 hd).1) h
      rcases List.mem_append.1 hother with hlink | hrest
      · obtain ⟨hclasses, rfl⟩ := mem_of_draw? he
        have hstep : LinkedIn p.classes c e := linkedIn_iff.2 ⟨hclasses, hlink⟩
        exact ⟨c.name, List.mem_cons_self, d, ⟨c, class?_name (hpool c hmem), .head hstep hpath⟩, hd⟩
      · exact ⟨other, List.mem_cons_of_mem _ hrest, d, ⟨e, he, hpath⟩, hd⟩

/-- A search that finds nothing has met classes without the field only, among them
those on the stack, and all that they are linked to. -/
theorem exists_met_of_searchField {stack : List ClassName} (hnames : (pool.map Class.name).Nodup)
    (h : searchField r pool stack = none) :
    ∃ met : List Class, (∀ c ∈ met, c.field? r = none) ∧
      (∀ name ∈ stack, ∀ c, draw? pool name = some c → c ∈ met) ∧
      ∀ c ∈ met, ∀ d, LinkedIn pool c d → d ∈ met := by
  fun_induction searchField r pool stack with
  | case1 => exact ⟨[], by simp⟩
  | case2 pool name rest hnone ih =>
      obtain ⟨met, hown, hstack, hclosed⟩ := ih hnames h
      refine ⟨met, hown, List.forall_mem_cons.2 ⟨fun c hc => ?_, hstack⟩, hclosed⟩
      cases hnone.symm.trans hc
  | case3 pool name rest c hc f hf => cases h
  | case4 pool name rest c hc hnone ih =>
      have hsub : ((without pool name).map Class.name).Nodup :=
        hnames.sublist (List.filter_sublist.map Class.name)
      obtain ⟨met, hown, hstack, hclosed⟩ := ih hsub h
      -- What the pool still had then is in `met` by the search below; `c` is met now.
      have hmet : ∀ other ∈ c.links ++ rest, ∀ d, draw? pool other = some d → d ∈ c :: met := by
        intro other hother d hd
        by_cases hsame : other = name
        · obtain rfl := Option.some.inj (hc.symm.trans (hsame ▸ hd))
          exact List.mem_cons_self
        · exact List.mem_cons_of_mem _ (hstack other hother d ((draw?_without hsame).trans hd))
      refine ⟨c :: met, List.forall_mem_cons.2 ⟨hnone, hown⟩, ?_, ?_⟩
      · refine List.forall_mem_cons.2 ⟨fun d hd => ?_, fun other hother => ?_⟩
        · obtain rfl := Option.some.inj (hc.symm.trans hd)
          exact List.mem_cons_self
        · exact hmet other (List.mem_append_right _ hother)
      · refine List.forall_mem_cons.2 ⟨fun d hstep => ?_, fun e he d hstep => ?_⟩
        · obtain ⟨hd, hlink⟩ := linkedIn_iff.1 hstep
          exact hmet d.name (List.mem_append_left _ hlink) d (draw?_name hnames hd)
        · obtain ⟨hd, hlink⟩ := linkedIn_iff.1 hstep
          by_cases hsame : d.name = name
          · obtain ⟨hmem, hname⟩ := mem_of_draw? hc
            rw [List.inj_on_of_nodup_map hnames hd hmem (hsame.trans hname.symm)]
            exact List.mem_cons_self
          · exact List.mem_cons_of_mem _
              (hclosed e he d (linkedIn_iff.2 ⟨mem_without.2 ⟨hd, hsame⟩, hlink⟩))

end Search

section Recursion

variable {p : Program} {r : FieldRef} {names rest : List ClassName} {result result' : Option Field}

/-- The recursion has one result. -/
theorem Recurses.unique (h : p.Recurses r names result) (h' : p.Recurses r names result') :
    result = result' := by
  induction h generalizing result' with
  | done =>
      cases h'
      rfl
  | absent h _ ih =>
      cases h' with
      | absent _ hrest => exact ih hrest
      | own h' _ | inside h' _ _ | past h' _ _ _ => cases h.symm.trans h'
  | own h hown =>
      cases h' with
      | absent h' _ => cases h.symm.trans h'
      | own h' hown' =>
          obtain rfl := Option.some.inj (h.symm.trans h')
          exact hown.symm.trans hown'
      | inside h' hown' _ | past h' hown' _ _ =>
          obtain rfl := Option.some.inj (h.symm.trans h')
          cases hown.symm.trans hown'
  | inside h hown _ ih =>
      cases h' with
      | absent h' _ => cases h.symm.trans h'
      | own h' hown' =>
          obtain rfl := Option.some.inj (h.symm.trans h')
          cases hown.symm.trans hown'
      | inside h' _ hlinks' =>
          obtain rfl := Option.some.inj (h.symm.trans h')
          exact ih hlinks'
      | past h' _ hlinks' _ =>
          obtain rfl := Option.some.inj (h.symm.trans h')
          cases ih hlinks'
  | past h hown _ _ ih ihrest =>
      cases h' with
      | absent h' _ => cases h.symm.trans h'
      | own h' hown' =>
          obtain rfl := Option.some.inj (h.symm.trans h')
          cases hown.symm.trans hown'
      | inside h' _ hlinks' =>
          obtain rfl := Option.some.inj (h.symm.trans h')
          cases ih hlinks'
      | past _ _ _ hrest' => exact ihrest hrest'

/-- Names without the field in front change nothing. -/
theorem Recurses.append (h : p.Recurses r names none) (hrest : p.Recurses r rest result) :
    p.Recurses r (names ++ rest) result := by
  generalize hnone : (none : Option Field) = first at h
  induction h with
  | done => exact hrest
  | absent h _ ih => exact .absent h (ih hnone)
  | own _ _ | inside _ _ _ _ => cases hnone
  | past h hown hlinks _ _ ih => exact .past h hown hlinks (ih hnone)

/-- The search is through with the classes that have left the pool: there is no field
below them. -/
structure Spends (p : Program) (r : FieldRef) (left pool : List Class) : Prop where
  sublist : left.Sublist pool
  spent : ∀ c ∈ pool, c ∉ left → p.Recurses r [c.name] none

theorem Spends.refl (p : Program) (r : FieldRef) (pool : List Class) : p.Spends r pool pool where
  sublist := .refl pool
  spent _ hc hleft := absurd hc hleft

theorem Spends.trans {last left pool : List Class} (h : p.Spends r last left)
    (h' : p.Spends r left pool) : p.Spends r last pool where
  sublist := h.sublist.trans h'.sublist
  spent c hc hlast := by
    by_cases hleft : c ∈ left
    · exact h.spent c hleft hlast
    · exact h'.spent c hc hleft

/-- A class without a field below it has left the pool. -/
theorem Spends.without {c : Class} (h : p.Recurses r [c.name] none) (pool : List Class) :
    p.Spends r (without pool c.name) pool where
  sublist := List.filter_sublist
  spent d hd hmet := by
    have hname : d.name = c.name := by
      by_contra hne
      exact hmet (mem_without.2 ⟨hd, hne⟩)
    exact hname ▸ h

/-- What a search in a pool does with the names on top of its stack, given what the
recursion finds for them: with a field it ends, and without one it goes on below them,
through with the classes that it has met. -/
def SearchesAs (p : Program) (r : FieldRef) (pool : List Class) (names : List ClassName) :
    Option Field → Prop
  | some f => ∀ rest, searchField r pool (names ++ rest) = some f
  | none => ∃ left, p.Spends r left pool ∧
      ∀ rest, searchField r pool (names ++ rest) = searchField r left rest

/-- A search that goes on with other names, in a pool that it has left classes of, does
as it does with these. -/
theorem SearchesAs.onward {pool left : List Class} {others : List ClassName}
    (h : p.SearchesAs r left others result) (hspends : p.Spends r left pool)
    (hgo : ∀ rest, searchField r pool (names ++ rest) = searchField r left (others ++ rest)) :
    p.SearchesAs r pool names result := by
  cases result with
  | some f => exact fun rest => (hgo rest).trans (h rest)
  | none =>
      obtain ⟨last, hlast, hsearch⟩ := h
      exact ⟨last, hlast.trans hspends, fun rest => (hgo rest).trans (hsearch rest)⟩

/-- The search in a pool has come to these names: they lead to no cycle, and there is no
field below what they lead to and the pool lacks. -/
structure ComesTo (p : Program) (r : FieldRef) (pool : List Class) (names : List ClassName) :
    Prop where
  classes : ∀ c ∈ pool, c ∈ p.classes
  acyclic : ∀ name ∈ names, ∀ d, p.LeadsTo name d → ¬ TransGen (LinkedIn p.classes) d d
  spent : ∀ name ∈ names, ∀ d, p.LeadsTo name d → d ∉ pool → p.Recurses r [d.name] none

namespace ComesTo

variable {pool left : List Class} {name : ClassName} {c : Class}

theorem tail (h : p.ComesTo r pool (name :: rest)) : p.ComesTo r pool rest where
  classes := h.classes
  acyclic := (List.forall_mem_cons.1 h.acyclic).2
  spent := (List.forall_mem_cons.1 h.spent).2

theorem later (h : p.ComesTo r pool names) (hleft : p.Spends r left pool) :
    p.ComesTo r left names where
  classes c hc := h.classes c (hleft.sublist.subset hc)
  acyclic := h.acyclic
  spent name hname d hd hmet := by
    by_cases hmem : d ∈ pool
    · exact hleft.spent d hmem hmet
    · exact h.spent name hname d hd hmem

/-- From a class that leaves the pool the search comes to its links. They do not lead
back to it, so that it is not looked for below them. -/
theorem links (h : p.ComesTo r pool (c.name :: rest)) (hc : c ∈ pool) :
    p.ComesTo r (without pool c.name) c.links := by
  have hclass : p.class? c.name = some c := class?_name (h.classes c hc)
  have hbelow : ∀ link ∈ c.links, ∀ d, p.LeadsTo link d → TransGen (LinkedIn p.classes) c d := by
    rintro link hlink d ⟨e, he, hpath⟩
    obtain ⟨hclasses, rfl⟩ := mem_of_draw? he
    exact .head' (linkedIn_iff.2 ⟨hclasses, hlink⟩) hpath
  have hleads : ∀ d, TransGen (LinkedIn p.classes) c d → p.LeadsTo c.name d := fun d hd =>
    ⟨c, hclass, hd.to_reflTransGen⟩
  refine ⟨fun d hd => h.classes d (mem_without.1 hd).1, fun link hlink d hd => ?_,
    fun link hlink d hd hmet => ?_⟩
  · exact h.acyclic c.name List.mem_cons_self d (hleads d (hbelow link hlink d hd))
  · have hpath := hbelow link hlink d hd
    refine h.spent c.name List.mem_cons_self d (hleads d hpath) fun hmem =>
      hmet (mem_without.2 ⟨hmem, fun hname => ?_⟩)
    obtain rfl := eq_of_name_eq (h.classes d hmem) (h.classes c hc) hname
    exact h.acyclic d.name List.mem_cons_self d (hleads d hpath) hpath

end ComesTo

/-- Below names that lead to no cycle the search does as the recursion does. The
induction is on the pool, which shrinks at every class that is met. -/
theorem exists_recurses {pool : List Class} (h : p.ComesTo r pool names) :
    ∃ result, p.Recurses r names result ∧ p.SearchesAs r pool names result := by
  induction hsize : pool.length using Nat.strong_induction_on generalizing pool names with
  | h size ih =>
  subst hsize
  induction names with
  | nil => exact ⟨none, .done, pool, .refl p r pool, fun _ => rfl⟩
  | cons name rest ihrest =>
      cases hdraw : draw? pool name with
      | none =>
          -- The name is passed over: its class is absent, or it has been met before.
          obtain ⟨result, hrec, hsearch⟩ := ihrest h.tail
          refine ⟨result, ?_, hsearch.onward (.refl p r pool) fun more => searchField_absent hdraw _⟩
          cases hclass : p.class? name with
          | none => exact .absent hclass hrec
          | some c =>
              obtain ⟨-, rfl⟩ := mem_of_draw? hclass
              have hmet : c ∉ pool := fun hc => draw?_eq_none hdraw c hc rfl
              exact (h.spent c.name List.mem_cons_self c ⟨c, hclass, .refl⟩ hmet).append hrec
      | some c =>
          obtain ⟨hc, rfl⟩ := mem_of_draw? hdraw
          have hclass : p.class? c.name = some c := class?_name (h.classes c hc)
          cases hown : c.field? r with
          | some f =>
              refine ⟨some f, .own hclass hown, fun more => ?_⟩
              rw [List.cons_append, searchField_present hdraw, hown, Option.some_or]
          | none =>
              have hstep : ∀ more, searchField r pool (c.name :: rest ++ more) =
                  searchField r (without pool c.name) (c.links ++ (rest ++ more)) := by
                intro more
                rw [List.cons_append, searchField_present hdraw, hown, Option.none_or]
              have hshorter : (without pool c.name).length < pool.length := length_without_lt hdraw
              obtain ⟨found, hlinks, hsearch⟩ := ih _ hshorter (h.links hc) rfl
              cases found with
              | some f =>
                  exact ⟨some f, .inside hclass hown hlinks, fun more =>
                    (hstep more).trans (hsearch _)⟩
              | none =>
                  obtain ⟨left, hleft, hsearch⟩ := hsearch
                  have hspends : p.Spends r left pool :=
                    hleft.trans (.without (.past hclass hown hlinks .done) pool)
                  have hfewer : left.length < pool.length :=
                    Nat.lt_of_le_of_lt hleft.sublist.length_le hshorter
                  obtain ⟨result, hrec, hothers⟩ := ih _ hfewer (h.tail.later hspends) rfl
                  exact ⟨result, .past hclass hown hlinks hrec, hothers.onward hspends fun more =>
                    (hstep more).trans (hsearch _)⟩

end Recursion

end Program

/-- The search finds a field just if the class of the reference leads to one that
declares such a field, over any hierarchy, and then it finds a field of such a class.
Where that class leads to no cycle, the recursion that remembers nothing ends, and the
search finds what it does. -/
theorem findField_depthFirst (p : Program) (r : FieldRef) :
    (∀ f, p.findField r = some f →
      f.name = r.name ∧ f.type = r.type ∧ ∃ d, p.LeadsTo r.owner d ∧ f ∈ d.fields) ∧
    ((p.findField r).isSome ↔
      ∃ d, p.LeadsTo r.owner d ∧ ∃ f ∈ d.fields, f.name = r.name ∧ f.type = r.type) ∧
    ((∀ d, p.LeadsTo r.owner d → ¬ TransGen (LinkedIn p.classes) d d) →
      ∀ result, p.Recurses r [r.owner] result ↔ p.findField r = result) := by
  have hanswers : ∀ f : Field, f.answers r = true ↔ f.name = r.name ∧ f.type = r.type := by
    simp [Field.answers]
  have hfound : ∀ f, p.findField r = some f →
      f.name = r.name ∧ f.type = r.type ∧ ∃ d, p.LeadsTo r.owner d ∧ f ∈ d.fields := by
    intro f hf
    obtain ⟨name, hname, d, hd, hown⟩ := Program.exists_of_searchField (fun _ hc => hc) hf
    obtain rfl := List.mem_singleton.1 hname
    have hanswer : f.answers r = true := List.find?_some (p := fun g : Field => g.answers r) hown
    obtain ⟨hsame, htype⟩ := (hanswers f).1 hanswer
    exact ⟨hsame, htype, d, hd, List.mem_of_find?_eq_some hown⟩
  refine ⟨hfound, ⟨fun h => ?_, ?_⟩, fun hacyclic result => ?_⟩
  · obtain ⟨f, hf⟩ := Option.isSome_iff_exists.1 h
    obtain ⟨hname, htype, d, hd, hmem⟩ := hfound f hf
    exact ⟨d, hd, f, hmem, hname, htype⟩
  · rintro ⟨d, ⟨c, hc, hpath⟩, f, hf, hsame⟩
    rw [← Option.ne_none_iff_isSome]
    intro hnone
    obtain ⟨met, hown, hstack, hclosed⟩ := Program.exists_met_of_searchField p.distinct hnone
    have hmet : d ∈ met := by
      clear hf
      induction hpath with
      | refl => exact hstack r.owner (List.mem_singleton_self _) c hc
      | tail _ hstep ih => exact hclosed _ ih _ hstep
    exact List.find?_eq_none.1 (hown d hmet) f hf ((hanswers f).2 hsame)
  · have hcomes : p.ComesTo r p.classes [r.owner] := by
      refine ⟨fun _ hc => hc, fun name hname => ?_, fun name hname d hd hmet => ?_⟩
      · rw [List.mem_singleton.1 hname]
        exact hacyclic
      · exact absurd (Program.mem_classes_of_leadsTo hd) hmet
    obtain ⟨found, hrec, hsearch⟩ := Program.exists_recurses hcomes
    have hfind : p.findField r = found := by
      cases found with
      | some f => exact hsearch []
      | none =>
          obtain ⟨left, -, hleft⟩ := hsearch
          exact (hleft []).trans (Program.searchField_nil r left)
    rw [hfind]
    exact ⟨hrec.unique, fun h => h ▸ hrec⟩

/-- A class with a field of its own beside a place in the hierarchy. -/
def Class.declaring (name : String) (parent : Option String) (interfaces : List String)
    (f : Field) : Class :=
  { Class.implementing name parent interfaces with fields := [f] }

/-- A program in which a class has two interfaces with one interface in common. Of
the four fields of one name, two have the type that is asked for. -/
def Program.crossing : Program where
  classes :=
    [.implementing "Sub" (some "Base") ["I", "J"],
     .declaring "Base" none [] ⟨"x", ⟨"Base"⟩, true, .int, none⟩,
     .declaring "I" none ["K"] ⟨"x", ⟨"I"⟩, true, .long, none⟩,
     .declaring "J" none ["Absent", "K"] ⟨"x", ⟨"J"⟩, true, .int, none⟩,
     .declaring "K" none [] ⟨"x", ⟨"K"⟩, true, .bool, none⟩]
  entry := ⟨"Sub"⟩
  customMains := []
  distinct := by simp [Class.declaring, Class.implementing, Class.bare]
  hasEntry := by simp [Class.declaring, Class.implementing, Class.bare]

/-- The second interface comes before the superclass, and the search agrees with the
recursion, which asks the common interface twice. -/
theorem findField_depthFirst_crossing :
    let p := Program.crossing
    let r : FieldRef := ⟨⟨"Sub"⟩, "x", .int⟩
    let f : Field := ⟨"x", ⟨"J"⟩, true, .int, none⟩
    (∀ d, p.LeadsTo r.owner d → ¬ TransGen (LinkedIn p.classes) d d) ∧
      p.findField r = some f ∧ p.Recurses r [r.owner] (some f) := by
  intro p r f
  have hacyclic : ∀ d, ¬ TransGen (LinkedIn p.classes) d d := by
    refine not_transGen_self_of_rank
      (fun c => if c.name = ⟨"Sub"⟩ then 2 else if c.interfaces = [] then 0 else 1)
      (fun c d hstep => (linkedIn_iff.1 hstep).1) ?_
    simp [p, Program.crossing, linkedIn_iff, Class.links, Class.declaring, Class.implementing,
      Class.bare]
  have hcommon : p.Recurses r [⟨"K"⟩] none := .past rfl rfl .done .done
  have hlinks : p.Recurses r [⟨"I"⟩, ⟨"J"⟩, ⟨"Base"⟩] (some f) :=
    .past rfl rfl hcommon (.own rfl rfl)
  have hrec : p.Recurses r [r.owner] (some f) := .inside rfl rfl hlinks
  obtain ⟨-, -, hplain⟩ := findField_depthFirst p r
  exact ⟨fun d _ => hacyclic d, (hplain (fun d _ => hacyclic d) _).1 hrec, hrec⟩

end ClassScript
