import ClassScript.Proofs.ProgramFaults
import ClassScript.Proofs.RelatedClasses
import ClassScript.Proofs.RoundTrip

/-!
The index of a program. A list of classes is put into an index name by name, and is no
program if a name is met twice or if the entry is not among the names. Looking a class up
goes through the index: the positions in it are those of the list, and so a name leads to
the class of that name, if there is one. The entry class is always there, and no emission
fails for want of it.
-/

namespace ClassScript

/-- Puts names into an index, the first of them at this position. The name that the index
already holds is the error. -/
def indexFrom (index : List (ClassName × Nat)) (position : Nat) :
    List ClassName → Except ClassName (List (ClassName × Nat))
  | [] => .ok index
  | name :: rest =>
      if (index.lookup name).isSome then .error name
      else indexFrom (index ++ [(name, position)]) (position + 1) rest

/-- The name at this position also stands at an earlier one. -/
def RepeatsAt (names : List ClassName) (position : Nat) : Prop :=
  position < names.length ∧ ∃ earlier < position, names[earlier]? = names[position]?

section Names

variable {names seen : List ClassName} {name : ClassName}

/-- The repeated name that is found ends the longest part without repetitions. -/
theorem firstRepeated?_eq_some :
    firstRepeated? seen names = some name ↔ ∃ before after, names = before ++ name :: after ∧
      (name ∈ before ∨ name ∈ seen) ∧ before.Nodup ∧ ∀ other ∈ before, other ∉ seen := by
  induction names generalizing seen with
  | nil => simp [firstRepeated?]
  | cons first rest ih =>
      rw [firstRepeated?]
      split
      · next hfirst =>
          constructor
          · intro h
            obtain rfl := Option.some.inj h
            exact ⟨[], rest, rfl, .inr hfirst, .nil, List.forall_mem_nil _⟩
          · rintro ⟨before, after, hnames, -, -, hseen⟩
            cases before with
            | nil => rw [(List.cons.inj hnames).1]
            | cons other before =>
                rw [← (List.cons.inj hnames).1] at hseen
                exact absurd hfirst (hseen first List.mem_cons_self)
      · next hfirst =>
          rw [ih]
          constructor
          · rintro ⟨before, after, rfl, hname, hdistinct, hseen⟩
            refine ⟨first :: before, after, rfl, ?_, ?_, ?_⟩
            · rw [List.mem_cons, or_left_comm] at hname
              rwa [List.mem_cons, or_assoc]
            · exact List.nodup_cons.2
                ⟨fun hmem => hseen first hmem List.mem_cons_self, hdistinct⟩
            · rintro other (_ | ⟨_, hother⟩)
              · exact hfirst
              · exact fun hmem => hseen other hother (List.mem_cons_of_mem _ hmem)
          · rintro ⟨before, after, hnames, hname, hdistinct, hseen⟩
            cases before with
            | nil =>
                obtain ⟨rfl, -⟩ := List.cons.inj hnames
                simp [hfirst] at hname
            | cons other before =>
                obtain ⟨rfl, rfl⟩ := List.cons.inj hnames
                obtain ⟨hother, hrest⟩ := List.nodup_cons.1 hdistinct
                refine ⟨before, after, rfl, ?_, hrest, fun name hmem => ?_⟩
                · rw [List.mem_cons, or_assoc] at hname
                  rwa [List.mem_cons, or_left_comm]
                · rintro (_ | ⟨_, hmem'⟩)
                  · exact hother hmem
                  · exact hseen name (List.mem_cons_of_mem _ hmem) hmem'

theorem nodup_iff_not_repeatsAt : names.Nodup ↔ ∀ position, ¬ RepeatsAt names position := by
  rw [List.nodup_iff_getElem?_ne_getElem?]
  constructor
  · rintro h position ⟨hposition, earlier, hearlier, hsame⟩
    exact h earlier position hearlier hposition hsame
  · intro h earlier position hearlier hposition hsame
    exact h position ⟨hposition, earlier, hearlier, hsame⟩

/-- The repeated name that is found is the one at the smallest position that repeats. -/
theorem firstRepeated?_nil_eq_some : firstRepeated? [] names = some name ↔
    ∃ position, names[position]? = some name ∧ RepeatsAt names position ∧
      ∀ earlier < position, ¬ RepeatsAt names earlier := by
  rw [firstRepeated?_eq_some]
  have hfront : ∀ (before rest : List ClassName) {position : Nat}, position < before.length →
      (RepeatsAt (before ++ rest) position ↔ RepeatsAt before position) := by
    intro before rest position hposition
    simp only [RepeatsAt, List.length_append, List.getElem?_append_left hposition]
    refine and_congr (by omega) (exists_congr fun earlier => and_congr_right fun hearlier => ?_)
    rw [List.getElem?_append_left (by omega)]
  constructor
  · rintro ⟨before, after, rfl, hname, hdistinct, -⟩
    obtain ⟨earlier, hearlier⟩ := List.mem_iff_getElem?.1 (hname.resolve_right nofun)
    have hlt : earlier < before.length := (List.getElem?_eq_some_iff.1 hearlier).1
    have hhere : (before ++ name :: after)[before.length]? = some name := by simp
    refine ⟨before.length, hhere, ⟨by simp, earlier, hlt, ?_⟩, fun position hposition => ?_⟩
    · rw [hhere, List.getElem?_append_left hlt, hearlier]
    · rw [hfront _ _ hposition]
      exact nodup_iff_not_repeatsAt.1 hdistinct position
  · rintro ⟨position, hname, ⟨hposition, earlier, hearlier, hsame⟩, hfirst⟩
    obtain ⟨_, hhere⟩ := List.getElem?_eq_some_iff.1 hname
    have hsplit : names = names.take position ++ name :: names.drop (position + 1) := by
      rw [← hhere, List.getElem_cons_drop, List.take_append_drop]
    have hlength : (names.take position).length = position := by
      rw [List.length_take]
      omega
    refine ⟨_, _, hsplit, .inl (List.mem_iff_getElem?.2 ⟨earlier, ?_⟩), ?_, nofun⟩
    · rw [List.getElem?_take_of_lt hearlier, hsame, hname]
    · refine nodup_iff_not_repeatsAt.2 fun other hother => ?_
      have hlt : other < position := hlength ▸ hother.1
      refine hfirst other hlt ?_
      rw [hsplit, hfront _ _ (hlength.symm ▸ hlt)]
      exact hother

end Names

section Index

variable {index : List (ClassName × Nat)} {name : ClassName}

theorem isSome_lookup_iff : (index.lookup name).isSome ↔ name ∈ index.map Prod.fst := by
  induction index with
  | nil => simp
  | cons entry index ih =>
      rw [List.lookup_cons, List.map_cons, List.mem_cons]
      by_cases h : name = entry.1
      · simp [h]
      · simp only [beq_false_of_ne h, ih, h, false_or]

/-- Names are put into an index one behind the other, up to the first that repeats. -/
theorem indexFrom_eq (index : List (ClassName × Nat)) (position : Nat) (names : List ClassName)
    {seen : List ClassName} (hseen : ∀ name, name ∈ seen ↔ name ∈ index.map Prod.fst) :
    indexFrom index position names =
      match firstRepeated? seen names with
      | some name => .error name
      | none => .ok (index ++ names.zipIdx position) := by
  induction names generalizing index position seen with
  | nil => simp [indexFrom, firstRepeated?]
  | cons first rest ih =>
      rw [indexFrom, firstRepeated?]
      by_cases hfirst : first ∈ seen
      · rw [if_pos hfirst, if_pos (isSome_lookup_iff.2 ((hseen first).1 hfirst))]
      · have hlater : ∀ name, name ∈ first :: seen ↔
            name ∈ (index ++ [(first, position)]).map Prod.fst := by
          intro name
          simp only [List.mem_cons, hseen, List.map_append, List.mem_append, List.map_cons,
            List.map_nil, List.not_mem_nil, or_false]
          exact or_comm
        rw [if_neg hfirst, if_neg fun h => hfirst ((hseen first).2 (isSome_lookup_iff.1 h)),
          ih _ _ hlater]
        simp only [List.append_assoc, List.singleton_append, List.zipIdx_cons]

theorem indexFrom_nil (names : List ClassName) : indexFrom [] 0 names =
    match firstRepeated? [] names with
    | some name => .error name
    | none => .ok names.zipIdx :=
  indexFrom_eq [] 0 names fun _ => Iff.rfl

theorem indexFrom_eq_error_iff {names : List ClassName} :
    indexFrom [] 0 names = .error name ↔ firstRepeated? [] names = some name := by
  rw [indexFrom_nil]
  cases firstRepeated? [] names with
  | none => simp
  | some other => simp

theorem lookup_zipIdx (names : List ClassName) (position : Nat) :
    (names.zipIdx position).lookup name = (names.idxOf? name).map (· + position) := by
  induction names generalizing position with
  | nil => rfl
  | cons first rest ih =>
      rw [List.zipIdx_cons, List.lookup_cons, List.idxOf?_cons]
      by_cases h : name = first
      · simp [h]
      · have hnext : ((· + position) ∘ (· + 1) : Nat → Nat) = (· + (position + 1)) :=
          funext fun i => by simp only [Function.comp_apply]; omega
        simp only [beq_false_of_ne h, beq_false_of_ne (Ne.symm h), ih, Option.map_map, hnext,
          Bool.false_eq_true, if_false]

/-- The class of a name stands at the position of the name. -/
theorem find?_name_eq (classes : List Class) (name : ClassName) :
    classes.find? (·.name = name) =
      ((classes.map Class.name).idxOf? name).bind (classes[·]?) := by
  induction classes with
  | nil => rfl
  | cons c classes ih =>
      rw [List.find?_cons, List.map_cons, List.idxOf?_cons]
      by_cases h : c.name = name
      · simp [h]
      · simp [h, ih, Option.bind_map]

end Index

namespace Program

section Assembly

variable {classes : List Class} {entry name : ClassName} {mains : List CustomMain}

theorem assemble_of_repeated (h : firstRepeated? [] (classes.map Class.name) = some name) :
    assemble classes entry mains = .error (.duplicateClass name) := by
  unfold assemble
  split
  · next other heq => rw [Option.some.inj (heq.symm.trans h)]
  · next heq => cases heq.symm.trans h

theorem assemble_of_missing (hdistinct : (classes.map Class.name).Nodup)
    (h : entry ∉ classes.map Class.name) :
    assemble classes entry mains = .error (.missingEntryClass entry) := by
  have hnone : firstRepeated? [] (classes.map Class.name) = none :=
    firstRepeated?_eq_none.2 ⟨hdistinct, nofun⟩
  unfold assemble
  split
  · next other heq => cases heq.symm.trans hnone
  · rw [dif_neg h]

theorem assemble_of_present (hdistinct : (classes.map Class.name).Nodup)
    (h : entry ∈ classes.map Class.name) :
    assemble classes entry mains = .ok ⟨classes, entry, mains, hdistinct, h⟩ :=
  assemble_parts ⟨classes, entry, mains, hdistinct, h⟩

/-- The three ways in which an assembly can end. -/
theorem assemble_cases (classes : List Class) (entry : ClassName) (mains : List CustomMain) :
    (∃ name, firstRepeated? [] (classes.map Class.name) = some name ∧
      ¬ (classes.map Class.name).Nodup ∧
      assemble classes entry mains = .error (.duplicateClass name)) ∨
    ((classes.map Class.name).Nodup ∧ entry ∉ classes.map Class.name ∧
      assemble classes entry mains = .error (.missingEntryClass entry)) ∨
    ∃ (hdistinct : (classes.map Class.name).Nodup) (hentry : entry ∈ classes.map Class.name),
      assemble classes entry mains = .ok ⟨classes, entry, mains, hdistinct, hentry⟩ := by
  cases hfirst : firstRepeated? [] (classes.map Class.name) with
  | some name =>
      refine .inl ⟨name, rfl, fun hdistinct => ?_, assemble_of_repeated hfirst⟩
      cases hfirst.symm.trans (firstRepeated?_eq_none.2 ⟨hdistinct, nofun⟩)
  | none =>
      have hdistinct := (firstRepeated?_eq_none.1 hfirst).1
      by_cases hentry : entry ∈ classes.map Class.name
      · exact .inr (.inr ⟨hdistinct, hentry, assemble_of_present hdistinct hentry⟩)
      · exact .inr (.inl ⟨hdistinct, hentry, assemble_of_missing hdistinct hentry⟩)

/-- Classes, entry and start texts become a program as they are, if they become one. -/
theorem parts_of_assemble {p : Program} (h : assemble classes entry mains = .ok p) :
    p.classes = classes ∧ p.entry = entry ∧ p.customMains = mains := by
  rcases assemble_cases classes entry mains with ⟨_, -, -, hend⟩ | ⟨-, -, hend⟩ | ⟨_, _, hend⟩
  · cases h.symm.trans hend
  · cases h.symm.trans hend
  · obtain rfl := Except.ok.inj (h.symm.trans hend)
    exact ⟨rfl, rfl, rfl⟩

theorem exists_assemble_iff : (∃ p, assemble classes entry mains = .ok p) ↔
    (classes.map Class.name).Nodup ∧ ∃ c ∈ classes, c.name = entry := by
  constructor
  · rintro ⟨p, h⟩
    obtain ⟨rfl, rfl, -⟩ := parts_of_assemble h
    exact ⟨p.distinct, List.mem_map.1 p.hasEntry⟩
  · rintro ⟨hdistinct, hentry⟩
    exact ⟨_, assemble_of_present hdistinct (List.mem_map.2 hentry)⟩

theorem assemble_eq_duplicate_iff : assemble classes entry mains = .error (.duplicateClass name) ↔
    firstRepeated? [] (classes.map Class.name) = some name := by
  refine ⟨fun h => ?_, assemble_of_repeated⟩
  rcases assemble_cases classes entry mains with
    ⟨other, hother, -, hend⟩ | ⟨-, -, hend⟩ | ⟨_, _, hend⟩
  · cases h.symm.trans hend
    exact hother
  · cases h.symm.trans hend
  · cases h.symm.trans hend

theorem assemble_eq_missing_iff :
    assemble classes entry mains = .error (.missingEntryClass name) ↔
      name = entry ∧ (classes.map Class.name).Nodup ∧ ∀ c ∈ classes, c.name ≠ entry := by
  constructor
  · intro h
    rcases assemble_cases classes entry mains with
      ⟨_, -, -, hend⟩ | ⟨hdistinct, hmissing, hend⟩ | ⟨_, _, hend⟩
    · cases h.symm.trans hend
    · cases h.symm.trans hend
      exact ⟨rfl, hdistinct, fun c hc hname => hmissing (List.mem_map.2 ⟨c, hc, hname⟩)⟩
    · cases h.symm.trans hend
  · rintro ⟨rfl, hdistinct, hmissing⟩
    refine assemble_of_missing hdistinct fun hmem => ?_
    obtain ⟨c, hc, hname⟩ := List.mem_map.1 hmem
    exact hmissing c hc hname

end Assembly

section Reading

variable {text : String}

/-- A program that is read was assembled from the parts that the text gives. -/
theorem parts_of_load {p : Program} (h : load text = .ok p) :
    ∃ rest, decodeParts Json.Decoder.maxDepth text.toList =
      .ok ((p.classes, p.entry, p.customMains), rest) := by
  unfold load at h
  split at h
  · cases h
  · next classes entry mains rest hparts =>
      split at h
      · cases h
      · next q hassemble =>
          split at h
          · obtain rfl := Except.ok.inj h
            obtain ⟨rfl, rfl, rfl⟩ := parts_of_assemble hassemble
            exact ⟨rest, hparts⟩
          · cases h

/-- Parts that are no program are refused for what is wrong with them. -/
theorem load_eq_refused_iff {error : AssemblyError} : load text = .error (.refused error) ↔
    ∃ classes entry mains rest, decodeParts Json.Decoder.maxDepth text.toList =
      .ok ((classes, entry, mains), rest) ∧ assemble classes entry mains = .error error := by
  constructor
  · intro h
    unfold load at h
    split at h
    · cases h
    · next classes entry mains rest hparts =>
        refine ⟨classes, entry, mains, rest, hparts, ?_⟩
        split at h
        · next other hassemble =>
            cases h
            exact hassemble
        · split at h
          · cases h
          · cases h
  · rintro ⟨classes, entry, mains, rest, hparts, hassemble⟩
    simp only [load, hparts, hassemble]
    rfl

end Reading

variable {p : Program}

/-- The index of a program gives every name its position in the list. -/
theorem indexFrom_names (p : Program) : indexFrom [] 0 (p.classes.map Class.name) =
    .ok ((p.classes.map Class.name).zipIdx) := by
  have hnone : firstRepeated? [] (p.classes.map Class.name) = none :=
    firstRepeated?_eq_none.2 ⟨p.distinct, fun _ _ h => nomatch h⟩
  rw [indexFrom_nil, hnone]

theorem class?_eq_some_iff {name : ClassName} {c : Class} :
    p.class? name = some c ↔ c ∈ p.classes ∧ c.name = name := by
  constructor
  · exact fun h => mem_of_draw? h
  · rintro ⟨hc, rfl⟩
    exact class?_name hc

end Program

namespace Emission

variable {job : Job} {name : ClassName}

/-- A template asks for a class that is not there. -/
def Job.TemplateMisses (job : Job) (name : ClassName) : Prop :=
  ∃ site text, job.templater site text = .error (.unresolvedClass name)

theorem templateMisses_of_mem_renderFaults {site : Site} {text : String}
    (h : .unresolvedClass name ∈ job.renderFaults site text) : job.TemplateMisses name := by
  unfold Job.renderFaults at h
  split at h
  · cases h
  · next hrender =>
      cases List.mem_singleton.1 h
      exact ⟨site, text, hrender⟩

/-- No node of a body asks for a class. -/
theorem templateMisses_of_mem_faultAt {caller : MethodRef} {e : Expr}
    (h : .unresolvedClass name ∈ job.faultAt caller e) : job.TemplateMisses name := by
  have hother : ∀ {α : Type} {answer : Option α} {error : EmitError},
      .unresolvedClass name ∈ unanswered answer error → error = .unresolvedClass name :=
    fun h => (of_mem_unanswered h).1.symm
  unfold Job.faultAt at h
  split at h
  case h_6 =>
    split at h
    · split at h
      · exact templateMisses_of_mem_renderFaults h
      · cases List.mem_singleton.1 h
    · cases hother h
  all_goals first | cases hother h | cases h

theorem templateMisses_of_mem_methodFaults {owner : ClassName} {m : Method}
    (h : .unresolvedClass name ∈ job.methodFaults owner m) : job.TemplateMisses name := by
  have hbinding : .unresolvedClass name ∈ job.bindingFaults owner m := by
    unfold Job.methodFaults fatal at h
    split at h
    · cases h
    · exact h
  simp only [Job.bindingFaults, List.mem_append, List.mem_flatMap, Job.bodyFaults] at hbinding
  rcases hbinding with ⟨body, -, e, -, he⟩ | ⟨text, -, htext⟩
  · exact templateMisses_of_mem_faultAt he
  · exact templateMisses_of_mem_renderFaults htext

/-- The classes that an emission lacks are those that the program does not have. -/
theorem absent_of_mem_faults (h : .unresolvedClass name ∈ job.faults) :
    job.program.class? name = none ∨ job.TemplateMisses name := by
  simp only [Job.faults, List.mem_append, List.mem_flatMap] at h
  rcases h with ⟨c, -, hclass⟩ | ⟨f, -, hfragment⟩ | hstart
  · unfold Job.classFaults at hclass
    split at hclass
    · cases hclass
    simp only [List.mem_append, List.mem_flatMap] at hclass
    rcases hclass with hparent | hrelated | ⟨o, -, hmethod⟩
    · unfold Job.parentFaults at hparent
      split at hparent
      · obtain ⟨hname, hnone⟩ := of_mem_unanswered hparent
        cases hname
        exact .inl hnone
      · cases hparent
    · unfold Job.relatedFaults at hrelated
      split at hrelated
      · cases hrelated
      · next absent hfound =>
          cases List.mem_singleton.1 hrelated
          rw [Program.related_eq, Program.unlessAbsent] at hfound
          split at hfound
          · next hfirst =>
              cases hfound
              rw [Program.firstAbsent?] at hfirst
              have habsent := List.find?_some hfirst
              exact .inl (Option.isNone_iff_eq_none.1 habsent)
          · cases hfound
    · exact .inr (templateMisses_of_mem_methodFaults hmethod)
  · unfold Job.fragmentFaults at hfragment
    split at hfragment
    · obtain ⟨text, -, htext⟩ := List.mem_flatMap.1 hfragment
      exact .inr (templateMisses_of_mem_renderFaults htext)
    · cases hfragment
  · unfold Job.startFaults at hstart
    split at hstart
    · exact .inr (templateMisses_of_mem_renderFaults hstart)
    · cases (of_mem_unanswered hstart).1

/-- An emission that fails for want of a class lacks that class. -/
theorem absent_of_emitProgram
    (h : ((emitProgram job).runFrom .initial).1 = .error (.unresolvedClass name)) :
    job.program.class? name = none ∨ job.TemplateMisses name := by
  have hend := emitProgram_endsOn job
  rw [h] at hend
  apply absent_of_mem_faults
  generalize job.faults = faults at hend ⊢
  cases hend with
  | first _ later => exact List.mem_cons_self

end Emission

open Emission in
/-- Classes become a program if and only if their names are pairwise different and one of
them is the entry. Otherwise the first name that repeats an earlier one is reported, and
the entry only if there is none. This is also how a program is read from its text. The
index of a program gives each name a position within the list, and the class of that name
stands there, so a class is found under a name if and only if it is one of the classes and
has that name. The entry class is found, and no emission fails for want of it. -/
theorem Program.class?_indexed :
    (∀ (classes : List Class) (entry : ClassName) (mains : List CustomMain),
      ((∃ p, assemble classes entry mains = .ok p) ↔
        (classes.map Class.name).Nodup ∧ ∃ c ∈ classes, c.name = entry) ∧
      (∀ name, assemble classes entry mains = .error (.duplicateClass name) ↔
        ∃ position, (classes.map Class.name)[position]? = some name ∧
          RepeatsAt (classes.map Class.name) position ∧
          ∀ earlier < position, ¬ RepeatsAt (classes.map Class.name) earlier) ∧
      (∀ name, assemble classes entry mains = .error (.duplicateClass name) ↔
        indexFrom [] 0 (classes.map Class.name) = .error name) ∧
      (∀ name, assemble classes entry mains = .error (.missingEntryClass name) ↔
        name = entry ∧ (classes.map Class.name).Nodup ∧ ∀ c ∈ classes, c.name ≠ entry) ∧
      ∀ p, assemble classes entry mains = .ok p →
        p.classes = classes ∧ p.entry = entry ∧ p.customMains = mains) ∧
    (∀ text,
      (∀ p, load text = .ok p → ∃ rest, decodeParts Json.Decoder.maxDepth text.toList =
        .ok ((p.classes, p.entry, p.customMains), rest)) ∧
      ∀ error, load text = .error (.refused error) ↔
        ∃ classes entry mains rest, decodeParts Json.Decoder.maxDepth text.toList =
          .ok ((classes, entry, mains), rest) ∧ assemble classes entry mains = .error error) ∧
    (∀ p : Program, ∃ index, indexFrom [] 0 (p.classes.map Class.name) = .ok index ∧
      (∀ name position, index.lookup name = some position → position < p.classes.length) ∧
      (∀ name, p.class? name = (index.lookup name).bind (p.classes[·]?)) ∧
      (∀ name c, p.class? name = some c ↔ c ∈ p.classes ∧ c.name = name) ∧
      ∃ c ∈ p.classes, c.name = p.entry ∧ p.class? p.entry = some c) ∧
    ∀ job : Job, ¬ job.TemplateMisses job.program.entry →
      ((emitProgram job).runFrom .initial).1 ≠ .error (.unresolvedClass job.program.entry) := by
  refine ⟨fun classes entry mains => ?_, fun text => ⟨fun p => parts_of_load, fun error =>
    load_eq_refused_iff⟩, fun p => ?_, fun job htemplates hend => ?_⟩
  · exact ⟨exists_assemble_iff,
      fun name => assemble_eq_duplicate_iff.trans firstRepeated?_nil_eq_some,
      fun name => assemble_eq_duplicate_iff.trans indexFrom_eq_error_iff.symm,
      fun name => assemble_eq_missing_iff, fun p => parts_of_assemble⟩
  · obtain ⟨c, hentry⟩ := p.exists_class?_entry
    obtain ⟨hc, hname⟩ := class?_eq_some_iff.1 hentry
    have hlookup : ∀ name, ((p.classes.map Class.name).zipIdx).lookup name =
        (p.classes.map Class.name).idxOf? name := fun name => by
      simp [lookup_zipIdx]
    refine ⟨_, indexFrom_names p, fun name position h => ?_, fun name => ?_,
      fun name c => class?_eq_some_iff, c, hc, hname, hentry⟩
    · rw [hlookup] at h
      have hlt := (List.findIdx?_eq_some_iff_getElem.1 h).1
      rwa [List.length_map] at hlt
    · rw [hlookup, class?, find?_name_eq]
  · obtain ⟨c, hentry⟩ := job.program.exists_class?_entry
    rcases absent_of_emitProgram hend with hnone | htemplate
    · cases hentry.symm.trans hnone
    · exact htemplates htemplate

open Emission in
/-- Four classes of two names, of which the second is the first to repeat, and a program
that is read from its text and whose emission lacks a superclass, but not the entry. -/
theorem Program.class?_indexed_twice :
    let twice := ["A", "B", "B", "A"].map (Class.bare · none)
    let job : Job := ⟨sample, {}, plainTemplater⟩
    assemble twice ⟨"Absent"⟩ [] = .error (.duplicateClass ⟨"B"⟩) ∧
      assemble sample.classes sample.entry sample.customMains = .ok sample ∧
      load sample.toJson.text = .ok sample ∧
      (∃ rest, decodeParts Json.Decoder.maxDepth sample.toJson.text.toList =
        .ok ((sample.classes, sample.entry, sample.customMains), rest)) ∧
      (∃ c ∈ sample.classes, c.name = sample.entry ∧ sample.class? sample.entry = some c) ∧
      ¬ job.TemplateMisses sample.entry ∧
      ((emitProgram job).runFrom .initial).1 ≠ .error (.unresolvedClass sample.entry) := by
  obtain ⟨hassemble, hload, hindex, hemit⟩ := class?_indexed
  have hsample : load sample.toJson.text = .ok sample := sample_writable.load_text
  have htemplates : ¬ Job.TemplateMisses ⟨sample, {}, plainTemplater⟩ sample.entry := by
    rintro ⟨site, text, h⟩
    cases h
  obtain ⟨_, -, -, -, -, hentry⟩ := hindex sample
  refine ⟨((hassemble _ _ _).2.1 ⟨"B"⟩).2 ⟨2, rfl, ?_, ?_⟩, assemble_parts sample, hsample,
    (hload _).1 sample hsample, hentry, htemplates, hemit _ htemplates⟩
  · exact ⟨by decide, 1, by decide, rfl⟩
  · rintro earlier hearlier ⟨-, other, hother, hsame⟩
    obtain rfl : earlier = 1 := by omega
    obtain rfl : other = 0 := by omega
    exact absurd hsame (by decide)

end ClassScript
