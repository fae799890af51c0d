import ClassScript.Proofs.Assignment
import ClassScript.Proofs.ProgramRun

/-!
The global functions that a program declares, one for each class that is written
out. The identifier of a class keeps its name but for the dots, so two classes share
a global just if their names differ in dots and underscores only, and a class takes a
global of the runtime just if that is its name.
-/

namespace ClassScript

open Output

namespace ClassName

/-- Whether two names are spelled alike but for dots in the place of underscores. -/
def Meets (m n : ClassName) : Prop :=
  List.Forall₂ (fun a b => a = b ∨ a = '.' ∧ b = '_' ∨ a = '_' ∧ b = '.')
    m.text.toList n.text.toList

instance (m n : ClassName) : Decidable (m.Meets n) :=
  inferInstanceAs (Decidable (List.Forall₂ _ _ _))

/-- Names meet just if they come to one identifier. -/
theorem identifier_eq_iff {m n : ClassName} : m.identifier = n.identifier ↔ m.Meets n := by
  have hchar : ∀ a b : Char, ((if a = '.' then '_' else a) = if b = '.' then '_' else b) ↔
      a = b ∨ a = '.' ∧ b = '_' ∨ a = '_' ∧ b = '.' := by
    intro a b
    split <;> split <;> grind
  rw [← String.toList_inj, identifier, identifier, String.toList_map, String.toList_map,
    ← List.forall₂_eq_eq_eq, List.forall₂_map_left_iff, List.forall₂_map_right_iff, Meets]
  simp only [hchar]

/-- Among names without underscores only equal ones meet. -/
theorem Meets.eq {m n : ClassName} (h : m.Meets n) (hm : '_' ∉ m.text.toList)
    (hn : '_' ∉ n.text.toList) : m = n := by
  have htexts : m.text.toList = n.text.toList := by
    rw [← List.forall₂_eq_eq_eq]
    refine List.forall₂_iff_get.2 ⟨h.length_eq, fun i hi hj => ?_⟩
    rcases (List.forall₂_iff_get.1 h).2 i hi hj with heq | ⟨-, hlast⟩ | ⟨hfirst, -⟩
    · exact heq
    · exact absurd (hlast ▸ List.get_mem _ _) hn
    · exact absurd (hfirst ▸ List.get_mem _ _) hm
  cases m
  cases n
  rw [ClassName.mk.injEq]
  exact String.toList_inj.1 htexts

/-- A word without dots and underscores is the identifier of the class of that name
and of no other. -/
theorem identifier_eq_word {n : ClassName} {word : String}
    (hword : ∀ c ∈ word.toList, c ≠ '.' ∧ c ≠ '_') : n.identifier = word ↔ n.text = word := by
  have hself : (⟨word⟩ : ClassName).identifier = word := by
    rw [← String.toList_inj, identifier, String.toList_map]
    exact (List.map_congr_left fun c hc => if_neg (hword c hc).1).trans (List.map_id _)
  constructor
  · intro h
    have hmeets : n.Meets ⟨word⟩ := identifier_eq_iff.1 (h.trans hself.symm)
    rw [← String.toList_inj, ← List.forall₂_eq_eq_eq]
    refine List.forall₂_iff_get.2 ⟨hmeets.length_eq, fun i hi hj => ?_⟩
    obtain ⟨hdot, hunderscore⟩ := hword _ (List.get_mem _ ⟨i, hj⟩)
    rcases (List.forall₂_iff_get.1 hmeets).2 i hi hj with heq | ⟨-, hlast⟩ | ⟨-, hlast⟩
    · exact heq
    · exact absurd hlast hunderscore
    · exact absurd hlast hdot
  · rintro rfl
    exact hself

end ClassName

namespace Output

/-- The function that the head of a block declares. -/
def declared? (head : String) : Option String :=
  if "function ".toList.isPrefixOf head.toList && "()".toList.isSuffixOf head.toList then
    some (String.ofList ((head.toList.drop "function ".toList.length).dropLast.dropLast))
  else none

/-- The functions that a document declares, in order. One that is the value of a slot
ends with a semicolon and declares nothing. -/
def Doc.functions : Doc → List String
  | .empty | .line _ | .mark _ => []
  | .seq first second => first.functions ++ second.functions
  | .block head _ after => if after = "" then (declared? head).toList else []
  | .indented body | .splice body => body.functions

theorem declared?_constructor (name : String) :
    declared? ("function " ++ name ++ "()") = some name := by
  have hprefix : "function ".toList.isPrefixOf ("function " ++ name ++ "()").toList = true := by
    rw [List.isPrefixOf_iff_prefix, String.append_assoc, String.toList_append]
    exact List.prefix_append _ _
  have hsuffix : "()".toList.isSuffixOf ("function " ++ name ++ "()").toList = true := by
    rw [List.isSuffixOf_iff_suffix, String.toList_append]
    exact List.suffix_append _ _
  have hdrop : ("function " ++ name ++ "()").toList.drop "function ".toList.length =
      name.toList ++ ['(', ')'] := by
    rw [String.append_assoc, String.toList_append, List.drop_left, String.toList_append]
    rfl
  have hlast : (name.toList ++ ['(', ')']).dropLast = name.toList ++ ['('] := by
    rw [List.append_cons, List.dropLast_concat]
  rw [declared?, hprefix, hsuffix, if_pos (by rfl), hdrop, hlast, List.dropLast_concat,
    String.ofList_toList]

/-- A branch of a condition declares nothing. -/
theorem declared?_branch {head : String} (h : isBranch head = true) : declared? head = none := by
  have hfirst : head.toList.head? = some 'i' ∨ head.toList.head? = some 'e' := by
    rw [isBranch, Bool.or_eq_true, Bool.or_eq_true, decide_eq_true_eq, List.isPrefixOf_iff_prefix,
      List.isPrefixOf_iff_prefix] at h
    rcases h with (rfl | ⟨rest, hrest⟩) | ⟨rest, hrest⟩
    · exact .inr rfl
    · exact .inl (by rw [← hrest]; rfl)
    · exact .inr (by rw [← hrest]; rfl)
  rw [declared?, if_neg]
  rw [Bool.and_eq_true, List.isPrefixOf_iff_prefix]
  rintro ⟨⟨rest, hrest⟩, -⟩
  rw [← hrest] at hfirst
  exact absurd hfirst (by simp)

namespace Doc

@[simp]
theorem functions_empty : Doc.empty.functions = [] := rfl

@[simp]
theorem functions_line (text : String) : (Doc.line text).functions = [] := rfl

@[simp]
theorem functions_append (d e : Doc) : (d ++ e).functions = d.functions ++ e.functions := rfl

@[simp]
theorem functions_assigned (head : String) (body : Doc) : (Doc.block head body ";").functions = [] :=
  rfl

@[simp]
theorem functions_constructor (name : String) (body : Doc) :
    (Doc.block ("function " ++ name ++ "()") body "").functions = [name] := by
  rw [functions, if_pos rfl, declared?_constructor, Option.toList_some]

@[simp]
theorem functions_branch {head : String} (h : isBranch head = true) (body : Doc) :
    (Doc.block head body "").functions = [] := by
  rw [functions, if_pos rfl, declared?_branch h, Option.toList_none]

theorem functions_concat (docs : List Doc) :
    (concat docs).functions = docs.flatMap (·.functions) := by
  induction docs with
  | nil => rfl
  | cons d rest ih => rw [concat, functions_append, ih, List.flatMap_cons]

@[simp]
theorem functions_lines (texts : List String) : (lines texts).functions = [] := by
  rw [lines, functions_concat]
  simp

end Doc

end Output

namespace Emission

section Run

variable {job : Job} {s t : State} {d : Doc}

theorem Binds.functions {m : Method} {slot : String} (h : Binds m slot d) : d.functions = [] := by
  cases h with
  | function body => exact Doc.functions_assigned _ _
  | trap => rfl
  | chain fallback guarded =>
      rw [guardChain, Doc.functions_append, Doc.functions_concat,
        Doc.functions_branch (by decide), List.append_nil, List.flatMap_eq_nil_iff]
      intro e he
      obtain ⟨⟨⟨guard, body⟩, index⟩, -, rfl⟩ := List.mem_map.1 he
      refine Doc.functions_branch ?_ _
      split <;> simp [isBranch]

theorem lowerMethod_functions {owner : ClassName} {m : Method}
    (h : (lowerMethod job owner m).run s = (.ok d, t)) : d.functions = [] := by
  rcases lowerMethod_binds h with hbinds | ⟨error, rfl⟩
  · exact hbinds.functions
  · rfl

theorem methods_functions {owner : ClassName} {methods : List Method} {docs : List Doc}
    (h : (methods.mapM (lowerMethod job owner)).run s = (.ok docs, t)) :
    (Doc.concat docs).functions = [] := by
  have hdocs : ∀ d ∈ docs, d.functions = [] := by
    obtain ⟨hall, -⟩ := forall₂_of_run_mapM_ok (R := fun _ d => d.functions = [])
      (P := fun _ _ => True) (fun _ => trivial) (fun _ _ => trivial)
      (fun hrun => ⟨lowerMethod_functions hrun, trivial⟩) h
    exact forall_mem_of_forall₂ hall id
  rw [Doc.functions_concat, List.flatMap_eq_nil_iff]
  exact hdocs

theorem lowerStaticInit_functions {c : Class} (h : (lowerStaticInit job c).run s = (.ok d, t)) :
    d.functions = [] := by
  simp only [lowerStaticInit] at h
  split at h
  · obtain ⟨rfl, -⟩ := eq_of_run_pure h
    rfl
  · obtain ⟨defaults, u, -, h⟩ := exists_of_run_bind_ok h
    obtain ⟨rfl, -⟩ := eq_of_run_pure h
    rfl

/-- The document of a class declares its constructor function and nothing besides. -/
theorem lowerClass_functions {c : Class} (h : (lowerClass job c).run s = (.ok d, t)) :
    d.functions = [c.name.identifier] := by
  simp only [lowerClass] at h
  obtain ⟨parent, u, -, h⟩ := exists_of_run_bind_ok h
  obtain ⟨defaults, v, -, h⟩ := exists_of_run_bind_ok h
  obtain ⟨related, w, -, h⟩ := exists_of_run_bind_ok h
  obtain ⟨staticInit, x, hstatic, h⟩ := exists_of_run_bind_ok h
  obtain ⟨inits, y, hinits, h⟩ := exists_of_run_bind_ok h
  obtain ⟨others, z, hothers, h⟩ := exists_of_run_bind_ok h
  obtain ⟨rfl, -⟩ := eq_of_run_pure h
  have hhead : (if c.isAbstract then Doc.line "// ABSTRACT" else .empty).functions = [] := by
    split <;> rfl
  simp only [Doc.functions_append, hhead, Doc.functions_constructor, Doc.functions_line,
    Doc.functions_lines, lowerStaticInit_functions hstatic, methods_functions hinits,
    methods_functions hothers, List.append_nil, List.nil_append]

end Run

end Emission

/-- The classes whose constructor functions are written, in the order of emission. -/
def Program.constructors (p : Program) : List Class :=
  p.emissionOrder.filter (·.verbatim.isNone)

namespace Emission

variable {job : Job} {s t : State} {d : Doc}

theorem optionalLine_functions (text : Option String) : (optionalLine text).functions = [] := by
  cases text <;> rfl

theorem programDoc_functions (job : Job) (pool : StringPool)
    (fragments : List (Option String × Option String)) (classes : List (Class × Doc)) (start : String) :
    (programDoc job pool fragments classes start).functions =
      classes.flatMap fun c => c.2.functions := by
  have hheader : job.headerDoc.functions = [] := by
    rw [Job.headerDoc]
    split <;> rfl
  have hhalves : ∀ halves : List (Option String),
      (Doc.concat (halves.map optionalLine)).functions = [] := by
    intro halves
    rw [Doc.functions_concat, List.flatMap_map]
    simp [optionalLine_functions]
  have hfront := hhalves (fragments.map Prod.fst)
  have hback := hhalves (fragments.reverse.map Prod.snd)
  rw [List.map_map] at hfront hback
  have hpool : pool.doc.functions = [] := by simp [StringPool.doc]
  have hclasses : (Doc.concat (classes.map fun c => .splice c.2)).functions =
      classes.flatMap fun c => c.2.functions := by
    rw [Doc.functions_concat, List.flatMap_map]
    rfl
  simp only [programDoc, Doc.functions_append, hheader, hpool, hclasses, Doc.functions_lines,
    List.append_nil, List.nil_append]
  exact (congrArg₂ (· ++ _ ++ ·) hfront hback).trans (by simp)

/-- Text that stands in for a class declares nothing of its own. -/
theorem lowerOrCopy_functions {c : Class} (h : (lowerOrCopy job c).run s = (.ok d, t)) :
    d.functions = if c.verbatim.isNone then [c.name.identifier] else [] := by
  cases hverbatim : c.verbatim with
  | some text =>
      simp only [lowerOrCopy, hverbatim] at h
      obtain ⟨rfl, -⟩ := eq_of_run_pure h
      rfl
  | none =>
      simp only [lowerOrCopy, hverbatim] at h
      exact lowerClass_functions h

/-- What an emitted program declares is the constructor functions of its classes. -/
theorem lowerProgram_functions (h : (lowerProgram job).run s = (.ok d, t)) :
    d.functions = job.program.constructors.map (·.name.identifier) := by
  obtain ⟨classes, fragments, start, u, v, -, hclasses, -, -, rfl⟩ := lowerProgram_run h
  have hdocs : List.Forall₂ (fun c (e : Class × Doc) => e.2.functions =
      if c.verbatim.isNone then [c.name.identifier] else []) job.program.emissionOrder classes := by
    refine (forall₂_of_run_mapM_ok (P := fun _ _ => True) (fun _ => trivial) (fun _ _ => trivial)
      (fun {c e s t} hrun => ?_) hclasses).1
    obtain ⟨doc, w, hdoc, hrun⟩ := exists_of_run_bind_ok hrun
    obtain ⟨rfl, -⟩ := eq_of_run_pure hrun
    exact ⟨lowerOrCopy_functions hdoc, trivial⟩
  rw [programDoc_functions, Program.constructors]
  clear hclasses h
  generalize job.program.emissionOrder = order at hdocs
  induction hdocs with
  | nil => rfl
  | @cons c e _ _ hfirst _ ih =>
      rw [List.flatMap_cons, hfirst, ih, List.filter_cons]
      split <;> rfl

/-- Globals that the script's own runtime stands in. -/
def runtimeGlobals : List String := ["N", "S", "SS"]

/-- Two classes have one identifier just if their names differ in dots and underscores
only, and a class has the identifier of a global of the runtime just if that is its
name. In an emitted program the functions declared are those of the classes, so none
replaces another one just if no two names meet, and one replaces a global of the
runtime just if a class is called so. -/
theorem classBindings (p : Program) :
    (∀ c ∈ p.classes, ∀ e ∈ p.classes,
      c.name.identifier = e.name.identifier ↔ c.name.Meets e.name) ∧
    (∀ c ∈ p.classes, ∀ global ∈ runtimeGlobals, c.name.identifier = global ↔ c.name.text = global) ∧
    ∀ (job : Job) (s t : State) (d : Doc), job.program = p → (lowerProgram job).run s = (.ok d, t) →
      d.functions = p.constructors.map (·.name.identifier) ∧
      (d.functions.Nodup ↔ p.constructors.Pairwise fun c e => ¬ c.name.Meets e.name) ∧
      ((∀ c ∈ p.constructors, '_' ∉ c.name.text.toList) → d.functions.Nodup) ∧
      ∀ global ∈ runtimeGlobals, global ∈ d.functions ↔ ∃ c ∈ p.constructors, c.name.text = global := by
  have hglobal : ∀ global ∈ runtimeGlobals, ∀ c ∈ global.toList, c ≠ '.' ∧ c ≠ '_' := by
    simp [runtimeGlobals]
  refine ⟨fun c _ e _ => ClassName.identifier_eq_iff,
    fun c _ global h => ClassName.identifier_eq_word (hglobal global h), ?_⟩
  rintro job s t d rfl hrun
  have hdeclared := lowerProgram_functions hrun
  have hnodup : d.functions.Nodup ↔
      job.program.constructors.Pairwise fun c e => ¬ c.name.Meets e.name := by
    rw [hdeclared, List.Nodup, List.pairwise_map]
    simp only [ne_eq, ClassName.identifier_eq_iff]
  refine ⟨hdeclared, hnodup, fun hplain => hnodup.2 ?_, fun global h => ?_⟩
  · have hnames : (job.program.constructors.map Class.name).Nodup :=
      ((Program.emissionOrder_perm.map Class.name).nodup_iff.2 Program.emitted_names_nodup).sublist
        (List.filter_sublist.map Class.name)
    rw [List.Nodup, List.pairwise_map] at hnames
    exact hnames.imp_of_mem fun hc he hne hmeets => hne (hmeets.eq (hplain _ hc) (hplain _ he))
  · rw [hdeclared, List.mem_map]
    simp only [ClassName.identifier_eq_word (hglobal global h)]

/-- A class with nothing above it and nothing in it is emitted, whatever the program. -/
theorem exists_lowerOrCopy_bare (job : Job) (name : String) (s : State) :
    ∃ doc, (lowerOrCopy job (Class.bare name none)).run s = (.ok doc, s) := by
  have hancestors : job.program.ancestors (Class.bare name none) = [] := climb_none _
  have hrelated : job.program.related (Class.bare name none) = .ok [Class.bare name none] := by
    simp only [Program.related, hancestors]
    simp [Class.bare, Program.explore]
  have hparent : (parentBase job (Class.bare name none)).run s = (.ok rootBase, s) := rfl
  have hfields : (Class.bare name none).instanceFields ++
      (job.program.ancestors (Class.bare name none)).flatMap (·.instanceFields) = [] := by
    rw [hancestors]
    rfl
  obtain ⟨_, -, hrun⟩ := exists_lowerClass_run hparent hfields hrelated rfl rfl rfl
  exact ⟨_, hrun⟩

/-- So are several of them in turn. -/
theorem exists_classes_bare (job : Job) (names : List String) (s : State) :
    ∃ docs, ((names.map fun name => Class.bare name none).mapM fun c => do
      return (c, ← lowerOrCopy job c)).run s = (.ok docs, s) := by
  induction names with
  | nil => exact ⟨[], rfl⟩
  | cons name rest ih =>
      obtain ⟨doc, hdoc⟩ := exists_lowerOrCopy_bare job name s
      obtain ⟨docs, hdocs⟩ := ih
      refine ⟨(Class.bare name none, doc) :: docs, ?_⟩
      have hfirst : (do return (Class.bare name none, ← lowerOrCopy job (Class.bare name none)) :
          Emit (Class × Doc)).run s = (.ok (Class.bare name none, doc), s) := run_bind_ok hdoc
      rw [List.map_cons, List.mapM_cons, run_bind_ok hfirst, run_bind_ok hdocs]
      rfl

/-- Two classes whose names differ in a dot and an underscore, and one that is called
as a global of the runtime is. -/
def clashing : Program where
  classes := [Class.bare "app.Main" none, Class.bare "app_Main" none, Class.bare "N" none]
  entry := ⟨"app.Main"⟩
  customMains := [⟨"js", "app_Main.run();"⟩]
  distinct := by simp [Class.bare]
  hasEntry := by simp [Class.bare]

theorem emissionOrder_clashing : clashing.emissionOrder = clashing.classes := by
  refine Program.emissionOrder_eq_emitted (Program.acyclic_of_rank (fun _ => 0) ?_) ?_
  · simp [clashing, ExtendsIn, Class.bare]
  · simp [Program.SuperclassFirst, Program.emitted, clashing, ExtendsIn, Class.bare]

theorem constructors_clashing : clashing.constructors = clashing.classes := by
  rw [Program.constructors, emissionOrder_clashing]
  rfl

theorem exists_lowerProgram_clashing :
    ∃ d t, (lowerProgram ⟨clashing, {}, plainTemplater⟩).run .initial = (.ok d, t) := by
  have hentry : clashing.class? clashing.entry = some (Class.bare "app.Main" none) := by
    simp [Program.class?, clashing, Class.bare]
  have hmain : clashing.customMain? "js" = some "app_Main.run();" := rfl
  have hclasses : ∀ s, ∃ docs u, (clashing.emissionOrder.mapM fun c => do
      return (c, ← lowerOrCopy ⟨clashing, {}, plainTemplater⟩ c)).run s = (.ok docs, u) ∧
        u.stubs = s.stubs ++ [] := by
    intro s
    obtain ⟨docs, hdocs⟩ := exists_classes_bare ⟨clashing, {}, plainTemplater⟩
      ["app.Main", "app_Main", "N"] s
    rw [emissionOrder_clashing]
    exact ⟨docs, s, hdocs, (List.append_nil _).symm⟩
  obtain ⟨d, t, hrun, -⟩ := exists_lowerProgram_run hentry hmain rfl rfl hclasses .initial
  exact ⟨d, t, hrun⟩

/-- Of the two classes whose names meet, the one that is emitted later replaces the
other, and the third replaces a global of the runtime. -/
theorem classBindings_clashing : ∃ d t,
    (lowerProgram ⟨clashing, {}, plainTemplater⟩).run .initial = (.ok d, t) ∧
      d.functions = ["app_Main", "app_Main", "N"] ∧ ¬ d.functions.Nodup ∧ "N" ∈ d.functions := by
  obtain ⟨d, t, hrun⟩ := exists_lowerProgram_clashing
  obtain ⟨hdeclared, hnodup, -, hglobal⟩ := (classBindings clashing).2.2 _ _ _ _ rfl hrun
  rw [constructors_clashing] at hdeclared hnodup hglobal
  refine ⟨d, t, hrun, ?_, ?_, ?_⟩
  · rw [hdeclared]
    decide +kernel
  · rw [hnodup]
    decide
  · exact (hglobal "N" (by decide)).2 ⟨.bare "N" none, by simp [clashing], rfl⟩

/-- Different classes of one program can have one identifier, also that of a global of
the runtime. -/
theorem clashing_meet :
    (∃ c ∈ clashing.classes, ∃ e ∈ clashing.classes,
      c.name ≠ e.name ∧ c.name.identifier = e.name.identifier) ∧
    ∃ c ∈ clashing.classes, c.name.identifier ∈ runtimeGlobals := by
  refine ⟨⟨.bare "app.Main" none, by simp [clashing], .bare "app_Main" none, by simp [clashing],
    by decide, ?_⟩, .bare "N" none, by simp [clashing], by decide +kernel⟩
  rw [ClassName.identifier_eq_iff]
  decide

end Emission

end ClassScript
