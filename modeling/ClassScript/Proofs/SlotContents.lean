import ClassScript.Proofs.BodySelection

/-!
What a method's slot can come to hold: its generated body, a native body that is
registered for the target, or a trap. There is one exception. Where all native bodies
have guards, none of the guards holds, and there is no generated body behind them,
the slot holds a function without statements.
-/

namespace ClassScript.Emission

open Output

/-- A function or trap that stands for a method: a lowered body, a rendered native
body for the target, or the trap. -/
inductive Implements (job : Job) (owner : ClassName) (m : Method) (s : State) :
    SlotValue → Prop where
  | generated {body : Body} {doc : Doc} {t : State}
      (hbody : generatedBody? job.program m = some body)
      (hrun : (lowerBody job owner m body).run s = (.ok doc, t)) :
      Implements job owner m s (.function (doc.linesAt 0))
  | native {native : NativeBody} {out : String} (hmem : native ∈ m.nativesFor job.config.target)
      (hrender : job.templater .nativeBody native.text = .ok out) :
      Implements job owner m s (.function (Doc.textLines 0 out))
  | trap : Implements job owner m s .trap

/-- A method with native bodies none of which serves: there is no generated body, and
each of them has a guard that does not hold. -/
structure Unserved (job : Job) (m : Method) (truth : String → Bool) : Prop where
  some_native : m.nativesFor job.config.target ≠ []
  no_body : generatedBody? job.program m = none
  guarded : ∀ native ∈ m.nativesFor job.config.target,
    native.guard ≠ "" ∧ truth native.guard = false

section Values

variable {job : Job} {owner : ClassName} {m : Method} {s t : State} {d : Doc}
  {truth : String → Bool}

/-- A native body has a line at least, so nothing that stands for a method without a
generated body is empty. -/
theorem not_implements_nil (hbody : generatedBody? job.program m = none) :
    ¬ Implements job owner m s (.function []) := by
  intro h
  generalize hvalue : SlotValue.function [] = value at h
  cases h with
  | generated hsome _ =>
      rw [hbody] at hsome
      cases hsome
  | native _ _ => exact Doc.textLines_ne_nil 0 _ (SlotValue.function.inj hvalue).symm
  | trap => cases hvalue

theorem Fallback.implements (h : Fallback job owner m s d) :
    Implements job owner m s (.function (d.linesAt 0)) := by
  cases h with
  | native htext hrender =>
      obtain ⟨native, hmem, -, rfl⟩ := mem_of_lastText? htext
      exact .native hmem hrender
  | generated _ hbody hrun => exact .generated hbody hrun

theorem Fallback.serves (h : Fallback job owner m s d) : ¬ Unserved job m truth := by
  intro hlacks
  cases h with
  | native htext _ =>
      obtain ⟨native, hmem, hguard, -⟩ := mem_of_lastText? htext
      exact (hlacks.guarded native hmem).1 hguard
  | generated _ hbody _ =>
      rw [hlacks.no_body] at hbody
      cases hbody

/-- Behind the guarded native bodies stands a body, or an empty document. -/
theorem lowerFallback_run (h : (lowerFallback job owner m).run s = (.ok d, t)) :
    Fallback job owner m s d ∨
      d = .empty ∧ lastText? (m.nativesFor job.config.target) "" = none ∧
        generatedBody? job.program m = none := by
  rw [lowerFallback] at h
  split at h
  · next text htext =>
      obtain ⟨out, hrender, rfl, -⟩ := exists_rendered h
      exact .inl (.native htext hrender)
  · next hnone =>
      obtain ⟨found, hfound, rfl⟩ := exists_of_run_map_ok h
      rcases lowerGenerated_run hfound with ⟨body, doc, hbody, rfl, hrun⟩ | ⟨hbody, rfl, -⟩
      · exact .inl (.generated hnone hbody hrun)
      · exact .inr ⟨rfl, hnone, hbody⟩

theorem lowerGuarded_run {natives : List NativeBody} {guard : String} {link : String × Doc}
    (h : (lowerGuarded job natives guard).run s = (.ok link, t)) :
    guard = link.1 ∧ ∃ out, link.2 = .line out ∧
      job.templater .nativeBody ((lastText? natives guard).getD "") = .ok out := by
  obtain ⟨doc, u, hdoc, h⟩ := exists_of_run_bind_ok h
  obtain ⟨rfl, -⟩ := eq_of_run_pure h
  obtain ⟨out, hrender, hline, -⟩ := exists_rendered hdoc
  exact ⟨rfl, out, hline, hrender⟩

/-- The links of the chain are the guards, each with a native body that has it. -/
theorem guarded_rendered {guarded : List (String × Doc)} (u : State)
    (h : ((conditions (m.nativesFor job.config.target)).mapM
      (lowerGuarded job (m.nativesFor job.config.target))).run s = (.ok guarded, t)) :
    guarded.map Prod.fst = conditions (m.nativesFor job.config.target) ∧
      ∀ link ∈ guarded, ∃ native ∈ m.nativesFor job.config.target, native.guard = link.1 ∧
        Implements job owner m u (.function (link.2.linesAt 0)) := by
  obtain ⟨hall, -⟩ := forall₂_of_run_mapM_ok (f := lowerGuarded job _) (P := fun _ _ => True)
    (fun _ => trivial) (fun _ _ => trivial) (fun h => ⟨lowerGuarded_run h, trivial⟩) h
  have hguards : guarded.map Prod.fst = conditions (m.nativesFor job.config.target) := by
    have hsame := List.forall₂_map_right_iff.2 (hall.imp fun _ _ h => h.1)
    rw [List.forall₂_eq_eq_eq] at hsame
    exact hsame.symm
  refine ⟨hguards, fun link hmem => ?_⟩
  obtain ⟨out, hline, hrender⟩ := forall_mem_of_forall₂ hall
    (Q := fun link => ∃ out, link.2 = .line out ∧ job.templater .nativeBody
      ((lastText? (m.nativesFor job.config.target) link.1).getD "") = .ok out)
    (fun ⟨hguard, hout⟩ => hguard ▸ hout) link hmem
  obtain ⟨text, htext⟩ := exists_lastText? (hguards ▸ List.mem_map_of_mem hmem)
  rw [htext, Option.getD_some] at hrender
  obtain ⟨native, hnative, hguard, rfl⟩ := mem_of_lastText? htext
  exact ⟨native, hnative, hguard, hline ▸ .native hnative hrender⟩

/-- A slot that is bound holds what stands for the method, unless no native body
serves. -/
theorem bindMethod_establishes
    (h : (bindMethod job owner m (methodSlot owner m)).run s = (.ok d, t)) (truth : String → Bool) :
    ∃ value, Establishes owner m truth (d.linesAt 0) value ∧
      (Implements job owner m s value ∧ ¬ Unserved job m truth ∨
        value = .function [] ∧ Unserved job m truth) := by
  by_cases hnatives : m.nativesFor job.config.target = []
  · have hserved : ¬ Unserved job m truth := fun hlacks => hlacks.some_native hnatives
    rw [bindMethod_generated hnatives] at h
    obtain ⟨found, u, hfound, h⟩ := exists_of_run_bind_ok h
    rcases lowerGenerated_run hfound with ⟨body, doc, hbody, rfl, hrun⟩ | ⟨hbody, rfl, -⟩
    · obtain ⟨rfl, -⟩ := eq_of_run_pure h
      rw [linesAt_bindFunction]
      exact ⟨_, .alone owner m truth (.function (doc.linesAt 0)),
        .inl ⟨.generated hbody hrun, hserved⟩⟩
    · obtain ⟨rfl, -⟩ := eq_of_run_pure h
      rw [linesAt_bindStub]
      exact ⟨_, .alone owner m truth .trap, .inl ⟨.trap, hserved⟩⟩
  · rw [bindMethod_eq hnatives] at h
    obtain ⟨fallback, u, hfallback, h⟩ := exists_of_run_bind_ok h
    obtain ⟨guarded, v, hguarded, h⟩ := exists_of_run_bind_ok h
    obtain ⟨rfl, -⟩ := eq_of_run_pure h
    obtain ⟨hguards, hlinks⟩ := guarded_rendered s hguarded
    refine ⟨_, establishes_selection owner m truth fallback guarded, ?_⟩
    cases hfind : guarded.find? (truth ·.1) with
    | some link =>
        obtain ⟨native, hnative, hguard, himplements⟩ :=
          hlinks link (List.mem_of_find?_eq_some hfind)
        refine .inl ⟨himplements, fun hlacks => ?_⟩
        have htrue := List.find?_some hfind
        rw [← hguard, (hlacks.guarded native hnative).2] at htrue
        cases htrue
    | none =>
        rcases lowerFallback_run hfallback with hfallback | ⟨rfl, hnone, hbody⟩
        · exact .inl ⟨hfallback.implements, hfallback.serves⟩
        · refine .inr ⟨rfl, hnatives, hbody, fun native hnative => ?_⟩
          have hguard : native.guard ≠ "" := lastText?_eq_none.1 hnone native hnative
          have hmem : native.guard ∈ guarded.map Prod.fst := by
            rw [hguards, mem_conditions]
            exact ⟨hguard, native, hnative, rfl⟩
          obtain ⟨link, hlink, hsame⟩ := List.mem_map.1 hmem
          refine ⟨hguard, ?_⟩
          rw [← hsame]
          simpa using List.find?_eq_none.1 hfind link hlink

/-- The stub of a method whose body cannot be lowered binds the slot to the trap. -/
theorem establishes_stubDoc (error : EmitError) (truth : String → Bool) :
    Establishes owner m truth ((stubDoc owner m error).linesAt 0) .trap := by
  have hlines : (stubDoc owner m error).linesAt 0 =
      Doc.textLines 0 (stubComment owner m error) ++ SlotValue.trap.lines owner m :=
    Doc.linesAt_append 0 _ _
  obtain ⟨text, htext⟩ := stubComment_eq owner m error
  rw [hlines, htext]
  exact .commented owner m truth text .trap

end Values

/-- Whatever the truth values of the guards are, the lines of a method bind its slot to
one value, and that stands for the method, unless no native body serves: then it is a
function without a line in it, where the trap belongs. -/
theorem slot_holds (job : Job) (owner : ClassName) (m : Method) {s t : State} {d : Doc}
    (h : (lowerMethod job owner m).run s = (.ok d, t)) (truth : String → Bool) :
    ∃ value, (∀ other, Establishes owner m truth (d.linesAt 0) other ↔ other = value) ∧
      (Implements job owner m s value ↔ ¬ (Unserved job m truth ∧ t.stubs = s.stubs)) ∧
      (Unserved job m truth ∧ t.stubs = s.stubs → value = .function []) := by
  rcases lowerMethod_ends h with ⟨hbind, hstubs⟩ | ⟨error, rfl, hstubs⟩
  · obtain ⟨value, hvalue, ⟨himplements, hserved⟩ | ⟨rfl, hlacks⟩⟩ :=
      bindMethod_establishes hbind truth
    · exact ⟨value, fun other => hvalue.iff, iff_of_true himplements fun h => hserved h.1,
        fun h => absurd h.1 hserved⟩
    · exact ⟨_, fun other => hvalue.iff,
        iff_of_false (not_implements_nil hlacks.no_body) (not_not_intro ⟨hlacks, hstubs⟩), fun _ => rfl⟩
  · have hnoted : ¬ (Unserved job m truth ∧ t.stubs = s.stubs) := by
      rintro ⟨-, hsame⟩
      rw [hstubs] at hsame
      simp at hsame
    exact ⟨.trap, fun other => (establishes_stubDoc error truth).iff, iff_of_true .trap hnoted,
      fun h => absurd h hnoted⟩

section Examples

/-- A method with one native body, under a guard. -/
def guardedOnly : Method := nativeMethod [⟨"js", "N.isNode", "tick();"⟩]

/-- The lines of that method: the native body under its guard, and an empty function. -/
def guardedLines : List (Nat × String) :=
  [(0, "if (N.isNode) \x7b"), (1, "Main[\"now()V\"] = function() \x7b"), (2, "tick();"),
    (1, "\x7d;"), (0, "\x7d"),
    (0, "else \x7b"), (1, "Main[\"now()V\"] = function() \x7b"), (1, "\x7d;"), (0, "\x7d")]

theorem lowerMethod_guardedOnly :
    ∃ t, (lowerMethod ⟨.bare "Main", {}, plainTemplater⟩ ⟨"Main"⟩ guardedOnly).run .initial =
      (.ok (selection guardedOnly (methodSlot ⟨"Main"⟩ guardedOnly) .empty
        [("N.isNode", .line "tick();")]), t) := ⟨_, rfl⟩

theorem linesAt_guardedOnly : (selection guardedOnly (methodSlot ⟨"Main"⟩ guardedOnly) .empty
    [("N.isNode", .line "tick();")]).linesAt 0 = guardedLines := by
  decide +kernel

/-- If its guard holds, its slot holds that body. -/
theorem slot_holds_guarded :
    let job : Job := ⟨.bare "Main", {}, plainTemplater⟩
    ∃ d t, (lowerMethod job ⟨"Main"⟩ guardedOnly).run .initial = (.ok d, t) ∧
      d.linesAt 0 = guardedLines ∧
      Establishes ⟨"Main"⟩ guardedOnly (fun _ => true) (d.linesAt 0) (.function [(0, "tick();")]) ∧
      Implements job ⟨"Main"⟩ guardedOnly .initial (.function [(0, "tick();")]) := by
  intro job
  obtain ⟨t, hrun⟩ := lowerMethod_guardedOnly
  obtain ⟨value, hvalue, himplements, -⟩ := slot_holds job ⟨"Main"⟩ guardedOnly hrun fun _ => true
  have htaken := establishes_selection ⟨"Main"⟩ guardedOnly (fun _ => true) .empty
    [("N.isNode", .line "tick();")]
  obtain rfl := (hvalue _).1 htaken
  refine ⟨_, t, hrun, linesAt_guardedOnly, htaken, himplements.2 fun ⟨hlacks, _⟩ => ?_⟩
  cases (hlacks.guarded _ (List.mem_singleton_self _)).2

/-- If its guard does not hold, its slot holds an empty function, and nothing that
stands for it. -/
theorem slot_left_empty :
    let job : Job := ⟨.bare "Main", {}, plainTemplater⟩
    ∃ d t, (lowerMethod job ⟨"Main"⟩ guardedOnly).run .initial = (.ok d, t) ∧
      d.linesAt 0 = guardedLines ∧
      Establishes ⟨"Main"⟩ guardedOnly (fun _ => false) (d.linesAt 0) (.function []) ∧
      ¬ Implements job ⟨"Main"⟩ guardedOnly .initial (.function []) := by
  intro job
  obtain ⟨t, hrun⟩ := lowerMethod_guardedOnly
  have hempty := establishes_selection ⟨"Main"⟩ guardedOnly (fun _ => false) .empty
    [("N.isNode", .line "tick();")]
  exact ⟨_, t, hrun, linesAt_guardedOnly, hempty, not_implements_nil rfl⟩

end Examples

end ClassScript.Emission
