import ClassScript.Proofs.GuardedNatives
import ClassScript.Proofs.Lineage

/-!
Which body a method's slot is bound to. Native bodies for the target are chosen by
their guards, with one without a guard or else the generated body behind them; a
method without any is bound to its generated body or to a trap. Where nothing stands
behind guarded native bodies, the slot is bound to an empty function.
-/

namespace ClassScript.Emission

open Output

/-- What binding a slot takes from the native bodies of other targets: nothing. -/
theorem bindMethod_natives (job : Job) (owner : ClassName) (m : Method) (slot : String)
    {others : List NativeBody}
    (h : others.filter (·.target = job.config.target) = m.nativesFor job.config.target) :
    bindMethod job owner { m with natives := others } slot = bindMethod job owner m slot := by
  simp only [bindMethod, Method.nativesFor, h]
  rfl

/-- What stands behind the guarded native bodies: the text that was registered last
without a guard, or else the generated body. -/
inductive Fallback (job : Job) (owner : ClassName) (m : Method) (s : State) : Doc → Prop where
  | native {text out : String} (htext : lastText? (m.nativesFor job.config.target) "" = some text)
      (hrender : job.templater .nativeBody text = .ok out) : Fallback job owner m s (.line out)
  | generated {body : Body} {doc : Doc} {t : State}
      (hnone : lastText? (m.nativesFor job.config.target) "" = none)
      (hbody : generatedBody? job.program m = some body)
      (hrun : (lowerBody job owner m body).run s = (.ok doc, t)) : Fallback job owner m s doc

section Selection

variable {job : Job} {owner : ClassName} {m : Method} {s t : State} {d : Doc}

/-- The document that binds a slot to the first of several functions whose guard
holds, or to the last one. -/
def selection (m : Method) (slot : String) (fallback : Doc) (guarded : List (String × Doc)) : Doc :=
  if guarded.isEmpty then bindFunction m slot fallback
  else guardChain (bindFunction m slot) fallback guarded

/-- A selection is a chain over the guards, or the last function alone. -/
theorem linesAt_selection (owner : ClassName) (m : Method) (fallback : Doc)
    (guarded : List (String × Doc)) :
    (selection m (methodSlot owner m) fallback guarded).linesAt 0 =
      if guarded = [] then (SlotValue.function (fallback.linesAt 0)).lines owner m
      else guardLines ((SlotValue.function (fallback.linesAt 0)).lines owner m) true
        (guarded.map fun link => (link.1, (SlotValue.function (link.2.linesAt 0)).lines owner m)) := by
  cases guarded with
  | nil => exact linesAt_bindFunction owner m fallback
  | cons link rest =>
      rw [selection, if_neg (by simp), if_neg (by simp), linesAt_guardChain]
      simp only [linesAt_bindFunction]

theorem establishes_selection (owner : ClassName) (m : Method) (truth : String → Bool)
    (fallback : Doc) (guarded : List (String × Doc)) :
    Establishes owner m truth ((selection m (methodSlot owner m) fallback guarded).linesAt 0)
      (.function ((((guarded.find? (truth ·.1)).map Prod.snd).getD fallback).linesAt 0)) := by
  rw [linesAt_selection]
  cases guarded with
  | nil => exact .alone owner m truth (.function (fallback.linesAt 0))
  | cons link rest =>
      rw [if_neg (List.cons_ne_nil link rest)]
      refine .chosen (by simp) (fun _ hlink => ?_) ?_
      · obtain ⟨other, -, rfl⟩ := List.mem_map.1 hlink
        exact SlotValue.lines_ne_nil owner m (.function (other.2.linesAt 0))
      · rw [takenLines_eq, List.find?_map, Option.map_map]
        cases hfind : (link :: rest).find? (truth ·.1) <;> simp [Function.comp_def, hfind]

/-- What is put behind the guarded native bodies, in steps. -/
def lowerFallback (job : Job) (owner : ClassName) (m : Method) : Emit Doc :=
  match lastText? (m.nativesFor job.config.target) "" with
  | some text => lowerNative job text
  | none => (·.getD .empty) <$> lowerGenerated job owner m

/-- A link of the chain: a guard with the text that was registered last for it. -/
def lowerGuarded (job : Job) (natives : List NativeBody) (guard : String) : Emit (String × Doc) := do
  return (guard, ← lowerNative job ((lastText? natives guard).getD ""))

/-- Binding a slot where there are native bodies for the target. -/
theorem bindMethod_eq {slot : String} (h : m.nativesFor job.config.target ≠ []) :
    bindMethod job owner m slot = do
      let natives := m.nativesFor job.config.target
      let fallback ← lowerFallback job owner m
      let guarded ← (conditions natives).mapM (lowerGuarded job natives)
      return selection m slot fallback guarded := by
  obtain ⟨native, hmem⟩ := List.exists_mem_of_ne_nil _ h
  have hkey : native.guard ∈ (byGuard (m.nativesFor job.config.target)).map Prod.fst := by
    rw [(keys_byGuard _).1, List.mem_eraseDups]
    exact List.mem_map_of_mem hmem
  have hempty : (byGuard (m.nativesFor job.config.target)).isEmpty = false := by
    cases hguards : byGuard (m.nativesFor job.config.target) with
    | nil =>
        rw [hguards] at hkey
        cases hkey
    | cons _ _ => rfl
  simp only [bindMethod, hempty, lookup_byGuard, guarded_byGuard, List.mapM_map, selection,
    apply_ite (pure : Doc → Emit Doc), lowerFallback]
  cases lastText? (m.nativesFor job.config.target) "" with
  | some text => rfl
  | none => rfl

/-- Binding a slot where there are none. -/
theorem bindMethod_generated {slot : String} (h : m.nativesFor job.config.target = []) :
    bindMethod job owner m slot = do
      match ← lowerGenerated job owner m with
      | some body => return bindFunction m slot body
      | none => return bindStub slot := by
  simp only [bindMethod, h]
  rfl

theorem run_lowerGenerated {body : Body} {doc : Doc}
    (hbody : generatedBody? job.program m = some body)
    (hrun : (lowerBody job owner m body).run s = (.ok doc, t)) :
    (lowerGenerated job owner m).run s = (.ok (some doc), t) := by
  simp only [lowerGenerated, hbody]
  rw [run_bind_ok hrun]
  rfl

theorem run_lowerGenerated_none (hbody : generatedBody? job.program m = none) (s : State) :
    (lowerGenerated job owner m).run s = (.ok none, s) := by
  simp only [lowerGenerated, hbody]
  rfl

/-- A method's document is the one that binds its slot. -/
theorem lowerMethod_of_bind (h : (bindMethod job owner m (methodSlot owner m)).run s = (.ok d, t)) :
    (lowerMethod job owner m).run s = (.ok d, t) :=
  run_tryCatch_ok h

theorem lowerMethod_generated {body : Body} {doc : Doc}
    (hnone : m.nativesFor job.config.target = [])
    (hbody : generatedBody? job.program m = some body)
    (hrun : (lowerBody job owner m body).run s = (.ok doc, t)) :
    (lowerMethod job owner m).run s = (.ok (bindFunction m (methodSlot owner m) doc), t) := by
  refine lowerMethod_of_bind ?_
  rw [bindMethod_generated hnone, run_bind_ok (run_lowerGenerated hbody hrun)]
  rfl

theorem lowerMethod_trap (hnone : m.nativesFor job.config.target = [])
    (hbody : generatedBody? job.program m = none) (s : State) :
    (lowerMethod job owner m).run s = (.ok (bindStub (methodSlot owner m)), s) := by
  refine lowerMethod_of_bind ?_
  rw [bindMethod_generated hnone, run_bind_ok (run_lowerGenerated_none hbody s)]
  rfl

theorem Fallback.exists_run {fallback : Doc} (h : Fallback job owner m s fallback) :
    ∃ t, (lowerFallback job owner m).run s = (.ok fallback, t) := by
  cases h with
  | native htext hrender =>
      rw [lowerFallback, htext, run_lowerNative, hrender]
      exact ⟨_, rfl⟩
  | @generated body doc t hnone hbody hrun =>
      rw [lowerFallback, hnone, map_eq_pure_bind, run_bind_ok (run_lowerGenerated hbody hrun)]
      exact ⟨_, rfl⟩

/-- A method with native bodies is bound to a selection of their texts. -/
theorem lowerMethod_native {fallback : Doc} {rendered : String → String}
    (hnatives : m.nativesFor job.config.target ≠ []) (hfallback : Fallback job owner m s fallback)
    (hrendered : ∀ guard ∈ conditions (m.nativesFor job.config.target), ∀ text,
      lastText? (m.nativesFor job.config.target) guard = some text →
        job.templater .nativeBody text = .ok (rendered guard)) :
    ∃ t, (lowerMethod job owner m).run s = (.ok (selection m (methodSlot owner m) fallback
      ((conditions (m.nativesFor job.config.target)).map fun guard =>
        (guard, .line (rendered guard)))), t) := by
  obtain ⟨u, hrun⟩ := hfallback.exists_run
  have hguarded : Yields (fun _ : State => True)
      ((conditions (m.nativesFor job.config.target)).mapM
        (lowerGuarded job (m.nativesFor job.config.target)))
      ((conditions (m.nativesFor job.config.target)).map fun guard =>
        (guard, Doc.line (rendered guard))) := by
    refine Yields.mapM fun guard hguard => Yields.bind (fun s _ => ?_) (Yields.pure _)
    obtain ⟨text, htext⟩ := exists_lastText? hguard
    rw [run_lowerNative, htext, Option.getD_some, hrendered guard hguard text htext]
    exact ⟨_, rfl, trivial⟩
  obtain ⟨t, hnative, -⟩ := hguarded u trivial
  refine ⟨t, lowerMethod_of_bind ?_⟩
  rw [bindMethod_eq hnatives, run_bind_ok hrun, run_bind_ok hnative]
  rfl

end Selection

/-- Natives of other targets have no influence on a method, and its guards do not
repeat. Without native bodies for the target the lines of a method bind its slot to a
function with its generated body, or to a trap if it has none. Otherwise the guards, in
the order in which they come first, are the links of a chain; whatever their truth values
are, its lines bind the slot once, to the text registered last for the first guard that
holds, or to what stands behind. -/
theorem methodBody_selected (job : Job) (owner : ClassName) (m : Method) (s : State) :
    let natives := m.nativesFor job.config.target
    let guards := conditions natives
    (∀ others : List NativeBody, others.filter (·.target = job.config.target) = natives →
      lowerMethod job owner { m with natives := others } = lowerMethod job owner m) ∧
    guards.Nodup ∧
    (natives = [] →
      (∀ body doc t, generatedBody? job.program m = some body →
        (lowerBody job owner m body).run s = (.ok doc, t) →
          ∃ d, (lowerMethod job owner m).run s = (.ok d, t) ∧
            d.linesAt 0 = (SlotValue.function (doc.linesAt 0)).lines owner m) ∧
      (generatedBody? job.program m = none →
        ∃ d, (lowerMethod job owner m).run s = (.ok d, s) ∧
          d.linesAt 0 = SlotValue.trap.lines owner m)) ∧
    (natives ≠ [] → ∀ (fallback : Doc) (rendered : String → String),
      Fallback job owner m s fallback →
      (∀ guard ∈ guards, ∀ text, lastText? natives guard = some text →
        job.templater .nativeBody text = .ok (rendered guard)) →
      let last := (SlotValue.function (fallback.linesAt 0)).lines owner m
      ∃ d t, (lowerMethod job owner m).run s = (.ok d, t) ∧
        d.linesAt 0 = (if guards = [] then last
          else guardLines last true (guards.map fun guard =>
            (guard, (SlotValue.function (Doc.textLines 0 (rendered guard))).lines owner m))) ∧
        Text.lines d.text.toList = (d.linesAt 0).map shownLine ++ [[]] ∧
        ∀ (truth : String → Bool) (value : SlotValue),
          Establishes owner m truth (d.linesAt 0) value ↔
            value = .function (((guards.find? truth).map fun guard =>
              Doc.textLines 0 (rendered guard)).getD (fallback.linesAt 0))) := by
  intro natives guards
  refine ⟨fun others hothers => ?_, nodup_conditions natives, fun hnone =>
    ⟨fun body doc t hbody hrun => ⟨_, lowerMethod_generated hnone hbody hrun,
      linesAt_bindFunction owner m doc⟩,
    fun hbody => ⟨_, lowerMethod_trap hnone hbody s, linesAt_bindStub owner m⟩⟩,
    fun hsome fallback rendered hfallback hrendered => ?_⟩
  · simp only [lowerMethod]
    exact congrArg (tryCatch · _) (bindMethod_natives job owner m _ hothers)
  · obtain ⟨t, hrun⟩ := lowerMethod_native hsome hfallback hrendered
    refine ⟨_, t, hrun, ?_, Doc.lines_text _, fun truth value => Establishes.iff ?_⟩
    · rw [linesAt_selection, List.map_map]
      simp only [List.map_eq_nil_iff, guards, natives]
      rfl
    · have hestablishes := establishes_selection owner m truth fallback
        (guards.map fun guard => (guard, .line (rendered guard)))
      have hfind : (guards.map fun guard => (guard, Doc.line (rendered guard))).find? (truth ·.1) =
          (guards.find? truth).map fun guard => (guard, .line (rendered guard)) := List.find?_map
      rw [hfind, Option.map_map] at hestablishes
      cases hguard : guards.find? truth with
      | none =>
          rw [hguard] at hestablishes
          exact hestablishes
      | some guard =>
          rw [hguard] at hestablishes
          exact hestablishes

section Examples

/-- A static method without a body of its own, with these native bodies. -/
def nativeMethod (natives : List NativeBody) : Method where
  name := "now"
  owner := ⟨"Main"⟩
  type := ⟨[], .void⟩
  isStatic := true
  role := .ordinary
  nativeName := none
  body := none
  bodyRef := none
  natives := natives
  fluent := false

/-- Native bodies with a guard that repeats and two texts without one, among another
target's. -/
def interleaved : List NativeBody :=
  [⟨"js", "N.isNode", "first();"⟩, ⟨"cpp", "N.isWeb", "other();"⟩, ⟨"js", "", "second();"⟩,
    ⟨"js", "N.isWeb", "third();"⟩, ⟨"js", "N.isNode", "fourth();"⟩, ⟨"js", "", "fifth();"⟩]

/-- The guard that comes first is asked first, with the text that came last. Without any
native body the slot has the trap. -/
theorem methodBody_selected_interleaved :
    let job : Job := ⟨.bare "Main", {}, plainTemplater⟩
    let m := nativeMethod interleaved
    (∃ d t, (lowerMethod job ⟨"Main"⟩ m).run .initial = (.ok d, t) ∧
      d.linesAt 0 =
        [(0, "if (N.isNode) \x7b"), (1, "Main[\"now()V\"] = function() \x7b"), (2, "fourth();"),
          (1, "\x7d;"), (0, "\x7d"),
          (0, "else if (N.isWeb) \x7b"), (1, "Main[\"now()V\"] = function() \x7b"), (2, "third();"),
          (1, "\x7d;"), (0, "\x7d"),
          (0, "else \x7b"), (1, "Main[\"now()V\"] = function() \x7b"), (2, "fifth();"),
          (1, "\x7d;"), (0, "\x7d")] ∧
      Establishes ⟨"Main"⟩ m (fun _ => true) (d.linesAt 0) (.function [(0, "fourth();")]) ∧
      Establishes ⟨"Main"⟩ m (· = "N.isWeb") (d.linesAt 0) (.function [(0, "third();")]) ∧
      Establishes ⟨"Main"⟩ m (fun _ => false) (d.linesAt 0) (.function [(0, "fifth();")])) ∧
    ∃ d, (lowerMethod job ⟨"Main"⟩ (nativeMethod [])).run .initial = (.ok d, .initial) ∧
      d.linesAt 0 =
        [(0, "Main[\"now()V\"] = function() \x7b N.methodWithoutBody('Main[\"now()V\"]') \x7d;")] := by
  intro job m
  obtain ⟨-, -, -, hnatives⟩ := methodBody_selected job ⟨"Main"⟩ m .initial
  obtain ⟨-, -, hnone, -⟩ := methodBody_selected job ⟨"Main"⟩ (nativeMethod []) .initial
  have htext : lastText? (m.nativesFor "js") "" = some "fifth();" := by decide +kernel
  obtain ⟨d, t, hrun, hlines, -, hvalue⟩ := hnatives (by decide +kernel) (.line "fifth();")
    (fun guard => (lastText? (m.nativesFor "js") guard).getD "") (.native htext rfl)
    (fun guard _ text hguard => by rw [hguard]; rfl)
  obtain ⟨e, htrap, hline⟩ := (hnone rfl).2 rfl
  refine ⟨⟨d, t, hrun, hlines.trans (by decide +kernel), (hvalue _ _).2 (by decide +kernel),
    (hvalue _ _).2 (by decide +kernel), (hvalue _ _).2 (by decide +kernel)⟩, e, htrap,
    hline.trans (by decide +kernel)⟩

end Examples

end ClassScript.Emission
