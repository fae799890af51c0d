import ClassScript.Proofs.EmittedMethods
import ClassScript.Proofs.LoweredParts
import ClassScript.Proofs.MarkPlacement

/-!
The output of a program as a row of stretches: functions for the generated bodies
that have been lowered, and between them lines that no mark belongs to. Which
methods have a function follows from how the emission of each of them ended.
-/

namespace ClassScript.Emission

open Output

/-- How the emission of a method ended: with a slot that is bound as it should
be, or with a stub because of an error. -/
structure Outcome where
  owner : ClassName
  method : Method
  error? : Option EmitError

namespace Outcome

/-- The note that the method has left, if a stub took its place. -/
def stub? (o : Outcome) : Option Event :=
  o.error?.map (stubEvent o.owner o.method)

/-- The generated body that has been lowered for the method. -/
def lowered? (job : Job) (o : Outcome) : Option (ClassName × Method × Body) :=
  match o.error? with
  | some _ => none
  | none => (selectedBody? job o.method).map fun body => (o.owner, o.method, body)

end Outcome

/-- A part of the output: lines without marks, or the function at a level whose
body's document is given. -/
inductive Stretch where
  | plain (lines : List (Nat × String))
  | function (owner : ClassName) (method : Method) (body : Body) (level : Nat) (doc : Doc)

namespace Stretch

/-- The lines with which a function begins. -/
def opening : Stretch → List Entry
  | .plain _ => []
  | .function owner m _ level _ => textEntries level (functionHead owner m ++ " \x7b")

/-- What follows on these: the body, and the brace that closes it. -/
def inside : Stretch → List Entry
  | .plain lines => lines.map fun line => .text line.1 line.2
  | .function _ m _ level doc =>
      (doc ++ if m.returnsThis then .line "return this;" else .empty).entriesAt (level + 1) ++
        [.text level "\x7d;"]

def entries (stretch : Stretch) : List Entry :=
  stretch.opening ++ stretch.inside

/-- The body that the stretch is the function for. -/
def body? : Stretch → Option (ClassName × Method × Body)
  | .plain _ => none
  | .function owner m body _ _ => some (owner, m, body)

/-- A function's document is what lowering its body gives: its declarations, the static
initialisers that it forces, and what its statement is lowered to, with a mark for each
position that is lowered in it. -/
def Lowered (job : Job) : Stretch → Prop
  | .plain _ => True
  | .function owner m body _ doc =>
      ∃ s t text n, (lowerBody job owner m body).run s = (.ok doc, t) ∧
        LowersStmt job ⟨⟨owner, m.name, m.type⟩, m.returnsThis⟩ none body.stmt (0, s) text (n, t) ∧
        (∀ level, doc.entriesAt level = (declarationTexts body ++
          initializerTexts (staticInitTargets job.program owner body)).flatMap (textEntries level) ++
            text.entriesAt level) ∧
        doc.marks = job.marksIn (body.stmt.lowered job.config.nativeSwitch)

theorem entries_function (owner : ClassName) (m : Method) (body : Body) (level : Nat) (doc : Doc) :
    (Stretch.function owner m body level doc).entries =
      (bindFunction m (methodSlot owner m) doc).entriesAt level := by
  have hclosing : textEntries level ("\x7d" ++ ";") = [.text level "\x7d;"] := rfl
  rw [entries, opening, inside, bindFunction, Doc.entriesAt, hclosing, List.append_assoc,
    functionHead_eq]

end Stretch

/-- Entries of the output that come from the emission of these methods, laid out
as stretches; the states are those before and after. -/
structure Layout (job : Job) (s t : State) (methods : List (ClassName × Method))
    (entries : List Entry) (outcomes : List Outcome) (stretches : List Stretch) : Prop where
  methods : outcomes.map (fun o => (o.owner, o.method)) = methods
  stubs : t.stubs = s.stubs ++ outcomes.filterMap Outcome.stub?
  functions : stretches.filterMap Stretch.body? = outcomes.filterMap (Outcome.lowered? job)
  lowered : ∀ stretch ∈ stretches, stretch.Lowered job
  entries : entries = stretches.flatMap Stretch.entries

/-- There is such a layout. -/
abbrev LaidOut (job : Job) (s t : State) (methods : List (ClassName × Method)) (entries : List Entry) :
    Prop :=
  ∃ outcomes stretches, Layout job s t methods entries outcomes stretches

theorem eq_plain_of_no_marks {entries : List Entry} (h : entries.filterMap Entry.mark? = []) :
    entries = (Stretch.plain (entries.filterMap Entry.line?)).entries := by
  induction entries with
  | nil => rfl
  | cons entry rest ih =>
      cases entry with
      | text indent line => exact congrArg (Entry.text indent line :: ·) (ih h)
      | mark m => cases h

namespace LaidOut

variable {job : Job} {s t u : State} {entries others : List Entry}
  {methods methods' : List (ClassName × Method)}

theorem append (h : LaidOut job s t methods entries) (h' : LaidOut job t u methods' others) :
    LaidOut job s u (methods ++ methods') (entries ++ others) := by
  obtain ⟨outcomes, stretches, hfirst⟩ := h
  obtain ⟨outcomes', stretches', hsecond⟩ := h'
  refine ⟨outcomes ++ outcomes', stretches ++ stretches', ?_, ?_, ?_, ?_, ?_⟩
  · rw [List.map_append, hfirst.methods, hsecond.methods]
  · rw [hsecond.stubs, hfirst.stubs, List.filterMap_append, List.append_assoc]
  · rw [List.filterMap_append, List.filterMap_append, hfirst.functions, hsecond.functions]
  · exact List.forall_mem_append.2 ⟨hfirst.lowered, hsecond.lowered⟩
  · rw [List.flatMap_append, ← hfirst.entries, ← hsecond.entries]

theorem lowered_plain (lines : List (Nat × String)) :
    ∀ stretch ∈ [Stretch.plain lines], stretch.Lowered job := by
  intro stretch hstretch
  rw [List.mem_singleton.1 hstretch]
  trivial

/-- Text that no method is emitted for. -/
theorem plain (hmarks : entries.filterMap Entry.mark? = []) (hstubs : t.stubs = s.stubs) :
    LaidOut job s t [] entries := by
  refine ⟨[], [.plain (entries.filterMap Entry.line?)], rfl, ?_, rfl, lowered_plain _, ?_⟩
  · rw [hstubs, List.filterMap_nil, List.append_nil]
  · rw [List.flatMap_singleton]
    exact eq_plain_of_no_marks hmarks

/-- The text of a method without a function for a body. -/
theorem withoutBody {d : Doc} (o : Outcome) (hlowered : o.lowered? job = none) (hmarks : d.marks = [])
    (hstubs : t.stubs = s.stubs ++ o.stub?.toList) (level : Nat) :
    LaidOut job s t [(o.owner, o.method)] (d.entriesAt level) := by
  refine ⟨[o], [.plain ((d.entriesAt level).filterMap Entry.line?)], rfl, ?_, ?_, lowered_plain _, ?_⟩
  · rw [hstubs, List.filterMap_cons, List.filterMap_nil]
    cases o.stub? <;> rfl
  · rw [List.filterMap_cons_none hlowered]
    rfl
  · rw [List.flatMap_singleton]
    exact eq_plain_of_no_marks (by rw [Doc.mark_entriesAt, hmarks])

/-- The same for a document without marks. -/
theorem plainDoc {d : Doc} (hmarks : d.marks = []) (hstubs : t.stubs = s.stubs) (level : Nat) :
    LaidOut job s t [] (d.entriesAt level) :=
  plain (by rw [Doc.mark_entriesAt, hmarks]) hstubs

end LaidOut

section Methods

variable {job : Job} {owner : ClassName} {m : Method} {s t : State} {d : Doc}

/-- The function for a body that has been lowered. -/
theorem laidOut_function {body : Body} {doc : Doc} {u : State} (hbody : selectedBody? job m = some body)
    (hrun : (lowerBody job owner m body).run s = (.ok doc, u)) (hstubs : t.stubs = s.stubs)
    (level : Nat) :
    LaidOut job s t [(owner, m)] ((bindFunction m (methodSlot owner m) doc).entriesAt level) := by
  refine ⟨[⟨owner, m, none⟩], [.function owner m body level doc], rfl, ?_, ?_, ?_, ?_⟩
  · rw [hstubs]
    exact (List.append_nil _).symm
  · simp [Stretch.body?, Outcome.lowered?, hbody]
  · intro stretch hstretch
    rw [List.mem_singleton.1 hstretch]
    have hmarks := (lowerBody_leaves job owner m body).2 s doc u hrun
    obtain ⟨text, n, hstmt, rfl⟩ := lowersStmt_of_lowerBody hrun
    exact ⟨s, u, text, n, hrun, hstmt, entriesAt_body body _ text, hmarks⟩
  · rw [List.flatMap_singleton, Stretch.entries_function]

/-- A slot that is bound has a function if a body was selected for it, behind
the guards that there are. -/
theorem laidOut_bound (h : Bound job owner m s t d) (hstubs : t.stubs = s.stubs) (level : Nat) :
    LaidOut job s t [(owner, m)] (d.entriesAt level) := by
  cases h with
  | alone hbody hrun hpool => exact laidOut_function hbody hrun hstubs level
  | @guarded body doc u natives hbody hrun hpool hnatives =>
      have hguards := marks_guards m (methodSlot owner m) hnatives
      have hfront : LaidOut job s s [] _ := .plainDoc hguards rfl level
      have helse : LaidOut job s s [] (textEntries level ("else" ++ " \x7b")) :=
        .plain (marks_textEntries _ _) rfl
      have hclose : LaidOut job t t [] (textEntries level ("\x7d" ++ "")) :=
        .plain (marks_textEntries _ _) rfl
      have hfunction := laidOut_function hbody hrun hstubs (level + 1)
      have hall := hfront.append ((helse.append hfunction).append hclose)
      exact hall
  | plain hbody hpool hmarks =>
      have hlowered : Outcome.lowered? job ⟨owner, m, none⟩ = none := by
        simp [Outcome.lowered?, hbody]
      have hsame : t.stubs = s.stubs ++ (Outcome.stub? ⟨owner, m, none⟩).toList := by
        rw [hstubs]
        exact (List.append_nil _).symm
      exact .withoutBody ⟨owner, m, none⟩ hlowered hmarks hsame level

/-- A method has a function in the output just if its body has been lowered. -/
theorem laidOut_method (h : (lowerMethod job owner m).run s = (.ok d, t)) (level : Nat) :
    LaidOut job s t [(owner, m)] (d.entriesAt level) := by
  rcases lowerMethod_run h with ⟨hbound, hstubs⟩ | ⟨error, rfl, hstubs⟩
  · exact laidOut_bound hbound hstubs level
  · exact .withoutBody ⟨owner, m, some error⟩ rfl rfl hstubs level

end Methods

section Programs

variable {job : Job} {s t : State} {d : Doc}

/-- Only the functions of methods have marks. -/
theorem addsUp_laidOut (job : Job) (level : Nat) :
    AddsUp job fun s t methods d => LaidOut job s t methods (d.entriesAt level) where
  append h h' := h.append h'
  splice h := h
  plain hmarks hstubs := .plainDoc hmarks hstubs level
  method h := laidOut_method h level

theorem laidOut_orCopy {c : Class} (h : (lowerOrCopy job c).run s = (.ok d, t)) (level : Nat) :
    LaidOut job s t (if c.verbatim.isNone then emittedMethods c else []) (d.entriesAt level) :=
  (addsUp_laidOut job level).ofCopy h

theorem laidOut_program (h : (lowerProgram job).run s = (.ok d, t)) :
    LaidOut job s t job.emittedMethods (d.entriesAt 0) :=
  (addsUp_laidOut job 0).ofProgram h

end Programs

end ClassScript.Emission
