import ClassScript.Proofs.MethodOutcome

/-!
What a document assigns when it is run. Statements inside functions do not run
then, those in the branches of a condition do. Whatever becomes of a method, its
document assigns the method's slot: a function, the first of several functions
whose guard holds, or a trap.
-/

namespace ClassScript

namespace Output

/-- Whether a text starts with an assignment to the target. -/
def assignsTo (target text : String) : Bool :=
  (target ++ " = ").toList.isPrefixOf text.toList

/-- Whether a block with this head is a branch of a condition. -/
def isBranch (head : String) : Bool :=
  head = "else" || "if (".toList.isPrefixOf head.toList || "else if (".toList.isPrefixOf head.toList

/-- Whether the document assigns to the target itself, not only in the body of a
function. -/
def Doc.assigns (target : String) : Doc → Bool
  | .empty | .mark _ => false
  | .line text => assignsTo target text
  | .seq first second => first.assigns target || second.assigns target
  | .block head body _ => assignsTo target head || isBranch head && body.assigns target
  | .indented body | .splice body => body.assigns target

theorem assignsTo_iff {target text : String} :
    assignsTo target text = true ↔ (target ++ " = ").toList <+: text.toList := by
  rw [assignsTo, List.isPrefixOf_iff_prefix]

theorem assignsTo_self (target rest : String) : assignsTo target (target ++ " = " ++ rest) = true := by
  have hchars : (target ++ " = " ++ rest).toList = (target ++ " = ").toList ++ rest.toList :=
    String.toList_append
  rw [assignsTo_iff, hchars]
  exact List.prefix_append _ _

namespace Doc

@[simp]
theorem assigns_empty (target : String) : Doc.empty.assigns target = false := rfl

@[simp]
theorem assigns_line (target text : String) : (Doc.line text).assigns target = assignsTo target text := rfl

@[simp]
theorem assigns_append (target : String) (d e : Doc) :
    (d ++ e).assigns target = (d.assigns target || e.assigns target) := rfl

theorem assigns_block (target head after : String) (body : Doc) :
    (Doc.block head body after).assigns target =
      (assignsTo target head || isBranch head && body.assigns target) := rfl

theorem assigns_concat (target : String) (docs : List Doc) :
    (concat docs).assigns target = docs.any (·.assigns target) := by
  induction docs with
  | nil => rfl
  | cons d rest ih => rw [concat, assigns_append, ih, List.any_cons]

theorem assigns_lines (target : String) (texts : List String) :
    (lines texts).assigns target = texts.any (assignsTo target) := by
  rw [lines, assigns_concat, List.any_map]
  rfl

end Doc

end Output

namespace Emission

open Output

/-- The documents that bind a slot: to a function, to a trap, or to the first
function whose guard holds. -/
inductive Binds (m : Method) (slot : String) : Doc → Prop where
  | function (body : Doc) : Binds m slot (bindFunction m slot body)
  | trap : Binds m slot (bindStub slot)
  | chain (fallback : Doc) (guarded : List (String × Doc)) :
      Binds m slot (guardChain (bindFunction m slot) fallback guarded)

section Methods

variable {job : Job} {owner : ClassName} {m : Method} {slot : String} {s t : State} {d : Doc}

/-- Binding a slot comes to one of these. -/
theorem bindMethod_binds (h : (bindMethod job owner m slot).run s = (.ok d, t)) : Binds m slot d := by
  simp only [bindMethod] at h
  split at h
  · obtain ⟨found, u, -, h⟩ := exists_of_run_bind_ok h
    cases found with
    | some body =>
        obtain ⟨rfl, -⟩ := eq_of_run_pure h
        exact .function body
    | none =>
        obtain ⟨rfl, -⟩ := eq_of_run_pure h
        exact .trap
  · split at h
    · obtain ⟨fallback, u, -, h⟩ := exists_of_run_bind_ok h
      rcases guarded_run h with ⟨-, rfl | ⟨guarded, -, rfl⟩⟩
      · exact .function fallback
      · exact .chain fallback guarded
    · obtain ⟨fallback, u, -, h⟩ := exists_of_run_bind_ok h
      rcases guarded_run h with ⟨-, rfl | ⟨guarded, -, rfl⟩⟩
      · exact .function fallback
      · exact .chain fallback guarded

/-- A method's document binds its slot, or is the stub that does. -/
theorem lowerMethod_binds (h : (lowerMethod job owner m).run s = (.ok d, t)) :
    Binds m (methodSlot owner m) d ∨ ∃ error, d = stubDoc owner m error := by
  rcases lowerMethod_ends h with ⟨hbind, -⟩ | ⟨error, hdoc, -⟩
  · exact .inl (bindMethod_binds hbind)
  · exact .inr ⟨error, hdoc⟩

theorem assignsTo_function (target rest : String) :
    assignsTo target (target ++ " = function" ++ rest) = true := by
  have htext : target ++ " = function" ++ rest = target ++ " = " ++ ("function" ++ rest) := by
    rw [String.append_assoc, String.append_assoc]
    rfl
  rw [htext, assignsTo_self]

theorem bindStub_eq (slot : String) :
    bindStub slot = .line (slot ++ " = function" ++
      ("() \x7b N.methodWithoutBody('" ++ slot ++ "') \x7d;")) := by
  simp only [bindStub, String.append_assoc]
  rfl

theorem assigns_bindStub (slot : String) : (bindStub slot).assigns slot = true := by
  rw [bindStub_eq, Doc.assigns_line, assignsTo_function]

theorem assigns_bindFunction (m : Method) (slot : String) (body : Doc) :
    (bindFunction m slot body).assigns slot = true := by
  rw [bindFunction, Doc.assigns_block, assignsTo_function, Bool.true_or]

theorem Binds.assigns (h : Binds m slot d) : d.assigns slot = true := by
  cases h with
  | function body => exact assigns_bindFunction m slot body
  | trap => exact assigns_bindStub slot
  | chain fallback guarded =>
      have hlast : (Doc.block "else" (bindFunction m slot fallback) "").assigns slot = true := by
        rw [Doc.assigns_block, assigns_bindFunction]
        simp [isBranch]
      rw [guardChain, Doc.assigns_append, hlast, Bool.or_true]

/-- The document of a method assigns the method's slot. -/
theorem lowerMethod_assigns (h : (lowerMethod job owner m).run s = (.ok d, t)) :
    d.assigns (methodSlot owner m) = true := by
  rcases lowerMethod_binds h with hbinds | ⟨error, rfl⟩
  · exact hbinds.assigns
  · rw [stubDoc_eq, Doc.assigns_append, assigns_bindStub, Bool.or_true]

end Methods

end Emission

end ClassScript
