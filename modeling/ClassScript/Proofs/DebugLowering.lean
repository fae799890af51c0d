import ClassScript.Proofs.AlikeClasses
import ClassScript.Proofs.DocLines

/-!
Lowering with and without positions. A statement that marks a position is all
that debug mode changes in a body, and a mark is no line, so the two documents
have the same lines at every level.
-/

namespace ClassScript.Emission

open Output

section Bodies

variable {S : State → State → Prop} {R : Doc → Doc → Prop} {job job' : Job}

theorem Alike.sameBodies (h : Alike S job job') (hR : Congruence R) (hform : SameForm R job job') :
    Alike.Bodies S R job job' := by
  intro owner m body _
  simp only [lowerBody, h.program]
  apply (h.nodes.sameStmt hR hform
    { caller := ⟨owner, m.name, m.type⟩, returnsThis := m.returnsThis } body.stmt none 0).bind
  intro p q hpq
  exact .pure (hR.seq (hR.refl _) hpq.1)

end Bodies

/-- The job with debug mode on or off, and with a name for its artifact. -/
def Job.debugging (job : Job) (debug : Bool) (name : String) : Job :=
  { job with config := { job.config with debug, outputName := name } }

/-- Documents with the same lines, whatever marks stand between them. -/
def SameLines (d e : Doc) : Prop :=
  ∀ level, d.linesAt level = e.linesAt level

theorem SameLines.congruence : Congruence SameLines where
  refl _ _ := rfl
  seq h h' level := by rw [Doc.linesAt_append, Doc.linesAt_append, h level, h' level]
  block h level := by rw [Doc.linesAt_block, Doc.linesAt_block, h (level + 1)]
  indented h level := by rw [Doc.linesAt_indented, Doc.linesAt_indented, h (level + 1)]
  splice h level := by
    have hlevel := h level
    rw [Doc.linesAt_eq, Doc.linesAt_eq] at hlevel
    rw [Doc.linesAt_eq, Doc.linesAt_eq]
    exact hlevel

section Modes

variable (job : Job) (debug debug' : Bool) (name name' : String)

theorem alike_debugging : Alike Eq (job.debugging debug name) (job.debugging debug' name') :=
  Parallel.eq.alike rfl rfl rfl

theorem sameForm_debugging :
    SameForm SameLines (job.debugging debug name) (job.debugging debug' name') where
  native := rfl
  position m level := by
    cases debug <;> cases debug' <;> rfl

end Modes

end ClassScript.Emission
