import ClassScript.Proofs.DebugLowering
import ClassScript.Proofs.ProgramRun

/-!
Debug mode adds a first line and a line map to an emission, and changes nothing
else of it. Without debug mode the name of the artifact is not asked for.
-/

namespace ClassScript.Emission

open Output

/-- What debug mode adds to a result for an artifact of that name. -/
structure DebugOf (name : String) (debug plain : Result) : Prop where
  source : debug.source = "//# sourceMappingURL=" ++ name ++ ".map\n" ++ plain.source
  entryPoint : debug.entryPoint = plain.entryPoint
  sourceMap : debug.sourceMap.isSome = true
  noSourceMap : plain.sourceMap = none

section Modes

variable (job : Job)

theorem text_headerDoc (name : String) :
    (job.debugging true name).headerDoc.text = "//# sourceMappingURL=" ++ name ++ ".map\n" := by
  rw [Job.headerDoc_text]
  change "//# sourceMappingURL=" ++ (name ++ ".map") ++ "\n" = _
  simp only [String.append_assoc]
  rfl

/-- Classes with the same lines have the same sizes. -/
theorem noteSizes_agree {ds es : List (Class × Doc)} (h : SameClasses SameLines ds es) :
    Agree Eq Eq (noteSizes ds) (noteSizes es) := by
  have hsizes : ds.map (fun p => (p.1.name.text, p.2.text.utf8ByteSize)) =
      es.map fun p => (p.1.name.text, p.2.text.utf8ByteSize) := by
    rw [← List.forall₂_eq_eq_eq, List.forall₂_map_left_iff, List.forall₂_map_right_iff]
    exact h.imp fun _ _ hde => by rw [hde.1, Doc.text_eq_of_lines (hde.2 0)]
  simp only [noteSizes, hsizes]
  exact .refl _

variable (debug debug' : Bool) (name name' : String)

/-- The text of a program is the same in both modes behind the first line. -/
theorem lowerProgram_debugging :
    Agree Eq (fun d e => ∃ text, d.text = (job.debugging debug name).headerDoc.text ++ text ∧
        e.text = (job.debugging debug' name').headerDoc.text ++ text)
      (lowerProgram (job.debugging debug name)) (lowerProgram (job.debugging debug' name')) := by
  have hR := SameLines.congruence
  have halike := alike_debugging job debug debug' name name'
  have hbodies := halike.sameBodies hR (sameForm_debugging job debug debug' name name')
  have hparts := halike.programParts hR hbodies rfl (fun s t hs => by rw [hs])
    fun ds es => noteSizes_agree
  apply hparts.mono
  rintro _ _ ⟨pool, fragments, ds, es, start, hclasses, rfl, rfl⟩
  have htext := Doc.text_eq_of_lines (hR.classes hclasses 0)
  simp only [programDoc, Doc.text_append, htext, String.append_assoc]
  exact ⟨_, rfl, rfl⟩

end Modes

/-- An emission fails in debug mode just as it does otherwise, and what it
returns has a first line and a line map in addition. What it returns without
debug mode is the same under every name. -/
theorem emitProgram_debugging (job : Job) (s : State) (name name' : String) :
    Matching SameSoFar (DebugOf name) ((emitProgram (job.debugging true name)).runFrom s)
        ((emitProgram (job.debugging false name')).runFrom s) ∧
      Matching SameSoFar Eq ((emitProgram (job.debugging false name)).runFrom s)
        ((emitProgram (job.debugging false name')).runFrom s) := by
  constructor
  · refine (lowerProgram_debugging job true false name name').emitProgram (fun d e hde => ?_) s
    obtain ⟨text, hd, he⟩ := hde
    refine ⟨?_, rfl, rfl, rfl⟩
    calc (resultOf (job.debugging true name) d).source
        = (job.debugging true name).headerDoc.text ++ text := hd
      _ = "//# sourceMappingURL=" ++ name ++ ".map\n" ++ text := by rw [text_headerDoc]
      _ = "//# sourceMappingURL=" ++ name ++ ".map\n" ++ e.text := by
        rw [he]
        exact congrArg _ String.empty_append.symm
  · refine (lowerProgram_debugging job false false name name').emitProgram (fun d e hde => ?_) s
    obtain ⟨text, hd, he⟩ := hde
    have hsource : d.text = e.text := hd.trans he.symm
    rw [resultOf, resultOf, hsource]
    rfl

end ClassScript.Emission
