import ClassScript.Proofs.AlikePrograms
import ClassScript.Proofs.SwitchLowering

/-!
Emission of a whole program with switch statements as such and as chains. The
sizes of classes differ, and only notes tell.
-/

namespace ClassScript.Emission

open Output

variable {job : Job}

/-- Steps that only write notes, none of them about stubs, agree from states that
such notes do not tell apart. -/
theorem agree_of_silent {S : State → State → Prop}
    (hafter : ∀ {s t u v}, S s t → SameSoFar s u → SameSoFar t v → S u v) {x y : Emit Unit}
    (hx : ∀ s, Yields (SameSoFar s) x ()) (hy : ∀ s, Yields (SameSoFar s) y ()) :
    Agree S Eq x y := by
  intro s t hs
  obtain ⟨u, hrun, hu⟩ := hx s s (.refl s)
  obtain ⟨v, hrun', hv⟩ := hy t t (.refl t)
  rw [hrun, hrun']
  exact .ok rfl (hafter hs hu hv)

theorem note_silent {level : Level} {message : String} {values : List (String × String)}
    (h : message ≠ stubMessage) (s : State) :
    Yields (SameSoFar s) (note level message values) () := by
  intro t ht
  refine ⟨_, run_modify _ t, ht.trans ⟨rfl, rfl, rfl, ?_⟩⟩
  simp [State.stubs, List.filter_append, h]

theorem noteSizes_silent (classes : List (Class × Doc)) (s : State) :
    Yields (SameSoFar s) (noteSizes classes) () := by
  simp only [noteSizes]
  generalize (classes.map fun p => (p.1.name.text, p.2.text.utf8ByteSize)).mergeSort _ = sizes
  have hmessage : "class size" ≠ stubMessage := by decide
  induction sizes with
  | nil => exact .pure _
  | cons size rest ih =>
      rw [List.forIn_cons]
      simp only [bind_assoc, pure_bind]
      exact (note_silent hmessage s).bind ih

/-- The two forms of a program have the same marks, or fail for the same
reason. -/
theorem lowerProgram_agree (hlists : job.program.ListsValues) :
    Agree SameSoFar (SameMarks false) (lowerProgram (job.switching true))
      (lowerProgram (job.switching false)) := by
  have hR := SameMarks.congruence
  have hparts := (alike_switching job true false).programParts hR (bodies_agree hlists) rfl
    (fun _ _ hs => hs.pool) fun ds es _ =>
      agree_of_silent .after (noteSizes_silent ds) (noteSizes_silent es)
  apply hparts.mono
  rintro d e ⟨pool, fragments, ds, es, start, hclasses, rfl, rfl⟩
  -- Only the classes depend on the form of switch statements.
  exact hR.seq (hR.seq (hR.seq (hR.refl _) (hR.classes hclasses)) (hR.refl _)) (hR.refl _)

/-- The marks that an emission records, in order. -/
def recordedMarks (job : Job) (s : State) : List Mark :=
  match (lowerProgram job).runFrom s with
  | (.ok doc, _) => (doc.write .empty).marks.map Prod.snd
  | (.error _, _) => []

theorem emitProgram_agree (hlists : job.program.ListsValues) :
    Agree SameSoFar (fun _ _ => True) (emitProgram (job.switching true))
      (emitProgram (job.switching false)) := by
  simp only [emitProgram]
  apply (lowerProgram_agree hlists).bind
  intro d e _
  apply Agree.get.bind
  intro s t hs
  rw [hs.pool]
  apply (SameSoFar.parallel.noted _ _ _).bindEq
  intro _
  by_cases hdebug : job.config.debug = true
  · have hmessage : "line map" ≠ stubMessage := by decide
    have hsilent : ∀ values s, Yields (SameSoFar s) (note .debug "line map" values) () :=
      fun _ s => note_silent hmessage s
    have hdebug : ∀ native, (job.switching native).config.debug = true := fun _ => hdebug
    rw [if_pos (hdebug true), if_pos (hdebug false)]
    exact (agree_of_silent .after (hsilent _) (hsilent _)).bindEq fun _ => .pure trivial
  · have hdebug : ∀ native, ¬ (job.switching native).config.debug = true := fun _ => hdebug
    rw [if_neg (hdebug true), if_neg (hdebug false)]
    exact .pure trivial

end ClassScript.Emission
