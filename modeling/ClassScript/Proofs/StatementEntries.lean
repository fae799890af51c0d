import ClassScript.Proofs.StatementPlaces

/-!
The entries of a statement among those of the body around it. They stand there in one piece,
and where a position comes before a statement in a block, its mark comes right before them.
-/

namespace ClassScript

namespace Emission

open Output

variable {job : Job} {ctx : Context}

mutual

/-- Blocks of nothing write nothing. -/
theorem LowersStmt.entriesAt_of_isEmpty : ∀ {chain : Option Nat} {s : Stmt} {p q : Nat × State}
    {d : Doc}, LowersStmt job ctx chain s p d q → s.isEmpty = true → ∀ level, d.entriesAt level = []
  | _, _, _, _, _, .nop _ _, _, _ => rfl
  | _, _, _, _, _, .block hbody, hempty, level => by
      rw [Stmt.isEmpty] at hempty
      exact hbody.entriesAt_of_allEmpty hempty level
  | _, _, _, _, _, .line hline _, hempty, _ => by
      rw [isEmpty_of_lineText? hline] at hempty
      cases hempty
  | _, _, _, _, _, .position _ _ _ _, hempty, _ | _, _, _, _, _, .when _ _, hempty, _
  | _, _, _, _, _, .choose _ _ _, hempty, _ | _, _, _, _, _, .loop _ _, hempty, _
  | _, _, _, _, _, .switch _ _ _ _, hempty, _ | _, _, _, _, _, .chain _ _ _ _, hempty, _
  | _, _, _, _, _, .tryCatch _ _, hempty, _ => by simp [Stmt.isEmpty] at hempty

theorem LowersStmts.entriesAt_of_allEmpty : ∀ {chain : Option Nat} {body : List Stmt}
    {p q : Nat × State} {d : Doc}, LowersStmts job ctx chain body p d q →
      Stmt.allEmpty body = true → ∀ level, d.entriesAt level = []
  | _, _, _, _, _, .nil _ _, _, _ => rfl
  | _, _, _, _, _, .cons hfirst hrest, hempty, level => by
      rw [Stmt.allEmpty, Bool.and_eq_true] at hempty
      rw [Doc.entriesAt_append, hfirst.entriesAt_of_isEmpty hempty.1,
        hrest.entriesAt_of_allEmpty hempty.2, List.append_nil]

end

/-- Somewhere in the document the statement is lowered: whatever the level, the entries of its
own document stand there together, at that level or deeper. -/
def LoweredIn (job : Job) (ctx : Context) (part : Stmt) (d : Doc) : Prop :=
  ∃ chain p e q, LowersStmt job ctx chain part p e q ∧
    ∀ level, ∃ deeper, e.entriesAt deeper <:+: d.entriesAt level

namespace LoweredIn

variable {part : Stmt} {d e : Doc}

theorem self {chain : Option Nat} {p q : Nat × State} (h : LowersStmt job ctx chain part p d q) :
    LoweredIn job ctx part d :=
  ⟨chain, p, d, q, h, fun level => ⟨level, List.infix_rfl⟩⟩

theorem within (h : LoweredIn job ctx part d)
    (hd : ∀ level, ∃ deeper, d.entriesAt deeper <:+: e.entriesAt level) : LoweredIn job ctx part e := by
  obtain ⟨chain, p, f, q, hpart, hentries⟩ := h
  refine ⟨chain, p, f, q, hpart, fun level => ?_⟩
  obtain ⟨deeper, houter⟩ := hd level
  obtain ⟨deepest, hinner⟩ := hentries deeper
  exact ⟨deepest, hinner.trans houter⟩

theorem first (h : LoweredIn job ctx part d) (e : Doc) : LoweredIn job ctx part (d ++ e) :=
  h.within fun level => ⟨level, (List.prefix_append _ _).isInfix⟩

theorem second (h : LoweredIn job ctx part e) (d : Doc) : LoweredIn job ctx part (d ++ e) :=
  h.within fun level => ⟨level, (List.suffix_append _ _).isInfix⟩

theorem block (h : LoweredIn job ctx part d) (head after : String) :
    LoweredIn job ctx part (.block head d after) :=
  h.within fun level => ⟨level + 1, List.infix_append _ _ _⟩

theorem indented (h : LoweredIn job ctx part d) : LoweredIn job ctx part (.indented d) :=
  h.within fun level => ⟨level + 1, List.infix_rfl⟩

/-- What writes nothing stands in any document. -/
theorem anywhere (h : LoweredIn job ctx part d) (hd : ∀ level, d.entriesAt level = []) (e : Doc) :
    LoweredIn job ctx part e :=
  h.within fun level => ⟨level, hd level ▸ List.nil_infix⟩

end LoweredIn

variable {native : Bool}

mutual

/-- All that is lowered of a statement is lowered in its document. -/
theorem LowersStmt.loweredIn (hjob : job.config.nativeSwitch = native) {chain : Option Nat}
    {s part : Stmt} {p q : Nat × State} {d : Doc} (h : LowersStmt job ctx chain s p d q)
    (hpart : part ∈ s.lowered native) : LoweredIn job ctx part d := by
  rcases eq_or_ne part s with rfl | hne
  · exact .self h
  cases h with
  | position | nop =>
      simp only [Stmt.lowered, List.mem_singleton] at hpart
      exact absurd hpart hne
  | line hline =>
      rw [lowered_of_lineText? hline, List.mem_singleton] at hpart
      exact absurd hpart hne
  | block hbody =>
      simp only [Stmt.lowered, List.mem_cons, hne, false_or] at hpart
      exact hbody.loweredIn hjob hpart
  | when _ hyes =>
      simp only [Stmt.lowered, List.mem_cons, hne, false_or] at hpart
      exact (hyes.loweredIn hjob hpart).block _ _
  | choose _ hyes hno =>
      simp only [Stmt.lowered, List.mem_cons, hne, false_or, List.mem_append] at hpart
      rcases hpart with hpart | hpart
      · exact ((hyes.loweredIn hjob hpart).block _ _).first _
      · exact ((hno.loweredIn hjob hpart).block _ _).second _
  | loop _ hbody =>
      simp only [Stmt.lowered, List.mem_cons, hne, false_or] at hpart
      exact (hbody.loweredIn hjob hpart).block _ _
  | switch hnative _ hcases hotherwise =>
      simp only [Stmt.lowered, List.mem_cons, hne, false_or, List.mem_append] at hpart
      rcases hpart with hpart | hpart
      · exact (((hcases.loweredIn hjob (hjob.symm.trans hnative) hpart).first _).first _).block _ _
      · exact (((hotherwise.loweredIn hjob hpart).first _).indented.second _).block _ _
  | chain hchains _ hcases hotherwise =>
      simp only [Stmt.lowered, List.mem_cons, hne, false_or, List.mem_append] at hpart
      refine LoweredIn.block ?_ _ _
      rcases hpart with hpart | hpart
      · exact ((hcases.loweredIn hjob (hjob.symm.trans hchains) hpart).second _).first _
      · refine LoweredIn.second ?_ _
        have hlast := hotherwise.loweredIn hjob hpart
        split
        · exact hlast
        · split
          · next hempty => exact hlast.anywhere (hotherwise.entriesAt_of_isEmpty hempty) _
          · exact hlast.block _ _
  | tryCatch hbody hhandler =>
      simp only [Stmt.lowered, List.mem_cons, hne, false_or, List.mem_append] at hpart
      rcases hpart with hpart | hpart
      · exact ((hbody.loweredIn hjob hpart).block _ _).first _
      · exact (((hhandler.loweredIn hjob hpart).second _).block _ _).second _

theorem LowersStmts.loweredIn (hjob : job.config.nativeSwitch = native) {chain : Option Nat}
    {body : List Stmt} {part : Stmt} {p q : Nat × State} {d : Doc}
    (h : LowersStmts job ctx chain body p d q) (hpart : part ∈ loweredInAll native body) :
    LoweredIn job ctx part d := by
  cases h with
  | nil => cases hpart
  | cons hfirst hrest =>
      rw [loweredInAll, List.mem_append] at hpart
      rcases hpart with hpart | hpart
      · exact (hfirst.loweredIn hjob hpart).first _
      · exact (hrest.loweredIn hjob hpart).second _

theorem LowersArms.loweredIn (hjob : job.config.nativeSwitch = native) (hnative : native = true)
    {cases : List SwitchCase} {part : Stmt} {p q : Nat × State} {d : Doc}
    (h : LowersArms job ctx cases p d q) (hpart : part ∈ loweredInCases native cases) :
    LoweredIn job ctx part d := by
  cases h with
  | nil => cases hpart
  | cons hbody hrest =>
      simp only [loweredInCases, hnative, Bool.true_or, reduceIte, List.mem_append] at hpart
      rw [← hnative] at hpart
      rcases hpart with hpart | hpart
      · exact (((hbody.loweredIn hjob hpart).first _).indented.second _).first _
      · exact (hrest.loweredIn hjob hnative hpart).second _

theorem LowersLinks.loweredIn (hjob : job.config.nativeSwitch = native) (hchains : native = false)
    {n : Nat} {first : Bool} {cases : List SwitchCase} {part : Stmt} {p q : Nat × State} {d : Doc}
    (h : LowersLinks job ctx n first cases p d q) (hpart : part ∈ loweredInCases native cases) :
    LoweredIn job ctx part d := by
  cases h with
  | nil => cases hpart
  | skip hrest =>
      simp only [loweredInCases, hchains, List.isEmpty_nil, Bool.not_true, Bool.or_self, reduceIte,
        Bool.false_eq_true, List.nil_append] at hpart
      rw [← hchains] at hpart
      exact hrest.loweredIn hjob hchains hpart
  | cons hvalues hbody hrest =>
      have hsome := List.isEmpty_eq_false_iff.2 hvalues
      simp only [loweredInCases, hchains, hsome, Bool.not_false, Bool.or_true, reduceIte,
        List.mem_append] at hpart
      rw [← hchains] at hpart
      rcases hpart with hpart | hpart
      · exact ((hbody.loweredIn hjob hpart).block _ _).first _
      · exact (hrest.loweredIn hjob hchains hpart).second _

end

/-- Behind the mark of a position come the entries of the next statement. -/
theorem LowersStmts.behind_position (hdebug : job.config.debug = true) {chain : Option Nat}
    {front rest : List Stmt} {file : String} {line : UInt32} {next : Stmt} {p q : Nat × State} {d : Doc}
    (h : LowersStmts job ctx chain (front ++ .position file line :: next :: rest) p d q) :
    ∃ p' e q', LowersStmt job ctx chain next p' e q' ∧
      ∀ level, (.mark ⟨file, line⟩ :: e.entriesAt level) <:+: d.entriesAt level := by
  induction front generalizing p d with
  | nil =>
      obtain _ | ⟨hposition, hrest⟩ := h
      obtain _ | ⟨hnext, hothers⟩ := hrest
      cases hposition with
      | position =>
          rw [if_pos hdebug]
          exact ⟨_, _, _, hnext, fun level => (List.prefix_append (Entry.mark ⟨file, line⟩ :: _) _).isInfix⟩
      | line hline => cases hline
  | cons s front ih =>
      obtain _ | ⟨_, hrest⟩ := h
      obtain ⟨p', e, q', hnext, hentries⟩ := ih hrest
      exact ⟨p', e, q', hnext, fun level => (hentries level).trans (List.suffix_append _ _).isInfix⟩

/-- The same in any block of a statement. -/
theorem LowersStmt.behind_position (hdebug : job.config.debug = true) {chain : Option Nat}
    {s : Stmt} {p q : Nat × State} {d : Doc} (h : LowersStmt job ctx chain s p d q)
    {front rest : List Stmt} {file : String} {line : UInt32} {next : Stmt}
    (hblock : .block (front ++ .position file line :: next :: rest) ∈
      s.lowered job.config.nativeSwitch) :
    ∃ chain p e q, LowersStmt job ctx chain next p e q ∧
      ∀ level, ∃ deeper, (.mark ⟨file, line⟩ :: e.entriesAt deeper) <:+: d.entriesAt level := by
  obtain ⟨chain, p, f, q, hpart, hentries⟩ := h.loweredIn rfl hblock
  cases hpart with
  | block hbody =>
      obtain ⟨p', e, q', hnext, hbehind⟩ := hbody.behind_position hdebug
      refine ⟨chain, p', e, q', hnext, fun level => ?_⟩
      obtain ⟨deeper, hinfix⟩ := hentries level
      exact ⟨deeper, (hbehind deeper).trans hinfix⟩
  | line hline => cases hline

end Emission

end ClassScript
