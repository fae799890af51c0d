import ClassScript.Proofs.LeafText
import ClassScript.Proofs.PoolHistory
import ClassScript.Proofs.StatementPlaces
import ClassScript.Proofs.SwitchForms

/-!
Where exits without a label lead. A switch statement that is written as a chain has a
label of its own, numbered in the order in which such statements are lowered, and a
`break` right inside it names that label. All other ones are plain, and so is every
`continue`.
-/

namespace ClassScript.Emission

open Output Reading

/-- The chain that a plain exit leaves. -/
def leftChain (native : Bool) : Option Construct → Option Nat
  | some (.switch n) => if native then none else some n
  | _ => none

/-- The line of a plain exit: where it leaves a chain, with its label. -/
def exitLine (native : Bool) : Option Construct → String
  | some (.switch n) =>
      if native then "break;" else "break J__switch" ++ Text.natural n ++ "__;"
  | _ => "break;"

/-- The heads of the links of a chain, one for each list of values. -/
def linkHeads (n : Nat) : Bool → List (List Int32) → List String
  | _, [] => []
  | first, values :: rest =>
      ((if first then "if" else "else if") ++ " (" ++ " || ".intercalate (values.map fun v =>
        "J__switchv" ++ Text.natural n ++ "__" ++ " == " ++ Text.integer v.toInt) ++ ")") ::
        linkHeads n false rest

/-- The lines that a statement at a place has to have where it stands at a level: an exit is
one line, and a chain opens with its label, keeps its subject in a variable of its own, and
compares that variable in the links of the arms that list values. -/
structure WrittenAs (native : Bool) (p : Place) (level : Nat) (lines : Lines) : Prop where
  leave : p.stmt = .leave none → lines = [(level, exitLine native p.around)]
  again : p.stmt = .again none → lines = [(level, "continue;")]
  chain : ∀ subject cases otherwise, p.stmt = .switch subject cases otherwise → native = false →
    ∃ text links behind, lines = (level, "J__switch" ++ Text.natural p.number ++ "__: \x7b") ::
        Doc.textLines (level + 1) ("var J__switchv" ++ Text.natural p.number ++ "__ = " ++ text ++ ";") ++
        linkLines (level + 1) links ++ behind ++ [(level, "\x7d")] ∧
      links.map Part.head =
        linkHeads p.number true ((cases.map SwitchCase.values).filter (!·.isEmpty))

/-- The document has these lines at every level. -/
def WrittenDoc (native : Bool) (p : Place) (d : Doc) : Prop :=
  ∀ level, WrittenAs native p level (d.linesAt level)

section Statements

variable {job : Job} {ctx : Context} {native : Bool}

theorem ComesFrom.map_values {chain : Option Nat} {cases : List SwitchCase} {arms : Arms}
    (h : ComesFrom job ctx chain cases arms) : arms.map Prod.fst = cases.map SwitchCase.values := by
  induction h with
  | nil => rfl
  | cons hfirst _ ih => rw [List.map_cons, List.map_cons, hfirst.1, ih]

theorem heads_chainLinks (n : Nat) (first : Bool) (arms : Arms) (f : Doc → Lines) :
    (chainLinks (switchSubject n) [] first (arms.lines f)).map Part.head =
      linkHeads n first (arms.map Prod.fst) := by
  induction arms generalizing first with
  | nil => rfl
  | cons arm rest ih => exact congrArg (_ :: ·) (ih false)

/-- The lines of a chain. -/
theorem writtenDoc_chain {n : Nat} {around : Option Construct} {subject : Expr}
    {cases : List SwitchCase} {otherwise : Stmt} {p q : Nat × State} {links : Doc}
    (h : LowersLinks job ctx n true cases p links q) (text : String) (last : Doc) :
    WrittenDoc native ⟨.switch subject cases otherwise, around, n⟩
      (.block ("J__switch" ++ Text.natural n ++ "__" ++ ":")
        (.line ("var " ++ ("J__switchv" ++ Text.natural n ++ "__") ++ " = " ++ text ++ ";") ++ links ++
          last) "") := by
  intro level
  refine ⟨nofun, nofun, ?_⟩
  rintro subject cases otherwise ⟨⟩ -
  obtain ⟨arms, hfrom, rfl⟩ := h.exists_selected
  have hlinks := @linesAt_linksDoc (level + 1) _ (oneLine_switchSubject n) true arms []
  refine ⟨text, chainLinks (switchSubject n) [] true (arms.lines (Doc.linesAt (level + 2))), last.linesAt (level + 1), ?_, ?_⟩
  · rw [show linkLines (level + 1) [] = [] from rfl, List.append_nil] at hlinks
    have hvariable : "var " ++ ("J__switchv" ++ Text.natural n ++ "__") ++ " = " ++ text ++ ";" =
        "var J__switchv" ++ Text.natural n ++ "__ = " ++ text ++ ";" := by
      apply String.toList_injective
      simp
    have hlabel : "J__switch" ++ Text.natural n ++ "__" ++ ":" ++ " \x7b" =
        "J__switch" ++ Text.natural n ++ "__: \x7b" := by
      apply String.toList_injective
      simp
    have honeLine : '\n' ∉ ("J__switch" ++ Text.natural n ++ "__: \x7b").toList :=
      Text.oneLine_append (Text.oneLine_append (by decide) (Text.oneLine_natural n)) (by decide)
    rw [linesAt_closed, Doc.linesAt_append, Doc.linesAt_append, hlinks, hlabel, hvariable,
      Doc.textLines_single level honeLine]
    simp only [List.append_assoc, List.cons_append, List.nil_append]
    rfl
  · rw [heads_chainLinks, hfrom.map_values, List.filter_map]
    rfl

/-- Of a statement that is neither an exit nor a switch statement nothing is asked. -/
theorem writtenDoc_other {s : Stmt} {around : Option Construct} {n : Nat} (hleave : s ≠ .leave none)
    (hagain : s ≠ .again none) (hswitch : s.isSwitch = false) (d : Doc) :
    WrittenDoc native ⟨s, around, n⟩ d := fun _ =>
  { leave := fun h => absurd h hleave
    again := fun h => absurd h hagain
    chain := fun subject cases otherwise h => by
      obtain rfl : s = .switch subject cases otherwise := h
      cases hswitch }

/-- The statements take the count from one number to the other, and each of them is
written as its place asks. -/
structure WrittenInTurn (native : Bool) (n m : Nat) (stmts : List Stmt) (places : List Place)
    (texts : List Doc) : Prop where
  count : m = n + chainCount native stmts
  written : List.Forall₂ (WrittenDoc native) places texts

namespace WrittenInTurn

variable {n k m : Nat} {stmts others : List Stmt} {places places' : List Place}
  {texts texts' : List Doc}

theorem nil : WrittenInTurn native n n [] [] [] where
  count := by cases native <;> rfl
  written := .nil

theorem append (h : WrittenInTurn native n k stmts places texts)
    (h' : WrittenInTurn native k m others places' texts') :
    WrittenInTurn native n m (stmts ++ others) (places ++ places') (texts ++ texts') where
  count := by rw [h'.count, h.count, chainCount_append, Nat.add_assoc]
  written := List.rel_append h.written h'.written

/-- A statement in front, which is no switch statement. -/
theorem cons {s : Stmt} {around : Option Construct} {d : Doc} (hswitch : s.isSwitch = false)
    (hwritten : WrittenDoc native ⟨s, around, n⟩ d)
    (h : WrittenInTurn native n m stmts places texts) :
    WrittenInTurn native n m (s :: stmts) (⟨s, around, n⟩ :: places) (d :: texts) where
  count := by
    have hcount : chainCount native (s :: stmts) = chainCount native stmts := by
      cases native with
      | true => rfl
      | false => exact List.countP_cons_of_neg (p := Stmt.isSwitch) (by simp [hswitch])
    rw [hcount, h.count]
  written := .cons hwritten h.written

/-- A statement without parts. -/
theorem single {s : Stmt} {around : Option Construct} {d : Doc} (hswitch : s.isSwitch = false)
    (hwritten : WrittenDoc native ⟨s, around, n⟩ d) :
    WrittenInTurn native n n [s] [⟨s, around, n⟩] [d] :=
  cons hswitch hwritten nil

end WrittenInTurn

mutual

/-- Of blocks of nothing nothing is asked, whatever their texts. -/
theorem written_of_isEmpty : ∀ (s : Stmt) (around : Option Construct) (n : Nat) (d : Doc),
    s.isEmpty = true → List.Forall₂ (WrittenDoc native) (s.places native around n) (s.texts native d)
  | .nop, _, _, d, _ => by
      simp only [Stmt.places, Stmt.texts]
      exact .cons (writtenDoc_other (by nofun) (by nofun) rfl d) .nil
  | .block body, around, n, d, h => by
      simp only [Stmt.places, Stmt.texts]
      exact .cons (writtenDoc_other (by nofun) (by nofun) rfl d) (written_of_allEmpty body around n d h)
  | .position _ _, _, _, _, h | .eval _, _, _, _, h | .ret _, _, _, _, h | .setSlot _ _, _, _, _, h
  | .setInstanceField _ _ _, _, _, _, h | .setStaticField _ _, _, _, _, h
  | .setArray _ _ _, _, _, _, h | .fillArray _ _ _, _, _, _, h | .when _ _, _, _, _, h
  | .choose _ _ _, _, _, _, h | .loop _ _ _, _, _, _, h | .leave _, _, _, _, h
  | .again _, _, _, _, h | .switch _ _ _, _, _, _, h | .throw _, _, _, _, h
  | .tryCatch _ _, _, _, _, h | .rethrow, _, _, _, h => by simp [Stmt.isEmpty] at h

theorem written_of_allEmpty : ∀ (body : List Stmt) (around : Option Construct) (n : Nat) (d : Doc),
    Stmt.allEmpty body = true →
      List.Forall₂ (WrittenDoc native) (placesInAll native around n body) (textsInAll native body d)
  | [], _, _, _, _ => .nil
  | s :: rest, around, n, d, h => by
      rw [Stmt.allEmpty, Bool.and_eq_true] at h
      simp only [placesInAll, textsInAll]
      exact List.rel_append (written_of_isEmpty s around n d.first h.1)
        (written_of_allEmpty rest around _ d.second h.2)

end

/-- The default of a chain, which stands at its end, under an `else`, or not at all. -/
theorem written_last {otherwise : Stmt} {around : Option Construct} {n : Nat} {last : Doc}
    (h : List.Forall₂ (WrittenDoc native) (otherwise.places native around n)
      (otherwise.texts native last)) (alone : Bool) :
    List.Forall₂ (WrittenDoc native) (otherwise.places native around n) (otherwise.texts native
      (if alone then
        if alone then last else if otherwise.isEmpty then .empty else .block "else" last ""
      else
        (if alone then last
          else if otherwise.isEmpty then .empty else .block "else" last "").inside)) := by
  cases alone with
  | true => exact h
  | false =>
      cases hempty : otherwise.isEmpty with
      | true => exact written_of_isEmpty otherwise around n _ hempty
      | false => exact h

theorem leftChain_native (h : native = true) (n : Nat) :
    leftChain native (some (.switch n)) = none :=
  if_pos h

theorem leftChain_chain (h : native = false) (n : Nat) :
    leftChain native (some (.switch n)) = some n :=
  if_neg (Bool.not_eq_true _ ▸ h)

theorem writtenDoc_line {chain : Option Nat} {s : Stmt} {x : Emit String} {n : Nat} {u v : State}
    {text : String} (hline : lineText? job ctx chain s = some x) (hrun : x.run u = (.ok text, v))
    {around : Option Construct} (haround : leftChain native around = chain) :
    WrittenDoc native ⟨s, around, n⟩ (.line (text ++ ";")) := by
  cases lineForm_of_run hline hrun with
  | leave _ =>
      refine fun level => ⟨fun _ => ?_, nofun, nofun⟩
      have hplain : (Doc.line "break;").linesAt level = [(level, "break;")] :=
        Doc.textLines_single level (by decide)
      subst haround
      match around with
      | none | some .loop => exact hplain
      | some (.switch k) =>
          cases native with
          | true => exact hplain
          | false =>
              have hexit : "break " ++ ("J__switch" ++ Text.natural k ++ "__") ++ ";" =
                  "break J__switch" ++ Text.natural k ++ "__;" := by
                apply String.toList_injective
                simp
              refine (congrArg (fun line => (Doc.line line).linesAt level) hexit).trans 
                (Doc.textLines_single level ?_)
              exact Text.oneLine_append (Text.oneLine_append (by decide) (Text.oneLine_natural k))
                (by decide)
  | again _ => exact fun level => ⟨nofun, fun _ => Doc.textLines_single level (by decide), nofun⟩
  | _ => exact writtenDoc_other (by nofun) (by nofun) rfl _

mutual

/-- Lowering a statement writes all in it as their places ask. -/
theorem LowersStmt.written (hjob : job.config.nativeSwitch = native) : ∀ {chain : Option Nat}
    {s : Stmt} {p q : Nat × State} {d : Doc}, LowersStmt job ctx chain s p d q →
      ∀ around, leftChain native around = chain →
        WrittenInTurn native p.1 q.1 (s.lowered native) (s.places native around p.1) (s.texts native d)
  | _, _, _, _, _, .position _ _ _ _, around, _ | _, _, _, _, _, .nop _ _, around, _ => by
      simp only [Stmt.places, Stmt.texts, Stmt.lowered]
      exact .single rfl (writtenDoc_other (by nofun) (by nofun) rfl _)
  | _, _, _, _, _, .line hline hrun, around, haround => by
      rw [places_of_lineText? hline, texts_of_lineText? hline, lowered_of_lineText? hline]
      exact .single (isSwitch_of_lineText? hline) (writtenDoc_line hline hrun haround)
  | _, _, _, _, _, .block hbody, around, haround => by
      simp only [Stmt.places, Stmt.texts, Stmt.lowered]
      exact .cons rfl (writtenDoc_other (by nofun) (by nofun) rfl _) (hbody.written hjob around haround)
  | _, _, _, _, _, .when _ hyes, around, haround => by
      simp only [Stmt.places, Stmt.texts, Stmt.lowered]
      exact .cons rfl (writtenDoc_other (by nofun) (by nofun) rfl _) (hyes.written hjob around haround)
  | _, _, _, _, _, .choose _ hyes hno, around, haround => by
      have hfirst := hyes.written hjob around haround
      have hsecond := hno.written hjob around haround
      rw [hfirst.count] at hsecond hfirst
      simp only [Stmt.places, Stmt.texts, Stmt.lowered]
      exact .cons rfl (writtenDoc_other (by nofun) (by nofun) rfl _) (hfirst.append hsecond)
  | _, _, _, _, _, .tryCatch hbody hhandler, around, haround => by
      have hfirst := hbody.written hjob around haround
      have hsecond := hhandler.written hjob around haround
      rw [hfirst.count] at hsecond hfirst
      simp only [Stmt.places, Stmt.texts, Stmt.lowered]
      exact .cons rfl (writtenDoc_other (by nofun) (by nofun) rfl _) (hfirst.append hsecond)
  | _, _, _, _, _, .loop _ hbody, around, _ => by
      simp only [Stmt.places, Stmt.texts, Stmt.lowered]
      exact .cons rfl (writtenDoc_other (by nofun) (by nofun) rfl _) (hbody.written hjob (some .loop) rfl)
  | _, _, (n, _), _, _, .switch hnative _ hcases hotherwise, around, _ => by
      have hbodies := hcases.written hjob (hjob.symm.trans hnative) n
      have hlast := hotherwise.written hjob (some (.switch n))
        (leftChain_native (hjob.symm.trans hnative) n)
      rw [hbodies.count] at hlast hbodies
      obtain rfl := hjob.symm.trans hnative
      simp only [Stmt.places, Stmt.texts, Stmt.lowered]
      have hparts := hbodies.append hlast
      exact ⟨hparts.count, .cons (fun _ => ⟨nofun, nofun, fun _ _ _ _ => nofun⟩) hparts.written⟩
  | _, .switch _ cases _, (n, _), _, _, .chain hchains _ hcases hotherwise, around, _ => by
      have hbodies := hcases.written hjob (hjob.symm.trans hchains)
      have hlast := hotherwise.written hjob (some (.switch n))
        (leftChain_chain (hjob.symm.trans hchains) n)
      rw [hbodies.count] at hlast hbodies
      obtain rfl := hjob.symm.trans hchains
      simp only [Stmt.places, Stmt.texts, Stmt.lowered]
      refine ⟨?_, .cons (writtenDoc_chain hcases _ _) (List.rel_append hbodies.written
        (written_last hlast.written (cases.all (·.values.isEmpty))))⟩
      rw [(hbodies.append hlast).count, chainCount_switch, Nat.add_assoc, Nat.add_comm 1]

theorem LowersStmts.written (hjob : job.config.nativeSwitch = native) : ∀ {chain : Option Nat}
    {body : List Stmt} {p q : Nat × State} {d : Doc}, LowersStmts job ctx chain body p d q →
      ∀ around, leftChain native around = chain →
        WrittenInTurn native p.1 q.1 (loweredInAll native body) (placesInAll native around p.1 body)
          (textsInAll native body d)
  | _, _, _, _, _, .nil _ _, _, _ => .nil
  | _, _, _, _, _, .cons hfirst hrest, around, haround => by
      have hone := hfirst.written hjob around haround
      have hothers := hrest.written hjob around haround
      rw [hone.count] at hothers hone
      exact hone.append hothers

theorem LowersArms.written (hjob : job.config.nativeSwitch = native) (hnative : native = true) :
    ∀ {cases : List SwitchCase} {p q : Nat × State} {d : Doc}, LowersArms job ctx cases p d q →
      ∀ number, WrittenInTurn native p.1 q.1 (loweredInCases native cases)
        (placesInCases native (.switch number) p.1 cases) (textsInCases native cases d)
  | _, _, _, _, .nil _, _ => .nil
  | _, _, _, _, .cons hbody hrest, number => by
      have hfirst := hbody.written hjob (some (.switch number)) (leftChain_native hnative _)
      have hothers := hrest.written hjob hnative number
      rw [hfirst.count] at hothers hfirst
      simp only [loweredInCases, placesInCases, textsInCases, hnative] at hfirst hothers ⊢
      exact hfirst.append hothers

theorem LowersLinks.written (hjob : job.config.nativeSwitch = native) (hnative : native = false) :
    ∀ {n : Nat} {first : Bool} {cases : List SwitchCase} {p q : Nat × State} {d : Doc},
      LowersLinks job ctx n first cases p d q →
        WrittenInTurn native p.1 q.1 (loweredInCases native cases)
          (placesInCases native (.switch n) p.1 cases) (textsInCases native cases d)
  | _, _, _, _, _, _, .nil _ _ _ => .nil
  | _, _, _, _, _, _, .skip hrest => by
      have hothers := hrest.written hjob hnative
      simp only [loweredInCases, placesInCases, textsInCases, hnative, List.isEmpty_nil] at hothers ⊢
      exact hothers
  | n, _, _, _, _, _, .cons hvalues hbody hrest => by
      have hfirst := hbody.written hjob (some (.switch n)) (leftChain_chain hnative _)
      have hothers := hrest.written hjob hnative
      rw [hfirst.count] at hothers hfirst
      have hsome := List.isEmpty_eq_false_iff.2 hvalues
      simp only [loweredInCases, placesInCases, textsInCases, hnative, hsome] at hfirst hothers ⊢
      exact hfirst.append hothers

end

end Statements

section Numbers

theorem switchLabel_injective : Function.Injective switchLabel := by
  intro n k h
  rw [switchLabel, switchLabel, String.append_left_inj, String.append_right_inj] at h
  exact Text.natural_injective h

theorem switchSubject_injective : Function.Injective switchSubject := by
  intro n k h
  rw [switchSubject, switchSubject, String.append_left_inj, String.append_right_inj] at h
  exact Text.natural_injective h

/-- No label is a variable: behind the common start stands a digit in the one and a
letter in the other. -/
theorem switchLabel_ne_switchSubject (n k : Nat) : switchLabel n ≠ switchSubject k := by
  intro h
  have hrest : Text.natural n ++ "__" = "v" ++ (Text.natural k ++ "__") := by
    have hsplit : "J__switchv" = "J__switch" ++ "v" := rfl
    rw [switchLabel, switchSubject, hsplit] at h
    simpa only [String.append_assoc, String.append_right_inj] using h
  have hhead := congrArg (fun text => text.toList.head?) hrest
  simp only [String.toList_append, List.head?_append] at hhead
  have hdigit := Reading.head?_natural_isDigit n
  cases hfirst : (Text.natural n).toList.head? with
  | none =>
      rw [hfirst] at hhead
      have hsame : some '_' = some 'v' := hhead
      exact absurd hsame (by decide)
  | some c =>
      rw [hfirst] at hhead hdigit
      obtain rfl : c = 'v' := by simpa using hhead
      exact absurd (hdigit 'v' rfl) (by decide)

/-- Numbers that do not repeat give labels and variables that do not repeat. -/
theorem nodup_switchNames {numbers : List Nat} (h : numbers.Nodup) :
    (numbers.map switchLabel ++ numbers.map switchSubject).Nodup := by
  refine List.nodup_append.2 ⟨h.map switchLabel_injective, h.map switchSubject_injective, ?_⟩
  rintro label hlabel subject hsubject rfl
  obtain ⟨n, -, rfl⟩ := List.mem_map.1 hlabel
  obtain ⟨k, -, hsame⟩ := List.mem_map.1 hsubject
  exact switchLabel_ne_switchSubject n k hsame.symm

end Numbers

/-- In the text of a body, each statement that is lowered is written as its place asks:
a plain exit right inside a chain names its label, all others are plain. Chains have
the numbers from zero on, in the order in which they are lowered, so no label and no
variable of a chain stands for two of them. -/
theorem exits_lead {job : Job} {owner : ClassName} {m : Method} {body : Body} {s t : State} {d : Doc}
    (h : (lowerBody job owner m body).run s = (.ok d, t)) :
    let native := job.config.nativeSwitch
    let places := body.stmt.places native none 0
    ∃ text n,
      LowersStmt job ⟨⟨owner, m.name, m.type⟩, m.returnsThis⟩ none body.stmt (0, s) text (n, t) ∧
      d.linesAt 0 = (declarationTexts body ++
        initializerTexts (staticInitTargets job.program owner body)).flatMap (Doc.textLines 0) ++
          text.linesAt 0 ∧
      places.map Place.stmt = body.stmt.lowered native ∧
      List.Forall₂ (fun p e => ∃ level, e.linesAt level <:+: text.linesAt 0 ∧
        WrittenAs native p level (e.linesAt level)) places (body.stmt.texts native text) ∧
      (native = false →
        switchNumbers places = List.range ((body.stmt.lowered native).countP Stmt.isSwitch) ∧
        ((switchNumbers places).map (fun n => "J__switch" ++ Text.natural n ++ "__") ++
          (switchNumbers places).map (fun n => "J__switchv" ++ Text.natural n ++ "__")).Nodup) := by
  intro native places
  obtain ⟨text, n, hstmt, rfl⟩ := lowersStmt_of_lowerBody h
  have hwritten : List.Forall₂ (WrittenDoc native) places (body.stmt.texts native text) :=
    (hstmt.written rfl none rfl).written
  refine ⟨text, n, hstmt, linesAt_body .., body.stmt.places_stmt native none 0, ?_, fun hchains => ?_⟩
  · have hfound : ∀ e ∈ body.stmt.texts native text, ∃ level, e.linesAt level <:+: text.linesAt 0 :=
      fun e he => FoundIn.exists_lines (body.stmt.foundIn_of_mem_texts he) 0
    refine ((List.forall₂_and_left _ _).2 ⟨hfound, hwritten.flip⟩).flip.imp ?_
    rintro p e ⟨⟨level, hinfix⟩, hall⟩
    exact ⟨level, hinfix, hall level⟩
  · have hnumbers : switchNumbers places =
        List.range ((body.stmt.lowered native).countP Stmt.isSwitch) := by
      simp only [places, hchains]
      rw [body.stmt.switchNumbers_places, List.range_eq_range']
      rfl
    rw [hnumbers]
    exact ⟨rfl, nodup_switchNames List.nodup_range⟩

section Examples

/-- A loop in a switch statement, with another switch statement and exits in it. -/
def nested : Stmt :=
  .switch (.param "a")
    [.arm [1] (.loop none (.literal (.bool true)) (.block
      [.leave none, .switch (.param "a") [.arm [2] (.leave none)] .nop, .again none]))]
    (.leave none)

/-- The exits of the inner and of the outer chain name different labels; those of the
loop are plain. -/
theorem exits_lead_nested :
    let job : Job := ⟨.bare "Main", { nativeSwitch := false }, plainTemplater⟩
    let m := Method.mentioning "Main" "hello" .nop
    let places := nested.places false none 0
    (∃ d text, (lowerBody job ⟨"Main"⟩ m ⟨[], nested⟩).run .initial = (.ok d, .initial) ∧
      d.linesAt 0 = text.linesAt 0 ∧
      text.linesAt 0 =
        [(0, "J__switch0__: \x7b"), (1, "var J__switchv0__ = a;"), (1, "if (J__switchv0__ == 1) \x7b"),
          (2, "while (true) \x7b"), (3, "break;"), (3, "J__switch1__: \x7b"),
          (4, "var J__switchv1__ = a;"), (4, "if (J__switchv1__ == 2) \x7b"),
          (5, "break J__switch1__;"), (4, "\x7d"), (3, "\x7d"), (3, "continue;"), (2, "\x7d"),
          (1, "\x7d"), (1, "else \x7b"), (2, "break J__switch0__;"), (1, "\x7d"), (0, "\x7d")] ∧
      List.Forall₂ (fun p e => ∃ level, e.linesAt level <:+: text.linesAt 0 ∧
        WrittenAs false p level (e.linesAt level)) places (nested.texts false text)) ∧
    switchNumbers places = [0, 1] ∧
    (places.filterMap fun p => match p.stmt with
      | .leave none => some (exitLine false p.around)
      | _ => none) = ["break;", "break J__switch1__;", "break J__switch0__;"] := by
  intro job m places
  have hrun : (lowerBody job ⟨"Main"⟩ m ⟨[], nested⟩).run .initial = (.ok _, .initial) := rfl
  obtain ⟨text, n, -, hlines, -, hwritten, hnumbers⟩ := exits_lead hrun
  exact ⟨⟨_, text, hrun, hlines, hlines.symm.trans (by decide +kernel), hwritten⟩,
    (hnumbers rfl).1, by decide +kernel⟩

end Examples

end ClassScript.Emission
