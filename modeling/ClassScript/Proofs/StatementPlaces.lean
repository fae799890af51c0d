import ClassScript.Proofs.DocLines
import ClassScript.Proofs.NodeSteps
import ClassScript.Proofs.StatementRuns

/-!
Where the statements of a body stand: in which loop or switch statement, and behind
how many switch statements that are written as chains. Beside it, where in a document
the text of each of them stands. Both follow the order in which statements are lowered.
-/

namespace ClassScript

namespace Output.Doc

/-- The parts of a document; empty where it has none. -/
def first : Doc → Doc
  | .seq d _ => d
  | _ => .empty

def second : Doc → Doc
  | .seq _ d => d
  | _ => .empty

def inside : Doc → Doc
  | .block _ body _ | .indented body => body
  | _ => .empty

end Output.Doc

open Output

/-- What a plain exit can leave: a loop, or the switch statement of this number. -/
inductive Construct where
  | loop
  | switch (number : Nat)
  deriving DecidableEq

/-- A statement with the innermost loop or switch statement around it, and with the
number of chains in front of it. -/
structure Place where
  stmt : Stmt
  around : Option Construct
  number : Nat

def Stmt.isSwitch : Stmt → Bool
  | .switch _ _ _ => true
  | _ => false

/-- How many of the statements are written as chains. -/
def chainCount (native : Bool) (stmts : List Stmt) : Nat :=
  if native then 0 else stmts.countP Stmt.isSwitch

mutual

/-- The places of the statements that are lowered, each before its parts. -/
def Stmt.places (native : Bool) (around : Option Construct) (number : Nat) : Stmt → List Place
  | s@(.block body) => ⟨s, around, number⟩ :: placesInAll native around number body
  | s@(.when _ yes) => ⟨s, around, number⟩ :: yes.places native around number
  | s@(.choose _ yes no) | s@(.tryCatch yes no) =>
      ⟨s, around, number⟩ :: (yes.places native around number ++
        no.places native around (number + chainCount native (yes.lowered native)))
  | s@(.loop _ _ body) => ⟨s, around, number⟩ :: body.places native (some .loop) number
  | s@(.switch _ cases otherwise) =>
      let inner := number + chainCount native [s]
      ⟨s, around, number⟩ :: (placesInCases native (.switch number) inner cases ++
        otherwise.places native (some (.switch number))
          (inner + chainCount native (loweredInCases native cases)))
  | s => [⟨s, around, number⟩]

def placesInAll (native : Bool) (around : Option Construct) (number : Nat) : List Stmt → List Place
  | [] => []
  | s :: rest => s.places native around number ++
      placesInAll native around (number + chainCount native (s.lowered native)) rest

def placesInCases (native : Bool) (around : Construct) (number : Nat) :
    List SwitchCase → List Place
  | [] => []
  | .arm values body :: rest =>
      if native || !values.isEmpty then
        body.places native (some around) number ++
          placesInCases native around (number + chainCount native (body.lowered native)) rest
      else placesInCases native around number rest

end

mutual

/-- The texts of the statements that are lowered, found in the document of the
statement. -/
def Stmt.texts (native : Bool) : Stmt → Doc → List Doc
  | .block body, d => d :: textsInAll native body d
  | .when _ yes, d => d :: yes.texts native d.inside
  | .choose _ yes no, d => d :: (yes.texts native d.first.inside ++ no.texts native d.second.inside)
  | .loop _ _ body, d => d :: body.texts native d.inside
  | .switch _ cases otherwise, d =>
      d :: if native then
        textsInCases native cases d.inside.first.first ++
          otherwise.texts native d.inside.second.inside.first
      else
        textsInCases native cases d.inside.first.second ++ otherwise.texts native
          (if cases.all (·.values.isEmpty) then d.inside.second else d.inside.second.inside)
  | .tryCatch body handler, d =>
      d :: (body.texts native d.first.inside ++ handler.texts native d.second.inside.second)
  | _, d => [d]

def textsInAll (native : Bool) : List Stmt → Doc → List Doc
  | [], _ => []
  | s :: rest, d => s.texts native d.first ++ textsInAll native rest d.second

def textsInCases (native : Bool) : List SwitchCase → Doc → List Doc
  | [], _ => []
  | .arm values body :: rest, d =>
      if native then
        body.texts native d.first.second.inside.first ++ textsInCases native rest d.second
      else if values.isEmpty then textsInCases native rest d
      else body.texts native d.first.inside ++ textsInCases native rest d.second

end

section Lines

open Emission

variable {job : Job} {ctx : Context} {chain : Option Nat} {s : Stmt} {x : Emit String}

theorem places_of_lineText? (h : lineText? job ctx chain s = some x) (native : Bool)
    (around : Option Construct) (n : Nat) : s.places native around n = [⟨s, around, n⟩] := by
  cases s with
  | block _ | when _ _ | choose _ _ _ | loop _ _ _ | switch _ _ _ | tryCatch _ _ => cases h
  | _ => simp [Stmt.places]

theorem texts_of_lineText? (h : lineText? job ctx chain s = some x) (native : Bool) (d : Doc) :
    s.texts native d = [d] := by
  cases s with
  | block _ | when _ _ | choose _ _ _ | loop _ _ _ | switch _ _ _ | tryCatch _ _ => cases h
  | _ => simp [Stmt.texts]

theorem isSwitch_of_lineText? (h : lineText? job ctx chain s = some x) : s.isSwitch = false := by
  cases s with
  | switch _ _ _ => cases h
  | _ => rfl

end Lines

section Places

variable {native : Bool}

theorem chainCount_append (stmts others : List Stmt) :
    chainCount native (stmts ++ others) = chainCount native stmts + chainCount native others := by
  cases native with
  | true => rfl
  | false => exact List.countP_append

theorem chainCount_switch (subject : Expr) (cases : List SwitchCase) (otherwise : Stmt)
    (others : List Stmt) :
    chainCount false (.switch subject cases otherwise :: others) = chainCount false others + 1 :=
  List.countP_cons_of_pos (p := Stmt.isSwitch) (a := .switch subject cases otherwise) (l := others) rfl

mutual

/-- The places are those of the statements that are lowered. -/
theorem Stmt.places_stmt (native : Bool) : ∀ (s : Stmt) (around : Option Construct) (n : Nat),
    (s.places native around n).map Place.stmt = s.lowered native
  | .block body, around, n => by
      simp only [Stmt.places, Stmt.lowered, List.map_cons, placesInAll_stmt native body]
  | .when _ yes, around, n => by
      simp only [Stmt.places, Stmt.lowered, List.map_cons, Stmt.places_stmt native yes]
  | .choose _ yes no, around, n | .tryCatch yes no, around, n => by
      simp only [Stmt.places, Stmt.lowered, List.map_cons, List.map_append, Stmt.places_stmt native yes,
        Stmt.places_stmt native no]
  | .loop _ _ body, around, n => by
      simp only [Stmt.places, Stmt.lowered, List.map_cons, Stmt.places_stmt native body]
  | .switch _ cases otherwise, around, n => by
      simp only [Stmt.places, Stmt.lowered, List.map_cons, List.map_append,
        placesInCases_stmt native cases, Stmt.places_stmt native otherwise]
  | .position _ _, _, _ | .nop, _, _ | .eval _, _, _ | .ret _, _, _ | .setSlot _ _, _, _
  | .setInstanceField _ _ _, _, _ | .setStaticField _ _, _, _ | .setArray _ _ _, _, _
  | .fillArray _ _ _, _, _ | .leave _, _, _ | .again _, _, _ | .throw _, _, _ | .rethrow, _, _ => by
      simp only [Stmt.places, Stmt.lowered, List.map_cons, List.map_nil]

theorem placesInAll_stmt (native : Bool) :
    ∀ (body : List Stmt) (around : Option Construct) (n : Nat),
      (placesInAll native around n body).map Place.stmt = loweredInAll native body
  | [], _, _ => rfl
  | s :: rest, around, n => by
      simp only [placesInAll, loweredInAll, List.map_append, Stmt.places_stmt native s,
        placesInAll_stmt native rest]

theorem placesInCases_stmt (native : Bool) :
    ∀ (cases : List SwitchCase) (around : Construct) (n : Nat),
      (placesInCases native around n cases).map Place.stmt = loweredInCases native cases
  | [], _, _ => rfl
  | .arm values body :: rest, around, n => by
      simp only [placesInCases, loweredInCases]
      split
      · rw [List.map_append, Stmt.places_stmt native body, placesInCases_stmt native rest]
      · rw [placesInCases_stmt native rest, List.nil_append]

end

/-- The numbers of the switch statements among the places. -/
def switchNumbers (places : List Place) : List Nat :=
  (places.filter (·.stmt.isSwitch)).map (·.number)

theorem switchNumbers_append (places others : List Place) :
    switchNumbers (places ++ others) = switchNumbers places ++ switchNumbers others := by
  simp [switchNumbers]

mutual

/-- Chains are numbered in the order in which they are lowered. -/
theorem Stmt.switchNumbers_places : ∀ (s : Stmt) (around : Option Construct) (n : Nat),
    switchNumbers (s.places false around n) = List.range' n (chainCount false (s.lowered false))
  | .block body, around, n => by
      simp only [Stmt.places, Stmt.lowered]
      exact switchNumbers_placesInAll body around n
  | .when _ yes, around, n => by
      simp only [Stmt.places, Stmt.lowered]
      exact yes.switchNumbers_places around n
  | .loop _ _ body, around, n => by
      simp only [Stmt.places, Stmt.lowered]
      exact body.switchNumbers_places (some .loop) n
  | .choose _ yes no, around, n | .tryCatch yes no, around, n => by
      simp only [Stmt.places, Stmt.lowered]
      have hboth := switchNumbers_append (yes.places false around n)
        (no.places false around (n + chainCount false (yes.lowered false)))
      rw [yes.switchNumbers_places, no.switchNumbers_places, List.range'_append_1,
        ← chainCount_append] at hboth
      exact hboth
  | .switch subject cases otherwise, around, n => by
      simp only [Stmt.places, Stmt.lowered]
      have hparts := switchNumbers_append
        (placesInCases false (.switch n) (n + 1) cases)
        (otherwise.places false (some (.switch n))
          (n + 1 + chainCount false (loweredInCases false cases)))
      rw [switchNumbers_placesInCases, otherwise.switchNumbers_places, List.range'_append_1,
        ← chainCount_append] at hparts
      rw [chainCount_switch _ _ _ (_ ++ _), List.range'_succ, ← hparts]
      rfl
  | .position _ _, _, _ | .nop, _, _ | .eval _, _, _ | .ret _, _, _ | .setSlot _ _, _, _
  | .setInstanceField _ _ _, _, _ | .setStaticField _ _, _, _ | .setArray _ _ _, _, _
  | .fillArray _ _ _, _, _ | .leave _, _, _ | .again _, _, _ | .throw _, _, _ | .rethrow, _, _ => by
      simp only [Stmt.places, Stmt.lowered]
      rfl

theorem switchNumbers_placesInAll :
    ∀ (body : List Stmt) (around : Option Construct) (n : Nat),
      switchNumbers (placesInAll false around n body) =
        List.range' n (chainCount false (loweredInAll false body))
  | [], _, _ => rfl
  | s :: rest, around, n => by
      rw [placesInAll, switchNumbers_append, s.switchNumbers_places, switchNumbers_placesInAll rest,
        List.range'_append_1, loweredInAll, chainCount_append]

theorem switchNumbers_placesInCases : ∀ (cases : List SwitchCase) (around : Construct) (n : Nat),
    switchNumbers (placesInCases false around n cases) =
      List.range' n (chainCount false (loweredInCases false cases))
  | [], _, _ => rfl
  | .arm values body :: rest, around, n => by
      simp only [placesInCases, loweredInCases]
      split
      · rw [switchNumbers_append, body.switchNumbers_places, switchNumbers_placesInCases rest,
          List.range'_append_1, chainCount_append]
      · rw [switchNumbers_placesInCases rest, List.nil_append]

end

end Places

section Texts

variable {d e : Doc}

/-- A text that has been found in a document, or that is missing there. -/
def FoundIn (e d : Doc) : Prop := e = .empty ∨ e.Within d

theorem FoundIn.eq_empty (h : FoundIn e .empty) : e = .empty := by
  rcases h with rfl | h
  · rfl
  · cases h
    rfl

/-- Its lines stand together there, also where it has none. -/
theorem FoundIn.exists_lines (h : FoundIn e d) (level : Nat) :
    ∃ deeper, e.linesAt deeper <:+: d.linesAt level := by
  rcases h with rfl | hwithin
  · exact ⟨level, List.nil_infix⟩
  · exact hwithin.exists_lines level

theorem FoundIn.of_first (h : FoundIn e d.first) : FoundIn e d := by
  cases d with
  | seq first second => exact h.imp_right .first
  | empty | line _ | mark _ | block _ _ _ | indented _ | splice _ => exact .inl h.eq_empty

theorem FoundIn.of_second (h : FoundIn e d.second) : FoundIn e d := by
  cases d with
  | seq first second => exact h.imp_right .second
  | empty | line _ | mark _ | block _ _ _ | indented _ | splice _ => exact .inl h.eq_empty

theorem FoundIn.of_inside (h : FoundIn e d.inside) : FoundIn e d := by
  cases d with
  | block head body after => exact h.imp_right .block
  | indented body => exact h.imp_right .indented
  | empty | line _ | mark _ | seq _ _ | splice _ => exact .inl h.eq_empty

mutual

/-- The texts of a statement are found in its document. -/
theorem Stmt.foundIn_of_mem_texts {native : Bool} : ∀ (s : Stmt) {d e : Doc},
    e ∈ s.texts native d → FoundIn e d
  | .block body, d, e, h => by
      simp only [Stmt.texts, List.mem_cons] at h
      rcases h with rfl | h
      · exact .inr .refl
      · exact foundIn_of_mem_textsInAll body h
  | .when _ yes, d, e, h | .loop _ _ yes, d, e, h => by
      simp only [Stmt.texts, List.mem_cons] at h
      rcases h with rfl | h
      · exact .inr .refl
      · exact (yes.foundIn_of_mem_texts h).of_inside
  | .choose _ yes no, d, e, h => by
      simp only [Stmt.texts, List.mem_cons, List.mem_append] at h
      rcases h with rfl | h | h
      · exact .inr .refl
      · exact (yes.foundIn_of_mem_texts h).of_inside.of_first
      · exact (no.foundIn_of_mem_texts h).of_inside.of_second
  | .switch _ cases otherwise, d, e, h => by
      simp only [Stmt.texts, List.mem_cons] at h
      rcases h with rfl | h
      · exact .inr .refl
      · split at h
        · rcases List.mem_append.1 h with h | h
          · exact (foundIn_of_mem_textsInCases cases h).of_first.of_first.of_inside
          · exact (otherwise.foundIn_of_mem_texts h).of_first.of_inside.of_second.of_inside
        · rcases List.mem_append.1 h with h | h
          · exact (foundIn_of_mem_textsInCases cases h).of_second.of_first.of_inside
          · have hlast := otherwise.foundIn_of_mem_texts h
            split at hlast
            · exact hlast.of_second.of_inside
            · exact hlast.of_inside.of_second.of_inside
  | .tryCatch body handler, d, e, h => by
      simp only [Stmt.texts, List.mem_cons, List.mem_append] at h
      rcases h with rfl | h | h
      · exact .inr .refl
      · exact (body.foundIn_of_mem_texts h).of_inside.of_first
      · exact (handler.foundIn_of_mem_texts h).of_second.of_inside.of_second
  | .position _ _, _, _, h | .nop, _, _, h | .eval _, _, _, h | .ret _, _, _, h
  | .setSlot _ _, _, _, h | .setInstanceField _ _ _, _, _, h | .setStaticField _ _, _, _, h
  | .setArray _ _ _, _, _, h | .fillArray _ _ _, _, _, h | .leave _, _, _, h | .again _, _, _, h
  | .throw _, _, _, h | .rethrow, _, _, h => by
      simp only [Stmt.texts, List.mem_singleton] at h
      exact h ▸ .inr .refl

theorem foundIn_of_mem_textsInAll {native : Bool} : ∀ (body : List Stmt) {d e : Doc},
    e ∈ textsInAll native body d → FoundIn e d
  | [], _, _, h => by cases h
  | s :: rest, d, e, h => by
      simp only [textsInAll, List.mem_append] at h
      rcases h with h | h
      · exact (s.foundIn_of_mem_texts h).of_first
      · exact (foundIn_of_mem_textsInAll rest h).of_second

theorem foundIn_of_mem_textsInCases {native : Bool} : ∀ (cases : List SwitchCase) {d e : Doc},
    e ∈ textsInCases native cases d → FoundIn e d
  | [], _, _, h => by cases h
  | .arm values body :: rest, d, e, h => by
      simp only [textsInCases] at h
      split at h
      · rcases List.mem_append.1 h with h | h
        · exact (body.foundIn_of_mem_texts h).of_first.of_inside.of_second.of_first
        · exact (foundIn_of_mem_textsInCases rest h).of_second
      · split at h
        · exact foundIn_of_mem_textsInCases rest h
        · rcases List.mem_append.1 h with h | h
          · exact (body.foundIn_of_mem_texts h).of_inside.of_first
          · exact (foundIn_of_mem_textsInCases rest h).of_second

end

end Texts

end ClassScript
