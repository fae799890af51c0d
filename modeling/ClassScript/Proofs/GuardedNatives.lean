import ClassScript.Proofs.Assignment
import ClassScript.Proofs.DocText
import Mathlib.Data.List.Induction

/-!
The native bodies of a method under their guards. Each guard stands once in the
chain, where it comes first among the registrations, with the text that was
registered for it last. With any truth values of the guards, the lines of the chain
bind the slot once, under the first guard that holds, and can be read in no other way.
-/

namespace ClassScript

namespace Emission

open Output

/-- The guards of native bodies that are conditions, each where it comes first. -/
def conditions (natives : List NativeBody) : List String :=
  (natives.map (·.guard)).eraseDups.filter (· ≠ "")

section Registrations

variable {guard text : String}

theorem keys_put (guard text : String) (known : List (String × String)) :
    (byGuard.put guard text known).map Prod.fst =
      if guard ∈ known.map Prod.fst then known.map Prod.fst else known.map Prod.fst ++ [guard] := by
  fun_induction byGuard.put guard text known with
  | case1 => rfl
  | case2 old rest => simp
  | case3 other old rest hne ih =>
      rw [List.map_cons, ih, List.map_cons]
      by_cases h : guard ∈ rest.map Prod.fst
      · rw [if_pos h, if_pos (List.mem_cons_of_mem _ h)]
      · rw [if_neg h, if_neg (List.not_mem_cons_of_ne_of_not_mem (Ne.symm hne) h), List.cons_append]

/-- The guards stand in the order in which they come first, without repetition. -/
theorem keys_byGuard (natives : List NativeBody) :
    (byGuard natives).map Prod.fst = (natives.map (·.guard)).eraseDups ∧
      ((byGuard natives).map Prod.fst).Nodup := by
  have hkeys : (byGuard natives).map Prod.fst = (natives.map (·.guard)).eraseDups := by
    induction natives using List.reverseRecOn with
    | nil => rfl
    | append_singleton natives native ih =>
        have hmem : native.guard ∈ (byGuard natives).map Prod.fst ↔
            native.guard ∈ natives.map (·.guard) := by
          rw [ih, List.mem_eraseDups]
        rw [byGuard_concat, keys_put, List.map_append, List.map_singleton, eraseDups_concat, ← ih]
        simp only [hmem]
  exact ⟨hkeys, hkeys ▸ nodup_eraseDups _⟩

theorem nodup_conditions (natives : List NativeBody) : (conditions natives).Nodup :=
  (nodup_eraseDups _).filter _

theorem mem_conditions {natives : List NativeBody} :
    guard ∈ conditions natives ↔ guard ≠ "" ∧ ∃ native ∈ natives, native.guard = guard := by
  rw [conditions, List.mem_filter, List.mem_eraseDups, List.mem_map]
  simp [and_comm]

theorem lastText?_eq_none {natives : List NativeBody} :
    lastText? natives guard = none ↔ ∀ native ∈ natives, native.guard ≠ guard := by
  simp [lastText?]

theorem exists_lastText? {natives : List NativeBody} (h : guard ∈ conditions natives) :
    ∃ text, lastText? natives guard = some text := by
  obtain ⟨-, native, hmem, hguard⟩ := mem_conditions.1 h
  cases htext : lastText? natives guard with
  | some text => exact ⟨text, rfl⟩
  | none => exact absurd hguard (lastText?_eq_none.1 htext native hmem)

theorem mem_of_lastText? {natives : List NativeBody} (h : lastText? natives guard = some text) :
    ∃ native ∈ natives, native.guard = guard ∧ native.text = text := by
  obtain ⟨native, hfind, rfl⟩ := Option.map_eq_some_iff.1 h
  have hguard := List.find?_some hfind
  exact ⟨native, List.mem_reverse.1 (List.mem_of_find?_eq_some hfind), by simpa using hguard, rfl⟩

/-- The native bodies that need a condition, with their texts. -/
theorem guarded_byGuard (natives : List NativeBody) :
    (byGuard natives).filter (·.1 ≠ "") =
      (conditions natives).map fun guard => (guard, (lastText? natives guard).getD "") := by
  obtain ⟨hkeys, hnodup⟩ := keys_byGuard natives
  have hentries : byGuard natives =
      ((byGuard natives).map Prod.fst).map fun guard => (guard, (lastText? natives guard).getD "") := by
    rw [List.map_map]
    refine (List.map_id _).symm.trans (List.map_congr_left fun entry hentry => ?_)
    have hlookup := lookup_of_mem hnodup hentry
    rw [lookup_byGuard] at hlookup
    rw [Function.comp_apply, hlookup]
    rfl
  rw [conditions, ← hkeys]
  conv_lhs => rw [hentries]
  rw [List.filter_map]
  rfl

end Registrations

/-- The lines one level deeper. -/
def shifted (lines : List (Nat × String)) : List (Nat × String) :=
  lines.map fun line => (line.1 + 1, line.2)

/-- What a slot can be bound to: a function with these lines in it, or the trap. -/
inductive SlotValue where
  | function (lines : List (Nat × String))
  | trap
  deriving DecidableEq

/-- The lines that bind a method's slot to it. -/
def SlotValue.lines (owner : ClassName) (m : Method) : SlotValue → List (Nat × String)
  | .function body =>
      Doc.textLines 0 (functionHead owner m ++ " \x7b") ++
        (shifted (body ++ if m.returnsThis then [(0, "return this;")] else []) ++ [(0, "\x7d;")])
  | .trap => Doc.textLines 0 (stubLine owner m)

/-- The line that opens a link of a chain, the first one or a later one, with its guard. -/
def linkHead (first : Bool) (guard : String) : String :=
  (if first then "if (" else "else if (") ++ guard ++ ") \x7b"

/-- The lines of a chain: links under their guards, and a last one without a guard. -/
def guardLines (last : List (Nat × String)) :
    Bool → List (String × List (Nat × String)) → List (Nat × String)
  | _, [] => (0, "else \x7b") :: (shifted last ++ [(0, "\x7d")])
  | first, (guard, branch) :: rest =>
      Doc.textLines 0 (linkHead first guard) ++
        (shifted branch ++ (0, "\x7d") :: guardLines last false rest)

/-- The lines that a chain comes to with these truth values of the guards. -/
def takenLines (truth : String → Bool) (last : List (Nat × String)) :
    List (String × List (Nat × String)) → List (Nat × String)
  | [] => last
  | (guard, branch) :: rest => if truth guard then branch else takenLines truth last rest

/-- Run with these truth values of the guards, the lines bind the method's slot, once, to
this value. A comment may stand in front. -/
inductive Establishes (owner : ClassName) (m : Method) (truth : String → Bool) :
    List (Nat × String) → SlotValue → Prop where
  | bound {front : List (Nat × String)} (hfront : front = [] ∨ ∃ text, front = Doc.textLines 0 ("// " ++ text))
      (value : SlotValue) : Establishes owner m truth (front ++ value.lines owner m) value
  | chosen {links : List (String × List (Nat × String))} {last : List (Nat × String)}
      {value : SlotValue} (hlinks : links ≠ []) (hbranches : ∀ link ∈ links, link.2 ≠ [])
      (h : takenLines truth last links = value.lines owner m) :
      Establishes owner m truth (guardLines last true links) value

theorem Establishes.alone (owner : ClassName) (m : Method) (truth : String → Bool) (value : SlotValue) :
    Establishes owner m truth (value.lines owner m) value :=
  @bound owner m truth [] (.inl rfl) value

theorem Establishes.commented (owner : ClassName) (m : Method) (truth : String → Bool) (text : String)
    (value : SlotValue) :
    Establishes owner m truth (Doc.textLines 0 ("// " ++ text) ++ value.lines owner m) value :=
  .bound (.inr ⟨text, rfl⟩) value

section Documents

variable {owner : ClassName} {m : Method}

theorem linesAt_succ (level : Nat) (d : Doc) : d.linesAt (level + 1) = shifted (d.linesAt level) := by
  rw [Doc.linesAt_eq, Doc.linesAt_eq, shifted, ← Doc.entriesAt_deeper, List.filterMap_map,
    List.map_filterMap]
  refine List.filterMap_congr fun entry _ => ?_
  cases entry with
  | text indent line => rfl
  | mark mark => rfl

theorem linesAt_bindFunction (owner : ClassName) (m : Method) (body : Doc) :
    (bindFunction m (methodSlot owner m) body).linesAt 0 =
      (SlotValue.function (body.linesAt 0)).lines owner m := by
  have hend : (body ++ if m.returnsThis then Doc.line "return this;" else .empty).linesAt 0 =
      body.linesAt 0 ++ if m.returnsThis then [(0, "return this;")] else [] := by
    rw [Doc.linesAt_append]
    cases m.returnsThis with
    | true => rfl
    | false => rfl
  rw [bindFunction, ← functionHead_eq, Doc.linesAt_block, linesAt_succ, hend, List.append_assoc]
  rfl

theorem linesAt_bindStub (owner : ClassName) (m : Method) :
    (bindStub (methodSlot owner m)).linesAt 0 = SlotValue.trap.lines owner m := rfl

theorem linesAt_concat (docs : List Doc) (level : Nat) :
    (Doc.concat docs).linesAt level = docs.flatMap (Doc.linesAt level) := by
  induction docs with
  | nil => rfl
  | cons d rest ih => rw [Doc.concat, Doc.linesAt_append, ih, List.flatMap_cons]

theorem linesAt_guardChain (bind : Doc → Doc) (fallback : Doc) (guarded : List (String × Doc)) :
    (guardChain bind fallback guarded).linesAt 0 = guardLines ((bind fallback).linesAt 0) true
      (guarded.map fun link => (link.1, (bind link.2).linesAt 0)) := by
  have hlast : (Doc.block "else" (bind fallback) "").linesAt 0 =
      (0, "else \x7b") :: (shifted ((bind fallback).linesAt 0) ++ [(0, "\x7d")]) := by
    rw [Doc.linesAt_block, linesAt_succ]
    rfl
  -- Only the link at the front has the index zero, so the indices may start anywhere.
  have hlinks : ∀ start : Nat, ((guarded.zipIdx start).map fun link =>
      Doc.block ((if link.2 = 0 then "if" else "else if") ++ " (" ++ link.1.1 ++ ")")
        (bind link.1.2) "").flatMap (Doc.linesAt 0) ++
        (0, "else \x7b") :: (shifted ((bind fallback).linesAt 0) ++ [(0, "\x7d")]) =
      guardLines ((bind fallback).linesAt 0) (start = 0)
        (guarded.map fun link => (link.1, (bind link.2).linesAt 0)) := by
    induction guarded with
    | nil => exact fun _ => rfl
    | cons link rest ih =>
        intro start
        have hhead : (if start = 0 then "if" else "else if") ++ " (" ++ link.1 ++ ")" ++ " \x7b" =
            linkHead (start = 0) link.1 := by
          apply String.toList_injective
          by_cases hstart : start = 0 <;> simp [linkHead, hstart]
        have hrest := ih (start + 1)
        rw [decide_eq_false (Nat.succ_ne_zero start)] at hrest
        rw [List.zipIdx_cons, List.map_cons, List.flatMap_cons, List.append_assoc, hrest, List.map_cons,
          guardLines, Doc.linesAt_block, hhead, linesAt_succ, List.append_assoc, List.append_assoc]
        rfl
  rw [guardChain, Doc.linesAt_append, linesAt_concat, hlast]
  exact hlinks 0

/-- The chain comes to the first guard that holds, and to its end if none does. -/
theorem takenLines_eq (truth : String → Bool) (last : List (Nat × String))
    (links : List (String × List (Nat × String))) :
    takenLines truth last links = ((links.find? (truth ·.1)).map Prod.snd).getD last := by
  induction links with
  | nil => rfl
  | cons link rest ih =>
      obtain ⟨guard, branch⟩ := link
      cases hguard : truth guard with
      | true => simp [takenLines, hguard]
      | false => simpa [takenLines, hguard] using ih

end Documents

section Reading

variable {owner : ClassName} {m : Method} {truth : String → Bool} {lines : List (Nat × String)}
  {value value' : SlotValue}

/-- The text that shows the lines. -/
def written (lines : List (Nat × String)) : List Char :=
  lines.flatMap fun line => shownLine line ++ ['\n']

theorem written_append (lines others : List (Nat × String)) :
    written (lines ++ others) = written lines ++ written others :=
  List.flatMap_append

theorem written_cons (line : Nat × String) (lines : List (Nat × String)) :
    written (line :: lines) = shownLine line ++ ['\n'] ++ written lines := rfl

theorem written_textLines {text : String} (h : text.toList.getLast? ≠ some '\n') :
    written (Doc.textLines 0 text) = text.toList ++ ['\n'] := by
  have htext := congrArg String.toList (Doc.text_line h)
  rw [Doc.text_eq, Doc.render_lines, ← Doc.linesAt_eq, String.toList_join, List.flatMap_map,
    String.toList_append] at htext
  simp only [toList_render] at htext
  exact htext

theorem textLines_level {text : String} {line : Nat × String} (h : line ∈ Doc.textLines 0 text) :
    line.1 = 0 :=
  (Doc.mem_textLines h).1

theorem linkHead_getLast? (first : Bool) (guard : String) :
    (linkHead first guard).toList.getLast? ≠ some '\n' := by
  rw [linkHead, Doc.getLast?_append _ (show ") \x7b".toList.getLast? = some '\x7b' by decide)]
  decide

theorem shifted_injective : Function.Injective shifted := by
  refine List.map_injective_iff.2 fun line other h => ?_
  obtain ⟨hlevel, htext⟩ := Prod.mk.inj h
  exact Prod.ext (Nat.succ.inj hlevel) htext

/-- Lines at the outermost level are told from deeper ones behind them. -/
theorem outer_inj {outer outer' inner inner' : List (Nat × String)}
    (houter : ∀ line ∈ outer, line.1 = 0) (houter' : ∀ line ∈ outer', line.1 = 0)
    (hinner : inner.head?.all (·.1 ≠ 0) = true) (hinner' : inner'.head?.all (·.1 ≠ 0) = true)
    (h : outer ++ inner = outer' ++ inner') : outer = outer' ∧ inner = inner' := by
  have hcut : ∀ {outer inner : List (Nat × String)}, (∀ line ∈ outer, line.1 = 0) →
      inner.head?.all (·.1 ≠ 0) = true →
        (outer ++ inner).takeWhile (·.1 = 0) = outer ∧ (outer ++ inner).dropWhile (·.1 = 0) = inner :=
    fun houter hinner =>
      takeWhile_dropWhile_append (by simpa using houter) (by simpa using hinner)
  obtain ⟨hfront, hback⟩ := hcut houter hinner
  obtain ⟨hfront', hback'⟩ := hcut houter' hinner'
  rw [h] at hfront hback
  exact ⟨hfront.symm.trans hfront', hback.symm.trans hback'⟩

/-- Deeper lines are told from those at the outermost level behind them. -/
theorem shifted_append_inj {inner inner' rest rest' : List (Nat × String)} {line line' : String}
    (h : shifted inner ++ (0, line) :: rest = shifted inner' ++ (0, line') :: rest') :
    inner = inner' ∧ rest = rest' := by
  have hcut : ∀ (lines rest : List (Nat × String)) (line : String),
      (shifted lines ++ (0, line) :: rest).takeWhile (·.1 ≠ 0) = shifted lines ∧
        (shifted lines ++ (0, line) :: rest).dropWhile (·.1 ≠ 0) = (0, line) :: rest := by
    intro lines rest line
    refine takeWhile_dropWhile_append (fun line hline => ?_) rfl
    obtain ⟨other, -, rfl⟩ := List.mem_map.1 hline
    exact decide_eq_true (Nat.succ_ne_zero other.1)
  obtain ⟨hfront, hback⟩ := hcut inner rest line
  obtain ⟨hfront', hback'⟩ := hcut inner' rest' line'
  rw [h] at hfront hback
  exact ⟨shifted_injective (hfront.symm.trans hfront'),
    (List.cons.inj (hback.symm.trans hback')).2⟩

theorem head?_shifted (lines : List (Nat × String)) : (shifted lines).head?.all (·.1 ≠ 0) = true := by
  cases lines with
  | nil => rfl
  | cons line others => rfl

theorem head?_shifted_append {lines : List (Nat × String)} (rest : List (Nat × String))
    (h : lines ≠ []) : (shifted lines ++ rest).head?.all (·.1 ≠ 0) = true := by
  cases lines with
  | nil => exact absurd rfl h
  | cons line others => rfl

/-- A link of a chain is read in one way. -/
theorem link_inj {first : Bool} {guard guard' : String} {branch branch' rest rest' : List (Nat × String)}
    (hbranch : branch ≠ []) (hbranch' : branch' ≠ [])
    (h : Doc.textLines 0 (linkHead first guard) ++ (shifted branch ++ (0, "\x7d") :: rest) =
      Doc.textLines 0 (linkHead first guard') ++ (shifted branch' ++ (0, "\x7d") :: rest')) :
    guard = guard' ∧ branch = branch' ∧ rest = rest' := by
  obtain ⟨hhead, hrest⟩ := outer_inj (fun _ => textLines_level) (fun _ => textLines_level)
    (head?_shifted_append _ hbranch) (head?_shifted_append _ hbranch') h
  have htext := congrArg written hhead
  rw [written_textLines (linkHead_getLast? first guard),
    written_textLines (linkHead_getLast? first guard'), List.append_left_inj, String.toList_inj,
    linkHead, linkHead, String.append_left_inj, String.append_right_inj] at htext
  exact ⟨htext, shifted_append_inj hrest⟩

/-- No later link reads as the last one. -/
theorem link_ne_last (guard : String) (rest others : List (Nat × String)) :
    Doc.textLines 0 (linkHead false guard) ++ rest ≠ (0, "else \x7b") :: others := by
  intro h
  have hfront := congrArg (fun lines => (written lines).take 6) h
  have hshown : shownLine (0, "else \x7b") = "else \x7b".toList := shownLine_outermost _
  rw [written_append, written_textLines (linkHead_getLast? false guard), written_cons, hshown,
    linkHead, String.toList_append, String.toList_append] at hfront
  exact absurd hfront (by simp)

/-- A chain is read in one way. -/
theorem guardLines_inj {last last' : List (Nat × String)} {first : Bool}
    {links links' : List (String × List (Nat × String))} (hlinks : ∀ link ∈ links, link.2 ≠ [])
    (hlinks' : ∀ link ∈ links', link.2 ≠ []) (hfirst : first = true → links ≠ [] ∧ links' ≠ [])
    (h : guardLines last first links = guardLines last' first links') :
    last = last' ∧ links = links' := by
  induction links generalizing first links' with
  | nil =>
      obtain rfl : first = false := by
        cases first with
        | true => exact absurd rfl (hfirst rfl).1
        | false => rfl
      cases links' with
      | nil => exact ⟨(shifted_append_inj (List.cons.inj h).2).1, rfl⟩
      | cons link' rest' => exact absurd h.symm (link_ne_last _ _ _)
  | cons link rest ih =>
      obtain ⟨hbranch, hrest⟩ := List.forall_mem_cons.1 hlinks
      cases links' with
      | nil =>
          obtain rfl : first = false := by
            cases first with
            | true => exact absurd rfl (hfirst rfl).2
            | false => rfl
          exact absurd h (link_ne_last _ _ _)
      | cons link' rest' =>
          obtain ⟨hbranch', hrest'⟩ := List.forall_mem_cons.1 hlinks'
          obtain ⟨hguard, hsame, hothers⟩ := link_inj hbranch hbranch' h
          obtain ⟨rfl, rfl⟩ := ih hrest hrest' (absurd · Bool.false_ne_true) hothers
          exact ⟨rfl, by rw [Prod.ext hguard hsame]⟩

/-- A text of lines ends with a newline. -/
theorem written_of_ne_nil (h : lines ≠ []) : ∃ front, written lines = front ++ ['\n'] := by
  obtain ⟨others, line, rfl⟩ := (List.eq_nil_or_concat' lines).resolve_left h
  exact ⟨written others ++ shownLine line, by simp [written]⟩

theorem written_guardLines (last : List (Nat × String)) (first : Bool)
    (links : List (String × List (Nat × String))) :
    ∃ front, written (guardLines last first links) = front ++ "\x7d\n".toList := by
  have hclosing : written [(0, "\x7d")] = "\x7d\n".toList := by decide
  induction links generalizing first with
  | nil =>
      rw [guardLines, written_cons, written_append, hclosing]
      exact ⟨_, (List.append_assoc ..).symm⟩
  | cons link rest ih =>
      obtain ⟨front, hfront⟩ := ih false
      rw [guardLines, written_append, written_append, written_cons, hfront]
      simp only [← List.append_assoc]
      exact ⟨_, rfl⟩

/-- The lines of a function end in another way than the line of a trap. -/
theorem written_function (owner : ClassName) (m : Method) (body : List (Nat × String)) :
    ∃ front, written ((SlotValue.function body).lines owner m) = front ++ "\n\x7d;\n".toList := by
  have hhead : (functionHead owner m ++ " \x7b").toList.getLast? ≠ some '\n' := by
    rw [Doc.getLast?_append _ (show " \x7b".toList.getLast? = some '\x7b' by decide)]
    decide
  have hnonempty : Doc.textLines 0 (functionHead owner m ++ " \x7b") ++
      shifted (body ++ if m.returnsThis then [(0, "return this;")] else []) ≠ [] := by
    intro hnil
    have htext := written_textLines hhead
    rw [(List.append_eq_nil_iff.1 hnil).1] at htext
    simp [written] at htext
  obtain ⟨front, hfront⟩ := written_of_ne_nil hnonempty
  refine ⟨front, ?_⟩
  have hclosing : written [(0, "\x7d;")] = "\x7d;\n".toList := by decide
  rw [SlotValue.lines, ← List.append_assoc, written_append, hfront, hclosing, List.append_assoc]
  rfl

theorem written_trap (owner : ClassName) (m : Method) :
    ∃ front, written (SlotValue.trap.lines owner m) = front ++ " \x7d;\n".toList := by
  have hback : (stubLine owner m).toList.getLast? ≠ some '\n' := by
    rw [stubLine, Doc.getLast?_append _ (show "') \x7d;".toList.getLast? = some ';' by decide)]
    decide
  have hend : "') \x7d;".toList ++ ['\n'] = "')".toList ++ " \x7d;\n".toList := by decide
  rw [SlotValue.lines, written_textLines hback, stubLine, String.toList_append, List.append_assoc,
    hend, ← List.append_assoc]
  exact ⟨_, rfl⟩

theorem written_value (owner : ClassName) (m : Method) (value : SlotValue) :
    ∃ front, written (value.lines owner m) = front ++ ";\n".toList := by
  cases value with
  | function body =>
      obtain ⟨front, hfront⟩ := written_function owner m body
      exact ⟨front ++ "\n\x7d".toList, by rw [hfront, List.append_assoc]; rfl⟩
  | trap =>
      obtain ⟨front, hfront⟩ := written_trap owner m
      exact ⟨front ++ " \x7d".toList, by rw [hfront, List.append_assoc]; rfl⟩

theorem SlotValue.lines_ne_nil (owner : ClassName) (m : Method) (value : SlotValue) :
    value.lines owner m ≠ [] := by
  intro hnil
  obtain ⟨front, htext⟩ := written_value owner m value
  rw [hnil] at htext
  exact absurd htext.symm (by simp [written])

/-- Behind a comment, too, the lines that bind a slot are read in one way. -/
theorem value_inj {front front' : List (Nat × String)} (hfront : ∀ line ∈ front, line.1 = 0)
    (hfront' : ∀ line ∈ front', line.1 = 0)
    (h : front ++ value.lines owner m = front' ++ value'.lines owner m) : value = value' := by
  have hends : ∀ {body : List (Nat × String)} {front front' : List (Nat × String)},
      front ++ (SlotValue.function body).lines owner m ≠ front' ++ SlotValue.trap.lines owner m := by
    intro body front front' h
    obtain ⟨rest, hrest⟩ := written_function owner m body
    obtain ⟨rest', hrest'⟩ := written_trap owner m
    have htext := congrArg written h
    rw [written_append, written_append, hrest, hrest', ← List.append_assoc, ← List.append_assoc] at htext
    exact absurd (List.append_inj_right' htext rfl) (by decide)
  cases value with
  | function body =>
      cases value' with
      | function body' =>
          have houter : ∀ front : List (Nat × String), (∀ line ∈ front, line.1 = 0) →
              ∀ line ∈ front ++ Doc.textLines 0 (functionHead owner m ++ " \x7b"), line.1 = 0 :=
            fun front hfront => List.forall_mem_append.2 ⟨hfront, fun _ => textLines_level⟩
          rw [SlotValue.lines, SlotValue.lines, ← List.append_assoc, ← List.append_assoc,
            ← List.append_assoc, ← List.append_assoc] at h
          have hinner := outer_inj (houter _ hfront) (houter _ hfront')
            (head?_shifted _) (head?_shifted _) (List.append_cancel_right h)
          exact congrArg SlotValue.function (List.append_cancel_right (shifted_injective hinner.2))
      | trap => exact absurd h hends
  | trap =>
      cases value' with
      | function body' => exact absurd h.symm hends
      | trap => rfl

/-- Lines bind a slot to one value only. -/
theorem Establishes.unique (h : Establishes owner m truth lines value)
    (h' : Establishes owner m truth lines value') : value = value' := by
  have hcomment : ∀ {front : List (Nat × String)},
      (front = [] ∨ ∃ text, front = Doc.textLines 0 ("// " ++ text)) → ∀ line ∈ front, line.1 = 0 := by
    rintro _ (rfl | ⟨text, rfl⟩)
    · exact fun _ hline => absurd hline List.not_mem_nil
    · exact fun _ => textLines_level
  have hends : ∀ {front last : List (Nat × String)} {value : SlotValue}
      {links : List (String × List (Nat × String))},
      front ++ value.lines owner m ≠ guardLines last true links := by
    intro front last value links h
    obtain ⟨rest, hrest⟩ := written_value owner m value
    obtain ⟨rest', hrest'⟩ := written_guardLines last true links
    have htext := congrArg written h
    rw [written_append, hrest, hrest', ← List.append_assoc] at htext
    exact absurd (List.append_inj_right' htext rfl) (by decide)
  cases h with
  | @bound front hfront =>
      generalize hlines : front ++ value.lines owner m = lines at h'
      cases h' with
      | bound hfront' => exact value_inj (hcomment hfront) (hcomment hfront') hlines
      | chosen _ _ _ => exact absurd hlines hends
  | @chosen links last _ hlinks hbranches hvalue =>
      generalize hlines : guardLines last true links = lines at h'
      cases h' with
      | bound _ => exact absurd hlines.symm hends
      | chosen hlinks' hbranches' hvalue' =>
          obtain ⟨rfl, rfl⟩ := guardLines_inj hbranches hbranches' (fun _ => ⟨hlinks, hlinks'⟩) hlines
          have hnone : ∀ line ∈ ([] : List (Nat × String)), line.1 = 0 := nofun
          exact value_inj hnone hnone (hvalue.symm.trans hvalue')

/-- So what they are found to bind it to is all there is. -/
theorem Establishes.iff (h : Establishes owner m truth lines value) :
    Establishes owner m truth lines value' ↔ value' = value := by
  constructor
  · exact fun h' => h'.unique h
  · exact fun hvalue => hvalue ▸ h

end Reading

end Emission

end ClassScript
