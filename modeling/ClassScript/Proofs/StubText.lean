import ClassScript.Proofs.BodySelection
import ClassScript.Proofs.ReadBack

/-!
The line of a stub, read back. The argument of the trap is the slot between single
quotes, as it stands in the text, and the escapes of the slot are those of a
double-quoted name. So the argument ends where it should just if no apostrophe in the
class or in the name of the method ends it before.
-/

namespace ClassScript

namespace Output.Doc

/-- The statements at the top of a document, in order. -/
def statements : Doc → List Doc
  | .empty => []
  | .seq first second => first.statements ++ second.statements
  | d => [d]

theorem statements_append (d e : Doc) : (d ++ e).statements = d.statements ++ e.statements := rfl

end Output.Doc

namespace Script

/-- The text up to the first apostrophe that no backslash takes up, and the text behind
it. -/
def untilApostrophe? : List Char → Option (List Char × List Char)
  | [] => none
  | '\\' :: c :: rest => (untilApostrophe? rest).map fun (front, back) => ('\\' :: c :: front, back)
  | c :: rest =>
      if c = '\x27' then some ([], rest)
      else (untilApostrophe? rest).map fun (front, back) => (c :: front, back)

section Scanning

variable {text front back : List Char} {c : Char}

theorem untilApostrophe?_cons (hquote : c ≠ '\x27') (hbackslash : c ≠ '\\') (rest : List Char) :
    untilApostrophe? (c :: rest) =
      (untilApostrophe? rest).map fun (front, back) => (c :: front, back) := by
  cases rest <;> simp [untilApostrophe?, hquote, hbackslash]

theorem untilApostrophe?_quote (rest : List Char) :
    untilApostrophe? ('\x27' :: rest) = some ([], rest) := by
  cases rest <;> simp [untilApostrophe?]

/-- What is found stays the first one, whatever is written behind the text. -/
theorem untilApostrophe?_append_of_some (h : untilApostrophe? text = some (front, back))
    (more : List Char) : untilApostrophe? (text ++ more) = some (front, back ++ more) := by
  fun_induction untilApostrophe? text generalizing front with
  | case1 => cases h
  | case2 c rest ih =>
      obtain ⟨⟨before, after⟩, hrest, heq⟩ := Option.map_eq_some_iff.1 h
      obtain ⟨rfl, rfl⟩ := Prod.mk.inj heq
      rw [List.cons_append, List.cons_append, untilApostrophe?, ih hrest]
      rfl
  | case3 rest =>
      obtain ⟨rfl, rfl⟩ := Prod.mk.inj (Option.some.inj h)
      rw [List.cons_append, untilApostrophe?_quote]
  | case4 c rest hescape hc ih =>
      obtain ⟨⟨before, after⟩, hrest, heq⟩ := Option.map_eq_some_iff.1 h
      obtain ⟨rfl, rfl⟩ := Prod.mk.inj heq
      have hbackslash : c ≠ '\\' := by
        rintro rfl
        cases rest with
        | nil => cases hrest
        | cons d rest => exact hescape d rest rfl rfl
      rw [List.cons_append, untilApostrophe?_cons hc hbackslash, ih hrest]
      rfl

/-- Where there is none, the search goes on behind the next character, which a backslash
at the end of the text takes up. -/
theorem untilApostrophe?_append_of_none (h : untilApostrophe? text = none) (hquote : c ≠ '\x27')
    (hbackslash : c ≠ '\\') (rest : List Char) :
    untilApostrophe? (text ++ c :: rest) =
      (untilApostrophe? rest).map fun (front, back) => (text ++ c :: front, back) := by
  fun_induction untilApostrophe? text with
  | case1 => exact untilApostrophe?_cons hquote hbackslash rest
  | case2 d more ih =>
      rw [List.cons_append, List.cons_append, untilApostrophe?, ih (Option.map_eq_none_iff.1 h),
        Option.map_map]
      rfl
  | case3 d more => cases h
  | case4 d more hescape hd ih =>
      by_cases hlast : d = '\\'
      · subst hlast
        cases more with
        | nil => rw [List.singleton_append, untilApostrophe?]; rfl
        | cons e more => exact absurd rfl (hescape e more rfl)
      · rw [List.cons_append, untilApostrophe?_cons hd hlast, ih (Option.map_eq_none_iff.1 h),
          Option.map_map]
        rfl

/-- Text without apostrophes and backslashes is passed over. -/
theorem untilApostrophe?_plain (h : ∀ c ∈ text, c ≠ '\x27' ∧ c ≠ '\\') (rest : List Char) :
    untilApostrophe? (text ++ rest) =
      (untilApostrophe? rest).map fun (front, back) => (text ++ front, back) := by
  induction text with
  | nil => exact (congrFun Option.map_id _).symm
  | cons c text ih =>
      obtain ⟨hquote, hbackslash⟩ := h c List.mem_cons_self
      rw [List.cons_append, untilApostrophe?_cons hquote hbackslash,
        ih fun d hd => h d (List.mem_cons_of_mem _ hd), Option.map_map]
      rfl

/-- So is every character of a double-quoted literal but an apostrophe. -/
theorem untilApostrophe?_escape (hquote : c ≠ '\x27') (rest : List Char) :
    untilApostrophe? (escape c ++ rest) =
      (untilApostrophe? rest).map fun (front, back) => (escape c ++ front, back) := by
  have hdigits : ∀ d ∈ Text.hexDigits 4 c.toNat, d ≠ '\x27' ∧ d ≠ '\\' := by
    intro d hd
    have hall : ∀ n < 16, Text.hexDigit n ≠ '\x27' := by decide
    obtain ⟨n, hn, hdigit⟩ := exists_of_mem_hexDigits hd
    exact ⟨hdigit ▸ hall n hn, (plain_of_mem_hexDigits hd).2.1⟩
  unfold escape
  split
  · rfl
  split
  · rfl
  split
  · rfl
  split
  · rfl
  split
  · rfl
  split
  · rw [List.cons_append, List.cons_append, untilApostrophe?, untilApostrophe?_plain hdigits,
      Option.map_map]
    rfl
  · next hbackslash _ _ _ _ => exact untilApostrophe?_cons hquote hbackslash rest

/-- A quoted name is passed over if there is no apostrophe in it, and left at the first
one otherwise. -/
theorem untilApostrophe?_escaped (name : List Char) (rest : List Char) :
    untilApostrophe? (name.flatMap escape ++ rest) =
      if '\x27' ∈ name then
        some ((name.takeWhile (· ≠ '\x27')).flatMap escape,
          ((name.dropWhile (· ≠ '\x27')).tail).flatMap escape ++ rest)
      else (untilApostrophe? rest).map fun (front, back) => (name.flatMap escape ++ front, back) := by
  induction name with
  | nil => exact (congrFun Option.map_id _).symm
  | cons c name ih =>
      rw [List.flatMap_cons, List.append_assoc]
      by_cases hc : c = '\x27'
      · subst hc
        have hself : escape '\x27' = ['\x27'] := by decide
        rw [hself, List.singleton_append, untilApostrophe?_quote, if_pos List.mem_cons_self]
        simp
      · rw [untilApostrophe?_escape hc, ih]
        by_cases hname : '\x27' ∈ name
        · rw [if_pos hname, if_pos (List.mem_cons_of_mem _ hname)]
          simp [hc]
        · rw [if_neg hname, if_neg (List.not_mem_cons_of_ne_of_not_mem (Ne.symm hc) hname),
            Option.map_map]
          simp only [Function.comp_def, List.append_assoc]

end Scanning

/-- The value of a single-quoted literal behind its opening quote, with the text after
it. -/
def readArgument? : List Char → Option (List UInt16 × List Char) :=
  readElements? '\x27'

theorem readArgument?_quote (rest : List Char) : readArgument? ('\x27' :: rest) = some ([], rest) :=
  readElements?_quote '\x27' rest

/-- Text that needs no escapes stands for itself. -/
theorem readArgument?_plain {text : List Char}
    (h : ∀ c ∈ text, c ≠ '\x27' ∧ c ≠ '\\' ∧ isLineEnd c = false) (rest : List Char) :
    readArgument? (text ++ rest) =
      (readArgument? rest).map fun (more, rest) => (utf16 text ++ more, rest) := by
  induction text with
  | nil => exact (congrFun Option.map_id _).symm
  | cons c text ih =>
      obtain ⟨hquote, hbackslash, hend⟩ := h c List.mem_cons_self
      have hread : readElement? '\x27' (c :: (text ++ rest)) = some (units c.toNat, text ++ rest) := by
        simp [readElement?, hquote, hbackslash, hend]
      have hfirst : readArgument? (c :: (text ++ rest)) = (readArgument? (text ++ rest)).map
          fun (more, rest) => (units c.toNat ++ more, rest) :=
        readElements?_of_readElement? (by simpa using hquote) hread
      rw [List.cons_append, hfirst, ih fun d hd => h d (List.mem_cons_of_mem _ hd), Option.map_map]
      simp only [Function.comp_def, utf16, List.flatMap_cons, List.append_assoc]

/-- A character of a double-quoted literal stands for the same in a single-quoted one, if
it is no apostrophe. -/
theorem readArgument?_escaped {name : List Char} (h : '\x27' ∉ name) (rest : List Char) :
    readArgument? (name.flatMap escape ++ rest) =
      (readArgument? rest).map fun (more, rest) => (utf16 name ++ more, rest) := by
  refine readElements?_escaped (fun c hc => ?_) rest
  have hquote : c ≠ '\x27' := fun heq => h (heq ▸ hc)
  unfold escape
  split_ifs <;> simp [hquote]

end Script

namespace Emission

open Output

section Slots

open Script

variable {owner : ClassName} {m : Method}

/-- The slot as a reader sees it: the name of the method without escapes. -/
def shownSlot (owner : ClassName) (m : Method) : String :=
  memberBase owner m.isStatic ++
    if isPlain (methodName m).toList then "." ++ methodName m else "[\"" ++ methodName m ++ "\"]"

theorem methodSlot_plain (h : isPlain (methodName m).toList = true) (rest : List Char) :
    (methodSlot owner m).toList ++ rest =
      (memberBase owner m.isStatic).toList ++ '.' :: ((methodName m).toList ++ rest) := by
  rw [methodSlot, String.toList_append, toList_member_plain h, List.append_assoc, List.cons_append]

theorem methodSlot_quoted (h : isPlain (methodName m).toList = false) (rest : List Char) :
    (methodSlot owner m).toList ++ rest = (memberBase owner m.isStatic).toList ++
      '[' :: '"' :: ((methodName m).toList.flatMap escape ++ '"' :: ']' :: rest) := by
  rw [methodSlot, String.toList_append, toList_member h, Script.literal]
  simp only [List.append_assoc, List.cons_append, List.nil_append]

/-- A name that may follow a dot needs no escapes in a literal. -/
theorem unescaped_of_isPlain {name : List Char} (h : isPlain name = true) :
    ∀ c ∈ name, c ≠ '\x27' ∧ c ≠ '\\' ∧ isLineEnd c = false := by
  intro c hc
  have hplain := isPlainChar_of_isPlain h hc
  have hother : ['\x27', '\\', '\n', '\r', '\u2028', '\u2029'].all (!isPlainChar ·) = true := by
    decide +kernel
  have hnotMem : c ∉ ['\x27', '\\', '\n', '\r', '\u2028', '\u2029'] := by
    intro hmem
    have hnot : (!isPlainChar c) = true := List.all_eq_true.1 hother c hmem
    simp [hplain] at hnot
  simpa [isLineEnd, and_assoc] using hnotMem

/-- The prototype adds no apostrophe to the base of a slot. -/
theorem untilApostrophe?_memberBase (n : ClassName) (isStatic : Bool) :
    untilApostrophe? (memberBase n isStatic).toList = none ↔
      untilApostrophe? n.identifier.toList = none := by
  cases isStatic with
  | true => rfl
  | false =>
      rw [memberBase, if_neg Bool.false_ne_true, String.toList_append]
      have hprototype : ".prototype".toList = '.' :: "prototype".toList := rfl
      cases hscan : untilApostrophe? n.identifier.toList with
      | none =>
          rw [hprototype, untilApostrophe?_append_of_none hscan (by decide) (by decide)]
          exact iff_of_true rfl rfl
      | some found => simp [untilApostrophe?_append_of_some hscan]

/-- With no apostrophe in class and name, the slot is all that stands before the closing
quote. -/
theorem untilApostrophe?_slot (howner : untilApostrophe? owner.identifier.toList = none)
    (hname : '\x27' ∉ (methodName m).toList) (rest : List Char) :
    untilApostrophe? ((methodSlot owner m).toList ++ '\x27' :: rest) =
      some ((methodSlot owner m).toList, rest) := by
  have hbase := (untilApostrophe?_memberBase owner m.isStatic).2 howner
  have hself : (methodSlot owner m).toList = (methodSlot owner m).toList ++ [] := by simp
  cases hplain : isPlain (methodName m).toList with
  | true =>
      have hchars : ∀ c ∈ (methodName m).toList, c ≠ '\x27' ∧ c ≠ '\\' := fun c hc =>
        ⟨(unescaped_of_isPlain hplain c hc).1, (unescaped_of_isPlain hplain c hc).2.1⟩
      rw [methodSlot_plain hplain, untilApostrophe?_append_of_none hbase (by decide) (by decide),
        untilApostrophe?_plain hchars, untilApostrophe?_quote, hself, methodSlot_plain hplain]
      rfl
  | false =>
      rw [methodSlot_quoted hplain, untilApostrophe?_append_of_none hbase (by decide) (by decide),
        untilApostrophe?_cons (by decide) (by decide), untilApostrophe?_escaped, if_neg hname,
        untilApostrophe?_cons (by decide) (by decide), untilApostrophe?_cons (by decide) (by decide),
        untilApostrophe?_quote, hself, methodSlot_quoted hplain]
      rfl

/-- An apostrophe in the class or in the name ends the literal before the slot does. -/
theorem untilApostrophe?_slot_ne
    (h : untilApostrophe? owner.identifier.toList ≠ none ∨ '\x27' ∈ (methodName m).toList)
    (rest : List Char) :
    untilApostrophe? ((methodSlot owner m).toList ++ '\x27' :: rest) ≠
      some ((methodSlot owner m).toList, rest) := by
  intro hscan
  -- what follows the first apostrophe has the closing one still in it, so it is too long
  have hlength : ∀ {front back more : List Char}, some (front, back ++ '\x27' :: more) =
      some ((methodSlot owner m).toList, rest) → rest.length ≤ more.length → False := by
    intro front back more heq hle
    have hrest := congrArg List.length (Prod.mk.inj (Option.some.inj heq)).2
    rw [List.length_append, List.length_cons] at hrest
    omega
  cases hbase : untilApostrophe? (memberBase owner m.isStatic).toList with
  | some found =>
      obtain ⟨front, back⟩ := found
      have hslot : (methodSlot owner m).toList =
          (memberBase owner m.isStatic).toList ++ (member (methodName m)).toList :=
        String.toList_append
      have hfound := untilApostrophe?_append_of_some hbase
        ((member (methodName m)).toList ++ '\x27' :: rest)
      rw [← List.append_assoc, ← hslot, hscan, ← List.append_assoc] at hfound
      exact hlength hfound.symm (Nat.le_refl _)
  | none =>
      have howner := (untilApostrophe?_memberBase owner m.isStatic).1 hbase
      have hname := h.resolve_left (not_not_intro howner)
      have hplain : isPlain (methodName m).toList = false := by
        rw [← Bool.not_eq_true]
        exact fun hplain => (unescaped_of_isPlain hplain _ hname).1 rfl
      rw [methodSlot_quoted hplain, untilApostrophe?_append_of_none hbase (by decide) (by decide),
        untilApostrophe?_cons (by decide) (by decide), untilApostrophe?_escaped, if_pos hname,
        Option.map_some, Option.map_some, List.append_cons, List.append_cons] at hscan
      exact hlength hscan (Nat.le_refl _)

theorem shownSlot_plain (h : isPlain (methodName m).toList = true) :
    (shownSlot owner m).toList =
      (memberBase owner m.isStatic).toList ++ '.' :: (methodName m).toList := by
  rw [shownSlot, if_pos h, String.toList_append, String.toList_append]
  rfl

theorem shownSlot_quoted (h : isPlain (methodName m).toList = false) :
    (shownSlot owner m).toList = ((memberBase owner m.isStatic).toList ++ ['[', '"']) ++
      ((methodName m).toList ++ ['"', ']']) := by
  rw [shownSlot, if_neg (by simp [h])]
  simp

/-- The base of a slot needs no escapes if the name of the class needs none. -/
theorem unescaped_memberBase
    (h : ∀ c ∈ owner.text.toList, c ≠ '\x27' ∧ c ≠ '\\' ∧ isLineEnd c = false) (isStatic : Bool) :
    ∀ c ∈ (memberBase owner isStatic).toList, c ≠ '\x27' ∧ c ≠ '\\' ∧ isLineEnd c = false := by
  have hidentifier : ∀ c ∈ owner.identifier.toList, c ≠ '\x27' ∧ c ≠ '\\' ∧ isLineEnd c = false := by
    rw [ClassName.identifier, String.toList_map]
    exact forall_mem_replaced (by decide) fun c hc _ => h c hc
  rw [memberBase]
  split
  · exact hidentifier
  · rw [String.toList_append]
    exact List.forall_mem_append.2 ⟨hidentifier, forall_mem_of_all (by decide)⟩

/-- Read back, the literal shows the name of the method as it is. -/
theorem readArgument?_slot
    (howner : ∀ c ∈ owner.text.toList, c ≠ '\x27' ∧ c ≠ '\\' ∧ isLineEnd c = false)
    (hname : '\x27' ∉ (methodName m).toList) (rest : List Char) :
    readArgument? ((methodSlot owner m).toList ++ '\x27' :: rest) =
      some (utf16 (shownSlot owner m).toList, rest) := by
  have hbase := unescaped_memberBase howner m.isStatic
  cases hplain : isPlain (methodName m).toList with
  | true =>
      have hchars : ∀ c ∈ (shownSlot owner m).toList, c ≠ '\x27' ∧ c ≠ '\\' ∧ isLineEnd c = false := by
        rw [shownSlot_plain hplain]
        exact List.forall_mem_append.2 ⟨hbase, List.forall_mem_cons.2
          ⟨by decide, unescaped_of_isPlain hplain⟩⟩
      have htext : (methodSlot owner m).toList ++ '\x27' :: rest =
          (shownSlot owner m).toList ++ '\x27' :: rest := by
        rw [methodSlot_plain hplain, shownSlot_plain hplain, List.append_assoc, List.cons_append]
      rw [htext, readArgument?_plain hchars, readArgument?_quote]
      simp only [Option.map_some, List.append_nil]
  | false =>
      have hopen : ∀ c ∈ (memberBase owner m.isStatic).toList ++ ['[', '"'],
          c ≠ '\x27' ∧ c ≠ '\\' ∧ isLineEnd c = false :=
        List.forall_mem_append.2 ⟨hbase, forall_mem_of_all (by decide)⟩
      have hclose : ∀ c ∈ ['"', ']'], c ≠ '\x27' ∧ c ≠ '\\' ∧ isLineEnd c = false :=
        forall_mem_of_all (by decide)
      have htext : (methodSlot owner m).toList ++ '\x27' :: rest =
          ((memberBase owner m.isStatic).toList ++ ['[', '"']) ++
            ((methodName m).toList.flatMap escape ++ (['"', ']'] ++ '\x27' :: rest)) := by
        rw [methodSlot_quoted hplain, List.append_assoc]
        rfl
      rw [htext, readArgument?_plain hopen, readArgument?_escaped hname, readArgument?_plain hclose,
        readArgument?_quote, shownSlot_quoted hplain]
      simp only [Option.map_some, utf16, List.flatMap_append, List.append_nil]

end Slots

section Lines

variable {job : Job} {owner : ClassName} {m : Method} {s t : State} {d : Doc}

/-- The line of a stub up to its argument, with the opening quote. -/
def stubFront (slot : String) : String :=
  slot ++ " = function() \x7b N.methodWithoutBody('"

/-- The line of a stub behind its argument. -/
def stubBack : String := ") \x7d;"

/-- The argument of the trap and what follows it, if a document ends with a line that
binds the slot to the trap. -/
def trapArgument? (slot : String) (d : Doc) : Option (List Char) :=
  match d.statements.getLast? with
  | some (.line text) => text.toList.dropPrefix? (stubFront slot).toList
  | _ => none

theorem trapArgument?_append_bindStub (slot : String) (d : Doc) :
    trapArgument? slot (d ++ bindStub slot) = some (slot.toList ++ '\x27' :: stubBack.toList) := by
  have hline : bindStub slot = .line (stubFront slot ++ (slot ++ "'" ++ stubBack)) := by
    simp only [bindStub, stubFront, stubBack, String.append_assoc]
    rfl
  have hlast : (d ++ bindStub slot).statements.getLast? = some (bindStub slot) :=
    List.getLast?_concat ..
  have hchars : (stubFront slot ++ (slot ++ "'" ++ stubBack)).toList =
      (stubFront slot).toList ++ (slot.toList ++ '\x27' :: stubBack.toList) := by
    simp
  rw [trapArgument?, hlast, hline]
  simp only [hchars, Script.dropPrefix?_append]

theorem trapArgument?_bindStub (slot : String) :
    trapArgument? slot (bindStub slot) = some (slot.toList ++ '\x27' :: stubBack.toList) :=
  trapArgument?_append_bindStub slot .empty

/-- Of all that can bind a slot, the stub alone ends with such a line. -/
theorem Binds.trapArgument? {slot : String} {argument : List Char} (h : Binds m slot d)
    (hargument : trapArgument? slot d = some argument) :
    argument = slot.toList ++ '\x27' :: stubBack.toList := by
  cases h with
  | function body => cases hargument
  | trap => exact Option.some.inj (hargument.symm.trans (trapArgument?_bindStub slot))
  | chain fallback guarded =>
      have hlast : (guardChain (bindFunction m slot) fallback guarded).statements.getLast? =
          some (.block "else" (bindFunction m slot fallback) "") := by
        rw [guardChain, Doc.statements_append]
        exact List.getLast?_concat ..
      rw [Emission.trapArgument?, hlast] at hargument
      cases hargument

theorem lowerMethod_trapArgument? {argument : List Char}
    (h : (lowerMethod job owner m).run s = (.ok d, t))
    (hargument : trapArgument? (methodSlot owner m) d = some argument) :
    argument = (methodSlot owner m).toList ++ '\x27' :: stubBack.toList := by
  rcases lowerMethod_binds h with hbinds | ⟨error, rfl⟩
  · exact hbinds.trapArgument? hargument
  · exact Option.some.inj (hargument.symm.trans (trapArgument?_append_bindStub _ _))

/-- A method without any body ends with the line of a stub, and so does one whose failure
has been noted. Its argument is the slot, up to the first apostrophe that no backslash
takes up and with the line closed behind it, just if there is no such apostrophe in the
identifier of the class and none at all in the name of the method. For a class name
without escapes and line ends, its value then shows the name as it is. -/
theorem stub_encloses (h : (lowerMethod job owner m).run s = (.ok d, t)) :
    (m.nativesFor job.config.target = [] ∧ generatedBody? job.program m = none ∨
        t.stubs ≠ s.stubs → (trapArgument? (methodSlot owner m) d).isSome) ∧
    ∀ argument, trapArgument? (methodSlot owner m) d = some argument →
      (Script.untilApostrophe? argument = some ((methodSlot owner m).toList, stubBack.toList) ↔
        Script.untilApostrophe? owner.identifier.toList = none ∧
          '\x27' ∉ (methodName m).toList) ∧
      ((∀ c ∈ owner.text.toList, c ≠ '\x27' ∧ c ≠ '\\' ∧ Script.isLineEnd c = false) →
        '\x27' ∉ (methodName m).toList →
        Script.readArgument? argument =
          some (Script.utf16 (shownSlot owner m).toList, stubBack.toList)) := by
  refine ⟨?_, fun argument hargument => ?_⟩
  · rintro (⟨hnone, hbody⟩ | hnoted)
    · rw [lowerMethod_trap hnone hbody] at h
      obtain rfl := Except.ok.inj (Prod.mk.inj h).1
      rw [trapArgument?_bindStub]
      rfl
    · rcases lowerMethod_ends h with ⟨-, hsame⟩ | ⟨error, rfl, -⟩
      · exact absurd hsame hnoted
      · rw [stubDoc_eq, trapArgument?_append_bindStub]
        rfl
  · obtain rfl := lowerMethod_trapArgument? h hargument
    refine ⟨⟨fun hscan => ?_, fun hnone => untilApostrophe?_slot hnone.1 hnone.2 _⟩,
      fun howner hname => readArgument?_slot howner hname _⟩
    by_contra hsome
    rw [not_and_or, not_not] at hsome
    exact untilApostrophe?_slot_ne hsome _ hscan

/-- A static method of the main class that has no body. -/
def mute (name : String) : Method :=
  { Method.mentioning "Main" "" .nop with name, body := none }

theorem run_mute (name : String) (s : State) :
    (lowerMethod ⟨.bare "Main", {}, plainTemplater⟩ ⟨"Main"⟩ (mute name)).run s =
      (.ok (bindStub (methodSlot ⟨"Main"⟩ (mute name))), s) :=
  lowerMethod_trap rfl rfl s

/-- A name with a quote and a backslash is shown as it is. -/
theorem stub_encloses_mute : ∃ argument,
    trapArgument? (methodSlot ⟨"Main"⟩ (mute "say\"\\"))
        (bindStub (methodSlot ⟨"Main"⟩ (mute "say\"\\"))) = some argument ∧
      Script.readArgument? argument =
        some (Script.utf16 "Main[\"say\"\\()V\"]".toList, stubBack.toList) := by
  have hstub := stub_encloses (run_mute "say\"\\" .initial)
  obtain ⟨argument, hargument⟩ := Option.isSome_iff_exists.1 (hstub.1 (.inl ⟨rfl, rfl⟩))
  have hshown : shownSlot ⟨"Main"⟩ (mute "say\"\\") = "Main[\"say\"\\()V\"]" := by decide +kernel
  refine ⟨argument, hargument, ?_⟩
  rw [← hshown]
  exact (hstub.2 argument hargument).2 (forall_mem_of_all (by decide +kernel)) (by decide +kernel)

/-- An apostrophe in the name of a method ends the literal there. -/
theorem stub_torn : ∃ argument,
    (lowerMethod ⟨.bare "Main", {}, plainTemplater⟩ ⟨"Main"⟩ (mute "it's")).run .initial =
      (.ok (bindStub (methodSlot ⟨"Main"⟩ (mute "it's"))), .initial) ∧
    trapArgument? (methodSlot ⟨"Main"⟩ (mute "it's"))
      (bindStub (methodSlot ⟨"Main"⟩ (mute "it's"))) = some argument ∧
    Script.untilApostrophe? argument = some ("Main[\"it".toList, "s()V\"]') \x7d;".toList) := by
  refine ⟨_, run_mute "it's" .initial, trapArgument?_bindStub _, ?_⟩
  decide +kernel

end Lines

end Emission

end ClassScript
