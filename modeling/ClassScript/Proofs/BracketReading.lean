import ClassScript.Proofs.ReadBack
import Mathlib.Data.List.Induction

/-!
Script text read for its brackets. What stands outside brackets and literals is the
outline of a text: it tells whether the text is an operand, that is, a unary
expression. An operand may stand in any other text without a change to how the brackets
of that text match or to what stands between its operators.
-/

namespace ClassScript.Brackets

open Script

/-- Where a reader is: in code, in a literal, or behind a backslash in one. -/
inductive Place where
  | code
  | literal
  | escaped
  deriving DecidableEq

/-- The place of a reader, and what closes the brackets that are open there, the
innermost first. -/
structure Position where
  place : Place
  pending : List Char
  deriving DecidableEq

namespace Position

/-- In code, with no bracket open. -/
def start : Position := ⟨.code, []⟩

/-- The position behind a character. A bracket is closed by its counterpart only, and
no bracket counts in a literal. -/
def step? (p : Position) (c : Char) : Option Position :=
  match p.place with
  | .escaped => some ⟨.literal, p.pending⟩
  | .literal =>
      some ⟨if c = '\\' then .escaped else if c = '"' then .code else .literal, p.pending⟩
  | .code =>
      if c = '"' then some ⟨.literal, p.pending⟩
      else if c = '(' then some ⟨.code, ')' :: p.pending⟩
      else if c = '[' then some ⟨.code, ']' :: p.pending⟩
      else if c = ')' ∨ c = ']' then
        match p.pending with
        | [] => none
        | closer :: outer => if c = closer then some ⟨.code, outer⟩ else none
      else some p

/-- The outline of a text and the position behind it. In the outline stand the characters
that are read outside brackets and literals; so a bracket is left with the one that opens
it, and a literal with its first quote. -/
def read? (p : Position) : List Char → Option (List Char × Position)
  | [] => some ([], p)
  | c :: rest => do
      let q ← p.step? c
      let (outline, last) ← q.read? rest
      return (if p = start then c :: outline else outline, last)

/-- The position with more brackets open around it. -/
def inside (p : Position) (outer : List Char) : Position :=
  ⟨p.place, p.pending ++ outer⟩

variable {p q : Position} {outer : List Char}

theorem inside_ne_start (houter : outer ≠ []) : p.inside outer ≠ start := by
  intro h
  exact houter (List.append_eq_nil_iff.1 (congrArg Position.pending h)).2

theorem step?_inside {c : Char} (h : p.step? c = some q) (outer : List Char) :
    (p.inside outer).step? c = some (q.inside outer) := by
  obtain ⟨place, pending⟩ := p
  cases place with
  | escaped | literal =>
      obtain rfl := Option.some.inj h
      rfl
  | code =>
      simp only [step?] at h
      split at h
      · next hquote =>
          obtain rfl := Option.some.inj h
          simp [inside, step?, hquote]
      split at h
      · next hround =>
          obtain rfl := Option.some.inj h
          simp [inside, step?, hround]
      split at h
      · next hsquare =>
          obtain rfl := Option.some.inj h
          simp [inside, step?, hsquare]
      split at h
      · next hquote hround hsquare hclose =>
          cases pending with
          | nil => cases h
          | cons closer more =>
              obtain ⟨rfl, hq⟩ := Option.ite_none_right_eq_some.1 h
              obtain rfl := Option.some.inj hq
              simp [inside, step?, hquote, hround, hsquare, hclose]
      · next hquote hround hsquare hclose =>
          obtain rfl := Option.some.inj h
          simp [inside, step?, hquote, hround, hsquare, hclose]

theorem read?_append (p : Position) (text more : List Char) :
    p.read? (text ++ more) = do
      let (outline, q) ← p.read? text
      let (others, last) ← q.read? more
      return (outline ++ others, last) := by
  induction text generalizing p with
  | nil =>
      change p.read? more = (p.read? more).bind fun r => some r
      rw [Option.bind_fun_some]
  | cons c rest ih =>
      simp only [List.cons_append, read?, Option.bind_eq_bind, Option.bind_assoc]
      refine Option.bind_congr fun q _ => ?_
      rw [ih]
      simp only [Option.bind_eq_bind, Option.bind_assoc, Option.pure_def, Option.bind_some]
      refine Option.bind_congr fun r _ => Option.bind_congr fun s _ => ?_
      split <;> rfl

theorem read?_append_of_eq {text outline : List Char} (h : p.read? text = some (outline, q))
    (more : List Char) :
    p.read? (text ++ more) = (q.read? more).map fun r => (outline ++ r.1, r.2) := by
  rw [read?_append, h, Option.map_eq_bind]
  rfl

/-- What has been read is read up to everywhere on the way. -/
theorem exists_read?_of_prefix {front text outline : List Char}
    (h : p.read? text = some (outline, q)) (hfront : front <+: text) :
    ∃ shown r, p.read? front = some (shown, r) := by
  obtain ⟨back, rfl⟩ := hfront
  rw [read?_append] at h
  obtain ⟨⟨shown, r⟩, hread, -⟩ := Option.bind_eq_some_iff.1 h
  exact ⟨shown, r, hread⟩

/-- With brackets open around it, a text is read alike and leaves no outline. -/
theorem read?_inside {text outline : List Char} (h : p.read? text = some (outline, q))
    (houter : outer ≠ []) : (p.inside outer).read? text = some ([], q.inside outer) := by
  induction text generalizing p outline with
  | nil =>
      obtain ⟨-, rfl⟩ := Prod.mk.inj (Option.some.inj h)
      rfl
  | cons c rest ih =>
      obtain ⟨r, hstep, h⟩ := Option.bind_eq_some_iff.1 h
      obtain ⟨⟨shown, last⟩, hread, h⟩ := Option.bind_eq_some_iff.1 h
      obtain ⟨-, rfl⟩ := Prod.mk.inj (Option.some.inj h)
      simp [read?, step?_inside hstep, ih hread, inside_ne_start houter]

/-- A text that closes what it opens, and nothing else, changes nothing for the text
behind it. Its own outline is part of the whole one outside brackets only. -/
theorem read?_closed {text outline : List Char} (h : start.read? text = some (outline, start))
    (hp : p.place = .code) (more : List Char) :
    p.read? (text ++ more) =
      (p.read? more).map fun r => ((if p.pending = [] then outline else []) ++ r.1, r.2) := by
  have hread : p.read? text = some (if p.pending = [] then outline else [], p) := by
    obtain ⟨place, pending⟩ := p
    obtain rfl : place = .code := hp
    by_cases hpending : pending = []
    · subst hpending
      exact h
    · rw [if_neg hpending]
      exact read?_inside h hpending
  exact read?_append_of_eq hread more

/-- Whether a character is neither a quote nor a bracket. -/
def isInert (c : Char) : Bool :=
  c ∉ ['"', '(', ')', '[', ']']

theorem step?_inert {c : Char} (hp : p.place = .code) (hc : isInert c = true) :
    p.step? c = some p := by
  simp only [isInert, List.mem_cons, List.not_mem_nil, or_false, not_or, decide_eq_true_eq] at hc
  simp [step?, hp, hc]

theorem read?_inert {text : List Char} (h : ∀ c ∈ text, isInert c = true) :
    start.read? text = some (text, start) := by
  induction text with
  | nil => rfl
  | cons c rest ih =>
      obtain ⟨hc, hrest⟩ := List.forall_mem_cons.1 h
      have hstep : start.step? c = some start := step?_inert rfl hc
      simp [read?, hstep, ih hrest]

/-- Nothing in a literal ends it before its last quote does. -/
theorem read?_escape (pending : List Char) (c : Char) :
    (Position.mk .literal pending).read? (escape c) = some ([], ⟨.literal, pending⟩) := by
  have hplain : ∀ text : List Char, (∀ d ∈ text, d ≠ '"' ∧ d ≠ '\\') →
      (Position.mk .literal pending).read? text = some ([], ⟨.literal, pending⟩) := by
    intro text h
    induction text with
    | nil => rfl
    | cons d rest ih =>
        obtain ⟨⟨hquote, hbackslash⟩, hrest⟩ := List.forall_mem_cons.1 h
        simp [read?, step?, hquote, hbackslash, ih hrest, start]
  unfold escape
  split
  · simp [read?, step?, start]
  split
  · simp [read?, step?, start]
  split
  · simp [read?, step?, start]
  split
  · simp [read?, step?, start]
  split
  · simp [read?, step?, start]
  split
  · have hdigits := hplain (Text.hexDigits 4 c.toNat) fun d hd =>
      let h := plain_of_mem_hexDigits hd
      ⟨h.1, h.2.1⟩
    simp [read?, step?, start, hdigits]
  · next hquote hbackslash _ _ _ _ =>
      exact hplain [c] fun d hd => List.mem_singleton.1 hd ▸ ⟨hquote, hbackslash⟩

theorem read?_literal (s : List Char) : start.read? (literal s) = some (['"'], start) := by
  have hbody : (Position.mk .literal []).read? (s.flatMap escape ++ ['"']) = some ([], start) := by
    induction s with
    | nil => rfl
    | cons c s ih =>
        rw [List.flatMap_cons, List.append_assoc, read?_append_of_eq (read?_escape [] c), ih]
        rfl
  have hopen : start.step? '"' = some ⟨.literal, []⟩ := rfl
  rw [literal, read?, hopen, Option.bind_eq_bind, Option.bind_some, hbody]
  rfl

end Position

open Position

/-- The signs that may stand in front of an operand. -/
def prefixSigns : List Char := ['+', '-', '!', '~']

/-- What of an operand has been read: nothing yet, signs only, a first word, a name behind
a point or behind `new`, a number up to some character, or something in brackets. -/
inductive Part where
  | front
  | signed
  | word (chars : List Char)
  | name
  | number (last : Char)
  | behind
  deriving DecidableEq

/-- White space, of the script language or of Unicode. -/
def blanks : List Char :=
  ['\t', '\n', '\x0b', '\x0c', '\r', ' ', '\u0085', '\u00a0', '\u1680', '\u2000', '\u2001',
   '\u2002', '\u2003', '\u2004', '\u2005', '\u2006', '\u2007', '\u2008', '\u2009', '\u200a',
   '\u2028', '\u2029', '\u202f', '\u205f', '\u3000', '\ufeff']

/-- The characters of separators and of binary operators that are not also signs. -/
def separators : List Char :=
  [',', ';', '?', ':', '*', '/', '%', '&', '|', '^', '<', '>', '=']

namespace Part

/-- How an operand goes on outside brackets. Signs stand in front of brackets only, and
behind brackets there are only accesses and more brackets. A number has no sign but that
of its exponent. -/
def next? (part : Part) (c : Char) : Option Part :=
  if c = '(' ∨ c = '[' then some .behind
  else
    match part with
    | .front =>
        if c ∈ prefixSigns then some .signed
        else if c = '.' then some .name
        else if c.isDigit then some (.number c)
        else if isVariableChar c then some (.word [c])
        else none
    | .signed => if c ∈ prefixSigns then some .signed else none
    | .word chars =>
        if c = '.' then some .name
        else if c = ' ' ∧ chars = ['n', 'e', 'w'] then some .name
        else if isVariableChar c then some (.word (chars ++ [c]))
        else none
    | .name => if c = '.' ∨ isVariableChar c then some .name else none
    | .number last =>
        if c = '.' ∨ isVariableChar c ∨ (c = '+' ∨ c = '-') ∧ (last = 'e' ∨ last = 'E') then
          some (.number c)
        else none
    | .behind => if c = '.' then some .name else none

/-- Whether an operand may end there. -/
def ends : Part → Bool
  | .front | .signed => false
  | .word chars => chars ≠ ['n', 'e', 'w']
  | .name | .number _ | .behind => true

/-- What has been read behind an outline. -/
def read? (part : Part) (outline : List Char) : Option Part :=
  outline.foldlM next? part

theorem read?_append (part : Part) (outline more : List Char) :
    part.read? (outline ++ more) = (part.read? outline).bind (·.read? more) :=
  List.foldlM_append

variable {part next : Part} {c : Char} {outline : List Char}

/-- The characters of an operand. -/
theorem cases_of_next? (h : part.next? c = some next) :
    c ∈ prefixSigns ∨ isVariableChar c = true ∨ c ∈ ['.', '(', '['] ∨
      c = ' ' ∧ part = .word ['n', 'e', 'w'] := by
  unfold next? at h
  split at h
  · next hbracket => grind
  · cases part <;> grind [prefixSigns, isVariableChar_of_isDigit]

theorem mem_of_read? (h : part.read? outline = some next) :
    ∀ c ∈ outline, c ∈ prefixSigns ∨ isVariableChar c = true ∨ c ∈ ['.', '(', '[', ' '] := by
  induction outline generalizing part with
  | nil => simp
  | cons c rest ih =>
      obtain ⟨between, hnext, hrest⟩ := Option.bind_eq_some_iff.1 h
      refine List.forall_mem_cons.2 ⟨?_, ih hrest⟩
      rcases cases_of_next? hnext with hsign | hvariable | hother | ⟨hblank, -⟩
      · exact .inl hsign
      · exact .inr (.inl hvariable)
      · exact .inr (.inr (List.mem_append_left [' '] hother))
      · exact .inr (.inr (by simp [hblank]))

theorem not_separator_of_read? (h : part.read? outline = some next) :
    ∀ c ∈ outline, c ∉ separators := by
  have hplain : ∀ c ∈ separators, c ∉ prefixSigns ∧ isVariableChar c = false ∧
      c ∉ ['.', '(', '[', ' '] := forall_mem_of_all (by decide)
  intro c hc hseparator
  obtain ⟨hsign, hvariable, hother⟩ := hplain c hseparator
  rcases mem_of_read? h c hc with hmem | htrue | hmem
  · exact hsign hmem
  · simp [hvariable] at htrue
  · exact hother hmem

/-- What an outline is, by where in an operand it leads to. -/
def Behind (outline : List Char) : Part → Prop
  | .front => outline = []
  | .signed => ∀ c ∈ outline, c ∈ prefixSigns
  | .word chars => outline = chars
  | .number last => outline.head?.any (·.isDigit) = true ∧ outline.getLast? = some last
  | .name | .behind => True

theorem Behind.step (h : part.Behind outline) (hnext : part.next? c = some next) :
    next.Behind (outline ++ [c]) := by
  unfold next? at hnext
  split at hnext
  · obtain rfl := Option.some.inj hnext
    trivial
  cases part with
  | front =>
      obtain rfl : outline = [] := h
      grind [Behind]
  | signed => grind [Behind]
  | word chars => grind [Behind]
  | name => grind [Behind]
  | number last =>
      obtain ⟨-, hnext⟩ := Option.ite_none_right_eq_some.1 hnext
      obtain rfl := Option.some.inj hnext
      obtain ⟨hhead, hlast⟩ := h
      have hne : outline ≠ [] := by
        rintro rfl
        cases hlast
      exact ⟨by rwa [List.head?_append_of_ne_nil _ hne], List.getLast?_concat⟩
  | behind => grind [Behind]

theorem behind_of_read? (h : Part.front.read? outline = some next) : next.Behind outline := by
  induction outline using List.reverseRecOn generalizing next with
  | nil =>
      obtain rfl := Option.some.inj h
      rfl
  | append_singleton outline c ih =>
      rw [read?_append] at h
      obtain ⟨part, hread, hlast⟩ := Option.bind_eq_some_iff.1 h
      have hnext : part.next? c = some next := by simpa [Part.read?] using hlast
      exact (ih hread).step hnext

section Split

variable {before after : List Char} (h : Part.front.read? outline = some next)
  (hsplit : outline = before ++ c :: after)

include h hsplit

theorem exists_behind : ∃ part other : Part, part.Behind before ∧ part.next? c = some other := by
  rw [hsplit, read?_append] at h
  obtain ⟨part, hbefore, hrest⟩ := Option.bind_eq_some_iff.1 h
  obtain ⟨other, hnext, -⟩ := Option.bind_eq_some_iff.1 hrest
  exact ⟨part, other, behind_of_read? hbefore, hnext⟩

/-- No operand has a blank but behind the word that it begins with, which is `new`. -/
theorem before_blank (hc : c ∈ blanks) : c = ' ' ∧ before = ['n', 'e', 'w'] := by
  obtain ⟨part, other, hbehind, hnext⟩ := exists_behind h hsplit
  have hplain : ∀ c ∈ blanks, c ∉ prefixSigns ∧ isVariableChar c = false ∧ c ∉ ['.', '(', '['] :=
    forall_mem_of_all (by decide +kernel)
  obtain ⟨hsign, hvariable, hother⟩ := hplain c hc
  rcases cases_of_next? hnext with hmem | htrue | hmem | ⟨hblank, rfl⟩
  · exact absurd hmem hsign
  · simp [hvariable] at htrue
  · exact absurd hmem hother
  · exact ⟨hblank, hbehind⟩

/-- Signs stand in front, or belong to the exponent of a number. -/
theorem before_sign (hc : c ∈ prefixSigns) : (∀ d ∈ before, d ∈ prefixSigns) ∨
    before.head?.any (·.isDigit) = true ∧
      (before.getLast? = some 'e' ∨ before.getLast? = some 'E') := by
  obtain ⟨part, other, hbehind, hnext⟩ := exists_behind h hsplit
  have hplain : ∀ c ∈ prefixSigns, isVariableChar c = false ∧ c ∉ ['(', '[', '.', ' '] :=
    forall_mem_of_all (by decide)
  obtain ⟨hvariable, hother⟩ := hplain c hc
  simp only [List.mem_cons, List.not_mem_nil, or_false, not_or] at hother
  cases part with
  | front =>
      obtain rfl : before = [] := hbehind
      exact .inl (by simp)
  | signed => exact .inl hbehind
  | number last =>
      obtain ⟨hhead, hlast⟩ := hbehind
      refine .inr ⟨hhead, ?_⟩
      simp only [next?, hvariable, hother, or_self, if_false, false_or, Bool.false_eq_true] at hnext
      obtain ⟨⟨-, hexponent⟩, -⟩ := Option.ite_none_right_eq_some.1 hnext
      rw [hlast]
      exact hexponent.imp (congrArg some) (congrArg some)
  | word chars | name | behind => simp [next?, hvariable, hother] at hnext

end Split

/-- An operand goes on with an access or with brackets, wherever it ends. -/
theorem exists_next? (h : part ≠ .signed) (hc : c = '.' ∨ c = '(' ∨ c = '[') :
    ∃ next, part.next? c = some next ∧ next.ends = true := by
  rcases hc with rfl | rfl | rfl
  · cases part with
    | signed => exact absurd rfl h
    | front | name | behind => exact ⟨.name, by decide, rfl⟩
    | word chars => exact ⟨.name, by simp [next?], rfl⟩
    | number last => exact ⟨.number '.', by simp [next?], rfl⟩
  · exact ⟨.behind, rfl, rfl⟩
  · exact ⟨.behind, rfl, rfl⟩

theorem ne_signed_of_ends (h : part.ends = true) : part ≠ .signed := by
  rintro rfl
  cases h

theorem ne_of_isVariableChar (h : isVariableChar c = true) {d : Char}
    (hd : isVariableChar d = false) : c ≠ d := by
  rintro rfl
  simp [h] at hd

/-- Characters of a variable name stand in words, names and numbers. -/
theorem next?_variableChar (h : isVariableChar c = true) : part.next? c =
    match part with
    | .front => if c.isDigit then some (.number c) else some (.word [c])
    | .word chars => some (.word (chars ++ [c]))
    | .name => some .name
    | .number _ => some (.number c)
    | .signed | .behind => none := by
  have hround : c ≠ '(' := ne_of_isVariableChar h (by decide)
  have hsquare : c ≠ '[' := ne_of_isVariableChar h (by decide)
  have hpoint : c ≠ '.' := ne_of_isVariableChar h (by decide)
  have hblank : c ≠ ' ' := ne_of_isVariableChar h (by decide)
  have hsigns : c ∉ prefixSigns := by
    intro hsign
    have hall : ∀ d ∈ prefixSigns, isVariableChar d = false := forall_mem_of_all (by decide)
    exact ne_of_isVariableChar h (hall c hsign) rfl
  cases part <;> simp [next?, h, hround, hsquare, hpoint, hblank, hsigns]

variable {chars : List Char}

theorem read?_name (h : ∀ c ∈ chars, isVariableChar c = true) :
    Part.name.read? chars = some .name := by
  induction chars with
  | nil => rfl
  | cons c rest ih =>
      obtain ⟨hc, hrest⟩ := List.forall_mem_cons.1 h
      rw [read?, List.foldlM_cons, next?_variableChar hc]
      exact ih hrest

/-- A number goes on with letters, digits and points. -/
theorem read?_number (h : ∀ c ∈ chars, isVariableChar c = true ∨ c = '.') (last : Char) :
    ∃ other, (Part.number last).read? chars = some (.number other) := by
  induction chars generalizing last with
  | nil => exact ⟨last, rfl⟩
  | cons c rest ih =>
      obtain ⟨hc, hrest⟩ := List.forall_mem_cons.1 h
      have hnext : (Part.number last).next? c = some (.number c) := by
        rcases hc with hvariable | rfl
        · exact next?_variableChar hvariable
        · simp [next?]
      rw [read?, List.foldlM_cons, hnext]
      exact ih hrest c

theorem read?_word (h : ∀ c ∈ chars, isVariableChar c = true) (before : List Char) :
    (Part.word before).read? chars = some (.word (before ++ chars)) := by
  induction chars generalizing before with
  | nil => rw [List.append_nil]; rfl
  | cons c rest ih =>
      obtain ⟨hc, hrest⟩ := List.forall_mem_cons.1 h
      have hread := ih hrest (before ++ [c])
      rw [List.append_assoc] at hread
      rw [read?, List.foldlM_cons, next?_variableChar hc]
      exact hread

/-- A word is an operand, and it goes on even if it is empty or `new`. -/
theorem exists_read?_front (h : ∀ c ∈ chars, isVariableChar c = true) :
    ∃ part, Part.front.read? chars = some part ∧ part ≠ .signed ∧
      (chars ≠ [] → chars ≠ ['n', 'e', 'w'] → part.ends = true) := by
  cases chars with
  | nil => exact ⟨.front, rfl, by decide, fun hne => absurd rfl hne⟩
  | cons c rest =>
      obtain ⟨hc, hrest⟩ := List.forall_mem_cons.1 h
      rw [read?, List.foldlM_cons, next?_variableChar hc]
      by_cases hdigit : c.isDigit = true
      · obtain ⟨other, hread⟩ := read?_number (fun d hd => .inl (hrest d hd)) c
        exact ⟨.number other, by simpa [hdigit, read?] using hread, by simp, fun _ _ => rfl⟩
      · have hread := read?_word hrest [c]
        exact ⟨.word (c :: rest), by simpa [hdigit, read?] using hread, by simp,
          fun _ hne => decide_eq_true hne⟩

/-- An access by name ends an operand too. -/
theorem exists_read?_point (hpart : part ≠ .signed) (h : ∀ c ∈ chars, isVariableChar c = true) :
    ∃ next, part.read? ('.' :: chars) = some next ∧ next.ends = true := by
  cases part with
  | signed => exact absurd rfl hpart
  | front | name | behind =>
      refine ⟨.name, ?_, rfl⟩
      rw [read?, List.foldlM_cons]
      exact read?_name h
  | word before =>
      have hpoint : (Part.word before).next? '.' = some .name := by simp [next?]
      refine ⟨.name, ?_, rfl⟩
      rw [read?, List.foldlM_cons, hpoint]
      exact read?_name h
  | number last =>
      have hchars : ∀ c ∈ '.' :: chars, isVariableChar c = true ∨ c = '.' :=
        List.forall_mem_cons.2 ⟨.inr rfl, fun c hc => .inl (h c hc)⟩
      obtain ⟨other, hread⟩ := read?_number hchars last
      exact ⟨.number other, hread, rfl⟩

end Part

/-- What follows the operand that a text goes on with, read from where a reader is in it.
The operand has every character that belongs to it. -/
def operandRest? (p : Position) (part : Part) : List Char → Option (List Char)
  | [] => if p = start ∧ part.ends then some [] else none
  | c :: rest =>
      if p = start then
        match part.next? c with
        | some next => (p.step? c).bind fun q => operandRest? q next rest
        | none => if part.ends then some (c :: rest) else none
      else (p.step? c).bind fun q => operandRest? q part rest

/-- What no operand goes on with. -/
def EndsOperand (rest : List Char) : Prop :=
  ∀ c ∈ rest.head?, isVariableChar c = false ∧ c ∉ ['.', '(', '[', '+', '-']

/-- A text that belongs to an operand is passed over. -/
theorem operandRest?_append {p q : Position} {part next : Part} {text outline : List Char}
    (h : p.read? text = some (outline, q)) (hpart : part.read? outline = some next)
    (rest : List Char) : operandRest? p part (text ++ rest) = operandRest? q next rest := by
  induction text generalizing p part outline with
  | nil =>
      obtain ⟨rfl, rfl⟩ := Prod.mk.inj (Option.some.inj h)
      obtain rfl := Option.some.inj hpart
      rfl
  | cons c text ih =>
      obtain ⟨r, hstep, h⟩ := Option.bind_eq_some_iff.1 h
      obtain ⟨⟨shown, last⟩, hread, h⟩ := Option.bind_eq_some_iff.1 h
      obtain ⟨rfl, rfl⟩ := Prod.mk.inj (Option.some.inj h)
      rw [List.cons_append, operandRest?, hstep]
      split
      · next hstart =>
          rw [if_pos hstart] at hpart
          obtain ⟨between, hnext, hrest⟩ := Option.bind_eq_some_iff.1 hpart
          rw [hnext]
          exact ih hread hrest
      · next hinside =>
          rw [if_neg hinside] at hpart
          exact ih hread hpart

theorem operandRest?_ends {part : Part} (hpart : part.ends = true) {rest : List Char}
    (h : EndsOperand rest) : operandRest? start part rest = some rest := by
  cases rest with
  | nil => rw [operandRest?, if_pos ⟨rfl, hpart⟩]
  | cons c rest =>
      obtain ⟨hvariable, hother⟩ := h c rfl
      simp only [List.mem_cons, List.not_mem_nil, or_false, not_or] at hother
      have hstop : part.next? c = none := by
        cases part <;> simp_all [Part.next?, Part.ends]
      rw [operandRest?, if_pos rfl, hstop]
      exact if_pos hpart

/-- A text whose brackets are closed and whose outline is that. -/
def Outlined (outline : List Char) (text : String) : Prop :=
  start.read? text.toList = some (outline, start)

/-- A text whose brackets are closed. -/
def IsClosed (text : String) : Prop :=
  ∃ outline, Outlined outline text

/-- A text that an access may follow. -/
def GoesOn (text : String) : Prop :=
  ∃ outline part, Outlined outline text ∧ Part.front.read? outline = some part ∧ part ≠ .signed

/-- A text that is an operand: a unary expression that a blank or a bracket may follow. -/
def IsOperand (text : String) : Prop :=
  ∃ outline part, Outlined outline text ∧ Part.front.read? outline = some part ∧ part.ends = true

theorem IsOperand.isClosed {text : String} (h : IsOperand text) : IsClosed text := by
  obtain ⟨outline, _, houtline, -⟩ := h
  exact ⟨outline, houtline⟩

theorem IsOperand.goesOn {text : String} (h : IsOperand text) : GoesOn text := by
  obtain ⟨outline, part, houtline, hpart, hends⟩ := h
  exact ⟨outline, part, houtline, hpart, Part.ne_signed_of_ends hends⟩

section Texts

variable {text more : String} {outline others : List Char}

theorem Outlined.append (h : Outlined outline text) (hmore : Outlined others more) :
    Outlined (outline ++ others) (text ++ more) := by
  rw [Outlined, String.toList_append, read?_append_of_eq h, hmore]
  rfl

theorem outlined_inert (h : ∀ c ∈ text.toList, isInert c = true) : Outlined text.toList text :=
  read?_inert h

theorem IsClosed.append (h : IsClosed text) (hmore : IsClosed more) : IsClosed (text ++ more) := by
  obtain ⟨_, h⟩ := h
  obtain ⟨_, hmore⟩ := hmore
  exact ⟨_, h.append hmore⟩

theorem isClosed_inert (h : text.toList.all isInert = true) : IsClosed text :=
  ⟨_, outlined_inert (List.all_eq_true.1 h)⟩

theorem isClosed_quote (s : String) : IsClosed (quote s) := by
  refine ⟨['"'], ?_⟩
  rw [Outlined, toList_quote, read?_literal]

/-- What stands between two texts that open and close brackets around it leaves the
outline of these two. -/
theorem outlined_between {front back : String} {p : Position} (h : IsClosed text)
    (hfront : start.read? front.toList = some (outline, p)) (hcode : p.place = .code)
    (hpending : p.pending ≠ []) (hback : p.read? back.toList = some (others, start)) :
    Outlined (outline ++ others) (front ++ text ++ back) := by
  obtain ⟨inner, h⟩ := h
  rw [Outlined, String.append_assoc, String.toList_append, read?_append_of_eq hfront,
    String.toList_append, read?_closed h hcode, hback, if_neg hpending]
  rfl

theorem IsClosed.outlined_round (h : IsClosed text) : Outlined ['('] ("(" ++ text ++ ")") :=
  outlined_between h (show _ = some (['('], ⟨.code, [')']⟩) from rfl) rfl (by decide) rfl

theorem IsClosed.outlined_square (h : IsClosed text) : Outlined ['['] ("[" ++ text ++ "]") :=
  outlined_between h (show _ = some (['['], ⟨.code, [']']⟩) from rfl) rfl (by decide) rfl

/-- Whether the two texts make an operand of what they enclose. -/
def enclose (front back : String) : Bool :=
  ((start.read? front.toList).bind fun (outline, p) =>
    if p.place = .code ∧ p.pending ≠ [] then
      (p.read? back.toList).bind fun (others, q) =>
        if q = start then Part.front.read? (outline ++ others) else none
    else none).any Part.ends

theorem IsClosed.operand (h : IsClosed text) (front back : String)
    (henclose : enclose front back = true) : IsOperand (front ++ text ++ back) := by
  obtain ⟨part, hpart, hends⟩ := (Option.any_eq_true _ _).1 henclose
  obtain ⟨⟨outline, p⟩, hfront, hpart⟩ := Option.bind_eq_some_iff.1 hpart
  obtain ⟨⟨hcode, hpending⟩, hpart⟩ := Option.ite_none_right_eq_some.1 hpart
  obtain ⟨⟨others, q⟩, hback, hpart⟩ := Option.bind_eq_some_iff.1 hpart
  obtain ⟨rfl, hpart⟩ := Option.ite_none_right_eq_some.1 hpart
  exact ⟨outline ++ others, part, outlined_between h hfront hcode hpending hback, hpart, hends⟩

end Texts

end ClassScript.Brackets
