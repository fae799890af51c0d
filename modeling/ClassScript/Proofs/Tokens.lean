import ClassScript.Proofs.ScriptIdentifiers
import ClassScript.Text.Hex
import ClassScript.Text.Integer
import Mathlib.Data.List.Basic

/-!
Expression text as tokens of the script language. Words, numbers and signs are
taken as long as they can get, and blanks part them. Text that has comments,
quotes, braces or fractions is not read at all. A text spells its tokens wherever it
stands when what comes after it cannot lengthen its last one.
-/

namespace ClassScript.Reading

/-- The tokens of expressions: whole numbers, names and reserved words, and
signs. -/
inductive Token where
  | number (value : Nat)
  | word (text : String)
  | sign (text : String)
  deriving DecidableEq

/-- The signs of the language but slashes and braces. Every beginning of a sign
is a sign, so the longest one is found by going on while there is one. -/
def signs : List String :=
  ["(", ")", "[", "]", ".", ",", ";", ":", "?", "?.", "??", "??=",
   "+", "++", "+=", "-", "--", "-=", "*", "**", "*=", "**=", "%", "%=", "~",
   "!", "!=", "!==", "=", "==", "===", "=>", "<", "<<", "<=", "<<=",
   ">", ">>", ">>>", ">=", ">>=", ">>>=", "&", "&&", "&=", "&&=", "|", "||", "|=", "||=",
   "^", "^="]

def isSign (chars : List Char) : Bool :=
  signs.any (·.toList = chars)

/-- A number in decimal digits without leading zeros, or in hexadecimal. -/
def numeral? : List Char → Option Nat
  | '0' :: 'x' :: digits =>
      if digits = [] then none
      else digits.foldlM (fun value c => (Text.hexValue? c).map (value * 16 + ·)) 0
  | digits =>
      if digits.all (·.isDigit) && (digits.head? ≠ some '0' || digits = ['0']) then
        some (Text.digitsValue digits)
      else none

/-- A token in the making. -/
inductive Pending where
  | blank
  | word (chars : List Char)
  | sign (chars : List Char)
  deriving DecidableEq

namespace Pending

/-- The token with one more character, if it can have it. -/
def add? : Pending → Char → Option Pending
  | .blank, _ => none
  | .word chars, c => if isIdentifierPart c then some (.word (chars ++ [c])) else none
  | .sign chars, c => if isSign (chars ++ [c]) then some (.sign (chars ++ [c])) else none

/-- What a character starts: a word can begin with a digit, and is a number then. -/
def start? (c : Char) : Option Pending :=
  if c.isWhitespace then some .blank
  else if isIdentifierStart c || c.isDigit then some (.word [c])
  else if isSign [c] then some (.sign [c])
  else none

/-- The finished token; a word that starts with a digit has to be a number. -/
def tokens? : Pending → Option (List Token)
  | .blank => some []
  | .word chars =>
      if chars.head?.any (·.isDigit) then (numeral? chars).map fun n => [.number n]
      else some [.word (String.ofList chars)]
  | .sign chars => some [.sign (String.ofList chars)]

end Pending

/-- The finished tokens of a text and the one at its end. -/
def scan : Pending → List Char → Option (List Token × Pending)
  | p, [] => some ([], p)
  | p, c :: rest =>
      match p.add? c with
      | some longer => scan longer rest
      | none => do
          let done ← p.tokens?
          let next ← Pending.start? c
          let (others, last) ← scan next rest
          return (done ++ others, last)

/-- The tokens of a text. -/
def tokens? (text : String) : Option (List Token) := do
  let (done, last) ← scan .blank text.toList
  let final ← last.tokens?
  return done ++ final

example : tokens? "(-(a)|0)>>>1" =
    some [.sign "(", .sign "-", .sign "(", .word "a", .sign ")", .sign "|", .number 0, .sign ")",
      .sign ">>>", .number 1] := by
  decide

theorem scan_append (p : Pending) (xs ys : List Char) :
    scan p (xs ++ ys) = do
      let (done, middle) ← scan p xs
      let (others, last) ← scan middle ys
      return (done ++ others, last) := by
  fun_induction scan p xs with
  | case1 p => cases hscan : scan p ys <;> simp [hscan]
  | case2 p c rest longer hlonger ih => simp [scan, hlonger, ih]
  | case3 p c rest hstop ih =>
      simp only [List.cons_append, scan, hstop, ih, Option.bind_eq_bind, Option.pure_def,
        Option.bind_assoc, Option.bind_some, List.append_assoc]

/-- A character that cannot lengthen the token in the making ends it. -/
theorem scan_stopped {p : Pending} {c : Char} (hstop : p.add? c = none) (rest : List Char) :
    scan p (c :: rest) = do
      let done ← p.tokens?
      let (others, last) ← scan .blank (c :: rest)
      return (done ++ others, last) := by
  have hblank : Pending.blank.add? c = none := rfl
  have hnothing : Pending.blank.tokens? = some [] := rfl
  simp only [scan, hstop, hblank, hnothing, Option.bind_eq_bind, Option.pure_def,
    Option.bind_assoc, Option.bind_some, List.nil_append]

/-- Read from its start, the text gives these tokens, and its last one is not
lengthened by the characters of `ends`. -/
def Spells (ends : Char → Prop) (text : List Char) (ts : List Token) : Prop :=
  ∃ done last final, scan .blank text = some (done, last) ∧ last.tokens? = some final ∧
    done ++ final = ts ∧ ∀ c, ends c → last.add? c = none

/-- Texts that end in a bracket or a blank may have anything behind them. -/
def anything (_ : Char) : Prop := True

/-- A text that ends in a word needs something else behind it. -/
def apart (c : Char) : Prop := isIdentifierPart c = false

namespace Spells

variable {ends : Char → Prop} {text : List Char} {ts : List Token}

theorem weaken {fewer : Char → Prop} (h : Spells ends text ts) (hends : ∀ c, fewer c → ends c) :
    Spells fewer text ts := by
  obtain ⟨done, last, final, hscan, hlast, hts, hstop⟩ := h
  exact ⟨done, last, final, hscan, hlast, hts, fun c hc => hstop c (hends c hc)⟩

theorem append {other : List Char} {us : List Token} {ends' : Char → Prop}
    (h : Spells ends text ts) (hother : Spells ends' other us) (hne : other ≠ [])
    (hhead : ∀ c ∈ other.head?, ends c) : Spells ends' (text ++ other) (ts ++ us) := by
  obtain ⟨done, last, final, hscan, hlast, rfl, hstop⟩ := h
  obtain ⟨done', last', final', hscan', hlast', rfl, hstop'⟩ := hother
  refine ⟨done ++ final ++ done', last', final', ?_, hlast', by simp, hstop'⟩
  cases other with
  | nil => exact absurd rfl hne
  | cons first rest =>
      simp [scan_append, hscan, scan_stopped (hstop first (hhead first rfl)), hlast, hscan']

/-- Only the empty list of tokens is spelled by nothing. -/
theorem eq_nil (h : Spells ends [] ts) : ts = [] := by
  obtain ⟨done, last, final, hscan, hlast, rfl, _⟩ := h
  obtain ⟨rfl, rfl⟩ : [] = done ∧ Pending.blank = last := by simpa [scan] using hscan
  simpa [Pending.tokens?] using hlast.symm

theorem tokens_eq {s : String} (h : Spells ends s.toList ts) : tokens? s = some ts := by
  obtain ⟨done, last, final, hscan, hlast, rfl, _⟩ := h
  simp [tokens?, hscan, hlast]

end Spells

/-- The tokens of a text that ends in a bracket, a colon or a blank. -/
def closedTokens? (text : List Char) : Option (List Token) := do
  let (done, last) ← scan .blank text
  if last ∈ [.blank, .sign ['('], .sign [')'], .sign [':']] then last.tokens?.map (done ++ ·)
  else none

theorem spells_closed {text : List Char} {ts : List Token}
    (h : closedTokens? text = some ts) : Spells anything text ts := by
  simp only [closedTokens?, Option.bind_eq_bind, Option.bind_eq_some_iff] at h
  obtain ⟨⟨done, last⟩, hscan, h⟩ := h
  rw [Option.ite_none_right_eq_some, Option.map_eq_some_iff] at h
  obtain ⟨hlast, final, hfinal, rfl⟩ := h
  refine ⟨done, last, final, hscan, hfinal, rfl, fun c _ => ?_⟩
  have hsign : ∀ b ∈ ['(', ')', ':'], isSign [b, c] = false := by
    intro b hb
    simp only [List.mem_cons, List.not_mem_nil, or_false] at hb
    rcases hb with rfl | rfl | rfl <;> simp [isSign, signs]
  simp only [List.mem_cons, List.not_mem_nil, or_false] at hlast
  rcases hlast with rfl | rfl | rfl | rfl
  · rfl
  all_goals simp [Pending.add?, hsign]

end ClassScript.Reading
