import ClassScript.Script.Identifier
import Mathlib.Algebra.Group.Nat.Defs
import Mathlib.Data.List.Basic

/-!
Quoted text read back, as the script language reads string literals: escapes, line
continuations and all. The value of a literal is the code units of its text, and where
it ends is told by the literal alone. So different members are reached by different
accesses, and no access is the beginning of another one.
-/

namespace ClassScript

namespace Text

/-- The digits of an escape are read as the last digits of its number. -/
theorem hexValues_hexDigits (width n : Nat) :
    ∃ values, (hexDigits width n).mapM hexValue? = some values ∧
      ∀ value, values.foldl (fun value d => value * 16 + d) value =
        value * 16 ^ width + n % 16 ^ width := by
  fun_induction hexDigits width n with
  | case1 => exact ⟨[], rfl, fun value => by simp [Nat.mod_one]⟩
  | case2 width n ih =>
      obtain ⟨values, hvalues, hfold⟩ := ih
      have hdigit : hexValue? (hexDigit (n / 16 ^ width % 16)) = some (n / 16 ^ width % 16) :=
        hexValue?_hexDigit _ (Nat.mod_lt _ (by omega))
      have hpow : Nat.pow 16 width = 16 ^ width := rfl
      refine ⟨n / 16 ^ width % 16 :: values, ?_, fun value => ?_⟩
      · rw [List.mapM_cons, hpow, hdigit, hvalues]
        rfl
      · rw [List.foldl_cons, hfold, Nat.mod_pow_succ, Nat.pow_succ, Nat.add_mul, Nat.mul_assoc,
          Nat.mul_comm 16, Nat.mul_comm (n / 16 ^ width % 16), Nat.add_assoc,
          Nat.add_comm (16 ^ width * _)]

/-- So an escape that is wide enough has the number itself for its value. -/
theorem hexValues_of_lt {width n : Nat} (h : n < 16 ^ width) :
    ∃ values, (hexDigits width n).mapM hexValue? = some values ∧
      values.foldl (fun value d => value * 16 + d) 0 = n := by
  obtain ⟨values, hvalues, hfold⟩ := hexValues_hexDigits width n
  refine ⟨values, hvalues, ?_⟩
  rw [hfold, Nat.zero_mul, Nat.zero_add, Nat.mod_eq_of_lt h]

end Text

namespace Script

/-- The code units of a code point: one, or a pair of surrogates. -/
def units (n : Nat) : List UInt16 :=
  if n < 0x10000 then [n.toUInt16]
  else [(0xD800 + (n - 0x10000) / 0x400).toUInt16, (0xDC00 + (n - 0x10000) % 0x400).toUInt16]

/-- The code units of a text. They are what a string is to the script. -/
def utf16 (s : List Char) : List UInt16 :=
  s.flatMap fun c => units c.toNat

/-- Whether the script language ends a line with the character. -/
def isLineEnd (c : Char) : Bool :=
  c = '\n' || c = '\r' || c = '\u2028' || c = '\u2029'

/-- The letters that stand for control characters behind a backslash. -/
def letterEscapes : List (Char × Nat) :=
  [('b', 8), ('t', 9), ('n', 10), ('v', 11), ('f', 12), ('r', 13)]

/-- The number that hexadecimal digits stand for. -/
def hexNumber? (digits : List Char) : Option Nat :=
  (digits.mapM Text.hexValue?).map (·.foldl (fun value d => value * 16 + d) 0)

/-- The code units of so many hexadecimal digits, with the text after them. -/
def readHex? (width : Nat) (text : List Char) : Option (List UInt16 × List Char) :=
  if text.length < width then none
  else (hexNumber? (text.take width)).map fun n => (units n, text.drop width)

/-- The code units of a code point in hexadecimal digits up to a brace. -/
def readCodePoint? (text : List Char) : Option (List UInt16 × List Char) := do
  let digits := text.takeWhile (· ≠ '\x7d')
  let n ← hexNumber? digits
  if digits = [] ∨ digits = text ∨ 0x10FFFF < n then none
  else some (units n, text.drop (digits.length + 1))

/-- What stands behind a backslash: digits of a code unit or a code point, a line end,
which is passed over, a zero, a letter for a control character, or a character that
stands for itself. -/
def readEscape? : List Char → Option (List UInt16 × List Char)
  | [] => none
  | c :: rest =>
      if c = 'x' then readHex? 2 rest
      else if c = 'u' then
        if rest.head? = some '\x7b' then readCodePoint? rest.tail else readHex? 4 rest
      else if isLineEnd c then
        some ([], if c = '\r' ∧ rest.head? = some '\n' then rest.tail else rest)
      else if c.isDigit then
        if c = '0' ∧ rest.head?.all (!·.isDigit) then some ([0], rest) else none
      else some (units ((letterEscapes.lookup c).getD c.toNat), rest)

/-- What one element of a literal between such quotes stands for, with the text after it.
Neither the quote nor a line end is one. -/
def readElement? (quote : Char) : List Char → Option (List UInt16 × List Char)
  | [] => none
  | c :: rest =>
      if c = '\\' then readEscape? rest
      else if c = quote ∨ isLineEnd c then none
      else some (units c.toNat, rest)

section Shorter

variable {text rest : List Char} {value : List UInt16}

theorem length_of_readHex? {width : Nat} (h : readHex? width text = some (value, rest)) :
    rest.length ≤ text.length := by
  unfold readHex? at h
  split at h
  · cases h
  · obtain ⟨n, -, hn⟩ := Option.map_eq_some_iff.1 h
    rw [← (Prod.mk.inj hn).2, List.length_drop]
    omega

theorem length_of_readCodePoint? (h : readCodePoint? text = some (value, rest)) :
    rest.length ≤ text.length := by
  obtain ⟨n, -, h⟩ := Option.bind_eq_some_iff.1 h
  split at h
  · cases h
  · rw [← (Prod.mk.inj (Option.some.inj h)).2, List.length_drop]
    omega

theorem length_of_readEscape? (h : readEscape? text = some (value, rest)) :
    rest.length ≤ text.length := by
  cases text with
  | nil => cases h
  | cons c more =>
      have htail : more.tail.length ≤ more.length := by simp
      refine Nat.le_succ_of_le ?_
      rw [readEscape?] at h
      split at h
      · exact length_of_readHex? h
      split at h
      · split at h
        · exact Nat.le_trans (length_of_readCodePoint? h) htail
        · exact length_of_readHex? h
      split at h
      · obtain ⟨-, rfl⟩ := Prod.mk.inj (Option.some.inj h)
        split
        · exact htail
        · exact Nat.le_refl _
      split at h
      · obtain ⟨-, hrest⟩ := Option.ite_none_right_eq_some.1 h
        exact Nat.le_of_eq (congrArg List.length (Prod.mk.inj (Option.some.inj hrest)).2.symm)
      · exact Nat.le_of_eq (congrArg List.length (Prod.mk.inj (Option.some.inj h)).2.symm)

theorem length_of_readElement? {quote : Char} (h : readElement? quote text = some (value, rest)) :
    rest.length < text.length := by
  cases text with
  | nil => cases h
  | cons c more =>
      refine Nat.lt_succ_of_le ?_
      rw [readElement?] at h
      split at h
      · exact length_of_readEscape? h
      · obtain ⟨-, hrest⟩ := Option.ite_none_left_eq_some.1 h
        exact Nat.le_of_eq (congrArg List.length (Prod.mk.inj (Option.some.inj hrest)).2.symm)

end Shorter

/-- The elements up to the closing quote, with the text after it. -/
def readElements? (quote : Char) (text : List Char) : Option (List UInt16 × List Char) :=
  if text.head? = some quote then some ([], text.tail)
  else
    match _h : readElement? quote text with
    | none => none
    | some (value, rest) =>
        (readElements? quote rest).map fun (more, rest) => (value ++ more, rest)
termination_by text.length
decreasing_by exact length_of_readElement? _h

/-- The value of the string literal that a text begins with, and the rest of the text. -/
def readLiteral? : List Char → Option (List UInt16 × List Char)
  | [] => none
  | c :: rest => if c = '"' then readElements? '"' rest else none

theorem units_ne_nil (n : Nat) : units n ≠ [] := by
  unfold units
  split <;> simp

theorem toUInt16_inj {m n : Nat} (hm : m < 0x10000) (hn : n < 0x10000)
    (h : m.toUInt16 = n.toUInt16) : m = n := by
  have hnumbers := congrArg UInt16.toNat h
  simp only [Nat.toUInt16, UInt16.toNat_ofNat'] at hnumbers
  omega

/-- Surrogates are no characters, so the code units of a character tell it and where
they end. -/
theorem units_append_inj {c d : Char} {a b : List UInt16}
    (h : units c.toNat ++ a = units d.toNat ++ b) : c = d ∧ a = b := by
  have hvalid : ∀ c : Char, (c.toNat < 0xD800 ∨ 0xDFFF < c.toNat) ∧ c.toNat < 0x110000 := by
    intro c
    rcases c.valid with h | h
    · exact ⟨.inl h, Nat.lt_trans h (by omega)⟩
    · exact ⟨.inr h.1, h.2⟩
  obtain ⟨hc, hcbound⟩ := hvalid c
  obtain ⟨hd, hdbound⟩ := hvalid d
  unfold units at h
  split at h
  · split at h
    · next hlow hlow' =>
        obtain ⟨hunit, hrest⟩ := List.cons.inj h
        exact ⟨Char.toNat_inj.1 (toUInt16_inj hlow hlow' hunit), hrest⟩
    · next hlow hhigh =>
        obtain ⟨hunit, -⟩ := List.cons.inj h
        have hnumber := toUInt16_inj hlow (by omega) hunit
        omega
  · split at h
    · next hhigh hlow =>
        obtain ⟨hunit, -⟩ := List.cons.inj h
        have hnumber := toUInt16_inj (by omega) hlow hunit
        omega
    · next hhigh hhigh' =>
        obtain ⟨hunit, hmore⟩ := List.cons.inj h
        obtain ⟨hunit', hrest⟩ := List.cons.inj hmore
        have hfirst := toUInt16_inj (by omega) (by omega) hunit
        have hsecond := toUInt16_inj (by omega) (by omega) hunit'
        exact ⟨Char.toNat_inj.1 (by omega), hrest⟩

/-- The code units of a text tell the text. -/
theorem utf16_injective : Function.Injective utf16 := by
  intro s t h
  induction s generalizing t with
  | nil =>
      cases t with
      | nil => rfl
      | cons d t => exact absurd (List.append_eq_nil_iff.1 h.symm).1 (units_ne_nil d.toNat)
  | cons c s ih =>
      cases t with
      | nil => exact absurd (List.append_eq_nil_iff.1 h).1 (units_ne_nil c.toNat)
      | cons d t =>
          obtain ⟨rfl, hrest⟩ := units_append_inj h
          rw [ih hrest]

theorem readHex?_hexDigits {n : Nat} (h : n < 16 ^ 4) (rest : List Char) :
    readHex? 4 (Text.hexDigits 4 n ++ rest) = some (units n, rest) := by
  obtain ⟨values, hvalues, hnumber⟩ := Text.hexValues_of_lt h
  have hlength : (Text.hexDigits 4 n).length = 4 := Text.length_hexDigits 4 n
  rw [readHex?, if_neg (by simp [hlength]), List.take_left' hlength, List.drop_left' hlength,
    hexNumber?, hvalues, Option.map_some, Option.map_some, hnumber]

section Elements

variable {quote c : Char}

/-- A character of a literal is read back, between any quotes that do not end it. -/
theorem readElement?_escape (h : (escape c).head? ≠ some quote) (rest : List Char) :
    readElement? quote (escape c ++ rest) = some (units c.toNat, rest) := by
  revert h
  unfold escape
  split
  · next hc => intro _; rw [hc]; rfl
  split
  · next hc => intro _; rw [hc]; rfl
  split
  · next hc => intro _; rw [hc]; rfl
  split
  · next hc => intro _; rw [hc]; rfl
  split
  · next hc => intro _; rw [hc]; rfl
  split
  · next hcoded =>
      intro _
      have hsmall : c.toNat < 16 ^ 4 := by
        rcases hcoded with hlow | rfl | rfl
        · omega
        · decide
        · decide
      have hbrace : (Text.hexDigits 4 c.toNat ++ rest).head? ≠ some '\x7b' := by
        have hdigit : ∀ d, d < 16 → Text.hexDigit d ≠ '\x7b' := by decide
        have hfirst := hdigit (c.toNat / Nat.pow 16 3 % 16) (Nat.mod_lt _ (by omega))
        simpa [Text.hexDigits] using hfirst
      have hescape : readEscape? ('u' :: (Text.hexDigits 4 c.toNat ++ rest)) =
          readHex? 4 (Text.hexDigits 4 c.toNat ++ rest) := by
        rw [readEscape?, if_neg (by decide), if_pos rfl, if_neg hbrace]
      exact hescape.trans (readHex?_hexDigits hsmall rest)
  · next _ hbackslash hnewline hreturn _ hother =>
      intro h
      have hquote : c ≠ quote := by simpa using h
      have hend : isLineEnd c = false := by
        simp only [not_or] at hother
        simp [isLineEnd, hnewline, hreturn, hother]
      simp [readElement?, hquote, hbackslash, hend]

theorem escape_ne_nil (c : Char) : escape c ≠ [] := by
  unfold escape
  split_ifs <;> simp

/-- The closing quote is no element. -/
theorem head?_escape (c : Char) : (escape c).head? ≠ some '"' := by
  unfold escape
  split_ifs <;> simp_all

theorem readElements?_quote (quote : Char) (rest : List Char) :
    readElements? quote (quote :: rest) = some ([], rest) := by
  rw [readElements?, if_pos List.head?_cons]
  rfl

/-- An element that is no quote is read first. -/
theorem readElements?_of_readElement? {text rest : List Char} {value : List UInt16}
    (hquote : text.head? ≠ some quote) (h : readElement? quote text = some (value, rest)) :
    readElements? quote text =
      (readElements? quote rest).map fun (more, rest) => (value ++ more, rest) := by
  rw [readElements?, if_neg hquote]
  split
  · next hnone => rw [h] at hnone; cases hnone
  · next hsome =>
      rw [h, Option.some.injEq, Prod.mk.injEq] at hsome
      rw [← hsome.1, ← hsome.2]

theorem readElements?_escaped {text : List Char} (h : ∀ c ∈ text, (escape c).head? ≠ some quote)
    (rest : List Char) : readElements? quote (text.flatMap escape ++ rest) =
      (readElements? quote rest).map fun (more, rest) => (utf16 text ++ more, rest) := by
  induction text with
  | nil => exact (congrFun Option.map_id _).symm
  | cons c text ih =>
      obtain ⟨hc, htext⟩ := List.forall_mem_cons.1 h
      have hhead : (escape c ++ (text.flatMap escape ++ rest)).head? ≠ some quote := by
        rwa [List.head?_append_of_ne_nil _ (escape_ne_nil c)]
      rw [List.flatMap_cons, List.append_assoc,
        readElements?_of_readElement? hhead (readElement?_escape hc _), ih htext, Option.map_map]
      simp only [Function.comp_def, utf16, List.flatMap_cons, List.append_assoc]

end Elements

/-- A literal is read back, whatever follows it. -/
theorem readLiteral?_literal (s rest : List Char) :
    readLiteral? (literal s ++ rest) = some (utf16 s, rest) := by
  rw [literal, List.cons_append, readLiteral?, if_pos rfl, List.append_assoc,
    readElements?_escaped fun c _ => head?_escape c, List.singleton_append, readElements?_quote]
  simp only [Option.map_some, List.append_nil]

/-- A literal ends before anything that follows it does. -/
theorem literal_append_inj {s t a b : List Char} (h : literal s ++ a = literal t ++ b) :
    s = t ∧ a = b := by
  have hread := readLiteral?_literal s a
  rw [h, readLiteral?_literal, Option.some.injEq, Prod.mk.injEq] at hread
  exact ⟨(utf16_injective hread.1).symm, hread.2.symm⟩

theorem toList_member {name : String} (h : isPlain name.toList = false) :
    (member name).toList = '[' :: (literal name.toList ++ [']']) := by
  rw [member, if_neg (by simp [h])]
  simp [quote]

theorem toList_member_plain {name : String} (h : isPlain name.toList = true) :
    (member name).toList = '.' :: name.toList := by
  rw [member, if_pos h]
  simp

/-- An access by index ends before anything that follows it does. -/
theorem member_append_inj {name other : String} (h : isPlain name.toList = false)
    (hother : isPlain other.toList = false) {a b : List Char}
    (hsame : (member name).toList ++ a = (member other).toList ++ b) : name = other ∧ a = b := by
  rw [toList_member h, toList_member hother, List.cons_append, List.cons_append, List.append_assoc,
    List.append_assoc] at hsame
  obtain ⟨hname, hrest⟩ := literal_append_inj (List.cons.inj hsame).2
  exact ⟨String.toList_inj.1 hname, (List.cons.inj hrest).2⟩

/-- Different names are reached by different accesses. -/
theorem member_injective : Function.Injective member := by
  intro name other h
  have hchars : (member name).toList = (member other).toList := by rw [h]
  cases hname : isPlain name.toList <;> cases hother : isPlain other.toList
  · have hsame : (member name).toList ++ [] = (member other).toList ++ [] := by rw [hchars]
    exact (member_append_inj hname hother hsame).1
  · rw [toList_member hname, toList_member_plain hother] at hchars
    cases (List.cons.inj hchars).1
  · rw [toList_member_plain hname, toList_member hother] at hchars
    cases (List.cons.inj hchars).1
  · rw [toList_member_plain hname, toList_member_plain hother] at hchars
    exact String.toList_inj.1 (List.cons.inj hchars).2

end Script

end ClassScript
