import ClassScript.Json.Value
import ClassScript.Model.Decode
import ClassScript.Proofs.LeafText
import ClassScript.Proofs.QuotedText

/-!
Scalars read back from their JSON text. A reader stands at the first character of
a value, and behind the value comes the end of the text, a comma or a closing
bracket; it takes the value and leaves what comes behind.
-/

namespace ClassScript.Json

section Runs

variable {α β : Type} {text rest : List Char} {a : α}

theorem run_bind {x : Decoder α} {f : α → Decoder β} (h : x text = .ok (a, rest)) :
    (x >>= f) text = f a rest := by
  change (x text >>= fun p => f p.1 p.2) = _
  rw [h]
  rfl

theorem run_of_eq {x y : Decoder α} (h : x = y) (hy : y text = .ok (a, rest)) :
    x text = .ok (a, rest) :=
  h ▸ hy

theorem run_peek {c : Char} (h : isBlank c = false) (text : List Char) :
    peek (c :: text) = .ok (some c, c :: text) := by
  simp [peek, h]

theorem run_advance (c : Char) (text : List Char) : advance (c :: text) = .ok ((), text) := rfl

theorem run_lift {x : Except Fault α} (h : x = .ok a) (text : List Char) :
    (StateT.lift x : Decoder α) text = .ok (a, text) := by
  rw [h]
  rfl

/-- A literal word is taken as a whole. -/
theorem run_word (chars text : List Char) : word chars (chars ++ text) = .ok ((), text) := by
  induction chars with
  | nil => rfl
  | cons c rest ih =>
      rw [word, List.cons_append]
      refine (run_bind (rfl : (get : Decoder (List Char)) _ = .ok (c :: (rest ++ text), _))).trans ?_
      dsimp only
      rw [if_pos rfl]
      exact (run_bind (rfl : (set (rest ++ text) : Decoder Unit) _ = .ok ((), rest ++ text))).trans ih

end Runs

/-- The characters that come behind a value. -/
def isClosing (c : Char) : Bool :=
  c = ',' || c = ']' || c = '}'

/-- What may follow a value. -/
def Ends (rest : List Char) : Prop :=
  ∀ c ∈ rest.head?, isClosing c = true

/-- The text starts as a value does. -/
def Opens (text : List Char) : Prop :=
  ∃ c more, text = c :: more ∧ isBlank c = false ∧ isClosing c = false

/-- The reader takes the text for the value, whatever follows. -/
structure Reads {α : Type} (read : Decoder α) (text : List Char) (a : α) : Prop where
  opens : Opens text
  run : ∀ rest, Ends rest → read (text ++ rest) = .ok (a, rest)

theorem ends_nil : Ends [] := nofun

theorem ends_cons {c : Char} (h : isClosing c = true) (rest : List Char) : Ends (c :: rest) := by
  intro d hd
  obtain rfl : c = d := by simpa using hd
  exact h

/-- A value is made of what is read. -/
theorem Reads.map {α β : Type} {read : Decoder α} {text : List Char} {a : α} (h : Reads read text a)
    (f : α → β) : Reads (f <$> read) text (f a) where
  opens := h.opens
  run rest hrest := by
    rw [map_eq_pure_bind]
    exact run_bind (h.run rest hrest)

section Strings

theorem hexEscape_hexDigits {n : Nat} (h : n < 16 ^ 4) (rest : List Char) :
    hexEscape (Text.hexDigits 4 n ++ rest) = .ok (n, rest) := by
  obtain ⟨values, hvalues, hnumber⟩ := Text.hexValues_of_lt h
  simp only [Text.hexDigits, List.cons_append, List.nil_append] at hvalues ⊢
  simp only [hexEscape, hvalues, hnumber]

/-- One character of a string is taken off its text. -/
theorem stringChars_escape (c : Char) (fuel : Nat) (text : List Char) :
    stringChars escapeSequence (fuel + 1) (escape c ++ text) = (do
      let (chars, rest) ← stringChars escapeSequence fuel text
      return (c :: chars, rest)) := by
  have hescaped : ∀ {text more : List Char}, escapeSequence text = .ok (c, more) →
      stringChars escapeSequence (fuel + 1) ('\\' :: text) = (do
        let (chars, rest) ← stringChars escapeSequence fuel more
        return (c :: chars, rest)) := by
    intro text more h
    rw [stringChars, if_neg (by decide), if_pos rfl, h]
    rfl
  unfold escape
  split
  · next h => exact hescaped (by rw [h]; rfl)
  split
  · next h => exact hescaped (by rw [h]; rfl)
  split
  · next h => exact hescaped (by rw [h]; rfl)
  split
  · next h => exact hescaped (by rw [h]; rfl)
  split
  · next h => exact hescaped (by rw [h]; rfl)
  split
  · next h => exact hescaped (by rw [h]; rfl)
  split
  · next h => exact hescaped (by rw [h]; rfl)
  split
  · next hcontrol =>
      refine hescaped ?_
      have hsmall : c.toNat < 16 ^ 4 := by omega
      have hlow : ¬ 0xDC00 ≤ c.toNat := by omega
      have hhigh : ¬ 0xD800 ≤ c.toNat := by omega
      change unicodeEscape (Text.hexDigits 4 c.toNat ++ text) = _
      rw [unicodeEscape, hexEscape_hexDigits hsmall]
      simp only [bind, Except.bind, hlow, hhigh, decide_false, Bool.false_and, Bool.false_eq_true,
        if_false, Char.ofNat_toNat]
      rfl
  · next hquote hbackslash _ _ _ _ _ hcontrol =>
      rw [List.singleton_append, stringChars, if_neg hquote, if_neg hbackslash, if_neg hcontrol]

/-- The characters of a string are read up to its closing quote. -/
theorem stringChars_chars {chars : List Char} {fuel : Nat} (h : chars.length < fuel) (rest : List Char) :
    stringChars escapeSequence fuel (chars.flatMap escape ++ '"' :: rest) = .ok (chars, rest) := by
  induction chars generalizing fuel with
  | nil =>
      obtain ⟨fuel, rfl⟩ := Nat.exists_eq_add_of_lt h
      rfl
  | cons c chars ih =>
      rw [List.length_cons] at h
      obtain ⟨fuel, rfl⟩ := Nat.exists_eq_add_of_lt h
      rw [List.flatMap_cons, List.append_assoc, stringChars_escape, ih (by omega)]
      rfl

theorem length_le_escape (chars : List Char) : chars.length ≤ (chars.flatMap escape).length := by
  induction chars with
  | nil => exact Nat.le_refl _
  | cons c chars ih =>
      have hone : 1 ≤ (escape c).length := by
        unfold escape
        split_ifs <;> simp
      rw [List.flatMap_cons, List.length_append, List.length_cons]
      omega

theorem run_quotedString (s : String) (rest : List Char) :
    quotedString (quoted s ++ rest) = .ok (s, rest) := by
  have hlong : s.toList.length < (quoted s ++ rest).length := by
    have hchars := length_le_escape s.toList
    simp only [quoted, List.length_append, List.length_cons, List.length_nil]
    omega
  have htext : (quoted s ++ rest).drop 1 = s.toList.flatMap escape ++ '"' :: rest := by
    simp [quoted]
  rw [quotedString, htext, stringChars_chars hlong]
  change Except.ok (String.ofList s.toList, rest) = _
  rw [String.ofList_toList]

theorem opens_quoted (s : String) : Opens (quoted s) := ⟨'"', _, rfl, rfl, rfl⟩

theorem run_peek_quoted (s : String) (rest : List Char) :
    peek (quoted s ++ rest) = .ok (some '"', quoted s ++ rest) :=
  run_peek rfl _

theorem reads_string (s : String) : Reads Decoder.string (Json.string s).render s where
  opens := opens_quoted s
  run rest _ := (run_bind (run_peek_quoted s rest)).trans (run_quotedString s rest)

end Strings

section Words

theorem reads_bool (b : Bool) : Reads Decoder.bool (Json.bool b).render b := by
  cases b with
  | true =>
      refine ⟨⟨'t', _, rfl, rfl, rfl⟩, fun rest _ => ?_⟩
      refine (run_bind (run_peek rfl _)).trans ?_
      refine (run_bind (run_advance 't' _)).trans ?_
      exact (run_bind (run_word ['r', 'u', 'e'] rest)).trans rfl
  | false =>
      refine ⟨⟨'f', _, rfl, rfl, rfl⟩, fun rest _ => ?_⟩
      refine (run_bind (run_peek rfl _)).trans ?_
      refine (run_bind (run_advance 'f' _)).trans ?_
      exact (run_bind (run_word ['a', 'l', 's', 'e'] rest)).trans rfl

theorem reads_none {α : Type} (read : Decoder α) :
    Reads (Decoder.option read) Json.null.render none := by
  refine ⟨⟨'n', _, rfl, rfl, rfl⟩, fun rest _ => ?_⟩
  refine (run_bind (run_peek rfl _)).trans ?_
  refine (run_bind (run_advance 'n' _)).trans ?_
  exact (run_bind (run_word ['u', 'l', 'l'] rest)).trans rfl

/-- What does not start as `null` is a value. -/
theorem Reads.some {α : Type} {read : Decoder α} {text : List Char} {a : α} (h : Reads read text a)
    (hword : text.head? ≠ some 'n') : Reads (Decoder.option read) text (some a) := by
  obtain ⟨c, more, rfl, hblank, -⟩ := h.opens
  have hc : c ≠ 'n' := fun hc => hword (by rw [hc]; rfl)
  refine ⟨h.opens, fun rest hrest => (run_bind (run_peek hblank (more ++ rest))).trans ?_⟩
  refine run_of_eq (y := do return Option.some (← read)) ?_ ((run_bind (h.run rest hrest)).trans rfl)
  split
  · next heq => exact absurd (Option.some.inj heq) hc
  · rfl

end Words

section Numbers

/-- No digit, point or exponent comes behind a number. -/
theorem not_numeric_of_isClosing {c : Char} (h : isClosing c = true) :
    c.isDigit = false ∧ c ≠ '.' ∧ c ≠ 'e' ∧ c ≠ 'E' := by
  simp only [isClosing, Bool.or_eq_true, decide_eq_true_eq] at h
  rcases h with (rfl | rfl) | rfl
  · decide
  · decide
  · decide

theorem opens_of_isDigit {c : Char} (h : c.isDigit = true) : isBlank c = false ∧ isClosing c = false := by
  have hne : ∀ {d : Char}, d.isDigit = false → c ≠ d := by
    rintro d hd rfl
    rw [h] at hd
    cases hd
  refine ⟨?_, ?_⟩
  · simp only [isBlank, hne (d := ' ') rfl, hne (d := '\n') rfl, hne (d := '\t') rfl,
      hne (d := '\r') rfl]
    rfl
  · simp only [isClosing, hne (d := ',') rfl, hne (d := ']') rfl, hne (d := '}') rfl]
    rfl

/-- A run of digits is scanned as a whole. -/
theorem run_digitRun {digits rest : List Char} (hdigits : ∀ c ∈ digits, c.isDigit = true)
    (h : Ends rest) : digitRun (digits ++ rest) = .ok (digits, rest) := by
  have hstop : rest.takeWhile Char.isDigit = [] ∧ rest.dropWhile Char.isDigit = rest := by
    cases rest with
    | nil => exact ⟨rfl, rfl⟩
    | cons c more =>
        have hc : c.isDigit = false := (not_numeric_of_isClosing (h c rfl)).1
        simp [hc]
  rw [digitRun, List.takeWhile_append_of_pos hdigits, List.dropWhile_append_of_pos hdigits, hstop.1,
    hstop.2, List.append_nil]

theorem run_wholeDigits (n : Nat) {rest : List Char} (h : Ends rest) :
    wholeDigits false (Nat.toDigits 10 n ++ rest) = .ok (Nat.toDigits 10 n, rest) := by
  have hrun : digitRun (Nat.toDigits 10 n ++ rest) = .ok (Nat.toDigits 10 n, rest) :=
    run_digitRun (fun _ hc => Text.isDigit_of_mem_toDigits hc) h
  have hsome : someDigits false (Nat.toDigits 10 n ++ rest) = .ok (Nat.toDigits 10 n, rest) := by
    rw [someDigits]
    refine (run_bind rfl).trans ((run_bind hrun).trans ?_)
    rw [if_neg (by simp [Nat.toDigits_ne_nil])]
    rfl
  have hzero : ¬ ((Nat.toDigits 10 n).head? = some '0' && 1 < (Nat.toDigits 10 n).length) = true := by
    intro hboth
    simp only [Bool.and_eq_true, decide_eq_true_eq] at hboth
    rw [Text.head?_toDigits hboth.1] at hboth
    exact absurd hboth.2 (by decide)
  rw [wholeDigits]
  refine (run_bind hsome).trans ?_
  rw [if_neg hzero]
  rfl

theorem run_fractionDigits {rest : List Char} (h : Ends rest) :
    fractionDigits false rest = .ok (none, rest) := by
  have hpoint : rest.head? ≠ some '.' := fun hhead =>
    (not_numeric_of_isClosing (h '.' hhead)).2.1 rfl
  rw [fractionDigits]
  refine (run_bind rfl).trans ?_
  rw [if_neg hpoint]
  rfl

theorem run_exponentPart {rest : List Char} (h : Ends rest) :
    exponentPart false rest = .ok (none, rest) := by
  have hletter : ¬ (rest.head? = some 'e' || rest.head? = some 'E') = true := by
    intro hhead
    simp only [Bool.or_eq_true, decide_eq_true_eq] at hhead
    rcases hhead with hhead | hhead
    · exact (not_numeric_of_isClosing (h 'e' hhead)).2.2.1 rfl
    · exact (not_numeric_of_isClosing (h 'E' hhead)).2.2.2 rfl
  rw [exponentPart]
  refine (run_bind rfl).trans ?_
  dsimp only
  rw [if_neg hletter]
  rfl

/-- An integer as it is scanned. -/
def wholeToken (v : Int) : NumberToken where
  negative := v < 0
  whole := Nat.toDigits 10 v.natAbs
  fraction := []
  exponent := 0
  isWhole := true

theorem render_integer_of_neg {v : Int} (h : v < 0) :
    (Json.integer v).render = '-' :: Nat.toDigits 10 v.natAbs := by
  simp [render, Text.integer, Text.natural, h]

theorem render_integer_of_nonneg {v : Int} (h : ¬ v < 0) :
    (Json.integer v).render = Nat.toDigits 10 v.natAbs := by
  simp [render, Text.integer, Text.natural, h]

/-- The text of an integer starts with a minus sign or a digit. -/
theorem head_render_integer (v : Int) :
    ∃ c more, (Json.integer v).render = c :: more ∧ (c = '-' ∧ v < 0 ∨ c.isDigit = true ∧ ¬ v < 0) := by
  by_cases h : v < 0
  · exact ⟨'-', _, render_integer_of_neg h, .inl ⟨rfl, h⟩⟩
  · cases hdigits : Nat.toDigits 10 v.natAbs with
    | nil => exact absurd hdigits Nat.toDigits_ne_nil
    | cons c more =>
        refine ⟨c, more, (render_integer_of_nonneg h).trans hdigits, .inr ⟨?_, h⟩⟩
        exact Text.isDigit_of_mem_toDigits (hdigits ▸ List.mem_cons_self)

theorem run_numberToken (v : Int) {rest : List Char} (h : Ends rest) :
    numberToken false ((Json.integer v).render ++ rest) = .ok (wholeToken v, rest) := by
  have hdigits : (do
      let whole ← wholeDigits false
      let fraction ← fractionDigits false
      let exponent ← exponentPart false
      return {
        negative := decide (v < 0), whole
        fraction := fraction.getD []
        exponent := exponent.getD 0
        isWhole := fraction.isNone && exponent.isNone } : Decoder NumberToken)
      (Nat.toDigits 10 v.natAbs ++ rest) = .ok (wholeToken v, rest) :=
    (run_bind (run_wholeDigits v.natAbs h)).trans
      ((run_bind (run_fractionDigits h)).trans ((run_bind (run_exponentPart h)).trans rfl))
  by_cases hsign : v < 0
  · rw [render_integer_of_neg hsign, numberToken]
    rw [decide_eq_true hsign] at hdigits
    exact (run_bind rfl).trans ((run_bind (run_advance '-' _)).trans hdigits)
  · obtain ⟨c, more, htext, hc⟩ := head_render_integer v
    have hminus : ¬ (((Json.integer v).render ++ rest).head? = some '-') := by
      rw [htext]
      rcases hc with hc | hc
      · exact absurd hc.2 hsign
      · rintro hhead
        obtain rfl : c = '-' := by simpa using hhead
        exact absurd hc.1 (by decide)
    rw [numberToken]
    refine (run_bind rfl).trans ?_
    dsimp only
    rw [decide_eq_false hminus, render_integer_of_nonneg hsign]
    rw [decide_eq_false hsign] at hdigits
    exact hdigits

/-- The value of an integer of the 64-bit ranges. -/
theorem value_wholeToken {v : Int} (hleast : Int64.minValue.toInt ≤ v) (hgreatest : v < UInt64.size) :
    (wholeToken v).value = .ok (.integer v) := by
  have hwhole : Text.digitsValue (wholeToken v).whole = v.natAbs := Text.digitsValue_toDigits _
  rw [NumberToken.value, hwhole]
  by_cases hsign : v < 0
  · have hnegative : (wholeToken v).negative = true := decide_eq_true hsign
    have habs : -(v.natAbs : Int) = v := by omega
    have hpos : 0 < v.natAbs := by omega
    rw [hnegative, habs, decide_eq_true hpos, decide_eq_true hleast]
    rfl
  · have hnegative : (wholeToken v).negative = false := decide_eq_false hsign
    have habs : (v.natAbs : Int) = v := by omega
    have hlt : v.natAbs < UInt64.size := by omega
    rw [hnegative, habs, decide_eq_true hlt]
    rfl

theorem run_numeral {v : Int} (hleast : Int64.minValue.toInt ≤ v) (hgreatest : v < UInt64.size)
    {rest : List Char} (h : Ends rest) :
    numeral ((Json.integer v).render ++ rest) = .ok (.integer v, rest) :=
  (run_bind (run_numberToken v h)).trans (run_lift (value_wholeToken hleast hgreatest) rest)

/-- An integer between two bounds is read where the bounds fit the 64-bit ranges. -/
theorem reads_integer {least greatest v : Int} (hmin : Int64.minValue.toInt ≤ least)
    (hmax : greatest < UInt64.size) (hleast : least ≤ v) (hgreatest : v ≤ greatest) (wanted : String) :
    Reads (Decoder.integer least greatest wanted) (Json.integer v).render v := by
  obtain ⟨c, more, htext, hc⟩ := head_render_integer v
  have hblank : isBlank c = false ∧ isClosing c = false := by
    rcases hc with ⟨rfl, -⟩ | ⟨hc, -⟩
    · exact ⟨rfl, rfl⟩
    · exact opens_of_isDigit hc
  have hnumeric : (c = '-' || c.isDigit) = true := by
    rcases hc with ⟨rfl, -⟩ | ⟨hc, -⟩
    · rfl
    · rw [hc, Bool.or_true]
  refine ⟨⟨c, more, htext, hblank⟩, fun rest hrest => ?_⟩
  have hpeek : peek ((Json.integer v).render ++ rest) = .ok (some c, (Json.integer v).render ++ rest) := by
    rw [htext]
    exact run_peek hblank.1 _
  have hnumber : Decoder.number wanted ((Json.integer v).render ++ rest) = .ok (.integer v, rest) := by
    refine (run_bind hpeek).trans ?_
    dsimp only
    rw [if_pos hnumeric]
    exact run_numeral (by omega) (by omega) hrest
  refine (run_bind hnumber).trans ?_
  dsimp only
  rw [if_pos (by simp [hleast, hgreatest])]
  rfl

theorem reads_int32 (v : Int32) : Reads decodeInt32 (Json.integer v.toInt).render v := by
  have h := (reads_integer (by decide) (by decide) v.minValue_le_toInt v.toInt_le "i32").map Int32.ofInt
  rwa [Int32.ofInt_toInt] at h

theorem reads_int64 (v : Int64) : Reads decodeInt64 (Json.integer v.toInt).render v := by
  have h := (reads_integer (by decide) (by decide) v.minValue_le_toInt v.toInt_le "i64").map Int64.ofInt
  rwa [Int64.ofInt_toInt] at h

theorem reads_uint16 (v : UInt16) : Reads decodeUInt16 (Json.integer v.toNat).render v := by
  have hsize := v.toNat_lt_size
  have hgreatest : (v.toNat : Int) ≤ (UInt16.size - 1 : Nat) := by omega
  have h := (reads_integer (by decide) (by decide) (Int.natCast_nonneg _) hgreatest "u16").map
    fun value => UInt16.ofNat value.toNat
  rwa [Int.toNat_natCast, UInt16.ofNat_toNat] at h

theorem reads_uint32 (v : UInt32) : Reads decodeUInt32 (Json.integer v.toNat).render v := by
  have hsize := v.toNat_lt_size
  have hgreatest : (v.toNat : Int) ≤ (UInt32.size - 1 : Nat) := by omega
  have h := (reads_integer (by decide) (by decide) (Int.natCast_nonneg _) hgreatest "u32").map
    fun value => UInt32.ofNat value.toNat
  rwa [Int.toNat_natCast, UInt32.ofNat_toNat] at h

end Numbers

end ClassScript.Json
