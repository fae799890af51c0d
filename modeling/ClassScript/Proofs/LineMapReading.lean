import ClassScript.Output.LineMap
import Mathlib.Algebra.Group.Nat.Defs
import Mathlib.Data.List.Basic

/-!
Reading mappings back by the rules of version 3 of the source map format. A
semicolon ends a line and a comma a segment; columns count from the start of the
line, all other fields from the segment before. What is written for a line map
reads as its entries.
-/

namespace ClassScript.Output

/-- Where a place of the output comes from; lines and columns count from zero. -/
structure Segment where
  line : Nat
  column : Int
  source : Int
  sourceLine : Int
  sourceColumn : Int
  deriving DecidableEq

namespace Vlq

/-- The number that a character stands for in base 64: capital letters, small
letters and digits, then `+` and `/`. -/
def value? (c : Char) : Option Nat :=
  if 'A' ≤ c ∧ c ≤ 'Z' then some (c.toNat - 65)
  else if 'a' ≤ c ∧ c ≤ 'z' then some (c.toNat - 97 + 26)
  else if '0' ≤ c ∧ c ≤ '9' then some (c.toNat - 48 + 52)
  else if c = '+' then some 62
  else if c = '/' then some 63
  else none

/-- The integer whose sign is in the lowest bit. -/
def unzigzag (n : Nat) : Int :=
  if n % 2 = 1 then -((n / 2 : Nat) : Int) else ((n / 2 : Nat) : Int)

theorem unzigzag_zigzag (v : Int) : unzigzag (zigzag v) = v := by
  unfold unzigzag zigzag
  split <;> split <;> omega

theorem value?_digit {d : Nat} (h : d < 64) : value? (digit d) = some d := by
  revert h d
  decide +kernel

/-- No digit ends a line or a segment. -/
theorem digit_ne {d : Nat} (h : d < 64) : digit d ≠ ';' ∧ digit d ≠ ',' := by
  have hvalue := value?_digit h
  constructor
  · intro hline
    rw [hline] at hvalue
    cases hvalue
  · intro hsegment
    rw [hsegment] at hvalue
    cases hvalue

end Vlq

/-- A reader of mappings: the place it has come to in the output and the source,
the fields of the segment that it is in, the part of a number that it has read,
and the segments it has found. -/
structure MapReader where
  line : Nat
  column : Int
  source : Int
  sourceLine : Int
  sourceColumn : Int
  fields : List Int
  value : Nat
  shift : Nat
  found : List Segment

namespace MapReader

/-- The reader between segments, at the start of a line. -/
def fresh (line : Nat) (source sourceLine : Int) (found : List Segment) : MapReader :=
  ⟨line, 0, source, sourceLine, 0, [], 0, 0, found⟩

/-- Ends the segment. One with a single field has no source, and a fifth field
is for a name. -/
def close (r : MapReader) : Option MapReader :=
  if r.shift ≠ 0 then none
  else
    match r.fields with
    | [] => some r
    | [column] => some { r with column := r.column + column, fields := [] }
    | [column, source, line, sourceColumn] | [column, source, line, sourceColumn, _] =>
        let segment : Segment :=
          { line := r.line, column := r.column + column, source := r.source + source
            sourceLine := r.sourceLine + line, sourceColumn := r.sourceColumn + sourceColumn }
        some { r with
          column := segment.column, source := segment.source, sourceLine := segment.sourceLine
          sourceColumn := segment.sourceColumn, fields := [], found := r.found ++ [segment] }
    | _ => none

/-- Reads five bits of a number; a sixth says that more are to come. -/
def digit (r : MapReader) (d : Nat) : MapReader :=
  if 32 ≤ d then { r with value := r.value + (d - 32) * 2 ^ r.shift, shift := r.shift + 5 }
  else
    { r with
      fields := r.fields ++ [Vlq.unzigzag (r.value + d * 2 ^ r.shift)], value := 0, shift := 0 }

def step (r : MapReader) (c : Char) : Option MapReader :=
  if c = ';' then r.close.map fun r => { r with line := r.line + 1, column := 0 }
  else if c = ',' then r.close
  else (Vlq.value? c).map r.digit

/-- Reads characters from left to right. -/
def read (r : MapReader) (text : List Char) : Option MapReader :=
  text.foldlM step r

theorem read_append (r : MapReader) (text rest : List Char) :
    r.read (text ++ rest) = (r.read text).bind (·.read rest) :=
  List.foldlM_append

theorem read_cons (r : MapReader) (c : Char) (rest : List Char) :
    r.read (c :: rest) = (r.step c).bind (·.read rest) :=
  List.foldlM_cons

theorem step_digit (r : MapReader) {d : Nat} (h : d < 64) : r.step (Vlq.digit d) = some (r.digit d) := by
  obtain ⟨hline, hsegment⟩ := Vlq.digit_ne h
  rw [step, if_neg hline, if_neg hsegment, Vlq.value?_digit h]
  rfl

/-- The digits of a number add a field. -/
theorem read_digits (n : Nat) (r : MapReader) :
    r.read (Vlq.digits n) = some { r with
      fields := r.fields ++ [Vlq.unzigzag (r.value + n * 2 ^ r.shift)], value := 0, shift := 0 } := by
  induction n using Nat.strongRecOn generalizing r with
  | ind n ih =>
      rw [Vlq.digits]
      split
      · next hlast =>
          rw [read_cons, r.step_digit (by omega), digit, if_neg (by omega)]
          rfl
      · next hmore =>
          have hdigit : n % 32 + 32 < 64 := by omega
          -- The low five bits are read, and the rest stands five bits higher.
          have hvalue : r.value + (n % 32 + 32 - 32) * 2 ^ r.shift + n / 32 * 2 ^ (r.shift + 5) =
              r.value + n * 2 ^ r.shift := by
            have hparts : n % 32 * 2 ^ r.shift + n / 32 * 32 * 2 ^ r.shift = n * 2 ^ r.shift := by
              rw [← Nat.add_mul, Nat.mod_add_div']
            rw [Nat.add_sub_cancel, Nat.pow_add, Nat.add_assoc, ← hparts, Nat.mul_assoc (n / 32),
              Nat.mul_comm (2 ^ r.shift)]
          rw [read_cons, r.step_digit hdigit, digit, if_pos (by omega), Option.bind_some,
            ih (n / 32) (by omega)]
          simp only [hvalue]

theorem read_encode (v : Int) {r : MapReader} (hvalue : r.value = 0) (hshift : r.shift = 0) :
    r.read (Vlq.encode v) = some { r with fields := r.fields ++ [v] } := by
  obtain ⟨line, column, source, sourceLine, sourceColumn, fields, value, shift, found⟩ := r
  obtain rfl : value = 0 := hvalue
  obtain rfl : shift = 0 := hshift
  rw [Vlq.encode, read_digits, Nat.zero_add, Nat.pow_zero, Nat.mul_one, Vlq.unzigzag_zigzag]

/-- Lines end where a segment may end, and the next one begins between segments. -/
theorem read_lines {r : MapReader} {line : Nat} {source sourceLine : Int} {found : List Segment}
    (h : r.close = some (fresh line source sourceLine found)) (k : Nat) :
    r.read (List.replicate (k + 1) ';') = some (fresh (line + (k + 1)) source sourceLine found) := by
  induction k generalizing r line with
  | zero =>
      rw [List.replicate_one, read_cons, step, if_pos rfl, h]
      rfl
  | succ k ih =>
      have hclosed : (fresh (line + 1) source sourceLine found).close =
          some (fresh (line + 1) source sourceLine found) := rfl
      rw [List.replicate_succ, read_cons, step, if_pos rfl, h]
      refine (ih hclosed).trans ?_
      rw [Nat.add_assoc, Nat.add_comm 1]

end MapReader

/-- The segment that an entry of a line map stands for. -/
def LineMap.segmentOf (entry : Nat × Origin) : Segment :=
  ⟨entry.1, 0, entry.2.source, zeroBased entry.2, 0⟩

/-- The segments that mappings stand for, by the rules of the format. -/
def decodeMappings (mappings : String) : Option (List Segment) :=
  (((MapReader.fresh 0 0 0 []).read mappings.toList).bind MapReader.close).map (·.found)

namespace MapReader

/-- The text of one segment reads as that segment. -/
theorem read_segment (line : Nat) (source sourceLine : Int) (found : List Segment) (o : Origin) :
    ∃ r, (fresh line source sourceLine found).read
        (Vlq.encode 0 ++ Vlq.encode (o.source - source) ++
          Vlq.encode (LineMap.zeroBased o - sourceLine) ++ Vlq.encode 0) = some r ∧
      r.close = some (fresh line o.source (LineMap.zeroBased o)
        (found ++ [LineMap.segmentOf (line, o)])) := by
  refine ⟨{ fresh line source sourceLine found with
    fields := [0, o.source - source, LineMap.zeroBased o - sourceLine, 0] }, ?_, ?_⟩
  · rw [read_append, read_append, read_append, read_encode 0 rfl rfl, Option.bind_some,
      read_encode _ rfl rfl, Option.bind_some, read_encode _ rfl rfl, Option.bind_some,
      read_encode 0 rfl rfl]
    rfl
  · have hline : sourceLine + (LineMap.zeroBased o - sourceLine) = LineMap.zeroBased o := by omega
    have hsource : source + (o.source - source) = o.source := by omega
    simp [close, fresh, LineMap.segmentOf, hline, hsource]

/-- Entries in ascending order of lines are read one after the other. -/
theorem read_segments {entries : List (Nat × Origin)} {r : MapReader} {current : Nat}
    {source sourceLine : Int} {found : List Segment}
    (hclose : r.close = some (fresh current source sourceLine found))
    (hstart : r = fresh current source sourceLine found ∨ ∀ entry ∈ entries, current < entry.1)
    (hle : ∀ entry ∈ entries, current ≤ entry.1)
    (hascending : entries.Pairwise fun entry later => entry.1 < later.1) :
    ((r.read (LineMap.segments current source sourceLine entries)).bind close).map (·.found) =
      some (found ++ entries.map LineMap.segmentOf) := by
  induction entries generalizing r current source sourceLine found with
  | nil =>
      change (r.close).map (·.found) = _
      rw [hclose, List.map_nil, List.append_nil]
      rfl
  | cons entry rest ih =>
      obtain ⟨line, o⟩ := entry
      obtain ⟨hfirst, hrest⟩ := List.pairwise_cons.1 hascending
      have hline : current ≤ line := hle _ List.mem_cons_self
      have hlines : r.read (List.replicate (line - current) ';') =
          some (fresh line source sourceLine found) := by
        cases hgap : line - current with
        | zero =>
            obtain rfl : current = line := by omega
            rcases hstart with rfl | hlater
            · rfl
            · exact absurd (hlater _ List.mem_cons_self) (Nat.lt_irrefl _)
        | succ k =>
            have hgo : current + (k + 1) = line := by omega
            rw [read_lines hclose k, hgo]
      obtain ⟨r', hread, hclose'⟩ := read_segment line source sourceLine found o
      rw [LineMap.segments, read_append, read_append, hlines, Option.bind_some, hread,
        Option.bind_some, ih hclose' (.inr hfirst) (fun later h => Nat.le_of_lt (hfirst later h)) hrest,
        List.map_cons, List.append_assoc]
      rfl

end MapReader

/-- What is written for a line map in ascending order reads as its entries. -/
theorem decodeMappings_mappings {m : LineMap}
    (hascending : m.entries.Pairwise fun entry later => entry.1 < later.1) :
    decodeMappings m.mappings = some (m.entries.map LineMap.segmentOf) := by
  rw [decodeMappings, LineMap.mappings, String.toList_ofList,
    MapReader.read_segments rfl (.inl rfl) (fun _ _ => Nat.zero_le _) hascending, List.nil_append]

end ClassScript.Output
