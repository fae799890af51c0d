/-!
Cutting text: into lines at newlines, and once at a marker. Joining what a cut
leaves gives the text back.
-/

namespace ClassScript.Text

/-- The pieces between newlines; a text without one is a single piece. -/
def lines : List Char → List (List Char)
  | [] => [[]]
  | c :: rest =>
      if c = '\n' then [] :: lines rest
      else
        match lines rest with
        | [] => [[c]]
        | line :: others => (c :: line) :: others

/-- The text without one newline at its end, when it has one there. -/
def dropFinalNewline (text : List Char) : List Char :=
  if text.getLast? = some '\n' then text.dropLast else text

/-- What stands before and after the first occurrence of `marker`. -/
def cutAt? (marker : List Char) : List Char → Option (List Char × List Char)
  | [] => if marker = [] then some ([], []) else none
  | c :: rest =>
      if marker.isPrefixOf (c :: rest) then some ([], (c :: rest).drop marker.length)
      else (cutAt? marker rest).map fun (before, after) => (c :: before, after)

/-- How often `marker` occurs, counting from the left and without overlap. -/
def occurrences (marker text : List Char) : Nat :=
  go text.length text
where
  go : Nat → List Char → Nat
    | 0, _ => 0
    | fuel + 1, text =>
        match cutAt? marker text with
        | none => 0
        | some (_, after) => go fuel after + 1

theorem lines_ne_nil (text : List Char) : lines text ≠ [] := by
  cases text with
  | nil => simp [lines]
  | cons c rest =>
      unfold lines
      split
      · simp
      · split <;> simp

end ClassScript.Text
