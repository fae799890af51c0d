import ClassScript.Text.Alphabetic
import ClassScript.Text.Numeral
import ClassScript.Text.Extend
import ClassScript.Text.Ignorable
import ClassScript.Text.Unprintable

/-!
Character classes over all of Unicode, as of its version 17. ASCII is decided
by arithmetic and the rest by the property tables, so the two parts never
overlap.
-/

namespace ClassScript.Text

/-- Letters in the sense of the property Alphabetic. -/
def isAlphabetic (c : Char) : Bool :=
  if c.toNat < 128 then c.isAlpha else alphabetic.holds c

/-- Letters, and characters of a number category. -/
def isAlphanumeric (c : Char) : Bool :=
  if c.toNat < 128 then c.isAlphanum else alphabetic.holds c || numeral.holds c

/-- The halfwidth voiced and semi-voiced sound marks. They extend the character
before them but are letters with a cell of their own. -/
def soundMarks : Ranges := [(0xFF9E, 0xFF9F)]

/-- Characters drawn onto the one before them. -/
def isAttached (c : Char) : Bool :=
  graphemeExtend.holds c && !soundMarks.holds c

/-- Characters that can be shown as themselves: drawn at all, and not attached
to the character before them. -/
def isPrintable (c : Char) : Bool :=
  if c.toNat < 128 then 0x20 ≤ c.toNat && c.toNat < 0x7F
  else !(isAttached c || defaultIgnorable.holds c || unprintable.holds c)

theorem isAlphanumeric_of_isAlphabetic {c : Char} (h : isAlphabetic c = true) :
    isAlphanumeric c = true := by
  unfold isAlphabetic isAlphanumeric at *
  split
  · next hc => simp only [hc, if_true] at h; simp [Char.isAlphanum, h]
  · next hc => simp only [hc, if_false] at h; simp [h]

end ClassScript.Text
