import ClassScript.Proofs.DocText
import ClassScript.Proofs.ReadBack

/-!
Script text read for the names in it. A name is a word in code that stands behind no
point and is neither a number nor a keyword. Texts that are put together where no word
goes on from the one to the other have the names of their parts, in order.
-/

namespace ClassScript.Words

open Script

/-- Where a reader is: between words, behind a point, in a word that began with these
characters, in the name of a member, in a literal with that quote, or behind a backslash
in one. -/
inductive Cursor where
  | code
  | point
  | word (chars : List Char)
  | member
  | literal (quote : Char)
  | escaped (quote : Char)
  deriving DecidableEq

namespace Cursor

/-- Behind a character that belongs to no word. -/
def aside (c : Char) : Cursor :=
  if c = '"' ∨ c = '\x27' then .literal c else if c = '.' then .point else .code

def next (k : Cursor) (c : Char) : Cursor :=
  match k with
  | .escaped quote => .literal quote
  | .literal quote =>
      if c = '\\' then .escaped quote else if c = quote then .code else .literal quote
  | .code => if isVariableChar c then .word [c] else aside c
  | .word chars => if isVariableChar c then .word (chars ++ [c]) else aside c
  | .point | .member => if isVariableChar c then .member else aside c

/-- The word that is at its end where the text is. -/
def pending : Cursor → List (List Char)
  | .word chars => [chars]
  | _ => []

/-- The word that is at its end before that character. -/
def finished (k : Cursor) (c : Char) : List (List Char) :=
  if isVariableChar c then [] else k.pending

/-- Whether no literal is open. -/
def settled : Cursor → Bool
  | .literal _ | .escaped _ => false
  | _ => true

/-- The words that are finished in a text, and the cursor behind it. -/
def read (k : Cursor) : List Char → List (List Char) × Cursor
  | [] => ([], k)
  | c :: rest => (k.finished c ++ ((k.next c).read rest).1, ((k.next c).read rest).2)

variable {k : Cursor} {c : Char}

theorem read_append (k : Cursor) (text more : List Char) :
    k.read (text ++ more) =
      ((k.read text).1 ++ ((k.read text).2.read more).1, ((k.read text).2.read more).2) := by
  induction text generalizing k with
  | nil => rfl
  | cons c rest ih => rw [List.cons_append, read, ih, read, List.append_assoc]

/-- A character that belongs to no word ends what is pending, and then it does not matter
any more what that was. -/
theorem read_break (hk : k.settled = true) (hc : isVariableChar c = false) (rest : List Char) :
    k.read (c :: rest) = (k.pending ++ (code.read (c :: rest)).1, (code.read (c :: rest)).2) := by
  have hnext : k.next c = code.next c := by
    cases k with
    | literal _ | escaped _ => cases hk
    | _ => simp [next, hc]
  have hfinished : k.finished c = k.pending := by simp [finished, hc]
  have hcode : code.finished c = [] := by simp [finished, pending]
  rw [read, read, hnext, hfinished, hcode, List.nil_append]

end Cursor

/-- Whether a word is a name: it does not begin with a digit and is no keyword. -/
def isName (word : String) : Bool :=
  word.toList.head?.any (!·.isDigit) && !keywords.contains word

/-- The names among the words. -/
def named (words : List (List Char)) : List String :=
  (words.map String.ofList).filter isName

theorem named_append (words others : List (List Char)) :
    named (words ++ others) = named words ++ named others := by
  rw [named, List.map_append, List.filter_append]
  rfl

/-- The names in a text, each as often as it stands there. -/
def namesIn (text : List Char) : List String :=
  named ((Cursor.code.read text).1 ++ (Cursor.code.read text).2.pending)

/-- A text of one line in which no literal stays open, with the names in it. -/
def Mentions (names : List String) (text : String) : Prop :=
  '\n' ∉ text.toList ∧ (Cursor.code.read text.toList).2.settled = true ∧
    namesIn text.toList = names

/-- Such a text behind which a word may begin. -/
def Opening (names : List String) (text : String) : Prop :=
  '\n' ∉ text.toList ∧ (Cursor.code.read text.toList).2 = .code ∧ namesIn text.toList = names

instance (names : List String) (text : String) : Decidable (Mentions names text) :=
  inferInstanceAs (Decidable (_ ∧ _ ∧ _))

instance (names : List String) (text : String) : Decidable (Opening names text) :=
  inferInstanceAs (Decidable (_ ∧ _ ∧ _))

/-- Whether no word goes on into the text. -/
def breaks (text : String) : Bool :=
  text.toList.head?.all (!isVariableChar ·)

theorem breaks_append {text : String} (h : breaks text = true) (hne : text.toList ≠ [])
    (more : String) : breaks (text ++ more) = true := by
  rw [breaks] at h ⊢
  rwa [String.toList_append, List.head?_append_of_ne_nil _ hne]

section Joining

variable {names others : List String} {text more : String}

theorem Opening.mentions (h : Opening names text) : Mentions names text :=
  ⟨h.1, by rw [h.2.1]; rfl, h.2.2⟩

theorem Opening.read_append (h : Opening names text) (rest : List Char) :
    Cursor.code.read (text.toList ++ rest) =
      ((Cursor.code.read text.toList).1 ++ (Cursor.code.read rest).1, (Cursor.code.read rest).2) := by
  rw [Cursor.read_append, h.2.1]

/-- What stands behind an opening text is read as it is read alone. -/
theorem Opening.append (h : Opening names text) (hmore : Mentions others more) :
    Mentions (names ++ others) (text ++ more) := by
  obtain ⟨hline, hsettled, hnames⟩ := hmore
  have hown : named (Cursor.code.read text.toList).1 = names := by
    have hall := h.2.2
    rw [namesIn, h.2.1] at hall
    simpa [Cursor.pending] using hall
  refine ⟨Text.oneLine_append h.1 hline, ?_, ?_⟩
  · rw [String.toList_append, h.read_append]
    exact hsettled
  · rw [String.toList_append, namesIn, h.read_append, List.append_assoc, named_append, hown]
    exact congrArg (names ++ ·) hnames

theorem read_append_of_breaks (h : (Cursor.code.read text.toList).2.settled = true)
    (hbreaks : breaks more = true) (hne : more.toList ≠ []) :
    Cursor.code.read (text ++ more).toList =
      ((Cursor.code.read text.toList).1 ++ (Cursor.code.read text.toList).2.pending ++
        (Cursor.code.read more.toList).1, (Cursor.code.read more.toList).2) := by
  obtain ⟨c, rest, hmore⟩ := List.exists_cons_of_ne_nil hne
  have hc : isVariableChar c = false := by
    rw [breaks, hmore] at hbreaks
    simpa using hbreaks
  rw [String.toList_append, Cursor.read_append, hmore, Cursor.read_break h hc, List.append_assoc]

/-- Where no word goes on, names follow names. -/
theorem Mentions.append (h : Mentions names text) (hmore : Mentions others more)
    (hbreaks : breaks more = true) : Mentions (names ++ others) (text ++ more) := by
  refine ⟨Text.oneLine_append h.1 hmore.1, ?_⟩
  by_cases hne : more.toList = []
  · obtain rfl : more = "" := String.toList_inj.1 hne
    obtain rfl : [] = others := hmore.2.2
    rw [String.append_empty, List.append_nil]
    exact h.2
  · rw [namesIn, read_append_of_breaks h.2.1 hbreaks hne]
    refine ⟨hmore.2.1, ?_⟩
    rw [List.append_assoc, named_append]
    exact congrArg₂ (· ++ ·) h.2.2 hmore.2.2

theorem Mentions.opening (h : Mentions names text) (hmore : Opening others more)
    (hbreaks : breaks more = true) (hne : more.toList ≠ []) :
    Opening (names ++ others) (text ++ more) := by
  obtain ⟨hline, -, hnames⟩ := h.append hmore.mentions hbreaks
  refine ⟨hline, ?_, hnames⟩
  rw [read_append_of_breaks h.2.1 hbreaks hne]
  exact hmore.2.1

/-- What has no names of its own leaves those of the other text. -/
theorem Mentions.append_plain (h : Mentions names text) (hmore : Mentions [] more)
    (hbreaks : breaks more = true) : Mentions names (text ++ more) := by
  have hall := h.append hmore hbreaks
  rwa [List.append_nil] at hall

end Joining

end ClassScript.Words
