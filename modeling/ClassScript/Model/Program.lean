import ClassScript.Model.Class

/-!
Programs: a list of classes with pairwise different names, one of which is the
entry. Assembly is the only way in, and refuses everything else.
-/

namespace ClassScript

/-- A closed set of classes with its entry. The two facts make looking a class
up by its name well defined and the entry always present. -/
structure Program where
  classes : List Class
  entry : ClassName
  customMains : List CustomMain
  distinct : (classes.map Class.name).Nodup
  hasEntry : entry ∈ classes.map Class.name

/-- Why a list of classes is no program. -/
inductive AssemblyError where
  | duplicateClass (name : ClassName)
  | missingEntryClass (name : ClassName)
  deriving DecidableEq

def AssemblyError.message : AssemblyError → String
  | .duplicateClass name => "duplicate class: " ++ name.text
  | .missingEntryClass name => "entry class not found: " ++ name.text

/-- The first name that stands earlier in the list or among those `seen`. -/
def firstRepeated? (seen : List ClassName) : List ClassName → Option ClassName
  | [] => none
  | name :: rest => if name ∈ seen then some name else firstRepeated? (name :: seen) rest

theorem firstRepeated?_eq_none {seen names : List ClassName} :
    firstRepeated? seen names = none ↔ names.Nodup ∧ ∀ name ∈ names, name ∉ seen := by
  induction names generalizing seen with
  | nil => simp [firstRepeated?]
  | cons name rest ih =>
      simp only [firstRepeated?, List.nodup_cons, List.mem_cons, forall_eq_or_imp]
      split
      · next h => simp [h]
      · next h =>
          rw [ih]
          constructor
          · rintro ⟨hd, hs⟩
            exact ⟨⟨fun hm => hs name hm (by simp), hd⟩, h,
              fun other hm hn => hs other hm (by simp [hn])⟩
          · rintro ⟨⟨hm, hd⟩, _, hs⟩
            refine ⟨hd, fun other ho hn => ?_⟩
            rcases List.mem_cons.1 hn with rfl | hn
            · exact hm ho
            · exact hs other ho hn

namespace Program

/-- The program of these classes. A repeated name is reported before a missing
entry. -/
def assemble (classes : List Class) (entry : ClassName) (customMains : List CustomMain) :
    Except AssemblyError Program :=
  match h : firstRepeated? [] (classes.map Class.name) with
  | some name => .error (.duplicateClass name)
  | none =>
      if hasEntry : entry ∈ classes.map Class.name then
        .ok { classes, entry, customMains, hasEntry
              distinct := (firstRepeated?_eq_none.1 h).1 }
      else .error (.missingEntryClass entry)

def class? (p : Program) (name : ClassName) : Option Class :=
  p.classes.find? (·.name = name)

/-- Start text for a target; the first registration wins. -/
def customMain? (p : Program) (target : String) : Option String :=
  (p.customMains.find? (·.target = target)).map (·.text)

end Program

end ClassScript
