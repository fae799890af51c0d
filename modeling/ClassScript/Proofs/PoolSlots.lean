import ClassScript.Output.StringPool
import Mathlib.Data.List.Infix
import Mathlib.Data.List.Nodup

/-!
Slots of the string pool. Asking for a slot either finds the literal or puts it
at the end, so a slot keeps its literal in every later pool, and a later pool
answers as the earlier one did.
-/

namespace ClassScript.Output.StringPool

variable {p q : StringPool} {value : String}

/-- A literal that is there keeps its slot, and any other gets the next one. -/
theorem alloc_cases (p : StringPool) (value : String) :
    (∃ slot, p.slot? value = some slot ∧ p.alloc value = (slot, p)) ∨
      (value ∉ p.entries ∧ p.alloc value = (p.size, ⟨p.entries ++ [value]⟩)) := by
  unfold alloc
  cases h : p.slot? value with
  | some slot => exact .inl ⟨slot, rfl, rfl⟩
  | none => exact .inr ⟨List.idxOf?_eq_none_iff.1 h, rfl⟩

theorem getElem?_of_slot? {slot : Nat} (h : p.slot? value = some slot) :
    p.entries[slot]? = some value := by
  obtain ⟨hlt, hvalue, _⟩ := List.idxOf?_eq_some_iff.1 h
  rw [List.getElem?_eq_getElem hlt, hvalue]

/-- Where literals are distinct, a slot is that of the literal in it. -/
theorem slot?_eq_some_iff (hp : p.entries.Nodup) {slot : Nat} :
    p.slot? value = some slot ↔ p.entries[slot]? = some value := by
  refine ⟨getElem?_of_slot?, fun h => ?_⟩
  obtain ⟨hlt, hvalue⟩ := List.getElem?_eq_some_iff.1 h
  refine List.idxOf?_eq_some_iff.2 ⟨hlt, hvalue, fun other hother hsame => ?_⟩
  have heq : other = slot := (List.Nodup.getElem_inj_iff hp).1 (hsame.trans hvalue.symm)
  omega

theorem getElem?_alloc (p : StringPool) (value : String) :
    (p.alloc value).2.entries[(p.alloc value).1]? = some value := by
  rcases p.alloc_cases value with ⟨slot, hslot, halloc⟩ | ⟨_, halloc⟩
  · rw [halloc]
    exact getElem?_of_slot? hslot
  · rw [halloc]
    exact List.getElem?_concat_length

theorem prefix_alloc (p : StringPool) (value : String) :
    p.entries <+: (p.alloc value).2.entries := by
  rcases p.alloc_cases value with ⟨slot, _, halloc⟩ | ⟨_, halloc⟩
  · rw [halloc]
  · rw [halloc]
    exact List.prefix_append _ _

theorem nodup_alloc (hp : p.entries.Nodup) (value : String) : (p.alloc value).2.entries.Nodup := by
  rcases p.alloc_cases value with ⟨slot, _, halloc⟩ | ⟨hnew, halloc⟩
  · rw [halloc]
    exact hp
  · rw [halloc]
    exact List.nodup_append'.2 ⟨hp, List.nodup_singleton _, List.disjoint_singleton.2 hnew⟩

theorem getElem?_of_extends (h : p.entries <+: q.entries) {slot : Nat}
    (hvalue : p.entries[slot]? = some value) : q.entries[slot]? = some value := by
  obtain ⟨rest, hrest⟩ := h
  obtain ⟨hlt, _⟩ := List.getElem?_eq_some_iff.1 hvalue
  rw [← hrest, List.getElem?_append_left hlt, hvalue]

/-- A later pool gives the same slot and stays as it is. -/
theorem alloc_later (hq : q.entries.Nodup) (h : (p.alloc value).2.entries <+: q.entries) :
    q.alloc value = ((p.alloc value).1, q) := by
  have hslot : q.slot? value = some (p.alloc value).1 :=
    (slot?_eq_some_iff hq).2 (getElem?_of_extends h (p.getElem?_alloc value))
  simp only [alloc, hslot]

/-- The pool after several literals in turn. -/
def allocAll (p : StringPool) (values : List String) : StringPool :=
  values.foldl (fun p value => (p.alloc value).2) p

theorem allocAll_append (p : StringPool) (values others : List String) :
    p.allocAll (values ++ others) = (p.allocAll values).allocAll others :=
  List.foldl_append

/-- Each literal that is not there yet comes to the end, once. -/
theorem entries_allocAll (p : StringPool) (values : List String) :
    (p.allocAll values).entries = p.entries ++ (values.filter (· ∉ p.entries)).eraseDups := by
  induction values generalizing p with
  | nil => simp [allocAll]
  | cons value rest ih =>
      change ((p.alloc value).2.allocAll rest).entries = _
      rw [ih]
      rcases p.alloc_cases value with ⟨slot, hslot, halloc⟩ | ⟨hnew, halloc⟩
      · have hmem : value ∈ p.entries := List.mem_of_getElem? (getElem?_of_slot? hslot)
        rw [halloc, List.filter_cons_of_neg (by simpa using hmem)]
      · have hrest : rest.filter (· ∉ p.entries ++ [value]) =
            (rest.filter (· ∉ p.entries)).filter fun other => !other == value := by
          rw [List.filter_filter]
          refine List.filter_congr fun other _ => ?_
          simp [and_comm, beq_eq_decide]
        rw [halloc, List.filter_cons_of_pos (by simpa using hnew), List.eraseDups_cons, ← hrest]
        exact List.append_assoc p.entries [value] _

/-- From nothing, the literals are those asked for in the order of first use. -/
theorem entries_allocAll_empty (values : List String) :
    (empty.allocAll values).entries = values.eraseDups := by
  rw [entries_allocAll]
  simp [empty]

end ClassScript.Output.StringPool
