import Mathlib.Data.List.Forall2
import Mathlib.Data.List.Induction
import Mathlib.Data.List.Nodup

/-!
Lists of entries, lists without repetition and lists in parallel: what stands in
one is found there, and of two elements one comes first. Also what holds of
characters once one is replaced, and of texts once they are joined.
-/

namespace ClassScript

/-- Where keys are pairwise different, an entry is found under its key. -/
theorem lookup_of_mem {α β : Type} [BEq α] [LawfulBEq α] {entries : List (α × β)}
    (hkeys : (entries.map Prod.fst).Nodup) {key : α} {value : β} (h : (key, value) ∈ entries) :
    entries.lookup key = some value := by
  obtain ⟨front, back, rfl⟩ := List.append_of_mem h
  refine List.lookup_eq_some_iff.2 ⟨front, back, rfl, fun entry hentry => ?_⟩
  rw [List.map_append, List.map_cons, List.nodup_append] at hkeys
  have hne := hkeys.2.2 entry.1 (List.mem_map_of_mem hentry) key (by simp)
  simpa using hne.symm

theorem lookup_cons_if {α β : Type} [BEq α] [LawfulBEq α] [DecidableEq α] (key other : α) (value : β)
    (rest : List (α × β)) :
    ((other, value) :: rest).lookup key = if key = other then some value else rest.lookup key := by
  rw [List.lookup_cons]
  by_cases h : key = other
  · rw [if_pos h, beq_iff_eq.2 h]
  · rw [if_neg h, beq_eq_false_iff_ne.2 h]

/-- What follows for the second of each pair holds of the whole second list. -/
theorem forall_mem_of_forall₂ {α β : Type} {R : α → β → Prop} {Q : β → Prop} {as : List α}
    {bs : List β} (h : List.Forall₂ R as bs) (hR : ∀ {a b}, R a b → Q b) : ∀ b ∈ bs, Q b := by
  induction h with
  | nil => simp
  | cons hfirst _ ih => exact List.forall_mem_cons.2 ⟨hR hfirst, ih⟩

/-- What holds of the new character and of all others but the old one holds of all
characters once the old one is replaced. -/
theorem forall_mem_replaced {P : Char → Prop} {old new : Char} (hnew : P new) {chars : List Char}
    (h : ∀ c ∈ chars, c ≠ old → P c) :
    ∀ c ∈ chars.map fun c => if c = old then new else c, P c := by
  intro c hc
  obtain ⟨d, hd, rfl⟩ := List.mem_map.1 hc
  split
  · exact hnew
  · next hne => exact h d hd hne

/-- What holds of texts, and of two with the separator between them, holds of all of them in
a row. -/
theorem holds_intercalate {P : String → Prop} {separator : String} (hempty : P "")
    (hjoin : ∀ {text more : String}, P text → P more → P (text ++ separator ++ more))
    {texts : List String} (h : ∀ text ∈ texts, P text) : P (separator.intercalate texts) := by
  induction texts with
  | nil => rwa [String.intercalate_nil]
  | cons text rest ih =>
      obtain ⟨htext, hrest⟩ := List.forall_mem_cons.1 h
      cases rest with
      | nil => rwa [String.intercalate_singleton]
      | cons other rest =>
          rw [String.intercalate_cons_cons]
          exact hjoin htext (ih hrest)

/-- What is left out contributes nothing. -/
theorem flatMap_filter {α β : Type} (keep : α → Bool) (f : α → List β) (items : List α) :
    (items.filter keep).flatMap f = items.flatMap fun a => if keep a then f a else [] := by
  induction items with
  | nil => rfl
  | cons a rest ih =>
      rw [List.filter_cons, List.flatMap_cons, ← ih]
      split
      · rw [List.flatMap_cons]
      · rfl

/-- A property that is decided is tried on every element. -/
theorem forall_mem_of_all {α : Type} {P : α → Prop} [DecidablePred P] {items : List α}
    (h : (items.all fun a => decide (P a)) = true) : ∀ a ∈ items, P a :=
  fun a ha => of_decide_eq_true (List.all_eq_true.1 h a ha)

theorem any_head?_of_forall {α : Type} {p : α → Bool} {items : List α} (hne : items ≠ [])
    (h : ∀ a ∈ items, p a = true) : items.head?.any p = true := by
  cases items with
  | nil => exact absurd rfl hne
  | cons a rest => exact h a List.mem_cons_self

/-- A list is cut where its elements cease to have a property. -/
theorem takeWhile_dropWhile_append {α : Type} {p : α → Bool} {front rest : List α}
    (h : ∀ a ∈ front, p a = true) (hrest : rest.head?.all (!p ·) = true) :
    (front ++ rest).takeWhile p = front ∧ (front ++ rest).dropWhile p = rest := by
  rw [List.takeWhile_append_of_pos h, List.dropWhile_append_of_pos h]
  cases rest with
  | nil => exact ⟨List.append_nil front, rfl⟩
  | cons a more =>
      have ha : p a = false := by simpa using hrest
      simp [ha]

/-- What stands before the first separator is told from what follows. -/
theorem append_separator_inj {α : Type} {sep : α} {front other back rest : List α} (h : sep ∉ front)
    (hother : sep ∉ other) (hsame : front ++ sep :: back = other ++ sep :: rest) :
    front = other ∧ back = rest := by
  induction front generalizing other with
  | nil =>
      cases other with
      | nil => exact ⟨rfl, (List.cons.inj hsame).2⟩
      | cons x other => exact absurd (List.cons.inj hsame).1 (List.ne_of_not_mem_cons hother)
  | cons x front ih =>
      cases other with
      | nil => exact absurd (List.cons.inj hsame).1.symm (List.ne_of_not_mem_cons h)
      | cons y other =>
          obtain ⟨rfl, hrest⟩ := List.cons.inj hsame
          obtain ⟨rfl, hback⟩ := ih (List.not_mem_of_not_mem_cons h)
            (List.not_mem_of_not_mem_cons hother) hrest
          exact ⟨rfl, hback⟩

theorem pair_sublist {α : Type} {a b : α} {l : List α} (ha : a ∈ l) (hb : b ∈ l) (hne : a ≠ b) :
    [a, b].Sublist l ∨ [b, a].Sublist l := by
  induction l with
  | nil => simp at ha
  | cons x rest ih =>
      rcases List.mem_cons.1 ha with rfl | ha'
      · rcases List.mem_cons.1 hb with rfl | hb'
        · exact absurd rfl hne
        · exact .inl ((List.singleton_sublist.2 hb').cons_cons a)
      · rcases List.mem_cons.1 hb with rfl | hb'
        · exact .inr ((List.singleton_sublist.2 ha').cons_cons b)
        · exact (ih ha' hb').imp (·.cons x) (·.cons x)

/-- Without repetition only one of two elements comes first. -/
theorem pair_sublist_asymm {α : Type} {a b : α} {l : List α} (hnodup : l.Nodup)
    (h : [a, b].Sublist l) : ¬ [b, a].Sublist l := by
  induction l with
  | nil => cases h
  | cons x rest ih =>
      intro h'
      obtain ⟨hx, hrest⟩ := List.nodup_cons.1 hnodup
      cases h with
      | cons _ h =>
          cases h' with
          | cons _ h' => exact ih hrest h h'
          | cons_cons _ _ => exact hx (h.subset (by simp))
      | cons_cons _ h =>
          cases h' with
          | cons _ h' => exact hx (h'.subset (by simp))
          | cons_cons _ _ => exact hx (h.subset (by simp))

theorem eraseDups_concat {α : Type} [DecidableEq α] (items : List α) (a : α) :
    (items ++ [a]).eraseDups = if a ∈ items then items.eraseDups else items.eraseDups ++ [a] := by
  rw [List.eraseDups_append]
  by_cases h : a ∈ items
  · simp [h, List.removeAll]
  · simp [h, List.removeAll, List.eraseDups_cons]

theorem nodup_eraseDups {α : Type} [DecidableEq α] (items : List α) : items.eraseDups.Nodup := by
  induction items using List.reverseRecOn with
  | nil => exact List.nodup_nil
  | append_singleton items a ih =>
      rw [eraseDups_concat]
      split
      · exact ih
      · next hnew =>
          have hfresh : ∀ b ∈ items.eraseDups, b ≠ a := fun b hb hba =>
            hnew (hba ▸ List.mem_eraseDups.1 hb)
          exact List.nodup_append.2 ⟨ih, List.nodup_singleton a, by simpa using hfresh⟩

/-- Something that the first predicate holds for stands in front of everything that the
second one holds for. -/
def Earlier {α : Type} (P Q : α → Prop) (items : List α) : Prop :=
  ∃ before a after, items = before ++ a :: after ∧ P a ∧ ∀ b ∈ before ++ [a], ¬ Q b

namespace Earlier

variable {α β : Type} {P Q : α → Prop} {items : List α}

theorem not_nil : ¬ Earlier P Q [] := by
  rintro ⟨before, a, after, hsplit, -⟩
  simp at hsplit

theorem cons_iff {a : α} : Earlier P Q (a :: items) ↔ ¬ Q a ∧ (P a ∨ Earlier P Q items) := by
  constructor
  · rintro ⟨before, b, after, hsplit, hb, hnone⟩
    cases before with
    | nil =>
        obtain ⟨rfl, -⟩ := List.cons.inj hsplit
        exact ⟨hnone a List.mem_cons_self, .inl hb⟩
    | cons c before =>
        obtain ⟨rfl, rfl⟩ := List.cons.inj hsplit
        exact ⟨hnone a List.mem_cons_self,
          .inr ⟨before, b, after, rfl, hb, fun d hd => hnone d (List.mem_cons_of_mem _ hd)⟩⟩
  · rintro ⟨hnot, ha | ⟨before, b, after, rfl, hb, hnone⟩⟩
    · exact ⟨[], a, items, rfl, ha, by simpa using hnot⟩
    · refine ⟨a :: before, b, after, rfl, hb, ?_⟩
      exact List.forall_mem_cons.2 ⟨hnot, hnone⟩

theorem append_iff {others : List α} : Earlier P Q (items ++ others) ↔
    Earlier P Q items ∨ (∀ a ∈ items, ¬ Q a) ∧ Earlier P Q others := by
  induction items with
  | nil => simp [not_nil]
  | cons a rest ih =>
      rw [List.cons_append, cons_iff, cons_iff, ih, List.forall_mem_cons]
      tauto

theorem of_forall (h : ∃ a ∈ items, P a) (hnone : ∀ a ∈ items, ¬ Q a) : Earlier P Q items := by
  obtain ⟨a, ha, hP⟩ := h
  obtain ⟨before, after, rfl⟩ := List.append_of_mem ha
  refine ⟨before, a, after, rfl, hP, fun b hb => hnone b ?_⟩
  rcases List.mem_append.1 hb with hb | hb
  · exact List.mem_append_left _ hb
  · exact List.mem_append_right _ (List.mem_singleton.1 hb ▸ List.mem_cons_self)

theorem asymm (h : Earlier P Q items) : ¬ Earlier Q P items := by
  induction items with
  | nil => exact absurd h not_nil
  | cons a rest ih =>
      rw [cons_iff] at h ⊢
      rintro ⟨hP, hQ | hrest⟩
      · exact h.1 hQ
      · exact ih (h.2.resolve_left hP) hrest

/-- Of what cannot hold together, one comes first. -/
theorem total (hapart : ∀ a, P a → ¬ Q a) (h : ∃ a ∈ items, P a) :
    Earlier P Q items ∨ Earlier Q P items := by
  induction items with
  | nil => simp at h
  | cons a rest ih =>
      simp only [cons_iff]
      by_cases hP : P a
      · exact .inl ⟨hapart a hP, .inl hP⟩
      · by_cases hQ : Q a
        · exact .inr ⟨hP, .inl hQ⟩
        · have hrest : ∃ a ∈ rest, P a := by simpa [hP] using h
          exact (ih hrest).imp (⟨hQ, .inr ·⟩) (⟨hP, .inr ·⟩)

theorem filterMap_iff {f : α → Option β} {x y : β} : Earlier (· = x) (· = y) (items.filterMap f) ↔
    Earlier (fun a => f a = some x) (fun a => f a = some y) items := by
  induction items with
  | nil => simp [not_nil]
  | cons a rest ih =>
      rw [cons_iff, ← ih]
      cases hf : f a with
      | none => simp [List.filterMap_cons_none hf]
      | some b => simp [List.filterMap_cons_some hf, cons_iff]

/-- What comes first where items are put together comes first in what they are put
together from. -/
theorem flatMap {P' Q' : β → Prop} {f : α → List β} (h : Earlier P Q items)
    (hP : ∀ a, P a → ∃ b ∈ f a, P' b) (hQ : ∀ a, ¬ Q a → ∀ b ∈ f a, ¬ Q' b) :
    Earlier P' Q' (items.flatMap f) := by
  induction items with
  | nil => exact absurd h not_nil
  | cons a rest ih =>
      rw [cons_iff] at h
      rw [List.flatMap_cons, append_iff]
      by_cases ha : P a
      · exact .inl (of_forall (hP a ha) (hQ a h.1))
      · exact .inr ⟨hQ a h.1, ih (h.2.resolve_left ha)⟩

/-- First occurrences stay in order. -/
theorem pair_sublist_eraseDups [DecidableEq α] {x y : α} (h : Earlier (· = x) (· = y) items)
    (hy : y ∈ items) : [x, y].Sublist items.eraseDups := by
  obtain ⟨before, a, after, rfl, rfl, hnone⟩ := h
  have hfront : (before ++ a :: after) = (before ++ [a]) ++ after := by simp
  rw [hfront, List.eraseDups_append]
  have hlater : y ∈ (after.removeAll (before ++ [a])).eraseDups := by
    rw [hfront, ← List.mem_eraseDups, List.eraseDups_append] at hy
    refine (List.mem_append.1 hy).resolve_left fun hbefore => ?_
    exact hnone y (List.mem_eraseDups.1 hbefore) rfl
  have hfirst : a ∈ (before ++ [a]).eraseDups := by simp [List.mem_eraseDups]
  exact (List.singleton_sublist.2 hfirst).append (List.singleton_sublist.2 hlater)

end Earlier

/-- Of first occurrences that are kept, one comes first as it does in the list. -/
theorem pair_sublist_kept {α : Type} [DecidableEq α] {items : List α} {keep : α → Bool} {x y : α}
    (hx : x ∈ items.eraseDups.filter keep) (hy : y ∈ items.eraseDups.filter keep) (hne : x ≠ y) :
    [x, y].Sublist (items.eraseDups.filter keep) ↔ Earlier (· = x) (· = y) items := by
  have hkept : ∀ {a b}, a ∈ items.eraseDups.filter keep → b ∈ items.eraseDups.filter keep →
      Earlier (· = a) (· = b) items → [a, b].Sublist (items.eraseDups.filter keep) := by
    intro a b ha hb hearlier
    obtain ⟨-, hakeep⟩ := List.mem_filter.1 ha
    obtain ⟨hbmem, hbkeep⟩ := List.mem_filter.1 hb
    have hpair := (hearlier.pair_sublist_eraseDups (List.mem_eraseDups.1 hbmem)).filter keep
    rwa [List.filter_cons_of_pos hakeep, List.filter_cons_of_pos hbkeep, List.filter_nil] at hpair
  constructor
  · intro hsub
    have hmem : x ∈ items := List.mem_eraseDups.1 (List.mem_filter.1 hx).1
    have hone : Earlier (· = x) (· = y) items ∨ Earlier (· = y) (· = x) items :=
      Earlier.total (fun a hax hay => hne (hax.symm.trans hay)) ⟨x, hmem, rfl⟩
    refine hone.resolve_right fun h => ?_
    exact pair_sublist_asymm ((nodup_eraseDups items).filter keep) hsub (hkept hy hx h)
  · exact hkept hx hy

end ClassScript
