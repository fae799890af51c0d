import ClassScript.Proofs.TwoRuns

/-!
Lists that differ in one place. What is kept of them differs in that place at most,
and so do the values of two runs that agree on every item.
-/

namespace ClassScript.Emission

/-- Lists that differ in one place, where the relation holds; what else there is has
the property. -/
def OneApart {α : Type} (P : α → Prop) (R : α → α → Prop) (as bs : List α) : Prop :=
  ∃ front a b back, as = front ++ a :: back ∧ bs = front ++ b :: back ∧
    (∀ x ∈ front ++ back, P x) ∧ R a b

section Places

variable {α β : Type} {P : α → Prop} {R : α → α → Prop} {as bs : List α}

/-- Such lists still differ in that place if it is kept. -/
theorem OneApart.filter_kept (keep : α → Bool) (h : OneApart P R as bs)
    (hR : ∀ a b, R a b → keep a = true ∧ keep b = true) :
    OneApart P R (as.filter keep) (bs.filter keep) := by
  obtain ⟨front, a, b, back, rfl, rfl, hP, hab⟩ := h
  obtain ⟨ha, hb⟩ := hR a b hab
  refine ⟨front.filter keep, a, b, back.filter keep, ?_, ?_, fun x hx => ?_, hab⟩
  · rw [List.filter_append, List.filter_cons_of_pos ha]
  · rw [List.filter_append, List.filter_cons_of_pos hb]
  · rw [← List.filter_append] at hx
    exact hP x (List.mem_filter.1 hx).1

/-- And they are the same if it is not. -/
theorem OneApart.filter_dropped (keep : α → Bool) (h : OneApart P R as bs)
    (hR : ∀ a b, R a b → keep a = false ∧ keep b = false) :
    as.filter keep = bs.filter keep ∧ ∀ x ∈ bs.filter keep, P x := by
  obtain ⟨front, a, b, back, rfl, rfl, hP, hab⟩ := h
  obtain ⟨ha, hb⟩ := hR a b hab
  have hdropped : ∀ x, keep x = false →
      (front ++ x :: back).filter keep = (front ++ back).filter keep := fun x hx => by
    rw [List.filter_append, List.filter_cons_of_neg (by simp [hx]), List.filter_append]
  refine ⟨(hdropped a ha).trans (hdropped b hb).symm, fun x hx => ?_⟩
  rw [hdropped b hb] at hx
  exact hP x (List.mem_filter.1 hx).1

theorem OneApart.map {P' : β → Prop} {R' : β → β → Prop} (h : OneApart P R as bs) (g : α → β)
    (hP : ∀ x, P x → P' (g x)) (hR : ∀ a b, R a b → R' (g a) (g b)) :
    OneApart P' R' (as.map g) (bs.map g) := by
  obtain ⟨front, a, b, back, rfl, rfl, hall, hab⟩ := h
  refine ⟨front.map g, g a, g b, back.map g, List.map_append, List.map_append, ?_, hR a b hab⟩
  rw [← List.map_append]
  exact List.forall_mem_map.2 fun x hx => hP x (hall x hx)

/-- Steps for the same items in turn give the same values. -/
theorem Agree.mapM_same {S : State → State → Prop} {P' : β → Prop} {f g : α → Emit β}
    (hP : ∀ x, P x → Agree S (fun d e => d = e ∧ P' d) (f x) (g x)) {items : List α}
    (h : ∀ x ∈ items, P x) :
    Agree S (fun ds es => ds = es ∧ ∀ d ∈ ds, P' d) (items.mapM f) (items.mapM g) := by
  refine (Agree.mapM fun x hx => hP x (h x hx)).mono fun ds es hall => ?_
  induction hall with
  | nil => exact ⟨rfl, by simp⟩
  | cons hde _ ih =>
      obtain ⟨rfl, hd⟩ := hde
      exact ⟨congrArg _ ih.1, List.forall_mem_cons.2 ⟨hd, ih.2⟩⟩

/-- Steps for lists that differ in one place give such lists. -/
theorem Agree.mapM_oneApart {S : State → State → Prop} {P' : β → Prop} {R' : β → β → Prop}
    {f g : α → Emit β} (hP : ∀ x, P x → Agree S (fun d e => d = e ∧ P' d) (f x) (g x))
    (hR : ∀ a b, R a b → Agree S R' (f a) (g b)) (h : OneApart P R as bs) :
    Agree S (OneApart P' R') (as.mapM f) (bs.mapM g) := by
  obtain ⟨front, a, b, back, rfl, rfl, hall, hab⟩ := h
  obtain ⟨hfront, hback⟩ := List.forall_mem_append.1 hall
  simp only [List.mapM_append, List.mapM_cons, bind_assoc, pure_bind]
  refine (Agree.mapM_same hP hfront).bind fun ds _ hds => ?_
  refine (hR a b hab).bind fun d e hde => ?_
  refine (Agree.mapM_same hP hback).bind fun rest _ hrest => ?_
  obtain ⟨rfl, hds⟩ := hds
  obtain ⟨rfl, hrest⟩ := hrest
  exact .pure ⟨ds, d, e, rest, rfl, rfl, List.forall_mem_append.2 ⟨hds, hrest⟩, hde⟩

end Places

/-- What is known of the values of a step is known of those of two that agree. -/
theorem Agree.also {α β : Type} {S : State → State → Prop} {R : α → β → Prop} {P : α → Prop}
    {x : Emit α} {y : Emit β} (h : Agree S R x y)
    (hx : ∀ {s a t}, x.run s = (.ok a, t) → P a) : Agree S (fun a b => R a b ∧ P a) x y := by
  intro s t hst
  have hends := h s t hst
  generalize hrun : x.run s = r at hends
  generalize y.run t = r' at hends
  cases hends with
  | ok hvalue hstate => exact .ok ⟨hvalue, hx hrun⟩ hstate
  | error hstate => exact .error hstate

end ClassScript.Emission
