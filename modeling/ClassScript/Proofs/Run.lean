import ClassScript.Emission.State
import Mathlib.Data.List.Forall2

/-!
Running steps that may fail and that keep their state when they do. A step
yields a value under an invariant when from every state with the invariant it
returns that value in such a state; sequences of steps inherit this.
-/

namespace ClassScript.Emission

section Steps

variable {ε σ α β : Type}

theorem run_pure (a : α) (s : σ) : (pure a : ExceptT ε (StateM σ) α).run s = (.ok a, s) := rfl

theorem run_get (s : σ) : (get : ExceptT ε (StateM σ) σ).run s = (.ok s, s) := rfl

theorem run_set (s t : σ) : (set t : ExceptT ε (StateM σ) PUnit).run s = (.ok ⟨⟩, t) := rfl

theorem run_modify (f : σ → σ) (s : σ) :
    (modify f : ExceptT ε (StateM σ) PUnit).run s = (.ok ⟨⟩, f s) := rfl

theorem run_bind_ok {x : ExceptT ε (StateM σ) α} {f : α → ExceptT ε (StateM σ) β} {a : α}
    {s t : σ} (h : x.run s = (.ok a, t)) : (x >>= f).run s = (f a).run t := by
  change (ExceptT.bindCont f (x.run s).1).run (x.run s).2 = _
  rw [h]
  rfl

theorem run_bind_error {x : ExceptT ε (StateM σ) α} {f : α → ExceptT ε (StateM σ) β} {e : ε}
    {s t : σ} (h : x.run s = (.error e, t)) : (x >>= f).run s = (.error e, t) := by
  change (ExceptT.bindCont f (x.run s).1).run (x.run s).2 = _
  rw [h]
  rfl

theorem eq_of_run_pure {a b : α} {s t : σ}
    (h : (pure a : ExceptT ε (StateM σ) α).run s = (.ok b, t)) : a = b ∧ s = t := by
  rw [run_pure, Prod.mk.injEq, Except.ok.injEq] at h
  exact h

/-- Steps that succeed one after the other succeed each. -/
theorem exists_of_run_bind_ok {x : ExceptT ε (StateM σ) α} {f : α → ExceptT ε (StateM σ) β} {b : β}
    {s u : σ} (h : (x >>= f).run s = (.ok b, u)) :
    ∃ a t, x.run s = (.ok a, t) ∧ (f a).run t = (.ok b, u) := by
  cases hx : x.run s with
  | mk result t =>
      cases result with
      | ok a =>
          rw [run_bind_ok hx] at h
          exact ⟨a, t, rfl, h⟩
      | error e =>
          rw [run_bind_error hx] at h
          cases h

theorem exists_of_run_map_ok {x : ExceptT ε (StateM σ) α} {f : α → β} {b : β} {s t : σ}
    (h : (f <$> x).run s = (.ok b, t)) : ∃ a, x.run s = (.ok a, t) ∧ f a = b := by
  rw [map_eq_pure_bind] at h
  obtain ⟨a, u, hx, hpure⟩ := exists_of_run_bind_ok h
  obtain ⟨hvalue, rfl⟩ := eq_of_run_pure hpure
  exact ⟨a, hx, hvalue⟩

/-- What holds of each item and its value holds of items and values in turn,
and what composes along the way holds between the two ends. -/
theorem forall₂_of_run_mapM_ok {f : α → ExceptT ε (StateM σ) β} {R : α → β → Prop}
    {P : σ → σ → Prop} (hrefl : ∀ s, P s s) (htrans : ∀ {s t u}, P s t → P t u → P s u)
    (hstep : ∀ {a b s t}, (f a).run s = (.ok b, t) → R a b ∧ P s t) {items : List α}
    {values : List β} {s t : σ} (h : (items.mapM f).run s = (.ok values, t)) :
    List.Forall₂ R items values ∧ P s t := by
  induction items generalizing values s with
  | nil =>
      rw [List.mapM_nil] at h
      obtain ⟨rfl, rfl⟩ := eq_of_run_pure h
      exact ⟨.nil, hrefl s⟩
  | cons a rest ih =>
      rw [List.mapM_cons] at h
      obtain ⟨b, u, hfirst, h⟩ := exists_of_run_bind_ok h
      obtain ⟨bs, v, hrest, h⟩ := exists_of_run_bind_ok h
      obtain ⟨rfl, rfl⟩ := eq_of_run_pure h
      obtain ⟨hvalue, hstate⟩ := hstep hfirst
      obtain ⟨hvalues, hstates⟩ := ih hrest
      exact ⟨.cons hvalue hvalues, htrans hstate hstates⟩

/-- The same under an invariant, for what holds of each value. -/
theorem forall_mem_of_run_mapM_ok {f : α → ExceptT ε (StateM σ) β} {Q : β → Prop}
    {invariant : σ → Prop} {items : List α}
    (hstep : ∀ a ∈ items, ∀ b s t, invariant s → (f a).run s = (.ok b, t) → Q b ∧ invariant t)
    {values : List β} {s t : σ} (hs : invariant s) (h : (items.mapM f).run s = (.ok values, t)) :
    (∀ b ∈ values, Q b) ∧ invariant t := by
  induction items generalizing values s with
  | nil =>
      rw [List.mapM_nil] at h
      obtain ⟨rfl, rfl⟩ := eq_of_run_pure h
      exact ⟨nofun, hs⟩
  | cons a rest ih =>
      rw [List.mapM_cons] at h
      obtain ⟨b, u, hfirst, h⟩ := exists_of_run_bind_ok h
      obtain ⟨bs, v, hrest, h⟩ := exists_of_run_bind_ok h
      obtain ⟨rfl, rfl⟩ := eq_of_run_pure h
      obtain ⟨hvalue, hu⟩ := hstep a List.mem_cons_self b s u hs hfirst
      obtain ⟨hvalues, hv⟩ := ih (fun a ha => hstep a (List.mem_cons_of_mem _ ha)) hu hrest
      exact ⟨List.forall_mem_cons.2 ⟨hvalue, hvalues⟩, hv⟩

section Catching

variable {x : ExceptT ε (StateM σ) α} {handle : ε → ExceptT ε (StateM σ) α} {s t : σ}

-- A step is run once, so it may be replaced by its end.
theorem run_tryCatch_ok {a : α} (h : x.run s = (.ok a, t)) :
    (tryCatchThe ε x handle).run s = (.ok a, t) := by
  change (tryCatchThe ε (fun _ => x.run s : ExceptT ε (StateM σ) α) handle).run s = _
  rw [h]
  rfl

theorem run_tryCatch_error {e : ε} (h : x.run s = (.error e, t)) :
    (tryCatchThe ε x handle).run s = (handle e).run t := by
  change (tryCatchThe ε (fun _ => x.run s : ExceptT ε (StateM σ) α) handle).run s = _
  rw [h]
  rfl

/-- A step with a handler succeeds by itself or by the handler. -/
theorem of_run_tryCatch_ok {a : α} (h : (tryCatchThe ε x handle).run s = (.ok a, t)) :
    x.run s = (.ok a, t) ∨ ∃ e u, x.run s = (.error e, u) ∧ (handle e).run u = (.ok a, t) := by
  cases hx : x.run s with
  | mk result u =>
      cases result with
      | ok b =>
          rw [run_tryCatch_ok hx] at h
          exact .inl h
      | error e =>
          rw [run_tryCatch_error hx] at h
          exact .inr ⟨e, u, rfl, h⟩

end Catching

/-- From every state with the invariant the step returns `a`, and in a state
with the invariant. -/
def Yields (invariant : σ → Prop) (x : ExceptT ε (StateM σ) α) (a : α) : Prop :=
  ∀ s, invariant s → ∃ t, x.run s = (.ok a, t) ∧ invariant t

variable {invariant : σ → Prop}

theorem Yields.pure (a : α) : Yields invariant (Pure.pure a : ExceptT ε (StateM σ) α) a :=
  fun s hs => ⟨s, run_pure a s, hs⟩

theorem Yields.bind {x : ExceptT ε (StateM σ) α} {f : α → ExceptT ε (StateM σ) β} {a : α} {b : β}
    (hx : Yields invariant x a) (hf : Yields invariant (f a) b) : Yields invariant (x >>= f) b := by
  intro s hs
  obtain ⟨t, hrun, ht⟩ := hx s hs
  rw [run_bind_ok hrun]
  exact hf t ht

/-- Steps done one after the other yield their values in order. -/
theorem Yields.mapM {f : α → ExceptT ε (StateM σ) β} {g : α → β} {xs : List α}
    (h : ∀ x ∈ xs, Yields invariant (f x) (g x)) : Yields invariant (xs.mapM f) (xs.map g) := by
  induction xs with
  | nil => exact Yields.pure []
  | cons x rest ih =>
      rw [List.mapM_cons]
      refine (h x (by simp)).bind (Yields.bind (ih fun y hy => h y (by simp [hy])) ?_)
      exact Yields.pure _

/-- Whatever value the step comes to, from whatever state, has the property. -/
def Returns (P : α → Prop) (x : ExceptT ε (StateM σ) α) : Prop :=
  ∀ s a t, x.run s = (.ok a, t) → P a

theorem Returns.pure {P : α → Prop} {a : α} (h : P a) :
    Returns P (Pure.pure a : ExceptT ε (StateM σ) α) := by
  intro s b t hrun
  obtain ⟨rfl, -⟩ := eq_of_run_pure hrun
  exact h

theorem Returns.throw {P : α → Prop} (e : ε) :
    Returns P (MonadExcept.throw e : ExceptT ε (StateM σ) α) := by
  intro s a t hrun
  cases hrun

theorem Returns.bind {P : α → Prop} {Q : β → Prop} {x : ExceptT ε (StateM σ) α}
    {f : α → ExceptT ε (StateM σ) β} (h : Returns P x) (hrest : ∀ a, P a → Returns Q (f a)) :
    Returns Q (x >>= f) := by
  intro s b t hrun
  obtain ⟨a, u, hx, hf⟩ := exists_of_run_bind_ok hrun
  exact hrest a (h s a u hx) u b t hf

/-- A first step whose value does not matter. -/
theorem Returns.after {Q : β → Prop} {x : ExceptT ε (StateM σ) α} {f : α → ExceptT ε (StateM σ) β}
    (h : ∀ a, Returns Q (f a)) : Returns Q (x >>= f) :=
  Returns.bind (fun _ _ _ _ => trivial) fun a (_ : True) => h a

/-- Whatever the step comes to, it keeps the invariant. -/
def Keeps (invariant : σ → Prop) (x : ExceptT ε (StateM σ) α) : Prop :=
  ∀ s, invariant s → invariant (x.run s).2

theorem Keeps.pure (a : α) : Keeps invariant (Pure.pure a : ExceptT ε (StateM σ) α) :=
  fun _ hs => hs

theorem Keeps.throw (e : ε) : Keeps invariant (MonadExcept.throw e : ExceptT ε (StateM σ) α) :=
  fun _ hs => hs

theorem Keeps.modify {f : σ → σ} (h : ∀ s, invariant s → invariant (f s)) :
    Keeps invariant (modify f : ExceptT ε (StateM σ) PUnit) :=
  h

/-- A first step that looks at the state. -/
theorem Keeps.get {f : σ → ExceptT ε (StateM σ) α} (h : ∀ s, Keeps invariant (f s)) :
    Keeps invariant (MonadState.get >>= f) := by
  intro s hs
  rw [run_bind_ok (run_get s)]
  exact h s s hs

theorem Keeps.bind {x : ExceptT ε (StateM σ) α} {f : α → ExceptT ε (StateM σ) β}
    (hx : Keeps invariant x) (hf : ∀ a, Keeps invariant (f a)) : Keeps invariant (x >>= f) := by
  intro s hs
  have hfirst := hx s hs
  generalize hrun : x.run s = r at hfirst
  obtain ⟨result, t⟩ := r
  cases result with
  | ok a =>
      rw [run_bind_ok hrun]
      exact hf a t hfirst
  | error e =>
      rw [run_bind_error hrun]
      exact hfirst

theorem Keeps.mapM {f : α → ExceptT ε (StateM σ) β} (h : ∀ a, Keeps invariant (f a))
    (items : List α) : Keeps invariant (items.mapM f) := by
  induction items with
  | nil => exact .pure []
  | cons a rest ih =>
      rw [List.mapM_cons]
      exact (h a).bind fun b => ih.bind fun bs => .pure (b :: bs)

end Steps

end ClassScript.Emission
