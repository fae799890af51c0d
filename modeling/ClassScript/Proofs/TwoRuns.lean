import ClassScript.Emission.Body
import ClassScript.Proofs.Run
import Mathlib.Data.List.Forall2

/-!
Two runs side by side. Two steps agree when from related states they fail in the
same way or give related values, and end in related states either way. Whatever
is put together from steps that agree agrees, also where a failure is caught.
-/

namespace ClassScript.Emission

section Agreement

variable {ε σ α β γ δ : Type} {S : σ → σ → Prop}

/-- The same failure, or related values, in related states. -/
inductive Matching (S : σ → σ → Prop) (R : α → β → Prop) :
    Except ε α × σ → Except ε β × σ → Prop where
  | ok {a : α} {b : β} {s t : σ} (hvalue : R a b) (hstate : S s t) :
      Matching S R (.ok a, s) (.ok b, t)
  | error {e : ε} {s t : σ} (hstate : S s t) : Matching S R (.error e, s) (.error e, t)

theorem Matching.mono {R R' : α → β → Prop} {p : Except ε α × σ} {q : Except ε β × σ}
    (h : Matching S R p q) (hR : ∀ a b, R a b → R' a b) : Matching S R' p q := by
  cases h with
  | ok hvalue hstate => exact .ok (hR _ _ hvalue) hstate
  | error hstate => exact .error hstate

theorem Matching.exists_ok {R : α → β → Prop} {p : Except ε α × σ} {b : β} {t : σ}
    (h : Matching S R p (.ok b, t)) : ∃ a s, p = (.ok a, s) ∧ R a b := by
  cases h with
  | ok hvalue => exact ⟨_, _, rfl, hvalue⟩

/-- From related states the steps end alike. -/
def Agree (S : σ → σ → Prop) (R : α → β → Prop) (x : ExceptT ε (StateM σ) α)
    (y : ExceptT ε (StateM σ) β) : Prop :=
  ∀ s t, S s t → Matching S R (x.run s) (y.run t)

namespace Agree

variable {R : α → β → Prop} {Q : γ → δ → Prop} {x : ExceptT ε (StateM σ) α}
  {y : ExceptT ε (StateM σ) β}

/-- A step ends as it does. -/
theorem refl (x : ExceptT ε (StateM σ) α) : Agree Eq Eq x x := by
  rintro s _ rfl
  generalize x.run s = r
  obtain ⟨result, t⟩ := r
  cases result with
  | ok a => exact .ok rfl rfl
  | error e => exact .error rfl

theorem pure {a : α} {b : β} (h : R a b) :
    Agree S R (Pure.pure a : ExceptT ε (StateM σ) α) (Pure.pure b) :=
  fun _ _ hs => .ok h hs

theorem throw (e : ε) :
    Agree S R (MonadExcept.throw e : ExceptT ε (StateM σ) α) (MonadExcept.throw e) :=
  fun _ _ hs => .error hs

theorem get : Agree S S (MonadStateOf.get : ExceptT ε (StateM σ) σ) MonadStateOf.get :=
  fun _ _ hs => .ok hs hs

theorem mono {R' : α → β → Prop} (h : Agree S R x y) (hR : ∀ a b, R a b → R' a b) :
    Agree S R' x y :=
  fun s t hs => (h s t hs).mono hR

theorem bind {f : α → ExceptT ε (StateM σ) γ} {g : β → ExceptT ε (StateM σ) δ}
    (h : Agree S R x y) (hrest : ∀ a b, R a b → Agree S Q (f a) (g b)) :
    Agree S Q (x >>= f) (y >>= g) := by
  intro s t hs
  have hfirst := h s t hs
  generalize hx : x.run s = r at hfirst
  generalize hy : y.run t = r' at hfirst
  cases hfirst with
  | ok hvalue hstate =>
      rw [run_bind_ok hx, run_bind_ok hy]
      exact hrest _ _ hvalue _ _ hstate
  | error hstate =>
      rw [run_bind_error hx, run_bind_error hy]
      exact .error hstate

/-- A first step with the same value on both sides. -/
theorem bindEq {x y : ExceptT ε (StateM σ) α} {f : α → ExceptT ε (StateM σ) γ}
    {g : α → ExceptT ε (StateM σ) δ} (h : Agree S Eq x y) (hrest : ∀ a, Agree S Q (f a) (g a)) :
    Agree S Q (x >>= f) (y >>= g) :=
  h.bind fun a _ hab => hab ▸ hrest a

theorem map {f : α → γ} {g : β → δ} (h : Agree S R x y) (hfg : ∀ a b, R a b → Q (f a) (g b)) :
    Agree S Q (f <$> x) (g <$> y) := by
  rw [map_eq_pure_bind, map_eq_pure_bind]
  exact h.bind fun a b hab => Agree.pure (hfg a b hab)

/-- A failure on both sides is caught on both. -/
theorem tryCatch {handle : ε → ExceptT ε (StateM σ) α} {handle' : ε → ExceptT ε (StateM σ) β}
    (h : Agree S R x y) (hhandle : ∀ e, Agree S R (handle e) (handle' e)) :
    Agree S R (tryCatchThe ε x handle) (tryCatchThe ε y handle') := by
  intro s t hs
  have hbody := h s t hs
  generalize hx : x.run s = r at hbody
  generalize hy : y.run t = r' at hbody
  cases hbody with
  | ok hvalue hstate =>
      rw [run_tryCatch_ok hx, run_tryCatch_ok hy]
      exact .ok hvalue hstate
  | error hstate =>
      rw [run_tryCatch_error hx, run_tryCatch_error hy]
      exact hhandle _ _ _ hstate

/-- Steps for the items of a list agree when those for each item do. -/
theorem mapM {ι : Type} {f : ι → ExceptT ε (StateM σ) α} {g : ι → ExceptT ε (StateM σ) β}
    {items : List ι} (h : ∀ i ∈ items, Agree S R (f i) (g i)) :
    Agree S (List.Forall₂ R) (items.mapM f) (items.mapM g) := by
  induction items with
  | nil => exact Agree.pure .nil
  | cons i rest ih =>
      rw [List.mapM_cons, List.mapM_cons]
      apply (h i (by simp)).bind
      intro a b hab
      apply (ih fun j hj => h j (by simp [hj])).bind
      intro as bs hrest
      exact Agree.pure (.cons hab hrest)

theorem mapMEq {ι : Type} {f g : ι → ExceptT ε (StateM σ) α} {items : List ι}
    (h : ∀ i ∈ items, Agree S Eq (f i) (g i)) : Agree S Eq (items.mapM f) (items.mapM g) :=
  (mapM h).mono fun _ _ hall => by rwa [List.forall₂_eq_eq_eq] at hall

/-- Steps that agree on equal states, and in values, are one step. -/
theorem eq {x y : ExceptT ε (StateM σ) α} (h : Agree Eq Eq x y) : x = y := by
  funext s
  have hboth := h s s rfl
  change x s = y s
  generalize hx : x.run s = r at hboth
  generalize hy : y.run s = r' at hboth
  have hsame : r = r' := by
    cases hboth with
    | ok hvalue hstate => rw [hvalue, hstate]
    | error hstate => rw [hstate]
  exact hx.trans (hsame.trans hy.symm)

end Agree

/-- The same for steps with a counter of their own, whatever it shows. -/
def AgreeCounting (S : σ → σ → Prop) (R : α → β → Prop)
    (x : StateT Nat (ExceptT ε (StateM σ)) α) (y : StateT Nat (ExceptT ε (StateM σ)) β) : Prop :=
  ∀ n m, Agree S (fun p q => R p.1 q.1) (x.run n) (y.run m)

namespace AgreeCounting

variable {R : α → β → Prop} {Q : γ → δ → Prop} {x : StateT Nat (ExceptT ε (StateM σ)) α}
  {y : StateT Nat (ExceptT ε (StateM σ)) β}

theorem pure {a : α} {b : β} (h : R a b) :
    AgreeCounting S R (Pure.pure a : StateT Nat (ExceptT ε (StateM σ)) α) (Pure.pure b) :=
  fun _ _ => Agree.pure h

theorem bind {f : α → StateT Nat (ExceptT ε (StateM σ)) γ}
    {g : β → StateT Nat (ExceptT ε (StateM σ)) δ} (h : AgreeCounting S R x y)
    (hrest : ∀ a b, R a b → AgreeCounting S Q (f a) (g b)) :
    AgreeCounting S Q (x >>= f) (y >>= g) := by
  intro n m
  rw [StateT.run_bind, StateT.run_bind]
  exact (h n m).bind fun p q hpq => hrest p.1 q.1 hpq p.2 q.2

/-- A first step without the counter. -/
theorem lift {x : ExceptT ε (StateM σ) α} {y : ExceptT ε (StateM σ) β}
    {f : α → StateT Nat (ExceptT ε (StateM σ)) γ} {g : β → StateT Nat (ExceptT ε (StateM σ)) δ}
    (h : Agree S R x y) (hrest : ∀ a b, R a b → AgreeCounting S Q (f a) (g b)) :
    AgreeCounting S Q (liftM x >>= f) (liftM y >>= g) := by
  refine bind (fun n m => ?_) hrest
  rw [StateT.run_monadLift, StateT.run_monadLift]
  exact h.bind fun a b hab => Agree.pure hab

/-- The same where both sides have the same value. -/
theorem liftEq {x y : ExceptT ε (StateM σ) α} {f : α → StateT Nat (ExceptT ε (StateM σ)) γ}
    {g : α → StateT Nat (ExceptT ε (StateM σ)) δ} (h : Agree S Eq x y)
    (hrest : ∀ a, AgreeCounting S Q (f a) (g a)) :
    AgreeCounting S Q (liftM x >>= f) (liftM y >>= g) :=
  lift h fun a _ hab => hab ▸ hrest a

/-- A number drawn from the counter on one side only. -/
theorem drawRight {g : Nat → StateT Nat (ExceptT ε (StateM σ)) β}
    (h : ∀ k, AgreeCounting S R x (g k)) :
    AgreeCounting S R x (do let k ← get; set (k + 1); g k) := by
  intro n m
  exact h m n (m + 1)

end AgreeCounting

/-- The same for steps whose counters show the same number, also afterwards. -/
def AgreeInStep (S : σ → σ → Prop) (R : α → β → Prop)
    (x : StateT Nat (ExceptT ε (StateM σ)) α) (y : StateT Nat (ExceptT ε (StateM σ)) β) : Prop :=
  ∀ n, Agree S (fun p q => R p.1 q.1 ∧ p.2 = q.2) (x.run n) (y.run n)

namespace AgreeInStep

variable {R : α → β → Prop} {Q : γ → δ → Prop} {x : StateT Nat (ExceptT ε (StateM σ)) α}
  {y : StateT Nat (ExceptT ε (StateM σ)) β}

theorem pure {a : α} {b : β} (h : R a b) :
    AgreeInStep S R (Pure.pure a : StateT Nat (ExceptT ε (StateM σ)) α) (Pure.pure b) :=
  fun _ => Agree.pure ⟨h, rfl⟩

theorem bind {f : α → StateT Nat (ExceptT ε (StateM σ)) γ}
    {g : β → StateT Nat (ExceptT ε (StateM σ)) δ} (h : AgreeInStep S R x y)
    (hrest : ∀ a b, R a b → AgreeInStep S Q (f a) (g b)) : AgreeInStep S Q (x >>= f) (y >>= g) := by
  intro n
  rw [StateT.run_bind, StateT.run_bind]
  apply (h n).bind
  rintro ⟨a, k⟩ ⟨b, _⟩ ⟨hab, rfl⟩
  exact hrest a b hab k

/-- A first step without the counter, with the same value on both sides. -/
theorem liftEq {x y : ExceptT ε (StateM σ) α} {f : α → StateT Nat (ExceptT ε (StateM σ)) γ}
    {g : α → StateT Nat (ExceptT ε (StateM σ)) δ} (h : Agree S Eq x y)
    (hrest : ∀ a, AgreeInStep S Q (f a) (g a)) :
    AgreeInStep S Q (liftM x >>= f) (liftM y >>= g) := by
  have hlift : AgreeInStep S Eq (liftM x : StateT Nat (ExceptT ε (StateM σ)) α) (liftM y) := by
    intro n
    rw [StateT.run_monadLift, StateT.run_monadLift]
    exact h.bindEq fun a => Agree.pure ⟨rfl, rfl⟩
  exact hlift.bind fun a _ hab => hab ▸ hrest a

/-- A number drawn from the counter on both sides. -/
theorem draw {f : Nat → StateT Nat (ExceptT ε (StateM σ)) α}
    {g : Nat → StateT Nat (ExceptT ε (StateM σ)) β} (h : ∀ k, AgreeInStep S R (f k) (g k)) :
    AgreeInStep S R (do let k ← get; set (k + 1); f k) (do let k ← get; set (k + 1); g k) :=
  fun n => h n (n + 1)

/-- Steps that agree on equal states, and in values, are one step. -/
theorem eq {x y : StateT Nat (ExceptT ε (StateM σ)) α} (h : AgreeInStep Eq Eq x y) : x = y :=
  StateT.ext fun n => ((h n).mono fun _ _ hpq => Prod.ext hpq.1 hpq.2).eq

end AgreeInStep

end Agreement

end ClassScript.Emission
