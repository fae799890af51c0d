import ClassScript.Proofs.Assembly
import ClassScript.Proofs.FieldNumbering
import ClassScript.Proofs.NameMemo
import ClassScript.Proofs.PoolSlots

/-!
Emissions one after the other. Classes and methods are emitted in any order and
number, and each leaves names and slots to the next. Slots only ever come to the
end of the pool. Names are determined by the program, so that all an emission
can see of those before it is the pool.
-/

namespace ClassScript.Text

theorem natural_injective : Function.Injective natural := by
  intro n m h
  have hdigits : Nat.toDigits 10 n = Nat.toDigits 10 m := String.ofList_injective h
  rw [← Nat.ofDigitChars_ten_toDigits (n := n), hdigits, Nat.ofDigitChars_ten_toDigits]

end ClassScript.Text

namespace ClassScript.Emission

open Output

namespace Assembled

variable {job : Job} {noting : Prop} {α : Type} {x : Emit α}

/-- What holds of the pool before and after one new literal holds before and
after any step. -/
theorem pool_leads {P : StringPool → StringPool → Prop} (hrefl : ∀ p, P p p)
    (htrans : ∀ {p q r}, P p q → P q r → P p r) (halloc : ∀ p text, P p (p.alloc text).2)
    (h : Assembled job noting x) (s : State) : P s.pool (x.run s).2.pool := by
  refine h.leads (P := fun s t => P s.pool t.pool) (fun s => hrefl s.pool) htrans ?_ ?_ ?_ ?_ s
  · intro v s
    rcases run_literal v with ⟨text, rfl⟩ | hrun
    · exact halloc s.pool text
    · rw [hrun]
      exact hrefl s.pool
  · intro site text s
    rw [run_render]
    exact hrefl s.pool
  · intro f s
    obtain ⟨result, known, hrun⟩ := run_declaredFieldName job f s
    rw [hrun]
    exact hrefl s.pool
  · intro _ level message values s
    exact hrefl s.pool

theorem pool_extends (h : Assembled job noting x) (s : State) :
    s.pool.entries <+: (x.run s).2.pool.entries :=
  h.pool_leads (P := fun p q => p.entries <+: q.entries) (fun _ => List.prefix_rfl)
    List.IsPrefix.trans StringPool.prefix_alloc s

theorem pool_nodup (h : Assembled job noting x) {s : State} (hs : s.pool.entries.Nodup) :
    (x.run s).2.pool.entries.Nodup :=
  h.pool_leads (P := fun p q => p.entries.Nodup → q.entries.Nodup) (fun _ hp => hp)
    (fun hpq hqr hp => hqr (hpq hp)) (fun _ text hp => StringPool.nodup_alloc hp text) s hs

end Assembled

/-- Running the step from the state writes the literal as that slot of the
pool. What follows the place is a step of an emission, too. -/
inductive Writes (job : Job) : {α : Type} → Emit α → State → String → Nat → Prop where
  | here {text : String} {slot : Nat} {s t : State}
      (h : (literal (.string text)).run s = (.ok ("S[" ++ Text.natural slot ++ "]"), t)) :
      Writes job (literal (.string text)) s text slot
  | first {α β : Type} {x : Emit α} {f : α → Emit β} {s : State} {text : String} {slot : Nat}
      (hrest : ∀ a, Assembled job True (f a)) (h : Writes job x s text slot) :
      Writes job (x >>= f) s text slot
  | later {α β : Type} {x : Emit α} {f : α → Emit β} {s u : State} {a : α} {text : String}
      {slot : Nat} (hx : x.run s = (.ok a, u)) (h : Writes job (f a) u text slot) :
      Writes job (x >>= f) s text slot
  | tried {α : Type} {x : Emit α} {handle : EmitError → Emit α} {s : State} {text : String}
      {slot : Nat} (hhandle : ∀ e, Assembled job True (handle e)) (h : Writes job x s text slot) :
      Writes job (tryCatchThe EmitError x handle) s text slot
  | handled {α : Type} {x : Emit α} {handle : EmitError → Emit α} {s u : State} {e : EmitError}
      {text : String} {slot : Nat} (hx : x.run s = (.error e, u))
      (h : Writes job (handle e) u text slot) :
      Writes job (tryCatchThe EmitError x handle) s text slot

/-- A slot that has been written holds its literal when the step ends, however
it ends. -/
theorem Writes.getElem? {job : Job} {α : Type} {x : Emit α} {s : State} {text : String} {slot : Nat}
    (h : Writes job x s text slot) : (x.run s).2.pool.entries[slot]? = some text := by
  induction h with
  | @here text slot s t h =>
      rw [run_literal_string] at h
      have htext := Except.ok.inj (congrArg Prod.fst h)
      rw [String.append_left_inj, String.append_right_inj] at htext
      obtain rfl := Text.natural_injective htext
      exact s.pool.getElem?_alloc text
  | @first _ _ x f s text slot hrest _ ih =>
      generalize hx : x.run s = r at ih
      obtain ⟨result, u⟩ := r
      cases result with
      | ok a =>
          rw [run_bind_ok hx]
          exact StringPool.getElem?_of_extends ((hrest a).pool_extends u) ih
      | error e =>
          rw [run_bind_error hx]
          exact ih
  | later hx _ ih =>
      rw [run_bind_ok hx]
      exact ih
  | @tried _ x handle s text slot hhandle _ ih =>
      generalize hx : x.run s = r at ih
      obtain ⟨result, u⟩ := r
      cases result with
      | ok a =>
          rw [run_tryCatch_ok hx]
          exact ih
      | error e =>
          rw [run_tryCatch_error hx]
          exact StringPool.getElem?_of_extends ((hhandle e).pool_extends u) ih
  | handled hx _ ih =>
      rw [run_tryCatch_error hx]
      exact ih

/-- A request to an emitter: for the text of a class, or of a method as one of
a class. Neither has to be of the program. -/
inductive Request where
  | ofClass (c : Class)
  | ofMethod (c : Class) (m : Method)

namespace Request

def run (job : Job) : Request → Emit String
  | .ofClass c => emitClass job c
  | .ofMethod c m => emitMethod job c.name m

theorem assembled (job : Job) (request : Request) : Assembled job True (request.run job) := by
  cases request with
  | ofClass c => exact (Assembled.classDoc trivial c).bind fun _ => .pure _
  | ofMethod c m => exact (Assembled.methodDoc trivial c.name m).bind fun _ => .pure _

end Request

/-- The state that requests in turn lead to, those that failed included. -/
def stateFrom (job : Job) (s : State) (requests : List Request) : State :=
  requests.foldl (fun s request => ((request.run job).runFrom s).2) s

section Requests

variable {job : Job}

theorem stateFrom_append (s : State) (past next : List Request) :
    stateFrom job s (past ++ next) = stateFrom job (stateFrom job s past) next :=
  List.foldl_append

theorem stateFrom_extends (s : State) (requests : List Request) :
    s.pool.entries <+: (stateFrom job s requests).pool.entries := by
  induction requests generalizing s with
  | nil => exact List.prefix_rfl
  | cons request rest ih => exact ((request.assembled job).pool_extends s).trans (ih _)

theorem stateFrom_nodup {s : State} (hs : s.pool.entries.Nodup) (requests : List Request) :
    (stateFrom job s requests).pool.entries.Nodup := by
  induction requests generalizing s with
  | nil => exact hs
  | cons request rest ih => exact ih ((request.assembled job).pool_nodup hs)

end Requests

section Determination

variable {job : Job} (hacyclic : job.program.Acyclic) (howns : job.program.OwnsFields)

include hacyclic howns in
theorem Assembled.determined {noting : Prop} {α : Type} {x : Emit α} (h : Assembled job noting x)
    {s : State} (hs : Determined job.program s.fieldNames) :
    Determined job.program (x.run s).2.fieldNames := by
  refine h.leads (P := fun s t => Determined job.program s.fieldNames →
    Determined job.program t.fieldNames) (fun _ hs => hs) (fun hst htu hs => htu (hst hs))
    ?_ ?_ ?_ ?_ s hs
  · intro v s hs
    rcases run_literal v with ⟨text, rfl⟩ | hrun
    · exact hs
    · rw [hrun]
      exact hs
  · intro site text s hs
    rw [run_render]
    exact hs
  · intro f s hs
    obtain ⟨filled, hfilled, hrun⟩ := declaredFieldName_settled hacyclic howns f hs
    rw [hrun]
    exact hfilled
  · exact fun _ level message values s hs => hs

include hacyclic howns in
theorem stateFrom_determined (requests : List Request) {s : State}
    (hs : Determined job.program s.fieldNames) :
    Determined job.program (stateFrom job s requests).fieldNames := by
  induction requests generalizing s with
  | nil => exact hs
  | cons request rest ih => exact ih ((request.assembled job).determined hacyclic howns hs)

/-- States with one pool and with memos that the program determines. -/
structure SamePool (p : Program) (s t : State) : Prop where
  pool : s.pool = t.pool
  left : Determined p s.fieldNames
  right : Determined p t.fieldNames

include hacyclic howns in
/-- Fields get the same names from states whose memos the program determines. -/
theorem declaredFieldName_agree {S : State → State → Prop}
    (hdetermined : ∀ {s t}, S s t →
      Determined job.program s.fieldNames ∧ Determined job.program t.fieldNames)
    (hfill : ∀ {s t filled filled'}, S s t → Determined job.program filled →
      Determined job.program filled' →
      S { s with fieldNames := filled } { t with fieldNames := filled' }) (f : Field) :
    Agree S Eq (job.declaredFieldName f) (job.declaredFieldName f) := by
  intro s t hst
  obtain ⟨hs, ht⟩ := hdetermined hst
  obtain ⟨filled, hfilled, hrun⟩ := declaredFieldName_settled hacyclic howns f hs
  obtain ⟨filled', hfilled', hrun'⟩ := declaredFieldName_settled hacyclic howns f ht
  rw [hrun, hrun']
  cases settledName? job.program f.reference with
  | some name => exact .ok rfl (hfill hst hfilled hfilled')
  | none => exact .error (hfill hst hfilled hfilled')

include hacyclic howns in
/-- A step ends alike from all states that have one pool. -/
theorem Assembled.agree_of_pool {noting : Prop} {α : Type} {x : Emit α}
    (h : Assembled job noting x) : Agree (SamePool job.program) Eq x x := by
  refine h.agree ?_ ?_ ?_ ?_
  · intro v s t hst
    rcases run_literal v with ⟨text, rfl⟩ | hrun
    · rw [run_literal_string, run_literal_string, hst.pool]
      exact .ok rfl ⟨rfl, hst.left, hst.right⟩
    · rw [hrun, hrun]
      exact .ok rfl hst
  · intro site text s t hst
    rw [run_render, run_render]
    cases job.templater site text with
    | ok out => exact .ok rfl ⟨hst.pool, hst.left, hst.right⟩
    | error e => exact .error ⟨hst.pool, hst.left, hst.right⟩
  · exact declaredFieldName_agree hacyclic howns (fun hst => ⟨hst.left, hst.right⟩)
      fun hst hfilled hfilled' => ⟨hst.pool, hfilled, hfilled'⟩
  · exact fun _ level message values s t hst => .ok rfl ⟨hst.pool, hst.left, hst.right⟩

include hacyclic howns in
/-- Done again with a pool that has all slots it gave, a step gives them again
and no others. -/
theorem Assembled.repeats {noting : Prop} {α : Type} {x : Emit α} (h : Assembled job noting x)
    {s t : State} (hs : Determined job.program s.fieldNames)
    (ht : Determined job.program t.fieldNames) (hnodup : t.pool.entries.Nodup)
    (hextends : (x.run s).2.pool.entries <+: t.pool.entries) :
    ∃ u, x.run t = ((x.run s).1, u) ∧ u.pool = t.pool ∧ Determined job.program u.fieldNames := by
  induction h generalizing s t with
  | pure a => exact ⟨t, rfl, rfl, ht⟩
  | throw e => exact ⟨t, rfl, rfl, ht⟩
  | literal v =>
      rcases run_literal v with ⟨text, rfl⟩ | hrun
      · rw [run_literal_string] at hextends
        rw [run_literal_string, run_literal_string, StringPool.alloc_later hnodup hextends]
        exact ⟨t, rfl, rfl, ht⟩
      · rw [hrun, hrun]
        exact ⟨t, rfl, rfl, ht⟩
  | render site text =>
      rw [run_render, run_render]
      exact ⟨_, rfl, rfl, ht⟩
  | declaredFieldName f =>
      obtain ⟨filled, _, hrun⟩ := declaredFieldName_settled hacyclic howns f hs
      obtain ⟨filled', hfilled', hrun'⟩ := declaredFieldName_settled hacyclic howns f ht
      rw [hrun, hrun']
      exact ⟨_, rfl, rfl, hfilled'⟩
  | note _ level message values => exact ⟨_, rfl, rfl, ht⟩
  | @bind _ _ x f hx hrest ih ihrest =>
      have hu := hx.determined hacyclic howns hs
      have hfirst := ih hs ht hnodup
      generalize hrun : x.run s = r at hu hfirst
      obtain ⟨result, u⟩ := r
      cases result with
      | ok a =>
          rw [run_bind_ok hrun] at hextends ⊢
          -- What comes later only adds to the pool, so its end bounds the middle, too.
          obtain ⟨u', hrun', hpool, hu'⟩ := hfirst (((hrest a).pool_extends u).trans hextends)
          rw [run_bind_ok hrun', ← hpool]
          exact ihrest a hu hu' (hpool ▸ hnodup) (hpool ▸ hextends)
      | error e =>
          rw [run_bind_error hrun] at hextends ⊢
          obtain ⟨u', hrun', hpool, hu'⟩ := hfirst hextends
          exact ⟨u', run_bind_error hrun', hpool, hu'⟩
  | @tryCatch _ x handle hx hhandle ih ihhandle =>
      have hu := hx.determined hacyclic howns hs
      have hfirst := ih hs ht hnodup
      generalize hrun : x.run s = r at hu hfirst
      obtain ⟨result, u⟩ := r
      cases result with
      | ok a =>
          rw [run_tryCatch_ok hrun] at hextends ⊢
          obtain ⟨u', hrun', hpool, hu'⟩ := hfirst hextends
          exact ⟨u', run_tryCatch_ok hrun', hpool, hu'⟩
      | error e =>
          rw [run_tryCatch_error hrun] at hextends ⊢
          obtain ⟨u', hrun', hpool, hu'⟩ := hfirst (((hhandle e).pool_extends u).trans hextends)
          rw [run_tryCatch_error hrun', ← hpool]
          exact ihhandle e hu hu' (hpool ▸ hnodup) (hpool ▸ hextends)

end Determination

/-- A request after others: what it is answered with, and the pool it leaves. -/
def outcome (job : Job) (past : List Request) (request : Request) :
    Except EmitError String × StringPool :=
  let (answer, t) := (request.run job).runFrom (stateFrom job .initial past)
  (answer, t.pool)

/-- All that a request can see of those before it is the pool, and a request
made again at once has the same answer and leaves the pool as it is. -/
theorem outcome_by_pool (job : Job) (hacyclic : job.program.Acyclic)
    (howns : job.program.OwnsFields) (request : Request) :
    (∀ past past', (stateFrom job .initial past).pool = (stateFrom job .initial past').pool →
      outcome job past request = outcome job past' request) ∧
    ∀ past, outcome job (past ++ [request]) request = outcome job past request := by
  have hinitial : Determined job.program State.initial.fieldNames := determined_nil job.program
  have hreached : ∀ past, Determined job.program (stateFrom job .initial past).fieldNames :=
    fun past => stateFrom_determined hacyclic howns past hinitial
  have hassembled := request.assembled job
  refine ⟨fun past past' hpool => ?_, fun past => ?_⟩
  · have hagree := hassembled.agree_of_pool hacyclic howns _ _ ⟨hpool, hreached past, hreached past'⟩
    simp only [outcome, Emit.runFrom]
    generalize (request.run job).run (stateFrom job .initial past) = r at hagree
    generalize (request.run job).run (stateFrom job .initial past') = r' at hagree
    cases hagree with
    | ok hvalue hstate => rw [hvalue, hstate.pool]
    | error hstate => rw [hstate.pool]
  · have hsecond : stateFrom job .initial (past ++ [request]) =
        ((request.run job).run (stateFrom job .initial past)).2 := stateFrom_append _ _ _
    have hnodup : (stateFrom job .initial (past ++ [request])).pool.entries.Nodup :=
      stateFrom_nodup List.nodup_nil _
    have hlater := hreached (past ++ [request])
    rw [hsecond] at hnodup hlater
    obtain ⟨u, hrun, hpool, _⟩ :=
      hassembled.repeats hacyclic howns (hreached past) hlater hnodup List.prefix_rfl
    simp only [outcome, Emit.runFrom, hsecond, hrun, hpool]

/-- Of two emitters one has failed on its way and the other has not. Their pools
are the same, and so they name the fields of a class alike. -/
theorem outcome_by_pool_shadowing :
    let job : Job := ⟨shadowing, {}, plainTemplater⟩
    let leaf := shadowing.classes[0]
    let raw : Stmt := .eval (.callStatic ⟨⟨"com.jtransc.target.Js"⟩, "i_raw", ⟨[], .int⟩⟩ [])
    let failing : Request := .ofMethod leaf (.mentioning "Leaf" "a" raw)
    let fine : Request := .ofMethod leaf (.mentioning "Leaf" "a" .nop)
    shadowing.Acyclic ∧ shadowing.OwnsFields ∧
      (∃ e, outcome job [] failing = (.error e, ⟨["a"]⟩)) ∧
      (∃ text, outcome job [] fine = (.ok text, ⟨["a"]⟩)) ∧
      outcome job [failing] (.ofClass leaf) = outcome job [fine] (.ofClass leaf) ∧
      outcome job [failing, .ofClass leaf] (.ofClass leaf) = outcome job [failing] (.ofClass leaf) := by
  intro job leaf raw failing fine
  have howns : shadowing.OwnsFields := by simp [Program.OwnsFields, shadowing, Class.bare]
  have hfailing : ∃ e, outcome job [] failing = (.error e, ⟨["a"]⟩) := ⟨_, rfl⟩
  have hfine : ∃ text, outcome job [] fine = (.ok text, ⟨["a"]⟩) := ⟨_, rfl⟩
  have hpool : (stateFrom job .initial [failing]).pool = (stateFrom job .initial [fine]).pool := rfl
  obtain ⟨hsame, hagain⟩ := outcome_by_pool job shadowing_acyclic howns (.ofClass leaf)
  exact ⟨shadowing_acyclic, howns, hfailing, hfine, hsame _ _ hpool, hagain [failing]⟩

end ClassScript.Emission
