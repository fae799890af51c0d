import ClassScript.Emission.Expression
import ClassScript.Proofs.Denotation
import ClassScript.Proofs.Lineage
import ClassScript.Proofs.Lists
import ClassScript.Proofs.Run
import ClassScript.Proofs.UnreadableText

/-!
Lowering keeps the values of integer and boolean expressions. If the variables that a
well-typed expression reads are identifiers of the script language, its text is an
expression there in one way only, and its value there is the value of the expression;
otherwise the text is no expression at all.
-/

namespace ClassScript.Integers

open Reading Script Emission

theorem exists_intBinary (l r : Int32) {op : BinaryOp} {result : OperandKind}
    (h : resultKind? .int op = some result) :
    ∃ d, intBinary? l r op = some d ∧ d.kind = result := by
  cases op <;> simp only [resultKind?, Option.some.injEq, reduceCtorEq] at h <;> subst h <;>
    exact ⟨_, rfl, rfl⟩

theorem exists_boolBinary (l r : Bool) {op : BinaryOp} {result : OperandKind}
    (h : resultKind? .bool op = some result) :
    ∃ d, boolBinary? l r op = some d ∧ d.kind = result := by
  cases op <;> simp only [resultKind?, Option.some.injEq, reduceCtorEq] at h <;> subst h <;>
    exact ⟨_, rfl, rfl⟩

/-- The variables as script text has them in scope. -/
def scope (vars : List Variable) : Scope :=
  vars.map fun v => (v.identifier, v.held.datum.value)

section Lowering

variable {vars : List Variable}

theorem lookup_scope (hdistinct : (vars.map Variable.identifier).Nodup) {isParam : Bool}
    {name : String} {held : Held} (h : held? vars isParam name = some held) :
    (scope vars).lookup (variableName name) = some held.datum.value := by
  obtain ⟨v, hfind, rfl⟩ := Option.map_eq_some_iff.1 h
  have hmem : v ∈ vars := List.mem_of_find?_eq_some hfind
  have hfound := List.find?_some hfind
  obtain ⟨_, rfl⟩ : v.isParam = isParam ∧ v.name = name := by simpa using hfound
  have hkeys : ((scope vars).map Prod.fst).Nodup := by
    simpa [scope, Function.comp_def] using hdistinct
  exact lookup_of_mem hkeys (List.mem_map_of_mem hmem)

theorem lookup_scope_eq_none {name : String} (h : name ∉ vars.map Variable.identifier) :
    (scope vars).lookup name = none := by
  rw [List.lookup_eq_none_iff]
  intro entry hentry
  obtain ⟨v, hv, rfl⟩ := List.mem_map.1 hentry
  have hne : name ≠ v.identifier := fun heq => h (heq ▸ List.mem_map_of_mem hv)
  simpa using hne

theorem runtime_not_in_scope : (scope vars).lookup "N" = none := by
  apply lookup_scope_eq_none
  intro hmem
  obtain ⟨v, _, hname⟩ := List.mem_map.1 hmem
  exact variableName_ne_runtime v.name hname

variable {runtime : Runtime}

/-- The text denotes the value if the condition holds, and cannot be read otherwise. -/
structure DenotesIf (runtime : Runtime) (scope : Scope) (legal : Prop) (text : String) (d : Datum) :
    Prop where
  denotes : legal → Denotes runtime scope text d
  unreadable : ¬ legal → Unreadable text

namespace DenotesIf

variable {scope : Scope} {legal other : Prop} {left right text : String} {d dl dr : Datum}

theorem of_denotes (hlegal : legal) (h : Denotes runtime scope text d) :
    DenotesIf runtime scope legal text d :=
  ⟨fun _ => h, absurd hlegal⟩

/-- A text around another one. -/
theorem framed (h : DenotesIf runtime scope legal text d) {front back : String} {result : Datum}
    (hfront : endsOpen front = true)
    (hresult : Denotes runtime scope text d → Denotes runtime scope (front ++ text ++ back) result) :
    DenotesIf runtime scope legal (front ++ text ++ back) result :=
  ⟨fun hlegal => hresult (h.denotes hlegal), fun hlegal => (h.unreadable hlegal).within hfront back⟩

theorem binary {op : BinaryOp} {kind : OperandKind} {out : String}
    (hl : DenotesIf runtime scope legal left dl) (hr : DenotesIf runtime scope other right dr)
    (hout : Script.binary? op kind left right = some out)
    (hresult : Denotes runtime scope left dl → Denotes runtime scope right dr →
      ∃ out', Script.binary? op kind left right = some out' ∧ Denotes runtime scope out' d) :
    DenotesIf runtime scope (legal ∧ other) out d where
  denotes := by
    rintro ⟨hlegal, hother⟩
    obtain ⟨out', hout', hdenotes⟩ := hresult (hl.denotes hlegal) (hr.denotes hother)
    obtain rfl : out = out' := Option.some.inj (hout.symm.trans hout')
    exact hdenotes
  unreadable hnot :=
    unreadable_binary hout ((not_and_or.1 hnot).imp hl.unreadable hr.unreadable)

theorem ternary {yes no : Prop} {cond : String} {b : Bool}
    (hc : DenotesIf runtime scope legal cond (.bool b)) (hy : DenotesIf runtime scope yes left dl)
    (hn : DenotesIf runtime scope no right dr) :
    DenotesIf runtime scope (legal ∧ yes ∧ no)
      ("(" ++ cond ++ " ? " ++ left ++ " : " ++ right ++ ")") (if b then dl else dr) where
  denotes := fun ⟨hlegal, hyes, hno⟩ =>
    (hc.denotes hlegal).ternary (hy.denotes hyes) (hn.denotes hno)
  unreadable hnot := by
    have hcolon : endsOpen " : " = true := by decide
    refine Unreadable.before ?_ ")"
    rcases not_and_or.1 hnot with hcond | harms
    · exact ((((hc.unreadable hcond).behind (by decide)).before " ? ").before left |>.before
        " : ").before right
    rcases not_and_or.1 harms with hyes | hno
    · exact (((hy.unreadable hyes).behind (endsOpen_append _ (by decide))).before " : ").before
        right
    · exact (hn.unreadable hno).behind (endsOpen_append _ hcolon)

end DenotesIf

/-- The variables that the expression reads are identifiers in the script. -/
def ReadsIdentifiers (e : Expr) : Prop :=
  ∀ name ∈ readNames e, IsIdentifier (variableName name)

section Names

variable {l r c : Expr}

theorem readsIdentifiers_read {isParam : Bool} {name : String} :
    ReadsIdentifiers (if isParam then .param name else .slot name) ↔
      IsIdentifier (variableName name) := by
  cases isParam <;> simp [ReadsIdentifiers, readNames, Expr.subterms]

theorem readsIdentifiers_binary {op : BinaryOp} {kind : OperandKind} :
    ReadsIdentifiers (.binary op kind l r) ↔ ReadsIdentifiers l ∧ ReadsIdentifiers r := by
  simp only [ReadsIdentifiers, readNames, Expr.subterms, List.filterMap_cons,
    List.filterMap_append, List.forall_mem_append]

theorem readsIdentifiers_ternary : ReadsIdentifiers (.ternary c l r) ↔
    ReadsIdentifiers c ∧ ReadsIdentifiers l ∧ ReadsIdentifiers r := by
  simp only [ReadsIdentifiers, readNames, Expr.subterms, List.filterMap_cons,
    List.filterMap_append, List.forall_mem_append, and_assoc]

end Names

/-- The expression has a value of the kind, it is lowered without touching the
state, and its text denotes the value if its variables are identifiers. -/
def Lowers (job : Job) (caller : MethodRef) (runtime : Runtime) (vars : List Variable) (e : Expr)
    (kind : OperandKind) : Prop :=
  ∃ text d, evaluate vars e = some d ∧ d.kind = kind ∧
    (∀ s, (lowerExpr job caller e).run s = (.ok text, s)) ∧
    DenotesIf runtime (scope vars) (ReadsIdentifiers e) text d

namespace Lowers

variable {job : Job} {caller : MethodRef} {e : Expr}

theorem integer (h : Lowers job caller runtime vars e .int) :
    ∃ text v, evaluate vars e = some (.int v) ∧
      (∀ s, (lowerExpr job caller e).run s = (.ok text, s)) ∧
      DenotesIf runtime (scope vars) (ReadsIdentifiers e) text (.int v) := by
  obtain ⟨text, d, heval, hkind, hrun, hdenotes⟩ := h
  cases d with
  | int v => exact ⟨text, v, heval, hrun, hdenotes⟩
  | bool b => cases hkind

theorem boolean (h : Lowers job caller runtime vars e .bool) :
    ∃ text b, evaluate vars e = some (.bool b) ∧
      (∀ s, (lowerExpr job caller e).run s = (.ok text, s)) ∧
      DenotesIf runtime (scope vars) (ReadsIdentifiers e) text (.bool b) := by
  obtain ⟨text, d, heval, hkind, hrun, hdenotes⟩ := h
  cases d with
  | int v => cases hkind
  | bool b => exact ⟨text, b, heval, hrun, hdenotes⟩

/-- A local or a parameter stands as the variable of its name. -/
theorem read {name : String} {held : Held} (isParam : Bool)
    (hdistinct : (vars.map Variable.identifier).Nodup) (h : held? vars isParam name = some held) :
    Lowers job caller runtime vars (if isParam then .param name else .slot name)
      held.datum.kind := by
  refine ⟨variableName name, held.datum, ?_, rfl, fun s => ?_, fun hlegal => ?_, fun hlegal => ?_⟩
  · cases isParam <;> exact congrArg (Option.map Held.datum) h
  · cases isParam <;> rfl
  · exact .reference (readsIdentifiers_read.1 hlegal) (lookup_scope hdistinct h)
  · exact unreadable_variable (mt readsIdentifiers_read.2 hlegal)

/-- An operator, by what it makes of the text and of the value of its operand. -/
theorem unary {op : UnaryOp} {kind : OperandKind} {text out : String} {d d' : Datum}
    (heval : evaluate vars e = some d) (hrun : ∀ s, (lowerExpr job caller e).run s = (.ok text, s))
    (hout : Script.unary? op kind text = some out) (hvalue : d.unary? op = some d')
    (hdenotes : DenotesIf runtime (scope vars) (ReadsIdentifiers e) out d') :
    Lowers job caller runtime vars (.unary op kind e) d'.kind := by
  refine ⟨out, d', by simp [evaluate, heval, hvalue], rfl, fun s => ?_, hdenotes⟩
  refine (run_bind_ok (hrun s)).trans ?_
  rw [hout]
  rfl

theorem neg (h : Lowers job caller runtime vars e .int) :
    Lowers job caller runtime vars (.unary .neg .int e) .int := by
  obtain ⟨text, v, heval, hrun, hdenotes⟩ := h.integer
  exact unary heval hrun rfl rfl (hdenotes.framed (by decide) (·.neg))

theorem inv (h : Lowers job caller runtime vars e .int) :
    Lowers job caller runtime vars (.unary .inv .int e) .int := by
  obtain ⟨text, v, heval, hrun, hdenotes⟩ := h.integer
  exact unary heval hrun rfl rfl (hdenotes.framed (by decide) (·.inv))

theorem not (h : Lowers job caller runtime vars e .bool) :
    Lowers job caller runtime vars (.unary .not .bool e) .bool := by
  obtain ⟨text, b, heval, hrun, hdenotes⟩ := h.boolean
  exact unary heval hrun rfl rfl (hdenotes.framed (by decide) (·.not))

/-- Operands of one kind have a text and a value for each of its operators. -/
theorem exists_binary {op : BinaryOp} {kind result : OperandKind} {left right : String}
    {dl dr : Datum} {legal other : Prop} (hmath : "Math" ∉ vars.map Variable.identifier)
    (hop : resultKind? kind op = some result) (hkindl : dl.kind = kind) (hkindr : dr.kind = kind)
    (hl : DenotesIf runtime (scope vars) legal left dl)
    (hr : DenotesIf runtime (scope vars) other right dr) :
    ∃ out d, dl.binary? dr op = some d ∧ d.kind = result ∧
      Script.binary? op kind left right = some out ∧
      DenotesIf runtime (scope vars) (legal ∧ other) out d := by
  have hsome : (resultKind? kind op).isSome := hop ▸ rfl
  subst hkindl
  cases dl with
  | int a =>
      cases dr with
      | int b =>
          obtain ⟨d, hd, hkind⟩ := exists_intBinary a b hop
          obtain ⟨-, -, htext⟩ := (resultKind?_int op left right).1 hsome
          obtain ⟨out, hout⟩ := Option.isSome_iff_exists.1 htext
          exact ⟨out, d, hd, hkind, hout,
            hl.binary hr hout (Denotes.intBinary (lookup_scope_eq_none hmath) hd)⟩
      | bool b => cases hkindr
  | bool a =>
      cases dr with
      | int b => cases hkindr
      | bool b =>
          obtain ⟨d, hd, hkind⟩ := exists_boolBinary a b hop
          obtain ⟨out, hout⟩ := Option.isSome_iff_exists.1 ((resultKind?_bool op left right).1 hsome)
          exact ⟨out, d, hd, hkind, hout, hl.binary hr hout (Denotes.boolBinary hd)⟩

theorem binary {op : BinaryOp} {kind result : OperandKind} {l r : Expr}
    (hmath : "Math" ∉ vars.map Variable.identifier) (hop : resultKind? kind op = some result)
    (hl : Lowers job caller runtime vars l kind) (hr : Lowers job caller runtime vars r kind) :
    Lowers job caller runtime vars (.binary op kind l r) result := by
  obtain ⟨left, dl, hevall, hkindl, hrunl, hleft⟩ := hl
  obtain ⟨right, dr, hevalr, hkindr, hrunr, hright⟩ := hr
  obtain ⟨out, d, hd, hkind, hout, hdenotes⟩ :=
    exists_binary hmath hop hkindl hkindr hleft hright
  rw [← readsIdentifiers_binary] at hdenotes
  refine ⟨out, d, by simp [evaluate, hevall, hevalr, hd], hkind, fun s => ?_, hdenotes⟩
  refine (run_bind_ok (hrunl s)).trans ((run_bind_ok (hrunr s)).trans ?_)
  rw [hout]
  rfl

theorem cast {source target : Ty} (hruntime : CountsBooleans runtime) (hsource : isIntegral source)
    (htarget : isIntegral target) (h : Lowers job caller runtime vars e source.kind) :
    Lowers job caller runtime vars (.cast e source target) target.kind := by
  obtain ⟨text, d, heval, hkind, hrun, hdenotes⟩ := h
  obtain ⟨out, d', hout, hd', hkind', hkept⟩ :=
    exists_convert text hruntime runtime_not_in_scope hsource htarget hkind
  have hdenotes' : DenotesIf runtime (scope vars) (ReadsIdentifiers e) out d' :=
    ⟨fun hlegal => hkept (hdenotes.denotes hlegal),
      fun hlegal => unreadable_convert hout (hdenotes.unreadable hlegal)⟩
  refine ⟨out, d', by simp [evaluate, heval, hd'], hkind', fun s => ?_, hdenotes'⟩
  refine (run_bind_ok (hrun s)).trans ?_
  rw [hout]
  rfl

theorem ternary {c y n : Expr} {kind : OperandKind} (hc : Lowers job caller runtime vars c .bool)
    (hy : Lowers job caller runtime vars y kind) (hn : Lowers job caller runtime vars n kind) :
    Lowers job caller runtime vars (.ternary c y n) kind := by
  obtain ⟨cond, b, hevalc, hrunc, hcond⟩ := hc.boolean
  obtain ⟨yes, dy, hevaly, hkindy, hruny, hyes⟩ := hy
  obtain ⟨no, dn, hevaln, hkindn, hrunn, hno⟩ := hn
  have hdenotes := hcond.ternary hyes hno
  rw [← readsIdentifiers_ternary] at hdenotes
  refine ⟨_, if b then dy else dn, ?_, ?_, fun s => ?_, hdenotes⟩
  · cases b <;> simp [evaluate, hevalc, hevaly, hevaln]
  · cases b <;> simp [hkindy, hkindn]
  · exact (run_bind_ok (hrunc s)).trans
      ((run_bind_ok (hruny s)).trans ((run_bind_ok (hrunn s)).trans rfl))

end Lowers

/-- By induction on the typing. -/
theorem lowerExpr_denotes (job : Job) (caller : MethodRef) (hruntime : CountsBooleans runtime)
    (hdistinct : (vars.map Variable.identifier).Nodup)
    (hmath : "Math" ∉ vars.map Variable.identifier) {e : Expr} {kind : OperandKind}
    (h : HasKind vars e kind) : Lowers job caller runtime vars e kind := by
  have hnone : ∀ l : Literal, ReadsIdentifiers (.literal l) := by
    simp [ReadsIdentifiers, readNames, Expr.subterms]
  induction h with
  | int v => exact ⟨_, _, rfl, rfl, fun _ => rfl, .of_denotes (hnone _) (.integer v)⟩
  | bool b => exact ⟨_, _, rfl, rfl, fun _ => rfl, .of_denotes (hnone _) (.boolean b)⟩
  | char u => exact ⟨_, _, rfl, rfl, fun _ => rfl, .of_denotes (hnone _) (.char u)⟩
  | slot hheld => exact .read false hdistinct hheld
  | param hheld => exact .read true hdistinct hheld
  | neg _ ih => exact ih.neg
  | inv _ ih => exact ih.inv
  | not _ ih => exact ih.not
  | binary hop _ _ ihl ihr => exact .binary hmath hop ihl ihr
  | cast hsource htarget _ ih => exact .cast hruntime hsource htarget ih
  | ternary _ _ _ ihc ihy ihn => exact ihc.ternary ihy ihn

end Lowering

/-- A well-typed expression over integers and booleans is lowered to a text that the
script language reads exactly if the variables in it are identifiers there, in one way
then, and with the value of the expression. -/
theorem lowerExpr_exact (job : Job) (caller : MethodRef) (runtime : Runtime)
    (hruntime : CountsBooleans runtime) (vars : List Variable)
    (hdistinct : (vars.map Variable.identifier).Nodup)
    (hmath : "Math" ∉ vars.map Variable.identifier) {e : Expr} {kind : OperandKind}
    (h : HasKind vars e kind) (s : State) :
    ∃ text d, (lowerExpr job caller e).runFrom s = (.ok text, s) ∧
      evaluate vars e = some d ∧ d.kind = kind ∧
      ((∃ t, Reads text t) ↔ ∀ name ∈ readNames e, IsIdentifier (variableName name)) ∧
      ∀ t, Reads text t → eval runtime (scope vars) t = some d.value := by
  obtain ⟨text, d, heval, hkind, hrun, hdenotes⟩ :=
    lowerExpr_denotes job caller hruntime hdistinct hmath h
  have hlegal : ∀ t, Reads text t → ReadsIdentifiers e := by
    intro t ht
    by_contra hother
    exact (hdenotes.unreadable hother).not_reads t ht
  refine ⟨text, d, hrun s, heval, hkind, ⟨fun ⟨t, ht⟩ => hlegal t ht, fun hnames => ?_⟩,
    fun u hu => ?_⟩
  · obtain ⟨t, htext, -⟩ := hdenotes.denotes hnames
    exact ⟨t, htext.reads⟩
  · obtain ⟨t, htext, ht⟩ := hdenotes.denotes (hlegal u hu)
    obtain rfl := htext.reads.unique hu
    exact ht

section Examples

/-- A runtime that counts booleans. -/
def counting : Runtime := fun name args =>
  match name, args with
  | "z2i", [.boolean b] => some (.number (if b then 1 else 0))
  | _, _ => none

/-- The least integer is its own negation. -/
theorem lowerExpr_exact_least :
    let job : Job := ⟨.bare "A", {}, plainTemplater⟩
    let vars : List Variable := [⟨true, "a", .int Int32.minValue⟩]
    let e : Expr := .unary .neg .int (.param "a")
    CountsBooleans counting ∧ (vars.map Variable.identifier).Nodup ∧
      "Math" ∉ vars.map Variable.identifier ∧ HasKind vars e .int ∧
      (lowerExpr job ⟨⟨"A"⟩, "f", ⟨[], .void⟩⟩ e).runFrom .initial = (.ok "(-(a)|0)", .initial) ∧
      ∃ t, Reads "(-(a)|0)" t ∧ eval counting (scope vars) t = some (.number (-2147483648)) := by
  intro job vars e
  have hruntime : CountsBooleans counting := fun b => rfl
  have hdistinct : (vars.map Variable.identifier).Nodup := by simp [vars]
  have hmath : "Math" ∉ vars.map Variable.identifier := by decide
  have hheld : held? vars true "a" = some (.int Int32.minValue) := rfl
  have htyped : HasKind vars e .int := .neg (.param hheld)
  obtain ⟨text, d, hrun, hvalue, _, hread, heval⟩ :=
    lowerExpr_exact job ⟨⟨"A"⟩, "f", ⟨[], .void⟩⟩ counting hruntime vars hdistinct hmath htyped
      .initial
  obtain rfl : Datum.int (-Int32.minValue) = d := Option.some.inj hvalue
  obtain rfl : "(-(a)|0)" = text := Except.ok.inj (congrArg Prod.fst hrun)
  obtain ⟨t, ht⟩ := hread.2 (by decide)
  exact ⟨hruntime, hdistinct, hmath, htyped, hrun, t, ht, heval t ht⟩

/-- A superscript counts as a letter or a digit and is kept, but no identifier has one. -/
theorem lowerExpr_unreadable :
    let job : Job := ⟨.bare "A", {}, plainTemplater⟩
    let vars : List Variable := [⟨true, "x\u00B2", .int 1⟩]
    CountsBooleans counting ∧ (vars.map Variable.identifier).Nodup ∧
      "Math" ∉ vars.map Variable.identifier ∧ HasKind vars (.param "x\u00B2") .int ∧
      (lowerExpr job ⟨⟨"A"⟩, "f", ⟨[], .void⟩⟩ (.param "x\u00B2")).runFrom .initial =
        (.ok "x\u00B2", .initial) ∧
      ∀ t, ¬ Reads "x\u00B2" t := by
  intro job vars
  have hheld : held? vars true "x\u00B2" = some (.int 1) := rfl
  have hkept : variableName "x\u00B2" = "x\u00B2" := by decide +kernel
  have hunreadable : Unreadable "x\u00B2" := by
    unfold Unreadable
    decide +kernel
  refine ⟨fun b => rfl, by simp [vars], ?_, .param hheld, ?_, hunreadable.not_reads⟩
  · decide +kernel
  · exact congrArg (fun text => (Except.ok text, State.initial)) hkept

end Examples

end ClassScript.Integers
