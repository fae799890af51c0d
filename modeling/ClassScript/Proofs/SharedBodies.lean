import ClassScript.Proofs.BodySelection
import ClassScript.Proofs.ProgramRun
import ClassScript.Proofs.ScriptValue
import ClassScript.Proofs.UnreadableText

/-!
Bodies that a method shares with another one. The function has the statements of the
body's owner and the parameters of the borrower, so a parameter of the owner is bound
where the borrower has one of the same name. A reference to no body leaves the trap.
-/

namespace ClassScript

namespace Reading

/-- The variables in a function that is called with these arguments. Of parameters
with one name the last one counts. -/
def callScope (params : List String) (args : List Value) : Scope :=
  (params.zip args).reverse

section Calls

variable {params : List String} {args : List Value} {name : String}

theorem lookup_callScope_cons (param : String) (arg : Value) :
    (callScope (param :: params) (arg :: args)).lookup name =
      ((callScope params args).lookup name).or (if name = param then some arg else none) := by
  rw [callScope, List.zip_cons_cons, List.reverse_cons, List.lookup_append, lookup_cons_if]
  rfl

/-- A name has a value if it is that of a parameter. -/
theorem isSome_lookup_callScope (hlength : args.length = params.length) :
    ((callScope params args).lookup name).isSome ↔ name ∈ params := by
  induction params generalizing args with
  | nil => simp [callScope]
  | cons param params ih =>
      obtain ⟨arg, args, rfl⟩ := List.exists_cons_of_length_eq_add_one hlength
      rw [lookup_callScope_cons, Option.isSome_or, Bool.or_eq_true,
        ih (Nat.succ.inj hlength), List.mem_cons, or_comm]
      refine or_congr_left ?_
      split
      · next h => simp [h]
      · next h => simp [h]

/-- That value is the argument at the last parameter of the name. -/
theorem lookup_callScope (hlength : args.length = params.length) (v : Value) :
    (callScope params args).lookup name = some v ↔
      ∃ i : Nat, params[i]? = some name ∧ name ∉ params.drop (i + 1) ∧ args[i]? = some v := by
  induction params generalizing args with
  | nil => simp [callScope]
  | cons param params ih =>
      obtain ⟨arg, args, rfl⟩ := List.exists_cons_of_length_eq_add_one hlength
      have hrest : args.length = params.length := Nat.succ.inj hlength
      rw [lookup_callScope_cons]
      constructor
      · intro h
        cases hfound : (callScope params args).lookup name with
        | some w =>
            rw [hfound] at h
            obtain ⟨i, hi⟩ := (ih hrest).1 (hfound.trans h)
            exact ⟨i + 1, hi⟩
        | none =>
            rw [hfound, Option.none_or, Option.ite_none_right_eq_some] at h
            obtain ⟨rfl, harg⟩ := h
            refine ⟨0, rfl, fun hmem => ?_, harg⟩
            have hsome : ((callScope params args).lookup name).isSome :=
              (isSome_lookup_callScope hrest).2 hmem
            rw [hfound] at hsome
            cases hsome
      · rintro ⟨i, hname, hlast, harg⟩
        cases i with
        | zero =>
            have hnone : (callScope params args).lookup name = none :=
              Option.not_isSome_iff_eq_none.1 (mt (isSome_lookup_callScope hrest).1 hlast)
            rw [hnone, Option.none_or, if_pos (Option.some.inj hname).symm]
            exact harg
        | succ i => rw [(ih hrest).2 ⟨i, hname, hlast, harg⟩, Option.some_or]

end Calls

end Reading

namespace Emission

open Output Reading

/-- The variables between the parentheses of a method's function. -/
def parameterVariables (m : Method) : List String :=
  m.type.args.map fun b => Script.variableName b.name

/-- A parameter of a method that a body reads. -/
structure ReadsParameter (m : Method) (body : Body) (name : String) : Prop where
  declared : name ∈ m.type.args.map (·.name)
  read : Expr.param name ∈ body.stmt.expressions

section Sharing

variable {job : Job} {m : Method} {r : MethodRef}

theorem generatedBody?_shared (hbody : m.body = none) (href : m.bodyRef = some r) :
    generatedBody? job.program m = (job.program.resolve r).bind (·.body) := by
  simp only [generatedBody?, hbody, href]

end Sharing

/-- A method without a body that refers to another one's is bound to a function of that
body and its own parameters. A parameter of the owner stands as the variable of its
name, which the script language reads if it is an identifier; it is bound if the borrower
has a parameter of that variable, and then to the argument there. A method that refers to no body is bound to a trap, and nothing else
tells of it. -/
theorem sharedBody_emitted (job : Job) (owner : ClassName) (m : Method) (s : State) {r : MethodRef}
    (hbody : m.body = none) (hnatives : m.nativesFor job.config.target = [])
    (href : m.bodyRef = some r) :
    let slot := methodSlot owner m
    let params := parameterVariables m
    (∀ o body doc t, job.program.resolve r = some o → o.body = some body →
      (lowerBody job owner m body).run s = (.ok doc, t) →
      (∃ last, (lowerMethod job owner m).run s =
        (.ok (.block (slot ++ " = function" ++ arguments params) (doc ++ last) ";"), t)) ∧
      ∀ name, ReadsParameter o body name →
        (∀ caller u, (lowerExpr job caller (.param name)).run u = (.ok (Script.variableName name), u)) ∧
        (Reads (Script.variableName name) (.reference (Script.variableName name)) ↔
          IsIdentifier (Script.variableName name)) ∧
        ∀ runtime args, args.length = params.length →
          ((eval runtime (callScope params args) (.reference (Script.variableName name))).isSome ↔
            Script.variableName name ∈ params) ∧
          ∀ v, eval runtime (callScope params args) (.reference (Script.variableName name)) = some v ↔
            ∃ i : Nat, params[i]? = some (Script.variableName name) ∧
              Script.variableName name ∉ params.drop (i + 1) ∧ args[i]? = some v) ∧
    ((∀ o, job.program.resolve r = some o → o.body = none) →
      (lowerMethod job owner m).run s = (.ok (bindStub slot), s)) := by
  intro slot params
  have hshared : generatedBody? job.program m = _ := generatedBody?_shared hbody href
  constructor
  · intro o body doc t hresolve howns hrun
    rw [hresolve, Option.bind_some, howns] at hshared
    refine ⟨⟨_, lowerMethod_generated hnatives hshared hrun⟩, fun name _ => ?_⟩
    refine ⟨fun _ _ => rfl, reads_variableName_iff, fun runtime args hlength => ⟨?_, ?_⟩⟩
    · rw [eval]
      exact isSome_lookup_callScope hlength
    · intro v
      rw [eval]
      exact lookup_callScope hlength v
  · intro habsent
    refine lowerMethod_trap hnatives (hshared.trans ?_) s
    cases hresolve : job.program.resolve r with
    | none => rfl
    | some o => exact habsent o hresolve

section Examples

/-- A static method that returns its parameter. -/
def lender : Method where
  name := "echo"
  owner := ⟨"Main"⟩
  type := ⟨[⟨"x", .int⟩], .int⟩
  isStatic := true
  role := .ordinary
  nativeName := none
  body := some ⟨[], .ret (some (.param "x"))⟩
  bodyRef := none
  natives := []
  fluent := false

/-- A method of one parameter that borrows the body of another. -/
def borrower (param target : String) : Method :=
  { lender with
    name := "same", type := ⟨[⟨param, .int⟩], .int⟩, body := none
    bodyRef := some ⟨⟨"Main"⟩, target, ⟨[⟨"x", .int⟩], .int⟩⟩ }

/-- The program of both. -/
def lending (param target : String) : Job :=
  ⟨solo [lender, borrower param target], {}, plainTemplater⟩

theorem resolve_lending (param target : String) :
    (lending param target).program.resolve ⟨⟨"Main"⟩, "echo", ⟨[⟨"x", .int⟩], .int⟩⟩ = some lender :=
  (resolve_solo _ _ _).trans rfl

theorem readsParameter_lender : ReadsParameter lender ⟨[], .ret (some (.param "x"))⟩ "x" where
  declared := List.mem_singleton_self _
  read := List.mem_singleton_self _

/-- Under the same name, the parameter has the value of the argument. -/
theorem sharedBody_emitted_lent :
    let params := parameterVariables (borrower "x" "echo")
    (∃ d, (lowerMethod (lending "x" "echo") ⟨"Main"⟩ (borrower "x" "echo")).run .initial =
      (.ok d, .initial)) ∧
    eval (fun _ _ => none) (callScope params [.number 7]) (.reference (Script.variableName "x")) =
      some (.number 7) := by
  intro params
  obtain ⟨hshared, -⟩ :=
    sharedBody_emitted (lending "x" "echo") ⟨"Main"⟩ (borrower "x" "echo") .initial rfl rfl rfl
  obtain ⟨⟨last, hrun⟩, hparams⟩ := hshared lender _ _ _ (resolve_lending "x" "echo") rfl rfl
  obtain ⟨-, -, hvalues⟩ := hparams "x" readsParameter_lender
  exact ⟨⟨_, hrun⟩, ((hvalues _ [.number 7] rfl).2 _).2 ⟨0, rfl, List.not_mem_nil, rfl⟩⟩

/-- Under another name, the parameter of the owner is not bound. And a reference to no
method leaves the trap alone. -/
theorem sharedBody_unbound :
    (ReadsParameter lender ⟨[], .ret (some (.param "x"))⟩ "x" ∧
      (lowerMethod (lending "y" "echo") ⟨"Main"⟩ (borrower "y" "echo")).run .initial =
        (.ok (.block "Main[\"same(I)I\"] = function(y)"
          (.empty ++ .empty ++ .empty ++ statement "return x" ++ .empty) ";"), .initial) ∧
      Script.variableName "x" ∉ parameterVariables (borrower "y" "echo")) ∧
    (lending "y" "gone").program.resolve ⟨⟨"Main"⟩, "gone", ⟨[⟨"x", .int⟩], .int⟩⟩ = none ∧
      (lowerMethod (lending "y" "gone") ⟨"Main"⟩ (borrower "y" "gone")).run .initial =
        (.ok (bindStub "Main[\"same(I)I\"]"), .initial) := by
  have hslot : methodSlot ⟨"Main"⟩ (borrower "y" "echo") = "Main[\"same(I)I\"]" := by decide +kernel
  have hlost : (lending "y" "gone").program.resolve ⟨⟨"Main"⟩, "gone", ⟨[⟨"x", .int⟩], .int⟩⟩ = none :=
    (resolve_solo _ _ _).trans rfl
  refine ⟨⟨readsParameter_lender, ?_, by decide +kernel⟩, hlost, ?_⟩
  · have hbody : generatedBody? (lending "y" "echo").program (borrower "y" "echo") = lender.body :=
      (generatedBody?_shared rfl rfl).trans (by rw [resolve_lending]; rfl)
    refine (lowerMethod_generated rfl hbody rfl).trans ?_
    rw [bindFunction, hslot]
    rfl
  · have hbody : generatedBody? (lending "y" "gone").program (borrower "y" "gone") = none :=
      (generatedBody?_shared rfl rfl).trans (by rw [hlost]; rfl)
    rw [lowerMethod_trap rfl hbody, ← hslot]
    rfl

end Examples

end Emission

end ClassScript
