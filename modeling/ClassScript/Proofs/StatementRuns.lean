import ClassScript.Emission.Body
import ClassScript.Proofs.DocLines
import ClassScript.Proofs.Run

/-!
Lowering a statement, where it succeeds, as a relation between the statement, the counts of
chains and the states before and after, and the document. Most statements are one line, and
what is said of those holds of failing runs, too. For all others there is a rule for each
kind of statement, which says what is written around the documents of its parts.
-/

namespace ClassScript.Emission

open Output

section Lines

/-- What a statement that is written as one line has in front of the semicolon. -/
def lineText? (job : Job) (ctx : Context) (chain : Option Nat) : Stmt → Option (Emit String)
  | .eval value => some (lowerExpr job ctx.caller value)
  | .ret (some value) => some do
      let value ← lowerExpr job ctx.caller value
      return "return " ++ value
  | .ret none => some (return if ctx.returnsThis then "return this" else "return")
  | .setSlot name value => some do
      let value ← lowerExpr job ctx.caller value
      return Script.variableName name ++ " = " ++ value
  | .setInstanceField object r value => some do
      let object ← lowerExpr job ctx.caller object
      let value ← lowerExpr job ctx.caller value
      let name ← job.fieldName r
      return object ++ Script.member name ++ " = " ++ value
  | .setStaticField r value => some do
      let value ← lowerExpr job ctx.caller value
      let target ← job.staticField r
      return target ++ " = " ++ value
  | .setArray array index value => some do
      let array ← lowerExpr job ctx.caller array
      let index ← lowerExpr job ctx.caller index
      let value ← lowerExpr job ctx.caller value
      return array ++ ".data[" ++ index ++ "] = " ++ value
  | .fillArray array start values => some do
      let array ← lowerExpr job ctx.caller array
      let values ← lowerExprs job ctx.caller values
      return array ++ ".setArraySlice(" ++ Text.natural start.toNat ++ ", [" ++
        ", ".intercalate values ++ "])"
  | .leave (some label) => some (return "break " ++ Script.variableName label)
  | .leave none => some (return match chain with
      | some n => "break " ++ ("J__switch" ++ Text.natural n ++ "__")
      | none => "break")
  | .again (some label) => some (return "continue" ++ " " ++ Script.variableName label)
  | .again none => some (return "continue")
  | .throw value => some do
      let value ← lowerExpr job ctx.caller value
      return "throw " ++ value
  | .rethrow => some (return "throw J__i__exception__")
  | .position _ _ | .nop | .block _ | .when _ _ | .choose _ _ _ | .loop _ _ _ | .switch _ _ _
  | .tryCatch _ _ => none

/-- Such a statement is lowered to that line. -/
theorem lowerStmt_line {job : Job} {ctx : Context} {chain : Option Nat} {x : Emit String} :
    ∀ {s : Stmt}, lineText? job ctx chain s = some x →
      lowerStmt job ctx chain s = do
        let text ← x
        return Doc.line (text ++ ";")
  | .eval _, h | .ret none, h | .leave (some _), h | .leave none, h | .again (some _), h
  | .again none, h | .rethrow, h => by
      obtain rfl := Option.some.inj h
      simp only [lowerStmt]
      rfl
  | .ret (some _), h | .setSlot _ _, h | .setInstanceField _ _ _, h | .setStaticField _ _, h
  | .setArray _ _ _, h | .fillArray _ _ _, h | .throw _, h => by
      obtain rfl := Option.some.inj h
      simp only [lowerStmt, liftM_bind, liftM_pure, bind_assoc, pure_bind]
      rfl

/-- It has no other statement in it. -/
theorem substatements_of_lineText? {job : Job} {ctx : Context} {chain : Option Nat} {s : Stmt}
    {x : Emit String} (h : lineText? job ctx chain s = some x) : s.substatements = [s] := by
  cases s with
  | block _ | when _ _ | choose _ _ _ | loop _ _ _ | switch _ _ _ | tryCatch _ _ => cases h
  | _ => simp [Stmt.substatements]

/-- It does something. -/
theorem isEmpty_of_lineText? {job : Job} {ctx : Context} {chain : Option Nat} {s : Stmt}
    {x : Emit String} (h : lineText? job ctx chain s = some x) : s.isEmpty = false := by
  cases s with
  | nop | block _ => cases h
  | _ => simp [Stmt.isEmpty]

/-- The text of such a line, by what comes of the expressions in it. -/
inductive LineForm (job : Job) (ctx : Context) (chain : Option Nat) :
    Stmt → State → String → State → Prop where
  | eval {value : Expr} {u v : State} {text : String}
      (hvalue : (lowerExpr job ctx.caller value).run u = (.ok text, v)) :
      LineForm job ctx chain (.eval value) u text v
  | ret {value : Expr} {u v : State} {text : String}
      (hvalue : (lowerExpr job ctx.caller value).run u = (.ok text, v)) :
      LineForm job ctx chain (.ret (some value)) u ("return " ++ text) v
  | retNone (u : State) : LineForm job ctx chain (.ret none) u
      (if ctx.returnsThis then "return this" else "return") u
  | setSlot {name : String} {value : Expr} {u v : State} {text : String}
      (hvalue : (lowerExpr job ctx.caller value).run u = (.ok text, v)) :
      LineForm job ctx chain (.setSlot name value) u (Script.variableName name ++ " = " ++ text) v
  | setInstanceField {object : Expr} {r : FieldRef} {value : Expr} {u v w z : State}
      {base text name : String} (hobject : (lowerExpr job ctx.caller object).run u = (.ok base, v))
      (hvalue : (lowerExpr job ctx.caller value).run v = (.ok text, w))
      (hname : (job.fieldName r).run w = (.ok name, z)) :
      LineForm job ctx chain (.setInstanceField object r value) u
        (base ++ Script.member name ++ " = " ++ text) z
  | setStaticField {r : FieldRef} {value : Expr} {u v w : State} {text target : String}
      (hvalue : (lowerExpr job ctx.caller value).run u = (.ok text, v))
      (htarget : (job.staticField r).run v = (.ok target, w)) :
      LineForm job ctx chain (.setStaticField r value) u (target ++ " = " ++ text) w
  | setArray {array index value : Expr} {u v w z : State} {base place text : String}
      (harray : (lowerExpr job ctx.caller array).run u = (.ok base, v))
      (hindex : (lowerExpr job ctx.caller index).run v = (.ok place, w))
      (hvalue : (lowerExpr job ctx.caller value).run w = (.ok text, z)) :
      LineForm job ctx chain (.setArray array index value) u
        (base ++ ".data[" ++ place ++ "] = " ++ text) z
  | fillArray {array : Expr} {start : UInt32} {values : List Expr} {u v w : State} {base : String}
      {texts : List String} (harray : (lowerExpr job ctx.caller array).run u = (.ok base, v))
      (hvalues : (lowerExprs job ctx.caller values).run v = (.ok texts, w)) :
      LineForm job ctx chain (.fillArray array start values) u
        (base ++ ".setArraySlice(" ++ Text.natural start.toNat ++ ", [" ++ ", ".intercalate texts ++
          "])") w
  | leaveLabel (label : String) (u : State) :
      LineForm job ctx chain (.leave (some label)) u ("break " ++ Script.variableName label) u
  | leave (u : State) : LineForm job ctx chain (.leave none) u
      (match chain with
        | some n => "break " ++ ("J__switch" ++ Text.natural n ++ "__")
        | none => "break") u
  | againLabel (label : String) (u : State) :
      LineForm job ctx chain (.again (some label)) u
        ("continue" ++ " " ++ Script.variableName label) u
  | again (u : State) : LineForm job ctx chain (.again none) u "continue" u
  | throw {value : Expr} {u v : State} {text : String}
      (hvalue : (lowerExpr job ctx.caller value).run u = (.ok text, v)) :
      LineForm job ctx chain (.throw value) u ("throw " ++ text) v
  | rethrow (u : State) : LineForm job ctx chain .rethrow u "throw J__i__exception__" u

theorem lineForm_of_run {job : Job} {ctx : Context} {chain : Option Nat} {u v : State}
    {x : Emit String} {text : String} : ∀ {s : Stmt}, lineText? job ctx chain s = some x →
      x.run u = (.ok text, v) → LineForm job ctx chain s u text v
  | .eval _, h, hrun => by
      obtain rfl := Option.some.inj h
      exact .eval hrun
  | .ret (some _), h, hrun => by
      obtain rfl := Option.some.inj h
      obtain ⟨_, _, hvalue, hrun⟩ := exists_of_run_bind_ok hrun
      obtain ⟨rfl, rfl⟩ := eq_of_run_pure hrun
      exact .ret hvalue
  | .ret none, h, hrun => by
      obtain rfl := Option.some.inj h
      obtain ⟨rfl, rfl⟩ := eq_of_run_pure hrun
      exact .retNone u
  | .setSlot _ _, h, hrun => by
      obtain rfl := Option.some.inj h
      obtain ⟨_, _, hvalue, hrun⟩ := exists_of_run_bind_ok hrun
      obtain ⟨rfl, rfl⟩ := eq_of_run_pure hrun
      exact .setSlot hvalue
  | .setInstanceField _ _ _, h, hrun => by
      obtain rfl := Option.some.inj h
      obtain ⟨_, _, hobject, hrun⟩ := exists_of_run_bind_ok hrun
      obtain ⟨_, _, hvalue, hrun⟩ := exists_of_run_bind_ok hrun
      obtain ⟨_, _, hname, hrun⟩ := exists_of_run_bind_ok hrun
      obtain ⟨rfl, rfl⟩ := eq_of_run_pure hrun
      exact .setInstanceField hobject hvalue hname
  | .setStaticField _ _, h, hrun => by
      obtain rfl := Option.some.inj h
      obtain ⟨_, _, hvalue, hrun⟩ := exists_of_run_bind_ok hrun
      obtain ⟨_, _, htarget, hrun⟩ := exists_of_run_bind_ok hrun
      obtain ⟨rfl, rfl⟩ := eq_of_run_pure hrun
      exact .setStaticField hvalue htarget
  | .setArray _ _ _, h, hrun => by
      obtain rfl := Option.some.inj h
      obtain ⟨_, _, harray, hrun⟩ := exists_of_run_bind_ok hrun
      obtain ⟨_, _, hindex, hrun⟩ := exists_of_run_bind_ok hrun
      obtain ⟨_, _, hvalue, hrun⟩ := exists_of_run_bind_ok hrun
      obtain ⟨rfl, rfl⟩ := eq_of_run_pure hrun
      exact .setArray harray hindex hvalue
  | .fillArray _ _ _, h, hrun => by
      obtain rfl := Option.some.inj h
      obtain ⟨_, _, harray, hrun⟩ := exists_of_run_bind_ok hrun
      obtain ⟨_, _, hvalues, hrun⟩ := exists_of_run_bind_ok hrun
      obtain ⟨rfl, rfl⟩ := eq_of_run_pure hrun
      exact .fillArray harray hvalues
  | .leave (some label), h, hrun => by
      obtain rfl := Option.some.inj h
      obtain ⟨rfl, rfl⟩ := eq_of_run_pure hrun
      exact .leaveLabel label u
  | .leave none, h, hrun => by
      obtain rfl := Option.some.inj h
      obtain ⟨rfl, rfl⟩ := eq_of_run_pure hrun
      exact .leave u
  | .again (some label), h, hrun => by
      obtain rfl := Option.some.inj h
      obtain ⟨rfl, rfl⟩ := eq_of_run_pure hrun
      exact .againLabel label u
  | .again none, h, hrun => by
      obtain rfl := Option.some.inj h
      obtain ⟨rfl, rfl⟩ := eq_of_run_pure hrun
      exact .again u
  | .throw _, h, hrun => by
      obtain rfl := Option.some.inj h
      obtain ⟨_, _, hvalue, hrun⟩ := exists_of_run_bind_ok hrun
      obtain ⟨rfl, rfl⟩ := eq_of_run_pure hrun
      exact .throw hvalue
  | .rethrow, h, hrun => by
      obtain rfl := Option.some.inj h
      obtain ⟨rfl, rfl⟩ := eq_of_run_pure hrun
      exact .rethrow u

end Lines

mutual

/-- Right inside the chain of that number, or inside none, and with the given count of chains
and state, the statement is lowered to the document, which leaves the other count and state. -/
inductive LowersStmt (job : Job) (ctx : Context) :
    Option Nat → Stmt → Nat × State → Doc → Nat × State → Prop where
  | position (chain : Option Nat) (file : String) (line : UInt32) (p : Nat × State) :
      LowersStmt job ctx chain (.position file line) p
        (if job.config.debug then .mark ⟨file, line⟩ else .empty) p
  | nop (chain : Option Nat) (p : Nat × State) : LowersStmt job ctx chain .nop p .empty p
  | line {chain : Option Nat} {s : Stmt} {x : Emit String} {n : Nat} {u v : State} {text : String}
      (hline : lineText? job ctx chain s = some x) (hrun : x.run u = (.ok text, v)) :
      LowersStmt job ctx chain s (n, u) (.line (text ++ ";")) (n, v)
  | block {chain : Option Nat} {body : List Stmt} {p q : Nat × State} {d : Doc}
      (hbody : LowersStmts job ctx chain body p d q) : LowersStmt job ctx chain (.block body) p d q
  | when {chain : Option Nat} {cond : Expr} {yes : Stmt} {n : Nat} {u v : State} {q : Nat × State}
      {c : String} {d : Doc} (hcond : (lowerExpr job ctx.caller cond).run u = (.ok c, v))
      (hyes : LowersStmt job ctx chain yes (n, v) d q) :
      LowersStmt job ctx chain (.when cond yes) (n, u) (.block ("if (" ++ c ++ ")") d "") q
  | choose {chain : Option Nat} {cond : Expr} {yes no : Stmt} {n : Nat} {u v : State}
      {p q : Nat × State} {c : String} {d e : Doc}
      (hcond : (lowerExpr job ctx.caller cond).run u = (.ok c, v))
      (hyes : LowersStmt job ctx chain yes (n, v) d p) (hno : LowersStmt job ctx chain no p e q) :
      LowersStmt job ctx chain (.choose cond yes no) (n, u)
        (.block ("if (" ++ c ++ ")") d "" ++ .block "else" e "") q
  | loop {chain : Option Nat} {label : Option String} {cond : Expr} {body : Stmt} {n : Nat}
      {u v : State} {q : Nat × State} {c : String} {d : Doc}
      (hcond : (lowerExpr job ctx.caller cond).run u = (.ok c, v))
      (hbody : LowersStmt job ctx none body (n, v) d q) :
      LowersStmt job ctx chain (.loop label cond body) (n, u)
        (.block (match label with
          | some label => Script.variableName label ++ ": " ++ ("while (" ++ c ++ ")")
          | none => "while (" ++ c ++ ")") d "") q
  | switch {chain : Option Nat} {subject : Expr} {cases : List SwitchCase} {otherwise : Stmt}
      {n : Nat} {u v : State} {p q : Nat × State} {text : String} {d e : Doc}
      (hnative : job.config.nativeSwitch = true)
      (hsubject : (lowerExpr job ctx.caller subject).run u = (.ok text, v))
      (hcases : LowersArms job ctx cases (n, v) d p)
      (hotherwise : LowersStmt job ctx none otherwise p e q) :
      LowersStmt job ctx chain (.switch subject cases otherwise) (n, u)
        (.block ("switch (" ++ text ++ ")")
          (d ++ .line "default:" ++ .indented (e ++ .line "break;")) "") q
  | chain {chain : Option Nat} {subject : Expr} {cases : List SwitchCase} {otherwise : Stmt}
      {n : Nat} {u v : State} {p q : Nat × State} {text : String} {d e : Doc}
      (hchains : job.config.nativeSwitch = false)
      (hsubject : (lowerExpr job ctx.caller subject).run u = (.ok text, v))
      (hcases : LowersLinks job ctx n true cases (n + 1, v) d p)
      (hotherwise : LowersStmt job ctx (some n) otherwise p e q) :
      LowersStmt job ctx chain (.switch subject cases otherwise) (n, u)
        (.block ("J__switch" ++ Text.natural n ++ "__" ++ ":")
          (.line ("var " ++ ("J__switchv" ++ Text.natural n ++ "__") ++ " = " ++ text ++ ";") ++ d ++
            if cases.all (·.values.isEmpty) then e
            else if otherwise.isEmpty then .empty
            else .block "else" e "") "") q
  | tryCatch {chain : Option Nat} {body handler : Stmt} {p q r : Nat × State} {d e : Doc}
      (hbody : LowersStmt job ctx chain body p d q)
      (hhandler : LowersStmt job ctx chain handler q e r) :
      LowersStmt job ctx chain (.tryCatch body handler) p
        (.block "try" d "" ++ .block "catch (J__i__exception__)"
          (.line "J__exception__ = J__i__exception__;" ++ e) "") r

/-- Statements in order. -/
inductive LowersStmts (job : Job) (ctx : Context) :
    Option Nat → List Stmt → Nat × State → Doc → Nat × State → Prop where
  | nil (chain : Option Nat) (p : Nat × State) : LowersStmts job ctx chain [] p .empty p
  | cons {chain : Option Nat} {s : Stmt} {rest : List Stmt} {p q r : Nat × State} {d e : Doc}
      (hfirst : LowersStmt job ctx chain s p d q) (hrest : LowersStmts job ctx chain rest q e r) :
      LowersStmts job ctx chain (s :: rest) p (d ++ e) r

/-- The arms of a switch statement. -/
inductive LowersArms (job : Job) (ctx : Context) :
    List SwitchCase → Nat × State → Doc → Nat × State → Prop where
  | nil (p : Nat × State) : LowersArms job ctx [] p .empty p
  | cons {values : List Int32} {body : Stmt} {rest : List SwitchCase} {p q r : Nat × State} {d e : Doc}
      (hbody : LowersStmt job ctx none body p d q) (hrest : LowersArms job ctx rest q e r) :
      LowersArms job ctx (.arm values body :: rest) p
        (Doc.lines (values.map fun v => "case " ++ Text.integer v.toInt ++ ":") ++
          .indented (d ++ .line "break;") ++ e) r

/-- The links of the chain of that number; whether the first of them is still to come is
given, too. An arm that no value selects has none. -/
inductive LowersLinks (job : Job) (ctx : Context) :
    Nat → Bool → List SwitchCase → Nat × State → Doc → Nat × State → Prop where
  | nil (n : Nat) (first : Bool) (p : Nat × State) : LowersLinks job ctx n first [] p .empty p
  | skip {n : Nat} {first : Bool} {body : Stmt} {rest : List SwitchCase} {p q : Nat × State} {d : Doc}
      (hrest : LowersLinks job ctx n first rest p d q) :
      LowersLinks job ctx n first (.arm [] body :: rest) p d q
  | cons {n : Nat} {first : Bool} {values : List Int32} {body : Stmt} {rest : List SwitchCase}
      {p q r : Nat × State} {d e : Doc} (hvalues : values ≠ [])
      (hbody : LowersStmt job ctx (some n) body p d q)
      (hrest : LowersLinks job ctx n false rest q e r) :
      LowersLinks job ctx n first (.arm values body :: rest) p
        (.block ((if first then "if" else "else if") ++ " (" ++ " || ".intercalate (values.map fun v =>
          "J__switchv" ++ Text.natural n ++ "__" ++ " == " ++ Text.integer v.toInt) ++ ")") d "" ++ e) r

end

section Runs

variable {job : Job} {ctx : Context} {α β : Type}

/-- Steps with the counter succeed each where they succeed one after the other. -/
theorem exists_of_count_bind_ok {x : Lower α} {f : α → Lower β} {b : β} {n m : Nat} {u v : State}
    (h : ((x >>= f).run n).run u = (.ok (b, m), v)) :
    ∃ a k w, (x.run n).run u = (.ok (a, k), w) ∧ ((f a).run k).run w = (.ok (b, m), v) := by
  rw [StateT.run_bind] at h
  obtain ⟨⟨a, k⟩, w, hx, hf⟩ := exists_of_run_bind_ok h
  exact ⟨a, k, w, hx, hf⟩

/-- The same where the first of them does not look at the counter. -/
theorem exists_of_lift_bind_ok {x : Emit α} {f : α → Lower β} {b : β} {n m : Nat} {u v : State}
    (h : ((liftM x >>= f).run n).run u = (.ok (b, m), v)) :
    ∃ a w, x.run u = (.ok a, w) ∧ ((f a).run n).run w = (.ok (b, m), v) := by
  rw [StateT.run_bind, StateT.run_monadLift, monadLift_self, bind_assoc] at h
  obtain ⟨a, w, hx, hf⟩ := exists_of_run_bind_ok h
  exact ⟨a, w, hx, hf⟩

theorem run_count_bind {x : Lower α} {f : α → Lower β} {a : α} {n k : Nat} {u w : State}
    (h : (x.run n).run u = (.ok (a, k), w)) :
    ((x >>= f).run n).run u = ((f a).run k).run w := by
  rw [StateT.run_bind]
  exact run_bind_ok h

theorem run_lift_bind {x : Emit α} {f : α → Lower β} {a : α} {n : Nat} {u w : State}
    (h : x.run u = (.ok a, w)) :
    ((liftM x >>= f).run n).run u = ((f a).run n).run w := by
  rw [StateT.run_bind, StateT.run_monadLift, monadLift_self, bind_assoc]
  exact run_bind_ok h

/-- A number is drawn from the counter. -/
theorem run_draw (f : Nat → Lower α) (n : Nat) (u : State) :
    ((do let k ← get; set (k + 1); f k : Lower α).run n).run u = ((f n).run (n + 1)).run u := rfl

theorem eq_of_count_pure {a b : α} {n m : Nat} {u v : State}
    (h : ((pure a : Lower α).run n).run u = (.ok (b, m), v)) : a = b ∧ n = m ∧ u = v := by
  obtain ⟨hpair, rfl⟩ := eq_of_run_pure (a := (a, n)) h
  obtain ⟨rfl, rfl⟩ := Prod.mk.inj hpair
  exact ⟨rfl, rfl, rfl⟩

mutual

/-- A run that succeeds follows the rule of its statement. -/
theorem lowersStmt_of_run : ∀ (s : Stmt) {chain : Option Nat} {n m : Nat} {u v : State} {d : Doc},
    ((lowerStmt job ctx chain s).run n).run u = (.ok (d, m), v) →
      LowersStmt job ctx chain s (n, u) d (m, v)
  | .position file line, chain, n, m, u, v, d, h => by
      simp only [lowerStmt] at h
      obtain ⟨rfl, rfl, rfl⟩ := eq_of_count_pure h
      exact .position chain file line (n, u)
  | .nop, chain, n, m, u, v, d, h => by
      simp only [lowerStmt] at h
      obtain ⟨rfl, rfl, rfl⟩ := eq_of_count_pure h
      exact .nop chain (n, u)
  | .eval _, chain, n, m, u, v, d, h | .ret (some _), chain, n, m, u, v, d, h
  | .ret none, chain, n, m, u, v, d, h | .setSlot _ _, chain, n, m, u, v, d, h
  | .setInstanceField _ _ _, chain, n, m, u, v, d, h | .setStaticField _ _, chain, n, m, u, v, d, h
  | .setArray _ _ _, chain, n, m, u, v, d, h | .fillArray _ _ _, chain, n, m, u, v, d, h
  | .leave (some _), chain, n, m, u, v, d, h | .leave none, chain, n, m, u, v, d, h
  | .again (some _), chain, n, m, u, v, d, h | .again none, chain, n, m, u, v, d, h
  | .throw _, chain, n, m, u, v, d, h | .rethrow, chain, n, m, u, v, d, h => by
      rw [lowerStmt_line rfl] at h
      obtain ⟨text, w, hrun, h⟩ := exists_of_lift_bind_ok h
      obtain ⟨rfl, rfl, rfl⟩ := eq_of_count_pure h
      exact .line rfl hrun
  | .block body, chain, n, m, u, v, d, h => by
      simp only [lowerStmt] at h
      exact .block (lowersStmts_of_run body h)
  | .when cond yes, chain, n, m, u, v, d, h => by
      simp only [lowerStmt] at h
      obtain ⟨c, w, hcond, h⟩ := exists_of_lift_bind_ok h
      obtain ⟨first, k, w', hyes, h⟩ := exists_of_count_bind_ok h
      obtain ⟨rfl, rfl, rfl⟩ := eq_of_count_pure h
      exact .when hcond (lowersStmt_of_run yes hyes)
  | .choose cond yes no, chain, n, m, u, v, d, h => by
      simp only [lowerStmt] at h
      obtain ⟨c, w, hcond, h⟩ := exists_of_lift_bind_ok h
      obtain ⟨first, k, w', hyes, h⟩ := exists_of_count_bind_ok h
      obtain ⟨second, k', w'', hno, h⟩ := exists_of_count_bind_ok h
      obtain ⟨rfl, rfl, rfl⟩ := eq_of_count_pure h
      exact .choose hcond (lowersStmt_of_run yes hyes) (lowersStmt_of_run no hno)
  | .loop label cond body, chain, n, m, u, v, d, h => by
      simp only [lowerStmt] at h
      obtain ⟨c, w, hcond, h⟩ := exists_of_lift_bind_ok h
      obtain ⟨first, k, w', hbody, h⟩ := exists_of_count_bind_ok h
      obtain ⟨rfl, rfl, rfl⟩ := eq_of_count_pure h
      exact .loop hcond (lowersStmt_of_run body hbody)
  | .switch subject cases otherwise, chain, n, m, u, v, d, h => by
      simp only [lowerStmt] at h
      obtain ⟨text, w, hsubject, h⟩ := exists_of_lift_bind_ok h
      split at h
      · next hnative =>
          obtain ⟨arms, k, w', hcases, h⟩ := exists_of_count_bind_ok h
          obtain ⟨last, k', w'', hotherwise, h⟩ := exists_of_count_bind_ok h
          obtain ⟨rfl, rfl, rfl⟩ := eq_of_count_pure h
          exact .switch hnative hsubject (lowersArms_of_run cases hcases)
            (lowersStmt_of_run otherwise hotherwise)
      · next hchains =>
          rw [run_draw] at h
          obtain ⟨links, k, w', hcases, h⟩ := exists_of_count_bind_ok h
          obtain ⟨last, k', w'', hotherwise, h⟩ := exists_of_count_bind_ok h
          obtain ⟨rfl, rfl, rfl⟩ := eq_of_count_pure h
          exact .chain (Bool.not_eq_true _ ▸ hchains) hsubject (lowersLinks_of_run n cases hcases)
            (lowersStmt_of_run otherwise hotherwise)
  | .tryCatch body handler, chain, n, m, u, v, d, h => by
      simp only [lowerStmt] at h
      obtain ⟨first, k, w, hbody, h⟩ := exists_of_count_bind_ok h
      obtain ⟨second, k', w', hhandler, h⟩ := exists_of_count_bind_ok h
      obtain ⟨rfl, rfl, rfl⟩ := eq_of_count_pure h
      exact .tryCatch (lowersStmt_of_run body hbody) (lowersStmt_of_run handler hhandler)

theorem lowersStmts_of_run : ∀ (body : List Stmt) {chain : Option Nat} {n m : Nat} {u v : State}
    {d : Doc}, ((lowerStmts job ctx chain body).run n).run u = (.ok (d, m), v) →
      LowersStmts job ctx chain body (n, u) d (m, v)
  | [], chain, n, m, u, v, d, h => by
      simp only [lowerStmts] at h
      obtain ⟨rfl, rfl, rfl⟩ := eq_of_count_pure h
      exact .nil chain (n, u)
  | s :: rest, chain, n, m, u, v, d, h => by
      simp only [lowerStmts] at h
      obtain ⟨first, k, w, hfirst, h⟩ := exists_of_count_bind_ok h
      obtain ⟨others, k', w', hrest, h⟩ := exists_of_count_bind_ok h
      obtain ⟨rfl, rfl, rfl⟩ := eq_of_count_pure h
      exact .cons (lowersStmt_of_run s hfirst) (lowersStmts_of_run rest hrest)

theorem lowersArms_of_run : ∀ (cases : List SwitchCase) {n m : Nat} {u v : State} {d : Doc},
    ((lowerArms job ctx cases).run n).run u = (.ok (d, m), v) →
      LowersArms job ctx cases (n, u) d (m, v)
  | [], n, m, u, v, d, h => by
      simp only [lowerArms] at h
      obtain ⟨rfl, rfl, rfl⟩ := eq_of_count_pure h
      exact .nil (n, u)
  | .arm values body :: rest, n, m, u, v, d, h => by
      simp only [lowerArms] at h
      obtain ⟨first, k, w, hbody, h⟩ := exists_of_count_bind_ok h
      obtain ⟨others, k', w', hrest, h⟩ := exists_of_count_bind_ok h
      obtain ⟨rfl, rfl, rfl⟩ := eq_of_count_pure h
      exact .cons (lowersStmt_of_run body hbody) (lowersArms_of_run rest hrest)

theorem lowersLinks_of_run (number : Nat) : ∀ (cases : List SwitchCase) {first : Bool} {n m : Nat}
    {u v : State} {d : Doc}, ((lowerLinks job ctx number first cases).run n).run u = (.ok (d, m), v) →
      LowersLinks job ctx number first cases (n, u) d (m, v)
  | [], first, n, m, u, v, d, h => by
      simp only [lowerLinks] at h
      obtain ⟨rfl, rfl, rfl⟩ := eq_of_count_pure h
      exact .nil number first (n, u)
  | .arm values body :: rest, first, n, m, u, v, d, h => by
      simp only [lowerLinks] at h
      split at h
      · next hempty =>
          obtain rfl := List.isEmpty_iff.1 hempty
          exact .skip (lowersLinks_of_run number rest h)
      · next hsome =>
          obtain ⟨inside, k, w, hbody, h⟩ := exists_of_count_bind_ok h
          obtain ⟨others, k', w', hrest, h⟩ := exists_of_count_bind_ok h
          obtain ⟨rfl, rfl, rfl⟩ := eq_of_count_pure h
          exact .cons (fun hnil => hsome (List.isEmpty_iff.2 hnil)) (lowersStmt_of_run body hbody)
            (lowersLinks_of_run number rest hrest)

end

mutual

/-- What a rule says, a run does. -/
theorem LowersStmt.run : ∀ {chain : Option Nat} {s : Stmt} {p q : Nat × State} {d : Doc},
    LowersStmt job ctx chain s p d q →
      ((lowerStmt job ctx chain s).run p.1).run p.2 = (.ok (d, q.1), q.2)
  | _, _, _, _, _, .position chain file line p => by
      simp only [lowerStmt]
      rfl
  | _, _, _, _, _, .nop chain p => by
      simp only [lowerStmt]
      rfl
  | _, _, _, _, _, .line hline hrun => by
      rw [lowerStmt_line hline, run_lift_bind hrun]
      rfl
  | _, _, _, _, _, .block hbody => by
      simp only [lowerStmt]
      exact hbody.run
  | _, _, _, _, _, .when hcond hyes => by
      simp only [lowerStmt]
      rw [run_lift_bind hcond, run_count_bind hyes.run]
      rfl
  | _, _, _, _, _, .choose hcond hyes hno => by
      simp only [lowerStmt]
      rw [run_lift_bind hcond, run_count_bind hyes.run, run_count_bind hno.run]
      rfl
  | _, _, _, _, _, .loop hcond hbody => by
      simp only [lowerStmt]
      rw [run_lift_bind hcond, run_count_bind hbody.run]
      rfl
  | _, _, _, _, _, .switch hnative hsubject hcases hotherwise => by
      simp only [lowerStmt, hnative, reduceIte]
      rw [run_lift_bind hsubject, run_count_bind hcases.run, run_count_bind hotherwise.run]
      rfl
  | _, _, _, _, _, .chain hchains hsubject hcases hotherwise => by
      simp only [lowerStmt, hchains, Bool.false_eq_true, reduceIte]
      rw [run_lift_bind hsubject, run_draw, run_count_bind hcases.run, run_count_bind hotherwise.run]
      rfl
  | _, _, _, _, _, .tryCatch hbody hhandler => by
      simp only [lowerStmt]
      rw [run_count_bind hbody.run, run_count_bind hhandler.run]
      rfl

theorem LowersStmts.run : ∀ {chain : Option Nat} {body : List Stmt} {p q : Nat × State} {d : Doc},
    LowersStmts job ctx chain body p d q →
      ((lowerStmts job ctx chain body).run p.1).run p.2 = (.ok (d, q.1), q.2)
  | _, _, _, _, _, .nil chain p => by
      simp only [lowerStmts]
      rfl
  | _, _, _, _, _, .cons hfirst hrest => by
      simp only [lowerStmts]
      rw [run_count_bind hfirst.run, run_count_bind hrest.run]
      rfl

theorem LowersArms.run : ∀ {cases : List SwitchCase} {p q : Nat × State} {d : Doc},
    LowersArms job ctx cases p d q →
      ((lowerArms job ctx cases).run p.1).run p.2 = (.ok (d, q.1), q.2)
  | _, _, _, _, .nil p => by
      simp only [lowerArms]
      rfl
  | _, _, _, _, .cons hbody hrest => by
      simp only [lowerArms]
      rw [run_count_bind hbody.run, run_count_bind hrest.run]
      rfl

theorem LowersLinks.run : ∀ {n : Nat} {first : Bool} {cases : List SwitchCase} {p q : Nat × State}
    {d : Doc}, LowersLinks job ctx n first cases p d q →
      ((lowerLinks job ctx n first cases).run p.1).run p.2 = (.ok (d, q.1), q.2)
  | _, _, _, _, _, _, .nil n first p => by
      simp only [lowerLinks]
      rfl
  | _, _, _, _, _, _, .skip hrest => by
      simp only [lowerLinks]
      exact hrest.run
  | _, _, _, _, _, _, .cons hvalues hbody hrest => by
      simp only [lowerLinks]
      rw [if_neg (by simpa using hvalues), run_count_bind hbody.run, run_count_bind hrest.run]
      rfl

end

end Runs

/-- The declarations of a body: its variables in one line, and a line for the exception if
something is caught in it. -/
def declarationTexts (body : Body) : List String :=
  (match body.locals with
    | [] => []
    | locals => ["var " ++ ", ".intercalate (locals.map fun b =>
        Script.variableName b.name ++ " = " ++ Script.constant b.type.zero) ++ ";"]) ++
  if body.hasTraps then ["var J__exception__ = null;"] else []

/-- The lines that force static initialisers. -/
def initializerTexts (names : List ClassName) : List String :=
  names.map fun name => name.identifier ++ ".SI();"

theorem map_staticInitCall (names : List ClassName) :
    names.map (·.staticInitCall) = initializerTexts names := by
  refine List.map_congr_left fun name _ => ?_
  rw [ClassName.staticInitCall, ClassName.staticInit, String.append_assoc]
  rfl

section Bodies

variable {job : Job} {owner : ClassName} {m : Method} {body : Body} {s t : State} {d : Doc}

/-- A body is its declarations, the static initialisers that it forces, and its statement. -/
theorem lowersStmt_of_lowerBody (h : (lowerBody job owner m body).run s = (.ok d, t)) :
    ∃ text n,
      LowersStmt job ⟨⟨owner, m.name, m.type⟩, m.returnsThis⟩ none body.stmt (0, s) text (n, t) ∧
      d = declareLocals body.locals ++
        (if body.hasTraps then statement ("var " ++ exceptionSlot ++ " = null") else .empty) ++
        Doc.lines (initializerTexts (staticInitTargets job.program owner body)) ++ text := by
  obtain ⟨⟨text, n⟩, u, hstmt, hpure⟩ := exists_of_run_bind_ok h
  obtain ⟨rfl, rfl⟩ := eq_of_run_pure hpure
  exact ⟨text, n, lowersStmt_of_run body.stmt hstmt, by rw [map_staticInitCall]⟩

theorem entriesAt_declarations (body : Body) (level : Nat) :
    (declareLocals body.locals ++
        (if body.hasTraps then statement ("var " ++ exceptionSlot ++ " = null") else .empty)).entriesAt
      level = (declarationTexts body).flatMap (textEntries level) := by
  have hlocals : (declareLocals body.locals).entriesAt level = ((match body.locals with
      | [] => []
      | locals => ["var " ++ ", ".intercalate (locals.map fun b =>
          Script.variableName b.name ++ " = " ++ Script.constant b.type.zero) ++ ";"]) :
      List String).flatMap (textEntries level) := by
    cases body.locals with
    | nil => rfl
    | cons b rest => exact (List.append_nil _).symm
  have htraps : (if body.hasTraps then statement ("var " ++ exceptionSlot ++ " = null")
      else Doc.empty).entriesAt level =
      (if body.hasTraps then ["var J__exception__ = null;"] else []).flatMap (textEntries level) := by
    split
    · rfl
    · rfl
  rw [Doc.entriesAt_append, hlocals, htraps, declarationTexts, List.flatMap_append]

/-- The entries of a body, the declarations and initialisers first. -/
theorem entriesAt_body (body : Body) (names : List ClassName) (text : Doc) (level : Nat) :
    (declareLocals body.locals ++
        (if body.hasTraps then statement ("var " ++ exceptionSlot ++ " = null") else .empty) ++
        Doc.lines (initializerTexts names) ++ text).entriesAt level =
      (declarationTexts body ++ initializerTexts names).flatMap (textEntries level) ++
        text.entriesAt level := by
  rw [Doc.entriesAt_append, Doc.entriesAt_append, entriesAt_declarations, Doc.entriesAt_lines,
    List.flatMap_append]

/-- The lines of a body, in the same order. -/
theorem linesAt_body (body : Body) (names : List ClassName) (text : Doc) (level : Nat) :
    (declareLocals body.locals ++
        (if body.hasTraps then statement ("var " ++ exceptionSlot ++ " = null") else .empty) ++
        Doc.lines (initializerTexts names) ++ text).linesAt level =
      (declarationTexts body ++ initializerTexts names).flatMap (Doc.textLines level) ++
        text.linesAt level := by
  have htexts : Doc.textLines level = fun line => (textEntries level line).filterMap Entry.line? :=
    funext fun line => Doc.linesAt_eq level (.line line)
  rw [Doc.linesAt_eq, entriesAt_body, List.filterMap_append, List.filterMap_flatMap,
    ← Doc.linesAt_eq, htexts]

end Bodies

end ClassScript.Emission
