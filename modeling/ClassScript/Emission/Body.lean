import ClassScript.Emission.Expression

/-!
Lowering of statements and whole bodies to documents. A script without a switch
statement gets a labelled chain of conditions instead; its labels are numbered
through the body, and a plain exit inside such a chain has to name the label.
-/

namespace ClassScript.Emission

open Output

/-- A step in the lowering of one body; the state counts the switches that have
been turned into chains. -/
abbrev Lower := StateT Nat Emit

/-- What statements have to know about the method around them. -/
structure Context where
  caller : MethodRef
  returnsThis : Bool

/-- The label of a chain, and the variable for its subject. -/
def switchLabel (n : Nat) : String := "J__switch" ++ Text.natural n ++ "__"

def switchSubject (n : Nat) : String := "J__switchv" ++ Text.natural n ++ "__"

def statement (text : String) : Doc := .line (text ++ ";")

/-- The labels of one arm of a switch statement. -/
def caseLabels (values : List Int32) : Doc :=
  Doc.lines (values.map fun v => "case " ++ Text.integer v.toInt ++ ":")

/-- The condition under which a chain takes an arm. -/
def caseCondition (subject : String) (values : List Int32) : String :=
  " || ".intercalate (values.map fun v => subject ++ " == " ++ Text.integer v.toInt)

def optionalLabel (word : String) : Option String → String
  | some label => word ++ " " ++ Script.variableName label
  | none => word

mutual

/-- The document of a statement. `chain` is the number of the chain that a
plain exit leaves, when the innermost loop or switch is one. -/
def lowerStmt (job : Job) (ctx : Context) (chain : Option Nat) : Stmt → Lower Doc
  | .position file line => return if job.config.debug then .mark ⟨file, line⟩ else .empty
  | .nop => return .empty
  | .block body => lowerStmts job ctx chain body
  | .eval value => do
      let value ← lowerExpr job ctx.caller value
      return statement value
  | .ret (some value) => do
      let value ← lowerExpr job ctx.caller value
      return statement ("return " ++ value)
  | .ret none => return statement (if ctx.returnsThis then "return this" else "return")
  | .setSlot name value => do
      let value ← lowerExpr job ctx.caller value
      return statement (Script.variableName name ++ " = " ++ value)
  | .setInstanceField object field value => do
      let object ← lowerExpr job ctx.caller object
      let value ← lowerExpr job ctx.caller value
      let name ← job.fieldName field
      return statement (object ++ Script.member name ++ " = " ++ value)
  | .setStaticField field value => do
      let value ← lowerExpr job ctx.caller value
      let target ← job.staticField field
      return statement (target ++ " = " ++ value)
  | .setArray array index value => do
      let array ← lowerExpr job ctx.caller array
      let index ← lowerExpr job ctx.caller index
      let value ← lowerExpr job ctx.caller value
      return statement (array ++ ".data[" ++ index ++ "] = " ++ value)
  | .fillArray array start values => do
      let array ← lowerExpr job ctx.caller array
      let values ← lowerExprs job ctx.caller values
      return statement (array ++ ".setArraySlice(" ++ Text.natural start.toNat ++ ", [" ++
        ", ".intercalate values ++ "])")
  | .when cond yes => do
      let cond ← lowerExpr job ctx.caller cond
      let yes ← lowerStmt job ctx chain yes
      return .block ("if (" ++ cond ++ ")") yes ""
  | .choose cond yes no => do
      let cond ← lowerExpr job ctx.caller cond
      let yes ← lowerStmt job ctx chain yes
      let no ← lowerStmt job ctx chain no
      return .block ("if (" ++ cond ++ ")") yes "" ++ .block "else" no ""
  | .loop label cond body => do
      let cond ← lowerExpr job ctx.caller cond
      let body ← lowerStmt job ctx none body
      let head := "while (" ++ cond ++ ")"
      return .block
        (match label with
          | some label => Script.variableName label ++ ": " ++ head
          | none => head)
        body ""
  | .leave (some label) => return statement ("break " ++ Script.variableName label)
  | .leave none => return statement (match chain with
      | some n => "break " ++ switchLabel n
      | none => "break")
  | .again label => return statement (optionalLabel "continue" label)
  | .switch subject cases otherwise => do
      let subject ← lowerExpr job ctx.caller subject
      if job.config.nativeSwitch then
        let arms ← lowerArms job ctx cases
        let otherwise ← lowerStmt job ctx none otherwise
        return .block ("switch (" ++ subject ++ ")")
          (arms ++ .line "default:" ++ .indented (otherwise ++ statement "break")) ""
      else
        let n ← get
        set (n + 1)
        let links ← lowerLinks job ctx n true cases
        let otherwiseDoc ← lowerStmt job ctx (some n) otherwise
        let last :=
          if cases.all (·.values.isEmpty) then otherwiseDoc
          else if otherwise.isEmpty then .empty
          else .block "else" otherwiseDoc ""
        return .block (switchLabel n ++ ":")
          (statement ("var " ++ switchSubject n ++ " = " ++ subject) ++ links ++ last) ""
  | .throw value => do
      let value ← lowerExpr job ctx.caller value
      return statement ("throw " ++ value)
  | .tryCatch body handler => do
      let body ← lowerStmt job ctx chain body
      let handler ← lowerStmt job ctx chain handler
      return .block "try" body "" ++
        .block "catch (J__i__exception__)"
          (statement (exceptionSlot ++ " = J__i__exception__") ++ handler) ""
  | .rethrow => return statement "throw J__i__exception__"

/-- Statements in order. -/
def lowerStmts (job : Job) (ctx : Context) (chain : Option Nat) : List Stmt → Lower Doc
  | [] => return .empty
  | s :: rest => do
      let first ← lowerStmt job ctx chain s
      let others ← lowerStmts job ctx chain rest
      return first ++ others

/-- The arms of a switch statement. -/
def lowerArms (job : Job) (ctx : Context) : List SwitchCase → Lower Doc
  | [] => return .empty
  | .arm values body :: rest => do
      let body ← lowerStmt job ctx none body
      let others ← lowerArms job ctx rest
      return caseLabels values ++ .indented (body ++ statement "break") ++ others

/-- The links of a chain; arms that no value selects are left out. -/
def lowerLinks (job : Job) (ctx : Context) (n : Nat) (isFirst : Bool) :
    List SwitchCase → Lower Doc
  | [] => return .empty
  | .arm values body :: rest =>
      if values.isEmpty then lowerLinks job ctx n isFirst rest
      else do
        let body ← lowerStmt job ctx (some n) body
        let others ← lowerLinks job ctx n false rest
        let keyword := if isFirst then "if" else "else if"
        return .block (keyword ++ " (" ++ caseCondition (switchSubject n) values ++ ")") body ""
          ++ others

end

/-- The class whose static state an expression touches. -/
def touchedBy (p : Program) : Expr → Option ClassName
  | .staticField field => (p.findField field).map (·.owner)
  | .callStatic method _ =>
      if isRawCall method then none else (p.resolve method).map (·.owner)
  | .construct owner _ _ => some owner
  | _ => none

/-- The class whose static state a statement writes. -/
def writtenBy (p : Program) : Stmt → Option ClassName
  | .setStaticField field _ => (p.findField field).map (·.owner)
  | _ => none

/-- The other emitted classes whose static state a body touches: those of its
expressions in order of first use, then those of its assignments. -/
def staticInitTargets (p : Program) (owner : ClassName) (body : Body) : List ClassName :=
  let touched := body.stmt.expressions.filterMap (touchedBy p) ++
    body.stmt.substatements.filterMap (writtenBy p)
  (firstOccurrences touched).filter fun name =>
    name ≠ owner && (p.class? name).any (!·.isNative)
where
  /-- The names without those that have come before. -/
  firstOccurrences (names : List ClassName) : List ClassName :=
    names.foldl (fun known name => if name ∈ known then known else known ++ [name]) []

/-- The declaration of the locals of a body. -/
def declareLocals : List Binding → Doc
  | [] => .empty
  | locals =>
      statement ("var " ++ ", ".intercalate (locals.map fun b =>
        Script.variableName b.name ++ " = " ++ Script.constant b.type.zero))

/-- The document of a body: locals, the exception slot if there is a handler,
the static initialisers to force, and the statement. -/
def lowerBody (job : Job) (owner : ClassName) (method : Method) (body : Body) : Emit Doc := do
  let ctx : Context := { caller := ⟨owner, method.name, method.type⟩
                         returnsThis := method.returnsThis }
  let (stmt, _) ← (lowerStmt job ctx none body.stmt).run 0
  let targets := staticInitTargets job.program owner body
  return declareLocals body.locals ++
    (if body.hasTraps then statement ("var " ++ exceptionSlot ++ " = null") else .empty) ++
    Doc.lines (targets.map (·.staticInitCall)) ++ stmt

end ClassScript.Emission
