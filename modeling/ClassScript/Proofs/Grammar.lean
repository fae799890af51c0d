import ClassScript.Proofs.Tokens

/-!
Expressions of the script language, as its grammar derives them from tokens.
Each level of precedence has its own rules. A machine with a stack of unfinished
expressions follows every derivation, so a text is an expression in one way at
most.
-/

namespace ClassScript.Reading

open Script

/-- Expressions without assignment and without objects made on the spot. -/
inductive Tree where
  | number (value : Nat)
  | boolean (value : Bool)
  | reference (name : String)
  | member (object : Tree) (name : String)
  | call (callee : Tree) (args : List Tree)
  | unary (op : String) (operand : Tree)
  | binary (op : String) (left right : Tree)
  | conditional (cond yes no : Tree)

/-- The binary operators with their levels; a higher one binds more tightly. -/
def binarySigns : List (String × Nat) :=
  [("||", 1), ("&&", 2), ("|", 3), ("^", 4), ("&", 5),
   ("==", 6), ("!=", 6), ("===", 6), ("!==", 6), ("<", 7), (">", 7), ("<=", 7), (">=", 7),
   ("<<", 8), (">>", 8), (">>>", 8), ("+", 9), ("-", 9), ("*", 10), ("%", 10)]

def precedence? (op : String) : Option Nat :=
  binarySigns.lookup op

def unarySigns : List String := ["+", "-", "~", "!"]

/-- What is derived: an expression of a level, or the arguments of a call. -/
inductive Phrase where
  | expression (level : Nat) (tree : Tree)
  | arguments (trees : List Tree)

/-- The grammar. Level 0 has the conditional, 1 to 10 the binary operators, 11
the unary ones, and 12 names, members, calls and brackets. A number is at level
11, since a dot behind it would be read as its own. -/
inductive Derives : Phrase → List Token → Prop where
  | number (value : Nat) : Derives (.expression 11 (.number value)) [.number value]
  | boolean (value : Bool) :
      Derives (.expression 12 (.boolean value)) [.word (if value then "true" else "false")]
  | reference {name : String} (hname : name ∉ reservedWords) :
      Derives (.expression 12 (.reference name)) [.word name]
  | group {t : Tree} {ts : List Token} (h : Derives (.expression 0 t) ts) :
      Derives (.expression 12 t) (.sign "(" :: ts ++ [.sign ")"])
  | member {object : Tree} {name : String} {ts : List Token}
      (h : Derives (.expression 12 object) ts) :
      Derives (.expression 12 (.member object name)) (ts ++ [.sign ".", .word name])
  | callEmpty {callee : Tree} {ts : List Token} (h : Derives (.expression 12 callee) ts) :
      Derives (.expression 12 (.call callee [])) (ts ++ [.sign "(", .sign ")"])
  | call {callee : Tree} {args : List Tree} {ts us : List Token}
      (h : Derives (.expression 12 callee) ts) (hargs : Derives (.arguments args) us) :
      Derives (.expression 12 (.call callee args)) (ts ++ .sign "(" :: us ++ [.sign ")"])
  | argument {t : Tree} {ts : List Token} (h : Derives (.expression 0 t) ts) :
      Derives (.arguments [t]) ts
  | moreArguments {t : Tree} {args : List Tree} {ts us : List Token}
      (h : Derives (.expression 0 t) ts) (hargs : Derives (.arguments args) us) :
      Derives (.arguments (t :: args)) (ts ++ .sign "," :: us)
  | unary {op : String} {t : Tree} {ts : List Token} (hop : op ∈ unarySigns)
      (h : Derives (.expression 11 t) ts) :
      Derives (.expression 11 (.unary op t)) (.sign op :: ts)
  | binary {op : String} {level : Nat} {l r : Tree} {ls rs : List Token}
      (hop : precedence? op = some level) (hl : Derives (.expression level l) ls)
      (hr : Derives (.expression (level + 1) r) rs) :
      Derives (.expression level (.binary op l r)) (ls ++ .sign op :: rs)
  | conditional {c y n : Tree} {cs ys ns : List Token} (hc : Derives (.expression 1 c) cs)
      (hy : Derives (.expression 0 y) ys) (hn : Derives (.expression 0 n) ns) :
      Derives (.expression 0 (.conditional c y n)) (cs ++ .sign "?" :: ys ++ .sign ":" :: ns)
  | tighter {level : Nat} {t : Tree} {ts : List Token}
      (h : Derives (.expression (level + 1) t) ts) : Derives (.expression level t) ts

/-- The text is an expression with this tree. -/
def Reads (text : String) (t : Tree) : Prop :=
  ∃ ts, tokens? text = some ts ∧ Derives (.expression 0 t) ts

/-- An expression that lacks its last operand or its closing bracket. -/
inductive Frame where
  | unary (op : String)
  | binary (op : String) (left : Tree)
  | group
  | call (callee : Tree) (done : List Tree)
  | yes (cond : Tree)
  | no (cond yes : Tree)

/-- Finishes the frames that an operator of that level ends. -/
def settle (level : Nat) : List Frame → Tree → List Frame × Tree
  | .unary op :: stack, t =>
      if level ≤ 11 then settle level stack (.unary op t) else (.unary op :: stack, t)
  | .binary op l :: stack, t =>
      if (precedence? op).any (level ≤ ·) then settle level stack (.binary op l t)
      else (.binary op l :: stack, t)
  | .no c y :: stack, t =>
      if level = 0 then settle level stack (.conditional c y t) else (.no c y :: stack, t)
  | stack, t => (stack, t)

/-- Where the machine stands: before an operand, behind one, or behind a dot. -/
inductive Mode where
  | expecting (stack : List Frame)
  | having (stack : List Frame) (t : Tree)
  | selecting (stack : List Frame) (t : Tree)

/-- The machine before an operand. -/
def startOperand (stack : List Frame) : Token → Option Mode
  | .number value => some (.having stack (.number value))
  | .word name =>
      if name = "true" then some (.having stack (.boolean true))
      else if name = "false" then some (.having stack (.boolean false))
      else some (.having stack (.reference name))
  | .sign op =>
      if op = "(" then some (.expecting (.group :: stack))
      else if op = ")" then
        match stack with
        | .call callee [] :: stack => some (.having stack (.call callee []))
        | _ => none
      else if op ∈ unarySigns then some (.expecting (.unary op :: stack))
      else none

/-- The machine before a closing bracket. -/
def close : List Frame × Tree → Option Mode
  | (.group :: stack, t) => some (.having stack t)
  | (.call callee done :: stack, t) => some (.having stack (.call callee (done ++ [t])))
  | _ => none

/-- The machine before a comma. -/
def nextArgument : List Frame × Tree → Option Mode
  | (.call callee done :: stack, t) => some (.expecting (.call callee (done ++ [t]) :: stack))
  | _ => none

/-- The machine before a colon. -/
def nextBranch : List Frame × Tree → Option Mode
  | (.yes c :: stack, t) => some (.expecting (.no c t :: stack))
  | _ => none

/-- The machine behind an operand. -/
def endOperand (stack : List Frame) (t : Tree) : Token → Option Mode
  | .sign op =>
      if op = "." then some (.selecting stack t)
      else if op = "(" then some (.expecting (.call t [] :: stack))
      else if op = ")" then close (settle 0 stack t)
      else if op = "," then nextArgument (settle 0 stack t)
      else if op = "?" then
        some (.expecting (.yes (settle 1 stack t).2 :: (settle 1 stack t).1))
      else if op = ":" then nextBranch (settle 0 stack t)
      else do
        let level ← precedence? op
        return .expecting (.binary op (settle level stack t).2 :: (settle level stack t).1)
  | _ => none

def step : Mode → Token → Option Mode
  | .expecting stack, token => startOperand stack token
  | .having stack t, token => endOperand stack t token
  | .selecting stack t, .word name => some (.having stack (.member t name))
  | .selecting _ _, _ => none

def run (mode : Mode) (ts : List Token) : Option Mode :=
  ts.foldlM step mode

theorem run_cons (mode : Mode) (token : Token) (rest : List Token) :
    run mode (token :: rest) = (step mode token).bind fun next => run next rest := rfl

theorem run_append (mode : Mode) (ts us : List Token) :
    run mode (ts ++ us) = (run mode ts).bind fun next => run next us := by
  simp [run]

theorem precedence?_bounds {op : String} {level : Nat} (h : precedence? op = some level) :
    1 ≤ level ∧ level ≤ 10 := by
  obtain ⟨front, back, hsplit, _⟩ := List.lookup_eq_some_iff.1 h
  have hmem : (op, level) ∈ binarySigns := hsplit ▸ by simp
  have hall : ∀ entry ∈ binarySigns, 1 ≤ entry.2 ∧ entry.2 ≤ 10 := by decide
  exact hall _ hmem

/-- Finishing less first does not change what is finished in the end. -/
theorem settle_settle {low high : Nat} (hle : low ≤ high) (stack : List Frame) (t : Tree) :
    settle low (settle high stack t).1 (settle high stack t).2 = settle low stack t := by
  fun_induction settle high stack t with
  | case1 op stack t hlevel ih =>
      have hlow : low ≤ 11 := by omega
      rw [ih, settle, if_pos hlow]
  | case2 => rfl
  | case3 op l stack t hlevel ih =>
      have hlow : (precedence? op).any (low ≤ ·) = true := by
        rw [Option.any_eq_true] at hlevel ⊢
        obtain ⟨level, hop, hhigh⟩ := hlevel
        exact ⟨level, hop, by simp only [decide_eq_true_eq] at hhigh ⊢; omega⟩
      rw [ih, settle, if_pos hlow]
  | case4 => rfl
  | case5 c y stack t hlevel ih =>
      obtain rfl : low = 0 := by omega
      rw [ih, settle, if_pos rfl]
  | case6 => rfl
  | case7 => rfl

theorem settle_mono {low high : Nat} (hle : low ≤ high) {stack stack' : List Frame} {t t' : Tree}
    (h : settle high stack t = settle high stack' t') : settle low stack t = settle low stack' t' := by
  rw [← settle_settle hle stack t, h, settle_settle hle]

/-- At the level of names and calls nothing is finished. -/
theorem settle_tightest (stack : List Frame) (t : Tree) : settle 12 stack t = (stack, t) := by
  match stack with
  | [] => rfl
  | .unary _ :: rest => rfl
  | .binary op _ :: rest =>
      have hlevel : (precedence? op).any (12 ≤ ·) = false := by
        rw [Option.any_eq_false]
        intro level hop
        have hbounds := precedence?_bounds hop
        simp only [decide_eq_false_iff_not]
        omega
      rw [settle, hlevel]
      rfl
  | .group :: rest => rfl
  | .call _ _ :: rest => rfl
  | .yes _ :: rest => rfl
  | .no _ _ :: rest => rfl

theorem endOperand_binary {op : String} {level : Nat} (hop : precedence? op = some level)
    (stack : List Frame) (t : Tree) :
    endOperand stack t (.sign op) =
      some (.expecting (.binary op (settle level stack t).2 :: (settle level stack t).1)) := by
  have hnone : ∀ s ∈ [".", "(", ")", ",", "?", ":"], precedence? s = none := by decide
  have hother : ∀ s ∈ [".", "(", ")", ",", "?", ":"], op ≠ s := by
    rintro s hs rfl
    simp [hnone op hs] at hop
  simp only [List.mem_cons, List.not_mem_nil, or_false, forall_eq_or_imp, forall_eq] at hother
  simp [endOperand, hother, hop]

/-- Operators that bind more tightly than a level leave the stack alone. -/
def Ready (level : Nat) (stack : List Frame) : Prop :=
  ∀ k, 1 ≤ k → level ≤ k → k ≤ 10 → ∀ t, settle k stack t = (stack, t)

/-- How the machine takes a phrase: it comes to stand behind an operand, and
what is unfinished then is the phrase, as operators of its level will show. -/
def Followed : Phrase → List Token → Prop
  | .expression level t, ts => ∀ stack, Ready level stack → ∃ stack' t',
      run (.expecting stack) ts = some (.having stack' t') ∧
        settle level stack' t' = settle level stack t
  | .arguments trees, ts => ∀ stack callee done, ∃ stack' t' front last,
      trees = front ++ [last] ∧
        run (.expecting (.call callee done :: stack)) ts = some (.having stack' t') ∧
        settle 0 stack' t' = (.call callee (done ++ front) :: stack, last)

theorem Followed.tightest {t : Tree} {ts : List Token} (h : Followed (.expression 12 t) ts)
    (stack : List Frame) : run (.expecting stack) ts = some (.having stack t) := by
  have hready : Ready 12 stack := fun k _ hlow hhigh => by omega
  obtain ⟨stack', t', hrun, hsettle⟩ := h stack hready
  rw [settle_tightest, settle_tightest, Prod.mk.injEq] at hsettle
  rw [hrun, hsettle.1, hsettle.2]

theorem followed_of_having {t : Tree} {ts : List Token} {level : Nat}
    (h : ∀ stack, run (.expecting stack) ts = some (.having stack t)) :
    Followed (.expression level t) ts :=
  fun stack _ => ⟨stack, t, h stack, rfl⟩

/-- In brackets and between the parts of a conditional an expression is taken
whole. -/
theorem Followed.whole {t : Tree} {ts : List Token} (h : Followed (.expression 0 t) ts)
    (stack : List Frame) (hstack : ∀ k t, settle k stack t = (stack, t)) :
    ∃ stack' t', run (.expecting stack) ts = some (.having stack' t') ∧
      settle 0 stack' t' = (stack, t) := by
  obtain ⟨stack', t', hrun, hsettle⟩ := h stack fun k _ _ _ => hstack k
  exact ⟨stack', t', hrun, hsettle.trans (hstack 0 t)⟩

section Cases

variable {t u callee : Tree} {args : List Tree} {ts us : List Token} {level : Nat}

theorem Followed.reference {name : String} (hname : name ∉ reservedWords) :
    Followed (.expression 12 (.reference name)) [.word name] := by
  have htrue : name ≠ "true" := fun h => hname (h ▸ by decide)
  have hfalse : name ≠ "false" := fun h => hname (h ▸ by decide)
  apply followed_of_having
  intro stack
  simp [run, step, startOperand, htrue, hfalse]

theorem Followed.group (h : Followed (.expression 0 t) ts) :
    Followed (.expression 12 t) (.sign "(" :: ts ++ [.sign ")"]) := by
  apply followed_of_having
  intro stack
  obtain ⟨stack', t', hrun, hsettle⟩ := h.whole (.group :: stack) fun _ _ => rfl
  have hopen : step (.expecting stack) (.sign "(") = some (.expecting (.group :: stack)) := rfl
  have hclose : step (.having stack' t') (.sign ")") = some (.having stack t) := by
    simp [step, endOperand, hsettle, close]
  rw [List.cons_append, run_cons, hopen, Option.bind_some, run_append, hrun, Option.bind_some,
    run_cons, hclose]
  rfl

theorem Followed.member (h : Followed (.expression 12 t) ts) (name : String) :
    Followed (.expression 12 (.member t name)) (ts ++ [.sign ".", .word name]) := by
  apply followed_of_having
  intro stack
  rw [run_append, h.tightest, Option.bind_some]
  rfl

theorem Followed.callEmpty (h : Followed (.expression 12 callee) ts) :
    Followed (.expression 12 (.call callee [])) (ts ++ [.sign "(", .sign ")"]) := by
  apply followed_of_having
  intro stack
  rw [run_append, h.tightest, Option.bind_some]
  rfl

theorem Followed.call (h : Followed (.expression 12 callee) ts)
    (hargs : Followed (.arguments args) us) :
    Followed (.expression 12 (.call callee args)) (ts ++ .sign "(" :: us ++ [.sign ")"]) := by
  apply followed_of_having
  intro stack
  obtain ⟨stack', t', front, last, rfl, hrun, hsettle⟩ := hargs stack callee []
  have hopen : step (.having stack callee) (.sign "(") =
      some (.expecting (.call callee [] :: stack)) := rfl
  have hclose : step (.having stack' t') (.sign ")") =
      some (.having stack (.call callee (front ++ [last]))) := by
    simp [step, endOperand, hsettle, close]
  rw [List.append_assoc, run_append, h.tightest, Option.bind_some, List.cons_append, run_cons,
    hopen, Option.bind_some, run_append, hrun, Option.bind_some, run_cons, hclose]
  rfl

theorem Followed.argument (h : Followed (.expression 0 t) ts) : Followed (.arguments [t]) ts := by
  intro stack callee done
  obtain ⟨stack', t', hrun, hsettle⟩ := h.whole (.call callee done :: stack) fun _ _ => rfl
  exact ⟨stack', t', [], t, rfl, hrun, by rw [hsettle, List.append_nil]⟩

theorem Followed.moreArguments (h : Followed (.expression 0 t) ts)
    (hargs : Followed (.arguments args) us) :
    Followed (.arguments (t :: args)) (ts ++ .sign "," :: us) := by
  intro stack callee done
  obtain ⟨stack', t', hrun, hsettle⟩ := h.whole (.call callee done :: stack) fun _ _ => rfl
  obtain ⟨stack'', t'', front, last, rfl, hrun', hsettle'⟩ := hargs stack callee (done ++ [t])
  have hcomma : step (.having stack' t') (.sign ",") =
      some (.expecting (.call callee (done ++ [t]) :: stack)) := by
    simp [step, endOperand, hsettle, nextArgument]
  refine ⟨stack'', t'', t :: front, last, rfl, ?_, ?_⟩
  · rw [run_append, hrun, Option.bind_some, run_cons, hcomma, Option.bind_some, hrun']
  · rw [hsettle', List.append_assoc, List.singleton_append]

theorem Followed.unary {op : String} (hop : op ∈ unarySigns) (h : Followed (.expression 11 t) ts) :
    Followed (.expression 11 (.unary op t)) (.sign op :: ts) := by
  intro stack _
  have hready : Ready 11 (.unary op :: stack) := by
    intro k _ hlow hhigh
    omega
  obtain ⟨stack', t', hrun, hsettle⟩ := h (.unary op :: stack) hready
  have hopen : step (.expecting stack) (.sign op) = some (.expecting (.unary op :: stack)) := by
    have hsigns : ∀ s ∈ unarySigns, s ≠ "(" ∧ s ≠ ")" := by decide
    simp [step, startOperand, hsigns op hop, hop]
  refine ⟨stack', t', ?_, hsettle⟩
  rw [run_cons, hopen, Option.bind_some, hrun]

/-- The left operand is settled by the operator; the right one may not hold
another operator of that level. -/
theorem Followed.binary {op : String} (hop : precedence? op = some level)
    (hl : Followed (.expression level t) ts) (hr : Followed (.expression (level + 1) u) us) :
    Followed (.expression level (.binary op t u)) (ts ++ .sign op :: us) := by
  intro stack hstack
  obtain ⟨hpositive, hbound⟩ := precedence?_bounds hop
  obtain ⟨stack', t', hrun, hsettle⟩ := hl stack hstack
  rw [hstack level hpositive (Nat.le_refl _) hbound] at hsettle
  have hready : Ready (level + 1) (.binary op t :: stack) := by
    intro k _ hlow _ t
    have hkeep : (precedence? op).any (k ≤ ·) = false := by
      simp only [hop, Option.any_some, decide_eq_false_iff_not]
      omega
    rw [settle, hkeep]
    rfl
  obtain ⟨stack'', t'', hrun', hsettle'⟩ := hr (.binary op t :: stack) hready
  have hsign : step (.having stack' t') (.sign op) =
      some (.expecting (.binary op t :: stack)) := by
    rw [step, endOperand_binary hop, hsettle]
  refine ⟨stack'', t'', ?_, ?_⟩
  · rw [run_append, hrun, Option.bind_some, run_cons, hsign, Option.bind_some, hrun']
  · have hfinish : (precedence? op).any (level ≤ ·) = true := by simp [hop]
    rw [settle_mono (Nat.le_succ level) hsettle', settle, if_pos hfinish]

theorem Followed.conditional {c y n : Tree} {cs ys ns : List Token}
    (hc : Followed (.expression 1 c) cs) (hy : Followed (.expression 0 y) ys)
    (hn : Followed (.expression 0 n) ns) :
    Followed (.expression 0 (.conditional c y n)) (cs ++ .sign "?" :: ys ++ .sign ":" :: ns) := by
  intro stack hstack
  have hready : Ready 1 stack := fun k hpositive _ => hstack k hpositive (Nat.zero_le k)
  obtain ⟨stack₁, t₁, hrun₁, hsettle₁⟩ := hc stack hready
  rw [hready 1 (Nat.le_refl _) (Nat.le_refl _) (by omega)] at hsettle₁
  obtain ⟨stack₂, t₂, hrun₂, hsettle₂⟩ := hy.whole (.yes c :: stack) fun _ _ => rfl
  have hready' : Ready 0 (.no c y :: stack) := by
    intro k hpositive _ _ t
    rw [settle, if_neg (by omega)]
  obtain ⟨stack₃, t₃, hrun₃, hsettle₃⟩ := hn (.no c y :: stack) hready'
  have hquestion : step (.having stack₁ t₁) (.sign "?") =
      some (.expecting (.yes c :: stack)) := by
    simp [step, endOperand, hsettle₁]
  have hcolon : step (.having stack₂ t₂) (.sign ":") =
      some (.expecting (.no c y :: stack)) := by
    simp [step, endOperand, hsettle₂, nextBranch]
  refine ⟨stack₃, t₃, ?_, hsettle₃⟩
  rw [List.append_assoc, run_append, hrun₁, Option.bind_some, List.cons_append, run_cons,
    hquestion, Option.bind_some, run_append, hrun₂, Option.bind_some, run_cons, hcolon,
    Option.bind_some, hrun₃]

theorem Followed.tighter (h : Followed (.expression (level + 1) t) ts) :
    Followed (.expression level t) ts := by
  intro stack hstack
  have hready : Ready (level + 1) stack := fun k hpositive hlow =>
    hstack k hpositive (by omega)
  obtain ⟨stack', t', hrun, hsettle⟩ := h stack hready
  exact ⟨stack', t', hrun, settle_mono (Nat.le_succ level) hsettle⟩

end Cases

/-- The machine follows every derivation. -/
theorem Derives.followed {phrase : Phrase} {ts : List Token} (h : Derives phrase ts) :
    Followed phrase ts := by
  induction h with
  | number value => exact followed_of_having fun stack => rfl
  | boolean value =>
      apply followed_of_having
      intro stack
      cases value <;> rfl
  | reference hname => exact .reference hname
  | group _ ih => exact ih.group
  | member _ ih => exact ih.member _
  | callEmpty _ ih => exact ih.callEmpty
  | call _ _ ih ihargs => exact ih.call ihargs
  | argument _ ih => exact ih.argument
  | moreArguments _ _ ih ihargs => exact ih.moreArguments ihargs
  | unary hop _ ih => exact ih.unary hop
  | binary hop _ _ ihl ihr => exact .binary hop ihl ihr
  | conditional _ _ _ ihc ihy ihn => exact ihc.conditional ihy ihn
  | tighter _ ih => exact ih.tighter

/-- Tokens are an expression in one way at most. -/
theorem Derives.unique {t u : Tree} {ts : List Token} (ht : Derives (.expression 0 t) ts)
    (hu : Derives (.expression 0 u) ts) : t = u := by
  obtain ⟨stack, t', hrun, hsettle⟩ := ht.followed.whole [] fun _ _ => rfl
  obtain ⟨stack', u', hrun', hsettle'⟩ := hu.followed.whole [] fun _ _ => rfl
  rw [hrun, Option.some.injEq, Mode.having.injEq] at hrun'
  obtain ⟨rfl, rfl⟩ := hrun'
  rw [hsettle] at hsettle'
  exact (Prod.mk.inj hsettle').2

theorem Reads.unique {text : String} {t u : Tree} (ht : Reads text t) (hu : Reads text u) :
    t = u := by
  obtain ⟨ts, hts, ht⟩ := ht
  obtain ⟨us, hus, hu⟩ := hu
  obtain rfl : ts = us := Option.some.inj (hts.symm.trans hus)
  exact ht.unique hu

end ClassScript.Reading
