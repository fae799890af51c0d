import ClassScript.Proofs.LeafText
import ClassScript.Proofs.WordArithmetic

/-!
The texts made for operations on integers and booleans, and what they denote: a
text denotes a value when it is an operand that the script language gives this
value.
-/

namespace ClassScript.Integers

open Reading Script

section Evaluation

variable {runtime : Runtime} {scope : Scope}

theorem eval_binary {op : String} (hand : op ≠ "&&") (hor : op ≠ "||") {l r : Tree} {v w : Value}
    (hl : eval runtime scope l = some v) (hr : eval runtime scope r = some w) :
    eval runtime scope (.binary op l r) = Value.binary? op v w := by
  simp [eval, hl, hr, hand, hor]

theorem eval_unary {op : String} {t : Tree} {v : Value} (h : eval runtime scope t = some v) :
    eval runtime scope (.unary op t) = v.unary? op := by
  simp [eval, h]

theorem eval_number {n : Nat} (h : n < 2 ^ 53) :
    eval runtime scope (.number n) = some (.number n) := by
  rw [eval, Value.ofInt?_of_lt (by rwa [Int.natAbs_natCast])]

/-- Taking the low 32 bits. -/
theorem eval_orZero {t : Tree} {v : Value} (h : eval runtime scope t = some v) :
    eval runtime scope (.binary "|" t (.number 0)) = some (.signed v.word) := by
  rw [eval_binary (by decide) (by decide) h (eval_number (by decide))]
  have hzero : (Value.number 0).word = 0#32 := by decide
  simp [Value.binary?, hzero]

/-- Text that is an expression with this value. -/
def Denotes (runtime : Runtime) (scope : Scope) (text : String) (d : Datum) : Prop :=
  ∃ t, Operand text t ∧ eval runtime scope t = some d.value

variable {left right text : String} {l r v : Int32}

theorem Denotes.orZero {t : Tree} {w : Value} {d : Int32} (ht : Operand text t)
    (hv : eval runtime scope t = some w) (hw : w.word = d.toBitVec) :
    Denotes runtime scope ("(" ++ text ++ "|0)") (.int d) := by
  have hop : precedence? "|" = some 3 := by decide
  have hpiece : Piece "|0)" [.sign "|", .number 0, .sign ")"] := by decide
  refine ⟨_, ht.withNumber hop hpiece, ?_⟩
  rw [eval_orZero hv, hw]
  rfl

/-- A binary operator that always needs both operands. -/
def Strict (op : String) : Prop :=
  Groups op ∧ op ≠ "&&" ∧ op ≠ "||"

instance (op : String) : Decidable (Strict op) :=
  inferInstanceAs (Decidable (_ ∧ _))

/-- Operators on two values that stand between them in brackets. -/
theorem Denotes.grouped {op : String} {a b d : Datum} (hop : Strict op)
    (hl : Denotes runtime scope left a) (hr : Denotes runtime scope right b)
    (hd : Value.binary? op a.value b.value = some d.value) :
    Denotes runtime scope (Operator.grouped op left right) d := by
  obtain ⟨tl, hleft, hl⟩ := hl
  obtain ⟨tr, hright, hr⟩ := hr
  obtain ⟨hgroups, hand, hor⟩ := hop
  exact ⟨_, hleft.grouped hgroups hright, (eval_binary hand hor hl hr).trans hd⟩

/-- The same where the low bits of the result are taken. -/
theorem Denotes.groupedLow {op : String} {w : Value} {d : Int32} (hop : Strict op)
    (hl : Denotes runtime scope left (.int l)) (hr : Denotes runtime scope right (.int r))
    (hw : Value.binary? op (Datum.int l).value (Datum.int r).value = some w)
    (hd : w.word = d.toBitVec) :
    Denotes runtime scope ("(" ++ Operator.grouped op left right ++ "|0)") (.int d) := by
  obtain ⟨tl, hleft, hl⟩ := hl
  obtain ⟨tr, hright, hr⟩ := hr
  obtain ⟨hgroups, hand, hor⟩ := hop
  exact Denotes.orZero (hleft.grouped hgroups hright) ((eval_binary hand hor hl hr).trans hw) hd

theorem Denotes.product (hmath : scope.lookup "Math" = none)
    (hl : Denotes runtime scope left (.int l)) (hr : Denotes runtime scope right (.int r)) :
    Denotes runtime scope (Operator.intMul left right) (.int (l * r)) := by
  obtain ⟨tl, hleft, hl⟩ := hl
  obtain ⟨tr, hright, hr⟩ := hr
  have hbefore : closedTokens? "Math.imul(".toList =
      some [.word "Math", .sign ".", .word "imul", .sign "("] := by decide
  refine ⟨_, hleft.call₂ (by decide) hbefore hright, ?_⟩
  have hcall : eval runtime scope (.call (.member (.reference "Math") "imul") [tl, tr]) =
      some (.imul (Datum.int l).value (Datum.int r).value) := by
    simp [eval, evalAll, hl, hr, callValue, hmath]
  rw [hcall, Value.imul, word_int, word_int]
  rfl

/-- An operator on integers has the value of its script text. -/
theorem Denotes.intBinary {op : BinaryOp} {d : Datum} (hmath : scope.lookup "Math" = none)
    (hd : intBinary? l r op = some d) (hl : Denotes runtime scope left (.int l))
    (hr : Denotes runtime scope right (.int r)) :
    ∃ out, Script.binary? op .int left right = some out ∧ Denotes runtime scope out d := by
  cases op <;> simp only [intBinary?, Option.some.injEq, reduceCtorEq] at hd <;> subst hd <;>
    refine ⟨_, rfl, ?_⟩
  case add =>
      obtain ⟨w, hw, hbits⟩ := add_int l r
      exact .groupedLow (by decide) hl hr hw hbits
  case sub =>
      obtain ⟨w, hw, hbits⟩ := sub_int l r
      exact .groupedLow (by decide) hl hr hw hbits
  case mul => exact .product hmath hl hr
  case ushr =>
      have hw : Value.binary? ">>>" (Datum.int l).value (Datum.int r).value =
          some (.unsigned (l.toBitVec >>> distance r)) := by
        simp [Value.binary?]
      exact .groupedLow (by decide) hl hr hw (word_unsigned _)
  case and | or | xor | shl | shr =>
      refine .grouped (by decide) hl hr ?_
      simp only [Value.binary?, reduceIte, String.reduceEq, word_int, distance_int]
      rfl
  all_goals
    refine .grouped (by decide) hl hr ?_
    simp only [Value.binary?, reduceIte, String.reduceEq]
    refine congrArg (fun b => some (Value.boolean b)) (decide_eq_decide.2 ?_)
    simp only [integer_int, Int32.lt_iff_toInt_lt, Int32.le_iff_toInt_le, ne_eq, ← Int32.toInt_inj]

/-- Two negations make a boolean of what an operator on booleans gives. -/
theorem Denotes.truth {op : String} {a b d : Bool} {w : Value} (hop : Strict op)
    (hl : Denotes runtime scope left (.bool a)) (hr : Denotes runtime scope right (.bool b))
    (hw : Value.binary? op (.boolean a) (.boolean b) = some w) (hd : w.truthy = d) :
    Denotes runtime scope ("!!" ++ Operator.grouped op left right) (.bool d) := by
  obtain ⟨tl, hleft, hl⟩ := hl
  obtain ⟨tr, hright, hr⟩ := hr
  obtain ⟨hgroups, hand, hor⟩ := hop
  refine ⟨_, hleft.truth hgroups hright, ?_⟩
  have hinner := (eval_binary hand hor hl hr).trans hw
  have hnot : eval runtime scope (.unary "!" (.binary op tl tr)) = some (.boolean !d) := by
    simp [eval_unary hinner, Value.unary?, hd]
  simp [eval_unary hnot, Value.unary?, Value.truthy, Datum.value]

/-- An operator on booleans has the value of its script text. -/
theorem Denotes.boolBinary {op : BinaryOp} {a b : Bool} {d : Datum}
    (hd : boolBinary? a b op = some d) (hl : Denotes runtime scope left (.bool a))
    (hr : Denotes runtime scope right (.bool b)) :
    ∃ out, Script.binary? op .bool left right = some out ∧ Denotes runtime scope out d := by
  cases op <;> simp only [boolBinary?, Option.some.injEq, reduceCtorEq] at hd <;> subst hd <;>
    refine ⟨_, rfl, ?_⟩
  case eq | ne =>
      refine .grouped (by decide) hl hr ?_
      cases a <;> cases b <;> rfl
  case and | or | xor =>
      refine .truth (by decide) hl hr rfl ?_
      cases a <;> cases b <;> decide
  case boolAnd | boolOr =>
      obtain ⟨tl, hleft, hl⟩ := hl
      obtain ⟨tr, hright, hr⟩ := hr
      refine ⟨_, hleft.grouped (by decide) hright, ?_⟩
      cases a <;> simp [eval, hl, hr, Datum.value, Value.truthy]

theorem Denotes.neg (h : Denotes runtime scope text (.int v)) :
    Denotes runtime scope (Operator.intNeg text) (.int (-v)) := by
  obtain ⟨t, htext, hv⟩ := h
  have hop : "-" ∈ unarySigns := by decide
  have hbefore : closedTokens? "-(".toList = some [.sign "-", .sign "("] := by decide
  have heval : eval runtime scope (.unary "-" t) = some (Datum.int v).value.negate := by
    simp [eval_unary hv, Value.unary?]
  have hbits : (Datum.int v).value.negate.word = (-v).toBitVec := by
    rw [word_negate, word_int, Int32.toBitVec_neg]
  have hshape : Operator.intNeg text = "(" ++ ("-(" ++ text ++ ")") ++ "|0)" := by
    simp [Operator.intNeg, ← String.toList_inj]
  rw [hshape]
  exact Denotes.orZero (htext.unary hop hbefore) heval hbits

theorem Denotes.inv (h : Denotes runtime scope text (.int v)) :
    Denotes runtime scope (Operator.intInv text) (.int (~~~v)) := by
  obtain ⟨t, htext, hv⟩ := h
  have hop : "~" ∈ unarySigns := by decide
  have hbefore : closedTokens? "~(".toList = some [.sign "~", .sign "("] := by decide
  refine ⟨.unary "~" t, htext.unary hop hbefore, ?_⟩
  rw [eval_unary hv, Value.unary?]
  simp only [reduceIte, String.reduceEq, word_int]
  rfl

theorem Denotes.not {b : Bool} (h : Denotes runtime scope text (.bool b)) :
    Denotes runtime scope (Operator.boolNot text) (.bool !b) := by
  obtain ⟨t, htext, hv⟩ := h
  have hop : "!" ∈ unarySigns := by decide
  have hbefore : closedTokens? "!(".toList = some [.sign "!", .sign "("] := by decide
  refine ⟨.unary "!" t, htext.unary hop hbefore, ?_⟩
  rw [eval_unary hv, Value.unary?]
  simp [Value.truthy, Datum.value]

theorem Denotes.toBool (h : Denotes runtime scope text (.int v)) :
    Denotes runtime scope (Convert.intToBool text) (.bool (v ≠ 0)) := by
  obtain ⟨t, htext, hv⟩ := h
  have hop : precedence? "!=" = some 6 := by decide
  have hpiece : Piece "!=0)" [.sign "!=", .number 0, .sign ")"] := by decide
  have hshape : Convert.intToBool text = "(" ++ ("(" ++ text ++ ")") ++ "!=0)" := by
    simp [Convert.intToBool, ← String.toList_inj]
  have hzero : v.toInt ≠ 0 ↔ v ≠ 0 := by simp [← Int32.toInt_inj]
  rw [hshape]
  refine ⟨_, htext.group.withNumber hop hpiece, ?_⟩
  rw [eval_binary (by decide) (by decide) hv (eval_number (by decide))]
  simp only [Value.binary?, reduceIte, String.reduceEq]
  exact congrArg (fun b => some (Value.boolean b)) (decide_eq_decide.2 hzero)

/-- Shifting left and right again by one distance. -/
theorem Denotes.shifts {after : String} {n : Nat} (hn : n < 32)
    (hpiece : Piece after [.sign "<<", .number n, .sign ">>", .number n, .sign ")"])
    (h : Denotes runtime scope text (.int v)) :
    Denotes runtime scope ("(" ++ ("(" ++ text ++ ")") ++ after)
      (.int (.ofBitVec ((v.toBitVec <<< n).sshiftRight n))) := by
  obtain ⟨t, htext, hv⟩ := h
  have hleft : precedence? "<<" = some 8 := by decide
  have hright : precedence? ">>" = some 8 := by decide
  have hdistance : (Value.number n).distance = n := by
    simp only [Value.distance, Value.word, Value.integer, BitVec.ofInt_natCast, BitVec.toNat_ofNat]
    omega
  have hnumber : eval runtime scope (.number n) = some (.number n) := eval_number (by omega)
  have hfirst : eval runtime scope (.binary "<<" t (.number n)) =
      some (.signed (v.toBitVec <<< n)) := by
    rw [eval_binary (by decide) (by decide) hv hnumber]
    simp only [Value.binary?, reduceIte, String.reduceEq, word_int, hdistance]
  refine ⟨_, htext.group.withNumbers hleft hright hpiece, ?_⟩
  rw [eval_binary (by decide) (by decide) hfirst hnumber]
  simp only [Value.binary?, reduceIte, String.reduceEq, word_signed, hdistance]
  rfl

theorem Denotes.toByte (h : Denotes runtime scope text (.int v)) :
    Denotes runtime scope (Convert.intToByte text) (.int v.toInt8.toInt32) := by
  have hpiece : Piece "<<24>>24)" [.sign "<<", .number 24, .sign ">>", .number 24, .sign ")"] := by
    decide
  have hshape : Convert.intToByte text = "(" ++ ("(" ++ text ++ ")") ++ "<<24>>24)" := by
    simp [Convert.intToByte, ← String.toList_inj]
  have hbits : Int32.ofBitVec ((v.toBitVec <<< 24).sshiftRight 24) = v.toInt8.toInt32 :=
    congrArg Int32.ofBitVec (shift_signExtend v.toBitVec 8 (by omega) (by omega))
  rw [hshape, ← hbits]
  exact h.shifts (by omega) hpiece

theorem Denotes.toShort (h : Denotes runtime scope text (.int v)) :
    Denotes runtime scope (Convert.intToShort text) (.int v.toInt16.toInt32) := by
  have hpiece : Piece "<<16>>16)" [.sign "<<", .number 16, .sign ">>", .number 16, .sign ")"] := by
    decide
  have hshape : Convert.intToShort text = "(" ++ ("(" ++ text ++ ")") ++ "<<16>>16)" := by
    simp [Convert.intToShort, ← String.toList_inj]
  have hbits : Int32.ofBitVec ((v.toBitVec <<< 16).sshiftRight 16) = v.toInt16.toInt32 :=
    congrArg Int32.ofBitVec (shift_signExtend v.toBitVec 16 (by omega) (by omega))
  rw [hshape, ← hbits]
  exact h.shifts (by omega) hpiece

theorem Denotes.toChar (h : Denotes runtime scope text (.int v)) :
    Denotes runtime scope (Convert.intToChar text) (.int (unit ⟨v.toBitVec.setWidth 16⟩)) := by
  obtain ⟨t, htext, hv⟩ := h
  have hop : precedence? "&" = some 5 := by decide
  have hpiece : Piece "&0xFFFF)" [.sign "&", .number 65535, .sign ")"] := by decide
  have hshape : Convert.intToChar text = "(" ++ ("(" ++ text ++ ")") ++ "&0xFFFF)" := by
    simp [Convert.intToChar, ← String.toList_inj]
  rw [hshape]
  refine ⟨_, htext.group.withNumber hop hpiece, ?_⟩
  rw [eval_binary (by decide) (by decide) hv (eval_number (by decide))]
  simp only [Value.binary?, reduceIte, String.reduceEq, word_int]
  exact congrArg (fun bits => some (Value.signed bits)) (and_mask v.toBitVec)

theorem Denotes.toInt (h : Denotes runtime scope text (.int v)) :
    Denotes runtime scope (Convert.int text) (.int v) := by
  obtain ⟨t, htext, hv⟩ := h
  have hshape : Convert.int text = "(" ++ ("(" ++ text ++ ")") ++ "|0)" := by
    simp [Convert.int, ← String.toList_inj]
  rw [hshape]
  exact Denotes.orZero htext.group hv (word_int v)

theorem Denotes.boolToInt {b : Bool} {d : Datum} (hruntime : CountsBooleans runtime)
    (hglobal : scope.lookup "N" = none) (h : Denotes runtime scope text (.bool b))
    (hd : d.value = .number (if b then 1 else 0)) :
    Denotes runtime scope (Convert.boolToInt text) d := by
  obtain ⟨t, htext, hv⟩ := h
  have hbefore : closedTokens? "N.z2i(".toList =
      some [.word "N", .sign ".", .word "z2i", .sign "("] := by decide
  refine ⟨_, htext.call (by decide) hbefore, ?_⟩
  have hvalue : (Datum.bool b).value = .boolean b := rfl
  simp [eval, evalAll, hv, callValue, hglobal, hvalue, hruntime b, hd]

theorem exists_convertInteger {source target : Ty} (text : String) (v : Int32)
    (hsource : source ∈ [.byte, .char, .short, .int]) (htarget : isIntegral target) :
    ∃ out d, Script.convert? source target text = some out ∧
      (Datum.int v).convert? target = some d ∧ d.kind = target.kind ∧
      (Denotes runtime scope text (.int v) → Denotes runtime scope out d) := by
  simp only [isIntegral, List.mem_cons, List.not_mem_nil, or_false, decide_eq_true_eq]
    at hsource htarget
  rcases htarget with rfl | rfl | rfl | rfl | rfl
  · exact ⟨_, _, by rcases hsource with rfl | rfl | rfl | rfl <;> rfl, rfl, rfl, (·.toBool)⟩
  · exact ⟨_, _, by rcases hsource with rfl | rfl | rfl | rfl <;> rfl, rfl, rfl, (·.toByte)⟩
  · exact ⟨_, _, by rcases hsource with rfl | rfl | rfl | rfl <;> rfl, rfl, rfl, (·.toChar)⟩
  · exact ⟨_, _, by rcases hsource with rfl | rfl | rfl | rfl <;> rfl, rfl, rfl, (·.toShort)⟩
  · exact ⟨_, _, by rcases hsource with rfl | rfl | rfl | rfl <;> rfl, rfl, rfl, (·.toInt)⟩

theorem exists_convertBoolean {target : Ty} (text : String) (b : Bool)
    (hruntime : CountsBooleans runtime) (hglobal : scope.lookup "N" = none)
    (htarget : isIntegral target) :
    ∃ out d, Script.convert? .bool target text = some out ∧
      (Datum.bool b).convert? target = some d ∧ d.kind = target.kind ∧
      (Denotes runtime scope text (.bool b) → Denotes runtime scope out d) := by
  simp only [isIntegral, List.mem_cons, List.not_mem_nil, or_false, decide_eq_true_eq] at htarget
  have hcount : ∀ d : Int32, d.toInt = (if b then 1 else 0) →
      Denotes runtime scope text (.bool b) →
        Denotes runtime scope (Convert.boolToInt text) (.int d) := fun d hd h =>
    h.boolToInt hruntime hglobal (congrArg Value.number hd)
  rcases htarget with rfl | rfl | rfl | rfl | rfl
  · exact ⟨_, _, rfl, rfl, rfl, id⟩
  · exact ⟨_, _, rfl, rfl, rfl, hcount _ (by cases b <;> decide)⟩
  · exact ⟨_, _, rfl, rfl, rfl, hcount _ (by cases b <;> decide)⟩
  · exact ⟨_, _, rfl, rfl, rfl, hcount _ (by cases b <;> decide)⟩
  · exact ⟨_, _, rfl, rfl, rfl, hcount _ (by cases b <;> decide)⟩

/-- Every conversion has a text, whatever the operand is written as, and keeps the value. -/
theorem exists_convert {source target : Ty} {d : Datum} (text : String)
    (hruntime : CountsBooleans runtime) (hglobal : scope.lookup "N" = none)
    (hsource : isIntegral source) (htarget : isIntegral target) (hkind : d.kind = source.kind) :
    ∃ out d', Script.convert? source target text = some out ∧ d.convert? target = some d' ∧
      d'.kind = target.kind ∧
      (Denotes runtime scope text d → Denotes runtime scope out d') := by
  cases d with
  | int v =>
      apply exists_convertInteger text v _ htarget
      cases source <;> simp_all [isIntegral, Datum.kind, Ty.kind]
  | bool b =>
      obtain rfl : source = .bool := by
        cases source <;> simp_all [isIntegral, Datum.kind, Ty.kind]
      exact exists_convertBoolean text b hruntime hglobal htarget

theorem Denotes.natural {n : Nat} (h : n < 2 ^ 53) {v : Int32} (hv : v.toInt = n) :
    Denotes runtime scope (Text.natural n) (.int v) := by
  refine ⟨_, operand_natural n, ?_⟩
  rw [eval_number h, Datum.value, hv]

theorem eval_integer (v : Int32) :
    eval runtime scope (integerTree v.toInt) = some (Datum.int v).value := by
  have hbounds := toInt_bounds v
  have hsmall : v.toInt.natAbs < 2 ^ 53 := by omega
  unfold integerTree
  split
  · next hneg =>
      have habs : -(v.toInt.natAbs : Int) = v.toInt := by omega
      generalize v.toInt.natAbs = n at hsmall habs ⊢
      have hne : n ≠ 0 := by omega
      rw [eval_unary (eval_number hsmall)]
      simp [Value.unary?, Value.negate, Value.integer, hne, Datum.value, habs]
  · have habs : (v.toInt.natAbs : Int) = v.toInt := by omega
    rw [eval_number hsmall, habs]
    rfl

theorem Denotes.integer (v : Int32) : Denotes runtime scope (constant (.int v)) (.int v) :=
  ⟨_, operand_integer v.toInt, eval_integer v⟩

theorem Denotes.char (u : UInt16) :
    Denotes runtime scope (constant (.char u)) (.int (unit u)) := by
  have hbound : u.toNat < 2 ^ 16 := u.toNat_lt
  apply Denotes.natural (by omega)
  have hsmall : (u.toBitVec.setWidth 32).toNat = u.toNat := by
    simp only [BitVec.toNat_setWidth, UInt16.toNat_toBitVec]
    omega
  have hpositive : 2 * (u.toBitVec.setWidth 32).toNat < 2 ^ 32 := by omega
  have hbits : (unit u).toInt = (u.toBitVec.setWidth 32).toInt := rfl
  rw [hbits, BitVec.toInt_eq_toNat_of_lt hpositive, hsmall]

theorem Denotes.boolean (b : Bool) : Denotes runtime scope (constant (.bool b)) (.bool b) :=
  ⟨_, operand_boolean b, rfl⟩

theorem Denotes.reference {name : String} {d : Datum} (hname : IsIdentifier name)
    (h : scope.lookup name = some d.value) : Denotes runtime scope name d :=
  ⟨_, operand_reference hname, by rw [eval, h]⟩

theorem Denotes.ternary {cond yes no : String} {b : Bool} {a d : Datum}
    (hc : Denotes runtime scope cond (.bool b)) (hy : Denotes runtime scope yes a)
    (hn : Denotes runtime scope no d) :
    Denotes runtime scope ("(" ++ cond ++ " ? " ++ yes ++ " : " ++ no ++ ")")
      (if b then a else d) := by
  obtain ⟨tc, hcond, hc⟩ := hc
  obtain ⟨ty, hyes, hy⟩ := hy
  obtain ⟨tn, hno, hn⟩ := hn
  refine ⟨_, hcond.conditional hyes hno, ?_⟩
  cases b <;> simp [eval, hc, hy, hn, Datum.value, Value.truthy]

end Evaluation

end ClassScript.Integers
