import ClassScript.Script.Operator

/-!
The few shapes of what operators and conversions make of their operands. Every template
puts fixed text around them, so what holds of each shape holds of every operator.
-/

namespace ClassScript.Script

/-- The signs that stand between two operands. -/
def signs : List String :=
  ["+", "-", "*", "/", "%", "&", "|", "^", "<<", ">>", ">>>", "==", "!=", "<", "<=", ">", ">=",
    "&&", "||"]

/-- The helpers of the runtime that take two operands. -/
def helpers : List String :=
  ["idiv", "irem", "cmpl", "cmpg", "ladd", "lsub", "lmul", "ldiv", "lrem", "land", "lor", "lxor",
    "lshl", "lshr", "lushr", "leq", "lne", "llt", "lle", "lgt", "lge", "lcmp"]

/-- What conversions put around an operand. -/
def conversionFrames : List (String × String) :=
  [("(", ")"), ("((", ")|0)"), ("((", ")!=0)"), ("((", ")<<24>>24)"), ("((", ")&0xFFFF)"),
    ("((", ")<<16>>16)"), ("+(", ")"), ("Math.fround(", ")"), ("Math.fround(+(", "))"),
    ("N.z2i(", ")"), ("N.i2j(", ")"), ("N.l2i(", ")"), ("N.l2f(", ")"), ("N.l2d(", ")"),
    ("N.d2i(", ")"), ("N.d2j(", ")")]

/-- The text of a binary operator: two operands and a sign in parentheses, perhaps cut
down to 32 bits or to a truth value, or rounded to a `float`; or a call. -/
inductive BinaryShape (l r : String) : String → Prop where
  | grouped {sign : String} (h : sign ∈ signs) : BinaryShape l r (Operator.grouped sign l r)
  | low {sign : String} (h : sign ∈ signs) :
      BinaryShape l r ("(" ++ Operator.grouped sign l r ++ "|0)")
  | truth {sign : String} (h : sign ∈ signs) : BinaryShape l r ("!!" ++ Operator.grouped sign l r)
  | rounded {sign : String} (h : sign ∈ signs) :
      BinaryShape l r (Convert.float (l ++ " " ++ sign ++ " " ++ r))
  | helper {name : String} (h : name ∈ helpers) : BinaryShape l r (Operator.helper name l r)
  | product : BinaryShape l r (Operator.intMul l r)

/-- The text of a conversion: the operand as it is, or in a frame, or in two. -/
inductive ConversionShape (source target : Ty) (v : String) : String → Prop where
  | unchanged (hsource : source = .bool) (htarget : target = .bool) :
      ConversionShape source target v v
  | framed {front back : String} (h : (front, back) ∈ conversionFrames) :
      ConversionShape source target v (front ++ v ++ back)
  | twice {front back front' back' : String} (h : (front, back) ∈ conversionFrames)
      (h' : (front', back') ∈ conversionFrames) :
      ConversionShape source target v (front' ++ (front ++ v ++ back) ++ back')

section Shapes

variable {l r v text : String} {op : BinaryOp}

theorem shape_of_relation
    (h : (Operator.relation? op).map (Operator.grouped · l r) = some text) :
    BinaryShape l r text := by
  have hsign : ∀ {sign : String}, Operator.relation? op = some sign → sign ∈ signs := by
    intro sign h
    cases op <;> cases h <;> decide
  obtain ⟨sign, hrelation, rfl⟩ := Option.map_eq_some_iff.1 h
  exact .grouped (hsign hrelation)

theorem shape_of_intBinary (h : Operator.intBinary? op l r = some text) :
    BinaryShape l r text := by
  unfold Operator.intBinary? at h
  split at h
  · cases h; exact .low (by decide)
  · cases h; exact .low (by decide)
  · cases h; exact .product
  · cases h; exact .helper (by decide)
  · cases h; exact .helper (by decide)
  · cases h; exact .grouped (by decide)
  · cases h; exact .grouped (by decide)
  · cases h; exact .grouped (by decide)
  · cases h; exact .grouped (by decide)
  · cases h; exact .grouped (by decide)
  · cases h; exact .low (by decide)
  · exact shape_of_relation h

theorem shape_of_longHelper
    (h : (Operator.longHelper? op).map (Operator.helper · l r) = some text) :
    BinaryShape l r text := by
  have hname : ∀ {name : String}, Operator.longHelper? op = some name → name ∈ helpers := by
    intro name h
    cases op <;> cases h <;> decide
  obtain ⟨name, hhelper, rfl⟩ := Option.map_eq_some_iff.1 h
  exact .helper (hname hhelper)

theorem shape_of_realBinary {isSingle : Bool}
    (h : Operator.realBinary? isSingle op l r = some text) : BinaryShape l r text := by
  have harithmetic : ∀ {sign : String}, Operator.arithmetic? op = some sign → sign ∈ signs := by
    intro sign h
    cases op <;> cases h <;> decide
  unfold Operator.realBinary? at h
  split at h
  · next sign hsign =>
      cases h
      split
      · exact .rounded (harithmetic hsign)
      · exact .grouped (harithmetic hsign)
  · cases h; exact .helper (by decide)
  · cases h; exact .helper (by decide)
  · exact shape_of_relation h

theorem shape_of_boolBinary (h : Operator.boolBinary? op l r = some text) :
    BinaryShape l r text := by
  unfold Operator.boolBinary? at h
  split at h
  · cases h; exact .truth (by decide)
  · cases h; exact .truth (by decide)
  · cases h; exact .truth (by decide)
  · cases h; exact .grouped (by decide)
  · cases h; exact .grouped (by decide)
  · cases h; exact .grouped (by decide)
  · cases h; exact .grouped (by decide)
  · cases h

theorem shape_of_refBinary (h : Operator.refBinary? op l r = some text) :
    BinaryShape l r text := by
  unfold Operator.refBinary? at h
  split at h
  · cases h; exact .grouped (by decide)
  · cases h; exact .grouped (by decide)
  · cases h

/-- Every binary operator writes one of the shapes. -/
theorem shape_of_binary {kind : OperandKind} (h : binary? op kind l r = some text) :
    BinaryShape l r text := by
  cases kind with
  | int => exact shape_of_intBinary h
  | long => exact shape_of_longHelper h
  | float | double => exact shape_of_realBinary h
  | bool => exact shape_of_boolBinary h
  | ref => exact shape_of_refBinary h

/-- So does every conversion; only truth values are converted to themselves as they are. -/
theorem shape_of_convert {source target : Ty} (h : convert? source target v = some text) :
    ConversionShape source target v text := by
  have hframed : ∀ {front back : String}, some (front ++ v ++ back) = some text →
      (front, back) ∈ conversionFrames → ConversionShape source target v text := fun hsame hframe =>
    Option.some.inj hsame ▸ .framed hframe
  have hnarrow : ∀ {front back : String},
      some (Convert.narrow target (front ++ v ++ back)) = some text →
        (front, back) ∈ conversionFrames → ConversionShape source target v text := by
    intro front back hsame hframe
    obtain rfl := Option.some.inj hsame
    unfold Convert.narrow
    split
    · exact .twice hframe (show ("((", ")<<24>>24)") ∈ conversionFrames by decide)
    · exact .twice hframe (show ("((", ")&0xFFFF)") ∈ conversionFrames by decide)
    · exact .twice hframe (show ("((", ")<<16>>16)") ∈ conversionFrames by decide)
    · exact .framed hframe
  unfold convert? at h
  split at h
  · obtain ⟨-, hgroup⟩ := Option.ite_none_right_eq_some.1 h
    exact hframed hgroup (by decide)
  cases hkind : source.kind with
  | bool =>
      rw [hkind] at h
      have hsource : source = .bool := by
        cases source <;> first | rfl | cases hkind
      cases target with
      | bool => exact Option.some.inj h ▸ .unchanged hsource rfl
      | byte | char | short | int => exact hframed h (by decide)
      | _ => cases h
  | int =>
      rw [hkind] at h
      cases target with
      | void | ref _ | array _ => cases h
      | _ => exact hframed h (by decide)
  | long | float | double =>
      rw [hkind] at h
      cases target with
      | long | float | double => exact hframed h (by decide)
      | byte | char | short | int => exact hnarrow h (by decide)
      | _ => cases h
  | ref =>
      rw [hkind] at h
      cases target <;> cases h

end Shapes

end ClassScript.Script
