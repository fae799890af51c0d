import ClassScript.Proofs.JsonReading

/-!
The model's types read back from their JSON form: one statement for each reader,
over every budget that the depth of the value fits.
-/

namespace ClassScript

open Json

variable {budget : Nat}

theorem ClassName.decodes (n : ClassName) : Decodes budget ClassName.decode n.toJson n :=
  (decodes_string n.text).map ClassName.mk

theorem Ty.decodes (t : Ty) : Decodes budget (Ty.decode budget) t.toJson t := by
  induction t generalizing budget with
  | void => rw [Ty.decode]; exact .unit rfl
  | bool => rw [Ty.decode]; exact .unit rfl
  | byte => rw [Ty.decode]; exact .unit rfl
  | char => rw [Ty.decode]; exact .unit rfl
  | short => rw [Ty.decode]; exact .unit rfl
  | int => rw [Ty.decode]; exact .unit rfl
  | long => rw [Ty.decode]; exact .unit rfl
  | float => rw [Ty.decode]; exact .unit rfl
  | double => rw [Ty.decode]; exact .unit rfl
  | ref name =>
      rw [Ty.decode]
      exact .single rfl fun inner hinner => (ClassName.decodes name).map Ty.ref
  | array element ih =>
      rw [Ty.decode]
      exact .single rfl fun inner hinner => ih.map Ty.array

theorem OperandKind.decodes (kind : OperandKind) :
    Decodes budget (OperandKind.decode budget) kind.toJson kind := by
  cases kind <;> exact .unit rfl

theorem UnaryOp.decodes (op : UnaryOp) : Decodes budget (UnaryOp.decode budget) op.toJson op := by
  cases op <;> exact .unit rfl

theorem BinaryOp.decodes (op : BinaryOp) : Decodes budget (BinaryOp.decode budget) op.toJson op := by
  cases op <;> exact .unit rfl

theorem ClassKind.decodes (kind : ClassKind) :
    Decodes budget (ClassKind.decode budget) kind.toJson kind := by
  cases kind <;> exact .unit rfl

theorem Role.decodes (role : Role) : Decodes budget (Role.decode budget) role.toJson role := by
  cases role <;> exact .unit rfl

theorem Binding.decodes (label : String) (b : Binding) :
    Decodes budget (Binding.decode label budget) b.toJson b :=
  .record (by simp) (fun _ _ => .cons (decodes_string b.name) (.cons b.type.decodes .nil)) rfl

theorem Signature.decodes (s : Signature) :
    Decodes budget (Signature.decode budget) s.toJson s :=
  .record (by simp) (fun _ _ =>
    .cons (.list fun _ _ b _ => b.decodes "struct Param") (.cons s.ret.decodes .nil)) rfl

theorem FieldRef.decodes (r : FieldRef) : Decodes budget (FieldRef.decode budget) r.toJson r :=
  .record (by simp) (fun _ _ =>
    .cons r.owner.decodes (.cons (decodes_string r.name) (.cons r.type.decodes .nil))) rfl

theorem MethodRef.decodes (r : MethodRef) : Decodes budget (MethodRef.decode budget) r.toJson r :=
  .record (by simp) (fun _ _ =>
    .cons r.owner.decodes (.cons (decodes_string r.name) (.cons r.type.decodes .nil))) rfl

theorem NativeBody.decodes (n : NativeBody) :
    Decodes budget (NativeBody.decode budget) n.toJson n :=
  .record (by simp) (fun _ _ =>
    .cons (decodes_string n.target) (.cons (decodes_string n.guard)
      (.cons (decodes_string n.text) .nil))) rfl

theorem CustomMain.decodes (m : CustomMain) :
    Decodes budget (CustomMain.decode budget) m.toJson m :=
  .record (by simp) (fun _ _ =>
    .cons (decodes_string m.target) (.cons (decodes_string m.text) .nil)) rfl

/-- The literal is a real number. -/
def Literal.isReal : Literal → Bool
  | .float _ => true
  | .double _ => true
  | _ => false

theorem Literal.decodes {v : Literal} (h : v.isReal = false) :
    Decodes budget (Literal.decode budget) v.toJson v := by
  cases v with
  | null => exact .unit rfl
  | bool value => exact .single rfl fun _ _ => (decodes_bool value).map Literal.bool
  | int value => exact .single rfl fun _ _ => (decodes_int32 value).map Literal.int
  | long value => exact .single rfl fun _ _ => (decodes_int64 value).map Literal.long
  | float bits => cases h
  | double bits => cases h
  | char unit => exact .single rfl fun _ _ => (decodes_uint16 unit).map Literal.char
  | string text => exact .single rfl fun _ _ => (decodes_string text).map Literal.string

theorem Literal.isNamed_toJson (v : Literal) : v.toJson.isNamed = true := by
  cases v <;> rfl

/-- No constant of the field is a real number. -/
def Field.WithoutReals (f : Field) : Prop :=
  ∀ v ∈ f.constant, v.isReal = false

instance : DecidablePred Field.WithoutReals :=
  fun f => inferInstanceAs (Decidable (∀ v ∈ f.constant, v.isReal = false))

theorem Field.decodes {f : Field} (h : f.WithoutReals) :
    Decodes budget (Field.decode budget) f.toJson f :=
  .record (by simp) (fun _ _ =>
    .cons (decodes_string f.name) (.cons f.owner.decodes (.cons (decodes_bool f.isStatic)
      (.cons f.type.decodes
        (.cons (.option Literal.isNamed_toJson fun v hv => Literal.decodes (h v hv)) .nil))))) rfl

end ClassScript
