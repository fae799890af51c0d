import ClassScript.Emission.Names
import ClassScript.Proofs.Lists

/-!
What the slot of a method tells. Descriptors are a prefix code, whatever arrays
and class names they hold, so types are read back from them. Where names keep to
the conventions, a slot tells the signature, and of a constructor the class.
-/

namespace ClassScript

/-- A name without the characters that descriptors and constructors use. -/
def ClassName.Regular (n : ClassName) : Prop :=
  '/' ∉ n.text.toList ∧ ';' ∉ n.text.toList ∧ '(' ∉ n.text.toList ∧ '<' ∉ n.text.toList

/-- All class names in the type are regular. -/
def Ty.Regular : Ty → Prop
  | .ref name => name.Regular
  | .array element => element.Regular
  | _ => True

/-- The types of the parameters and of the result. -/
def Signature.types (s : Signature) : List Ty × Ty :=
  (s.args.map (·.type), s.ret)

def Signature.Regular (s : Signature) : Prop :=
  (∀ b ∈ s.args, b.type.Regular) ∧ s.ret.Regular

/-- The names that methods of each role go by. -/
def Role.Names : Role → String → Prop
  | .ordinary, name => '(' ∉ name.toList ∧ '<' ∉ name.toList
  | .instanceInit, name => name = "<init>"
  | .staticInit, name => name = "<clinit>"

/-- A method that keeps to the conventions and has no native name. -/
structure Method.Regular (m : Method) : Prop where
  nativeName : m.nativeName = none
  owner : m.owner.Regular
  type : m.type.Regular
  name : m.role.Names m.name

/-- A program whose names keep to the conventions. -/
structure Program.Regular (p : Program) : Prop where
  classes : ∀ c ∈ p.classes, c.name.Regular
  methods : ∀ c ∈ p.classes, ∀ m ∈ c.methods, m.Regular
  fields : ∀ c ∈ p.classes, ∀ f ∈ c.fields, '(' ∉ f.name.toList

namespace Ty

/-- The type whose descriptor a text begins with, and the rest of the text. -/
def read? : List Char → Option (Ty × List Char)
  | 'V' :: rest => some (.void, rest)
  | 'Z' :: rest => some (.bool, rest)
  | 'B' :: rest => some (.byte, rest)
  | 'C' :: rest => some (.char, rest)
  | 'S' :: rest => some (.short, rest)
  | 'I' :: rest => some (.int, rest)
  | 'J' :: rest => some (.long, rest)
  | 'F' :: rest => some (.float, rest)
  | 'D' :: rest => some (.double, rest)
  | 'L' :: rest =>
      let dotted := (rest.takeWhile (· ≠ ';')).map fun c => if c = '/' then '.' else c
      some (.ref ⟨String.ofList dotted⟩, (rest.dropWhile (· ≠ ';')).drop 1)
  | '[' :: rest => (read? rest).map fun (element, rest) => (.array element, rest)
  | _ => none

theorem toList_slashed (n : ClassName) :
    n.slashed.toList = n.text.toList.map fun c => if c = '.' then '/' else c := by
  rw [ClassName.slashed, String.toList_map]

/-- The name of a class ends at the semicolon and has its dots back. -/
theorem read?_slashed {n : ClassName} (h : n.Regular) (rest : List Char) :
    read? ('L' :: (n.slashed.toList ++ ';' :: rest)) = some (.ref n, rest) := by
  obtain ⟨hslash, hend, -, -⟩ := h
  have hname : ∀ c ∈ n.slashed.toList, decide (c ≠ ';') = true := by
    rw [toList_slashed]
    exact forall_mem_replaced (P := fun c => decide (c ≠ ';') = true) rfl fun c hc _ =>
      decide_eq_true fun hsame : c = ';' => hend (hsame ▸ hc)
  have hdotted : (n.slashed.toList.map fun c => if c = '/' then '.' else c) = n.text.toList := by
    rw [toList_slashed, List.map_map]
    refine (List.map_congr_left fun c hc => ?_).trans (List.map_id _)
    have hne : c ≠ '/' := fun hsame => hslash (hsame ▸ hc)
    by_cases hdot : c = '.' <;> simp [hdot, hne]
  simp only [read?]
  rw [List.takeWhile_append_of_pos hname, List.dropWhile_append_of_pos hname]
  simp [hdotted]

/-- A descriptor is read back, whatever follows it. -/
theorem read?_descriptor {t : Ty} (h : t.Regular) (rest : List Char) :
    read? (t.descriptor.toList ++ rest) = some (t, rest) := by
  induction t with
  | ref name =>
      have htext : (Ty.ref name).descriptor.toList ++ rest =
          'L' :: (name.slashed.toList ++ ';' :: rest) := by
        simp [descriptor]
      rw [htext, read?_slashed h]
  | array element ih =>
      have htext : (Ty.array element).descriptor.toList ++ rest =
          '[' :: (element.descriptor.toList ++ rest) := by
        simp [descriptor]
      rw [htext, read?, ih h]
      rfl
  | _ => rfl

/-- Lists of types are told apart by their descriptors in a row, up to a
parenthesis. -/
theorem descriptors_append_inj {ts us : List Ty} (ht : ∀ t ∈ ts, t.Regular)
    (hu : ∀ u ∈ us, u.Regular) {a b : List Char}
    (h : ts.flatMap (·.descriptor.toList) ++ ')' :: a =
      us.flatMap (·.descriptor.toList) ++ ')' :: b) : ts = us ∧ a = b := by
  induction ts generalizing us with
  | nil =>
      cases us with
      | nil => exact ⟨rfl, (List.cons.inj h).2⟩
      | cons u us =>
          rw [List.flatMap_cons, List.append_assoc, List.flatMap_nil, List.nil_append] at h
          have hread := read?_descriptor (hu u List.mem_cons_self)
            (us.flatMap (·.descriptor.toList) ++ ')' :: b)
          rw [← h] at hread
          cases hread
  | cons t ts ih =>
      have hread := read?_descriptor (ht t List.mem_cons_self)
        (ts.flatMap (·.descriptor.toList) ++ ')' :: a)
      rw [List.flatMap_cons, List.append_assoc] at h
      rw [h] at hread
      cases us with
      | nil => cases hread
      | cons u us =>
          rw [List.flatMap_cons, List.append_assoc, read?_descriptor (hu u List.mem_cons_self),
            Option.some.injEq, Prod.mk.injEq] at hread
          obtain ⟨hrest, hback⟩ := ih (fun t hmem => ht t (List.mem_cons_of_mem _ hmem))
            (fun u hmem => hu u (List.mem_cons_of_mem _ hmem)) hread.2.symm
          exact ⟨by rw [hread.1, hrest], hback⟩

end Ty

theorem Signature.toList_descriptor (s : Signature) :
    s.descriptor.toList = '(' :: (s.types.1.flatMap (·.descriptor.toList) ++
      ')' :: s.ret.descriptor.toList) := by
  simp [Signature.descriptor, Signature.types, String.toList_join, List.flatMap_map]

/-- Parameter types and result are told by the descriptor of a signature, and
nothing else is. -/
theorem Signature.descriptor_eq_iff {s t : Signature} (hs : s.Regular) (ht : t.Regular) :
    s.descriptor = t.descriptor ↔ s.types = t.types := by
  have hargs : ∀ {s : Signature}, s.Regular → ∀ t ∈ s.types.1, t.Regular := by
    intro s hs t hmem
    obtain ⟨b, hb, rfl⟩ := List.mem_map.1 hmem
    exact hs.1 b hb
  rw [← String.toList_inj, toList_descriptor, toList_descriptor]
  constructor
  · intro h
    obtain ⟨hsame, hret⟩ := Ty.descriptors_append_inj (hargs hs) (hargs ht) (List.cons.inj h).2
    have hread := Ty.read?_descriptor hs.2 []
    rw [hret, Ty.read?_descriptor ht.2, Option.some.injEq, Prod.mk.injEq] at hread
    exact Prod.ext hsame hread.1.symm
  · intro h
    rw [h, show s.ret = t.ret from congrArg Prod.snd h]

/-- What stands before the parenthesis of a slot is told apart from what stands
behind it. -/
theorem append_descriptor_eq_iff {front other : String} {s t : Signature}
    (hfront : '(' ∉ front.toList) (hother : '(' ∉ other.toList) (hs : s.Regular) (ht : t.Regular) :
    front ++ s.descriptor = other ++ t.descriptor ↔ front = other ∧ s.types = t.types := by
  constructor
  · intro h
    have hchars := congrArg String.toList h
    rw [String.toList_append, String.toList_append, s.toList_descriptor, t.toList_descriptor] at hchars
    obtain ⟨hsame, hrest⟩ := append_separator_inj hfront hother hchars
    refine ⟨String.toList_inj.1 hsame, (s.descriptor_eq_iff hs ht).1 (String.toList_inj.1 ?_)⟩
    rw [s.toList_descriptor, t.toList_descriptor, hrest]
  · rintro ⟨rfl, htypes⟩
    rw [(s.descriptor_eq_iff hs ht).2 htypes]

namespace Method

/-- What stands before the descriptor in a method's slot. -/
def front (m : Method) : String :=
  if m.role = .instanceInit then m.owner.text ++ m.name else m.name

variable {m : Method}

theorem methodName_eq_front (h : m.Regular) : Emission.methodName m = m.front ++ m.type.descriptor := by
  rw [Emission.methodName, Emission.slotName, h.nativeName, front]
  by_cases hrole : m.role = .instanceInit
  · rw [if_pos hrole, if_pos hrole]
    rfl
  · rw [if_neg hrole, if_neg hrole]
    rfl

theorem parenthesis_notMem_front (h : m.Regular) : '(' ∉ m.front.toList := by
  have hname := h.name
  obtain ⟨-, -, howner, -⟩ := h.owner
  cases hrole : m.role with
  | ordinary =>
      rw [hrole] at hname
      simpa [front, hrole] using hname.1
  | instanceInit =>
      rw [hrole] at hname
      simp [front, hrole, show m.name = "<init>" from hname, howner]
  | staticInit =>
      rw [hrole] at hname
      simp [front, hrole, show m.name = "<clinit>" from hname]

/-- A constructor's class is in front of its name, and no other method has such
a front. -/
theorem front_ne_constructor {n : ClassName} (hn : n.Regular) (h : m.Regular)
    (hrole : m.role ≠ .instanceInit) : m.front ≠ n.text ++ "<init>" := by
  intro hsame
  have hname := h.name
  rw [front, if_neg hrole] at hsame
  have hchars : m.name.toList = n.text.toList ++ '<' :: "init>".toList := by
    rw [hsame, String.toList_append]
    rfl
  cases hkind : m.role with
  | ordinary =>
      rw [hkind] at hname
      exact hname.2 (by rw [hchars]; simp)
  | instanceInit => exact hrole hkind
  | staticInit =>
      rw [hkind] at hname
      have hclinit : m.name.toList = [] ++ '<' :: "clinit>".toList := by
        rw [show m.name = "<clinit>" from hname]
        rfl
      rw [hclinit] at hchars
      obtain ⟨-, hrest⟩ := append_separator_inj List.not_mem_nil hn.2.2.2 hchars
      exact absurd hrest (by decide)

/-- Slots tell signatures apart, and the classes of constructors. -/
theorem methodName_eq_iff {m' : Method} (h : m.Regular) (h' : m'.Regular) :
    Emission.methodName m = Emission.methodName m' ↔
      ((m.role ≠ .instanceInit ∧ m'.role ≠ .instanceInit ∧ m.name = m'.name) ∨
        (m.role = .instanceInit ∧ m'.role = .instanceInit ∧ m.owner = m'.owner)) ∧
      m.type.types = m'.type.types := by
  rw [methodName_eq_front h, methodName_eq_front h', append_descriptor_eq_iff
    (parenthesis_notMem_front h) (parenthesis_notMem_front h') h.type h'.type, and_congr_left_iff]
  intro _
  have hconstructor : ∀ {m : Method}, m.Regular → m.role = .instanceInit →
      m.front = m.owner.text ++ "<init>" := by
    intro m h hrole
    have hname := h.name
    rw [hrole] at hname
    rw [front, if_pos hrole, show m.name = "<init>" from hname]
  by_cases hrole : m.role = .instanceInit <;> by_cases hrole' : m'.role = .instanceInit
  · have howner : m.owner.text = m'.owner.text ↔ m.owner = m'.owner :=
      ⟨congrArg ClassName.mk, congrArg ClassName.text⟩
    rw [hconstructor h hrole, hconstructor h' hrole', String.append_left_inj, howner]
    simp [hrole, hrole']
  · rw [hconstructor h hrole]
    simpa [hrole, hrole'] using (front_ne_constructor h.owner h' hrole').symm
  · rw [hconstructor h' hrole']
    simpa [hrole, hrole'] using front_ne_constructor h'.owner h hrole
  · simp [hrole, hrole', front]

end Method

end ClassScript
