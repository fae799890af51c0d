import ClassScript.Proofs.Assignment
import ClassScript.Proofs.NameCharacters
import ClassScript.Proofs.QuotedText
import ClassScript.Proofs.SlotNames

/-!
Which prototype slots the document of a class assigns. Constructor, class numbers
and field defaults assign members whose names have no parenthesis, so the slots
of methods are those of the methods that the class declares, and no others.
-/

namespace ClassScript

namespace Output

/-- A base without parentheses and slashes, and an access to a member of it. -/
def IsAccess (text : String) : Prop :=
  ∃ base c rest, text.toList = base ++ c :: rest ∧ (∀ d ∈ base, d ≠ '(' ∧ d ≠ '/') ∧
    (c = '.' ∨ c = '[')

namespace IsAccess

variable {target text : String}

theorem append (h : IsAccess text) (more : String) : IsAccess (text ++ more) := by
  obtain ⟨base, c, rest, htext, hbase, hc⟩ := h
  refine ⟨base, c, rest ++ more.toList, ?_, hbase, hc⟩
  rw [String.toList_append, htext, List.append_assoc, List.cons_append]

/-- An access does not start as a condition or a comment does. -/
theorem append_ne (h : IsAccess text) {word : List Char} (hword : '(' ∈ word ∨ '/' ∈ word)
    (hmember : '.' ∉ word ∧ '[' ∉ word) (more rest : List Char) :
    text.toList ++ rest ≠ word ++ more := by
  obtain ⟨base, c, back, htext, hbase, hc⟩ := h
  obtain ⟨d, hd, hfree⟩ : ∃ d ∈ word, d ∉ base := by
    rcases hword with hparenthesis | hslash
    · exact ⟨'(', hparenthesis, fun hmem => (hbase _ hmem).1 rfl⟩
    · exact ⟨'/', hslash, fun hmem => (hbase _ hmem).2 rfl⟩
  intro hsame
  rw [htext, List.append_assoc, List.cons_append, List.append_eq_append_iff] at hsame
  rcases hsame with ⟨front, rfl, hfront⟩ | ⟨front, rfl, -⟩
  · cases front with
    | nil => exact hfree (by simpa using hd)
    | cons first others =>
        obtain rfl := (List.cons.inj hfront).1
        rcases hc with rfl | rfl
        · exact hmember.1 (by simp)
        · exact hmember.2 (by simp)
  · exact hfree (List.mem_append_left _ hd)

/-- What starts with an assignment to an access is an access. -/
theorem of_assignsTo (h : IsAccess target) (hassigns : assignsTo target text = true) :
    IsAccess text := by
  obtain ⟨rest, hrest⟩ := assignsTo_iff.1 hassigns
  have htext : text = target ++ (" = " ++ String.ofList rest) := by
    rw [← String.toList_inj, ← hrest]
    simp
  rw [htext]
  exact h.append _

theorem isBranch_eq_false (h : IsAccess text) : isBranch text = false := by
  have hconditions : ∀ word : List Char, '(' ∈ word → '.' ∉ word ∧ '[' ∉ word →
      word.isPrefixOf text.toList = false := by
    intro word hword hmember
    rw [← Bool.not_eq_true, List.isPrefixOf_iff_prefix]
    rintro ⟨more, hmore⟩
    refine h.append_ne (.inl hword) hmember more [] ?_
    rw [List.append_nil, hmore]
  have helse : text ≠ "else" := by
    rintro rfl
    obtain ⟨base, c, rest, htext, -, hc⟩ := h
    have hmem : c ∈ "else".toList := by simp [htext]
    rcases hc with rfl | rfl
    · exact absurd hmem (by decide)
    · exact absurd hmem (by decide)
  rw [isBranch, hconditions _ (by decide) (by decide), hconditions _ (by decide) (by decide)]
  simp [helse]

theorem assignsTo_comment (h : IsAccess target) (htext : text.toList.head? = some '/') :
    assignsTo target text = false := by
  have hslash : '(' ∈ ['/'] ∨ '/' ∈ ['/'] := .inr List.mem_cons_self
  obtain ⟨more, hmore⟩ := List.head?_eq_some_iff.1 htext
  rw [← Bool.not_eq_true, assignsTo_iff, String.toList_append, hmore]
  rintro ⟨rest, hrest⟩
  rw [List.append_assoc] at hrest
  exact h.append_ne hslash (by decide) more _ hrest

/-- A branch assigns what its body does. -/
theorem assigns_branch (h : IsAccess target) {head : String} (hbranch : isBranch head = true)
    (body : Doc) : (Doc.block head body "").assigns target = body.assigns target := by
  have hhead : assignsTo target head = false := by
    rw [← Bool.not_eq_true]
    intro hassigns
    have hnone := (h.of_assignsTo hassigns).isBranch_eq_false
    rw [hbranch] at hnone
    cases hnone
  rw [Doc.assigns_block, hhead, hbranch, Bool.false_or, Bool.true_and]

end IsAccess

end Output

namespace Emission

open Output

/-- A name with a parenthesis is reached by an index. -/
theorem isPlain_of_parenthesis {name : List Char} (h : '(' ∈ name) : Script.isPlain name = false := by
  rw [← Bool.not_eq_true]
  intro hplain
  have hchars : ∀ c ∈ name, Text.isAlphabetic c || c.isDigit || c = '_' := by
    cases name with
    | nil => cases hplain
    | cons first rest =>
        rw [Script.isPlain, Bool.and_eq_true, List.all_eq_true] at hplain
        intro c hc
        rcases List.mem_cons.1 hc with rfl | hrest
        · have hfirst := hplain.1
          simp only [Bool.or_eq_true] at hfirst ⊢
          exact hfirst.elim (fun h => .inl (.inl h)) .inr
        · exact hplain.2 c hrest
  exact absurd (hchars '(' h) (by decide)

theorem period_notMem_identifier (n : ClassName) : '.' ∉ n.identifier.toList := by
  rw [ClassName.identifier, String.toList_map]
  exact fun hmem => forall_mem_replaced (P := (· ≠ '.')) (by decide) (fun _ _ hne => hne) _ hmem rfl

theorem identifier_regular {n : ClassName} (h : n.Regular) :
    ∀ c ∈ n.identifier.toList, c ≠ '(' ∧ c ≠ '/' := by
  obtain ⟨hslash, -, hparen, -⟩ := h
  rw [ClassName.identifier, String.toList_map]
  exact forall_mem_replaced (by decide) fun c hc _ =>
    ⟨fun hsame => hparen (hsame ▸ hc), fun hsame => hslash (hsame ▸ hc)⟩

/-- Members of a class and of its prototype are accesses. -/
theorem isAccess_member {n : ClassName} (h : n.Regular) (isStatic : Bool) (name : String) :
    IsAccess (memberBase n isStatic ++ Script.member name) := by
  cases isStatic with
  | false =>
      refine ⟨n.identifier.toList, '.', "prototype".toList ++ (Script.member name).toList, ?_,
        identifier_regular h, .inl rfl⟩
      simp [memberBase]
  | true =>
      cases hplain : Script.isPlain name.toList with
      | true =>
          refine ⟨n.identifier.toList, '.', name.toList, ?_, identifier_regular h, .inl rfl⟩
          simp [memberBase, Script.toList_member_plain hplain]
      | false =>
          refine ⟨n.identifier.toList, '[', Script.literal name.toList ++ [']'], ?_,
            identifier_regular h, .inr rfl⟩
          simp [memberBase, Script.toList_member hplain]

/-- The assignment to a member assigns that member and none with a parenthesis
besides. -/
theorem assignsTo_member {name : String} (hname : '(' ∈ name.toList) (base other rest : String) :
    assignsTo (base ++ Script.member name) (base ++ Script.member other ++ " = " ++ rest) =
      decide (other = name) := by
  have hplain := isPlain_of_parenthesis hname
  by_cases hsame : other = name
  · subst hsame
    rw [assignsTo_self, decide_eq_true rfl]
  · rw [decide_eq_false hsame, ← Bool.not_eq_true, assignsTo_iff]
    rintro ⟨more, hmore⟩
    simp only [String.toList_append, List.append_assoc, List.append_cancel_left_eq] at hmore
    cases hother : Script.isPlain other.toList with
    | true =>
        rw [Script.toList_member hplain, Script.toList_member_plain hother] at hmore
        cases (List.cons.inj hmore).1
    | false => exact hsame (Script.member_append_inj hplain hother hmore).1.symm

section Methods

variable {job : Job} {owner : ClassName} {m : Method} {slot target : String} {d : Doc}

theorem isBranch_guard (guard : String) (index : Nat) :
    isBranch ((if index = 0 then "if" else "else if") ++ " (" ++ guard ++ ")") = true := by
  split <;> simp [isBranch]

/-- Whatever binds a slot, it assigns just that. -/
theorem Binds.assigns_eq (h : Binds m slot d) (hslot : IsAccess slot) (htarget : IsAccess target)
    {found : Bool} (hfound : ∀ rest, assignsTo target (slot ++ " = function" ++ rest) = found) :
    d.assigns target = found := by
  have hfunction : ∀ body, (bindFunction m slot body).assigns target = found := by
    intro body
    have hbranch : isBranch (slot ++ " = function" ++
        arguments (m.type.args.map fun b => Script.variableName b.name)) = false := by
      rw [String.append_assoc]
      exact (hslot.append _).isBranch_eq_false
    rw [bindFunction, Doc.assigns_block, hfound, hbranch, Bool.false_and, Bool.or_false]
  cases h with
  | function body => exact hfunction body
  | trap => rw [bindStub_eq, Doc.assigns_line, hfound]
  | chain fallback guarded =>
      rw [guardChain, Doc.assigns_append, Doc.assigns_concat, htarget.assigns_branch (by decide),
        hfunction]
      cases found with
      | true => exact Bool.or_true _
      | false =>
          rw [Bool.or_false, List.any_eq_false]
          intro e he
          obtain ⟨⟨⟨guard, body⟩, index⟩, -, rfl⟩ := List.mem_map.1 he
          rw [htarget.assigns_branch (isBranch_guard guard index), hfunction]
          exact Bool.false_ne_true

/-- So does the document of a method, also where it is a stub. -/
theorem lowerMethod_assigns_eq {s t : State} (h : (lowerMethod job owner m).run s = (.ok d, t))
    (hslot : IsAccess (methodSlot owner m)) (htarget : IsAccess target) {found : Bool}
    (hfound : ∀ rest, assignsTo target (methodSlot owner m ++ " = function" ++ rest) = found) :
    d.assigns target = found := by
  rcases lowerMethod_binds h with hbinds | ⟨error, rfl⟩
  · exact hbinds.assigns_eq hslot htarget hfound
  · have hstub : (bindStub (methodSlot owner m)).assigns target = found :=
      (Binds.trap : Binds m _ _).assigns_eq hslot htarget hfound
    have hcomment : (Doc.line (stubComment owner m error)).assigns target = false := by
      obtain ⟨text, htext⟩ := stubComment_eq owner m error
      rw [htext]
      refine htarget.assignsTo_comment ?_
      rw [String.toList_append]
      rfl
    rw [stubDoc_eq, Doc.assigns_append, hcomment, hstub, Bool.false_or]

end Methods

section Classes

variable {job : Job} {n : ClassName} {name : String} {s t : State} {d : Doc}

/-- The slot of a method of that name and descriptor on the prototype of a class. -/
def prototypeSlot (n : ClassName) (name : String) : String :=
  memberBase n false ++ Script.member name

/-- What is not a member of the prototype by an index is another target. -/
theorem assignsTo_prototypeSlot (hname : '(' ∈ name.toList) {text : String} {tail : List Char}
    (htext : text.toList = n.identifier.toList ++ tail) (htail : ¬ ".prototype[".toList <+: tail) :
    assignsTo (prototypeSlot n name) text = false := by
  have hmember := Script.toList_member (isPlain_of_parenthesis hname)
  rw [← Bool.not_eq_true, assignsTo_iff, htext]
  rintro ⟨more, hmore⟩
  refine htail ⟨Script.literal name.toList ++ (']' :: " = ".toList ++ more), ?_⟩
  simpa [prototypeSlot, memberBase, hmember] using hmore

/-- Other members of the class and its prototype are told apart by a word. -/
theorem assignsTo_word (hname : '(' ∈ name.toList) (n : ClassName) {word : String}
    (hword : ¬ ".prototype[".toList <+: word.toList ∧ ¬ word.toList <+: ".prototype[".toList)
    (more : String) : assignsTo (prototypeSlot n name) (n.identifier ++ (word ++ more)) = false := by
  refine assignsTo_prototypeSlot hname String.toList_append fun hprefix => ?_
  rw [String.toList_append] at hprefix
  rcases List.prefix_or_prefix_of_prefix hprefix (List.prefix_append _ _) with h | h
  · exact hword.1 h
  · exact hword.2 h

/-- The head of a constructor function has no access in it. -/
theorem assignsTo_constructor (n : ClassName) (name : String) :
    assignsTo (prototypeSlot n name) ("function " ++ n.identifier ++ "()") = false := by
  rw [← Bool.not_eq_true, assignsTo_iff]
  intro hprefix
  have hmem : '.' ∈ ("function " ++ n.identifier ++ "()").toList :=
    hprefix.subset (by simp [prototypeSlot, memberBase])
  simp only [String.toList_append, List.mem_append] at hmem
  rcases hmem with (hword | hname) | hparens
  · exact absurd hword (by decide)
  · exact period_notMem_identifier n hname
  · exact absurd hparens (by decide)

theorem parenthesis_mem_methodName {m : Method} (h : m.Regular) : '(' ∈ (methodName m).toList := by
  rw [Method.methodName_eq_front h, String.toList_append, Signature.toList_descriptor]
  simp

/-- A method's document assigns its own prototype slot if it is a method of
objects, and no other one. -/
theorem lowerMethod_assigns_iff {m : Method} (hn : n.Regular) (hm : m.Regular)
    (hname : '(' ∈ name.toList) (h : (lowerMethod job n m).run s = (.ok d, t)) :
    d.assigns (prototypeSlot n name) = (!m.isStatic && decide (methodName m = name)) := by
  refine lowerMethod_assigns_eq h (isAccess_member hn _ _) (isAccess_member hn _ _) fun rest => ?_
  cases hstatic : m.isStatic with
  | false =>
      have htext : methodSlot n m ++ " = function" ++ rest =
          memberBase n false ++ Script.member (methodName m) ++ " = " ++ ("function" ++ rest) := by
        rw [methodSlot, hstatic]
        simp only [String.append_assoc]
        rfl
      rw [htext, assignsTo_member hname, Bool.not_false, Bool.true_and]
  | true =>
      have hmember := Script.toList_member (isPlain_of_parenthesis (parenthesis_mem_methodName hm))
      have htext : (methodSlot n m ++ " = function" ++ rest).toList = n.identifier.toList ++
          '[' :: (Script.literal (methodName m).toList ++ (']' :: " = function".toList ++ rest.toList)) := by
        simp [methodSlot, hstatic, memberBase, hmember]
      rw [Bool.not_true, Bool.false_and]
      refine assignsTo_prototypeSlot hname htext ?_
      rintro ⟨more, hmore⟩
      cases (List.cons.inj hmore).1

theorem fieldDefault_run {f : Field} (hs : AllMadeOf s.fieldNames) (hf : '(' ∉ f.name.toList)
    {text : String} (h : (fieldDefault job f).run s = (.ok text, t)) :
    ∃ given value, '(' ∉ given.toList ∧ text = Script.member given ++ " = " ++ value := by
  obtain ⟨given, u, hgiven, h⟩ := exists_of_run_bind_ok h
  obtain ⟨value, v, -, h⟩ := exists_of_run_bind_ok h
  obtain ⟨rfl, -⟩ := eq_of_run_pure h
  refine ⟨given, value, fun hmem => ?_, rfl⟩
  rcases madeOf_declaredFieldName hs hgiven _ hmem with hdeclared | hother
  · exact hf hdeclared
  · exact absurd hother (by decide)

/-- The default of a field is no method. -/
theorem assignsTo_default (hname : '(' ∈ name.toList) {given : String} (hgiven : '(' ∉ given.toList)
    (n : ClassName) (value : String) :
    assignsTo (prototypeSlot n name)
      (n.identifier ++ ".prototype" ++ (Script.member given ++ " = " ++ value) ++ ";") = false := by
  have htext : n.identifier ++ ".prototype" ++ (Script.member given ++ " = " ++ value) ++ ";" =
      memberBase n false ++ Script.member given ++ " = " ++ (value ++ ";") := by
    simp [memberBase, String.append_assoc]
  have hne : given ≠ name := by
    rintro rfl
    exact hgiven hname
  rw [htext, prototypeSlot, assignsTo_member hname, decide_eq_false hne]

/-- The static initialiser is no method of objects. -/
theorem lowerStaticInit_assigns {c : Class} (hc : c.name.Regular) (hname : '(' ∈ name.toList)
    (h : (lowerStaticInit job c).run s = (.ok d, t)) :
    d.assigns (prototypeSlot c.name name) = false := by
  have hslot : ∀ more, assignsTo (prototypeSlot c.name name) (c.name.staticInit ++ more) = false := by
    intro more
    rw [ClassName.staticInit, String.append_assoc]
    exact assignsTo_word hname c.name (by decide) more
  simp only [lowerStaticInit] at h
  split at h
  · obtain ⟨rfl, -⟩ := eq_of_run_pure h
    exact hslot _
  · obtain ⟨defaults, u, -, h⟩ := exists_of_run_bind_ok h
    obtain ⟨rfl, -⟩ := eq_of_run_pure h
    have haccess : IsAccess (c.name.staticInit ++ " = function()") :=
      ⟨c.name.identifier.toList, '.', "SI = function()".toList, by simp [ClassName.staticInit],
        identifier_regular hc, .inl rfl⟩
    rw [Doc.assigns_block, hslot, haccess.isBranch_eq_false, Bool.false_and, Bool.or_false]

/-- What holds of a whole list is asked of its parts. -/
theorem any_filter_or {α : Type} (p q : α → Bool) (items : List α) :
    ((items.filter p).any q || (items.filter (!p ·)).any q) = items.any q := by
  induction items with
  | nil => rfl
  | cons a rest ih =>
      rw [List.any_cons, ← ih, List.filter_cons, List.filter_cons]
      cases p a
      · rw [if_neg Bool.false_ne_true, if_pos Bool.not_false, List.any_cons, Bool.or_left_comm]
      · rw [if_pos rfl, if_neg (by simp), List.any_cons, Bool.or_assoc]

theorem any_eq_of_forall₂ {α β : Type} {R : α → β → Prop} {f : α → Bool} {g : β → Bool} {as : List α}
    {bs : List β} (h : List.Forall₂ R as bs) (hR : ∀ a ∈ as, ∀ b, R a b → g b = f a) :
    bs.any g = as.any f := by
  induction h with
  | nil => rfl
  | cons hfirst _ ih =>
      rw [List.any_cons, List.any_cons, hR _ List.mem_cons_self _ hfirst,
        ih fun a ha => hR a (List.mem_cons_of_mem _ ha)]

/-- Methods lowered in turn assign what each of them does. -/
theorem methods_assign {methods : List Method} (hn : n.Regular) (hmethods : ∀ m ∈ methods, m.Regular)
    (hname : '(' ∈ name.toList) {docs : List Doc}
    (h : (methods.mapM (lowerMethod job n)).run s = (.ok docs, t)) :
    (Doc.concat docs).assigns (prototypeSlot n name) =
      methods.any fun m => !m.isStatic && decide (methodName m = name) := by
  obtain ⟨hdocs, -⟩ := forall₂_of_run_mapM_ok (R := fun m d => ∃ s t,
    (lowerMethod job n m).run s = (.ok d, t)) (P := fun _ _ => True) (fun _ => trivial)
    (fun _ _ => trivial) (fun hrun => ⟨⟨_, _, hrun⟩, trivial⟩) h
  rw [Doc.assigns_concat]
  refine any_eq_of_forall₂ hdocs fun m hm d hd => ?_
  obtain ⟨s, t, hrun⟩ := hd
  exact lowerMethod_assigns_iff hn (hmethods m hm) hname hrun

end Classes

section Documents

variable {job : Job} {c : Class} {name : String} {s t : State} {d : Doc}

/-- The document of a class assigns a slot with a descriptor on the prototype if
the class declares a method of objects for it, and only then. -/
theorem lowerClass_assigns (hregular : job.program.Regular) (hc : c ∈ job.program.classes)
    (hs : AllMadeOf s.fieldNames) (h : (lowerClass job c).run s = (.ok d, t))
    (hname : '(' ∈ name.toList) :
    d.assigns (prototypeSlot c.name name) =
      c.methods.any fun m => !m.isStatic && decide (methodName m = name) := by
  have hn := hregular.classes c hc
  have hmethods := hregular.methods c hc
  simp only [lowerClass] at h
  obtain ⟨parent, u, hparent, h⟩ := exists_of_run_bind_ok h
  obtain ⟨defaults, v, hdefaults, h⟩ := exists_of_run_bind_ok h
  obtain ⟨related, w, -, h⟩ := exists_of_run_bind_ok h
  obtain ⟨staticInit, x, hstatic, h⟩ := exists_of_run_bind_ok h
  obtain ⟨inits, y, hinits, h⟩ := exists_of_run_bind_ok h
  obtain ⟨others, z, hothers, h⟩ := exists_of_run_bind_ok h
  obtain ⟨rfl, -⟩ := eq_of_run_pure h
  have hfields : ∀ f ∈ c.instanceFields ++ (job.program.ancestors c).flatMap (·.instanceFields),
      '(' ∉ f.name.toList := by
    intro f hf
    rcases List.mem_append.1 hf with hown | hinherited
    · exact hregular.fields c hc f (List.mem_filter.1 hown).1
    · obtain ⟨e, he, hmem⟩ := List.mem_flatMap.1 hinherited
      exact hregular.fields e (Program.mem_classes_of_mem_ancestors he) f (List.mem_filter.1 hmem).1
  obtain rfl := (Immediate.parentBase job c).state_eq hparent
  obtain ⟨htexts, -⟩ := forall_mem_of_run_mapM_ok (fun f hf text s t hs hrun =>
    ⟨fieldDefault_run hs (hfields f hf) hrun, (Assembled.fieldDefault f).allMadeOf hs hrun⟩)
    hs hdefaults
  have hconstructor : (Doc.block ("function " ++ c.name.identifier ++ "()") .empty "").assigns
      (prototypeSlot c.name name) = false := by
    rw [Doc.assigns_block, assignsTo_constructor, Doc.assigns_empty, Bool.and_false, Bool.or_false]
  have habstract : (if c.isAbstract then Doc.line "// ABSTRACT" else .empty).assigns
      (prototypeSlot c.name name) = false := by
    split
    · exact (isAccess_member hn false name).assignsTo_comment rfl
    · rfl
  have hdefault : (Doc.lines (defaults.map fun text =>
      c.name.identifier ++ ".prototype" ++ text ++ ";")).assigns (prototypeSlot c.name name) = false := by
    rw [Doc.assigns_lines, List.any_map, List.any_eq_false]
    intro text htext
    obtain ⟨given, value, hgiven, rfl⟩ := htexts text htext
    rw [Function.comp_apply, assignsTo_default hname hgiven]
    exact Bool.false_ne_true
  have hinit := methods_assign hn (fun m hm => hmethods m (List.mem_filter.1 hm).1) hname hinits
  have hother := methods_assign hn (fun m hm => hmethods m (List.mem_filter.1 hm).1) hname hothers
  simp only [Doc.assigns_append, habstract, hconstructor, hdefault, Doc.assigns_line,
    lowerStaticInit_assigns hn hname hstatic, hinit, hother]
  simp only [String.append_assoc]
  rw [assignsTo_word hname, assignsTo_word hname, assignsTo_word hname, assignsTo_word hname]
  · simp only [Bool.false_or, any_filter_or]
  all_goals decide

end Documents

end Emission

end ClassScript
