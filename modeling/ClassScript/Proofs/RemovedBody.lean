import ClassScript.Proofs.AlikeClasses
import ClassScript.Proofs.EmissionOrder
import ClassScript.Proofs.RevisedLowering

/-!
A program and the same program without the body of one method. Its classes are
emitted in the same order, and every other method finds the same body, if no method
shares the one that is gone.
-/

namespace ClassScript

/-- The class without the body of its method at that index. -/
def Class.withoutBody (c : Class) (i : Nat) : Class :=
  { c with methods := c.methods.modify i Method.bodiless }

/-- The class without that body if it is the one of that name. -/
def bodyRemoved (name : ClassName) (i : Nat) (c : Class) : Class :=
  if c.name = name then c.withoutBody i else c

section Removal

variable (name : ClassName) (i : Nat)

theorem Class.outline_withoutBody (c : Class) : (c.withoutBody i).outline = c.outline := by
  have hmethods : (c.methods.modify i Method.bodiless).map Method.bodiless =
      c.methods.map Method.bodiless := by
    apply List.ext_getElem?
    intro j
    rw [List.getElem?_map, List.getElem?_map, List.getElem?_modify]
    cases c.methods[j]? with
    | none => rfl
    | some m =>
        change some (if i = j then m.bodiless else m).bodiless = some m.bodiless
        split
        · rfl
        · rfl
  exact congrArg (fun methods => { c with methods }) hmethods

theorem revisesBodies_bodyRemoved : RevisesBodies (bodyRemoved name i) := by
  intro c
  unfold bodyRemoved
  split
  · exact c.outline_withoutBody i
  · rfl

theorem bodyRemoved_own {c : Class} : bodyRemoved c.name i c = c.withoutBody i := if_pos rfl

variable {name} in
theorem bodyRemoved_other {c : Class} (h : c.name ≠ name) : bodyRemoved name i c = c := if_neg h

/-- The program in which the method at that index of the class of that name has no
body. -/
def Program.withoutBody (p : Program) : Program where
  classes := p.classes.map (bodyRemoved name i)
  entry := p.entry
  customMains := p.customMains
  distinct := by
    rw [List.map_map]
    exact (List.map_congr_left fun c _ => (revisesBodies_bodyRemoved name i).name c) ▸ p.distinct
  hasEntry := by
    rw [List.map_map]
    exact (List.map_congr_left fun c _ => (revisesBodies_bodyRemoved name i).name c) ▸ p.hasEntry

theorem Program.revised_withoutBody (p : Program) :
    p.Revised (bodyRemoved name i) (p.withoutBody name i) where
  classes := .refl _
  entry := rfl
  customMains := rfl
  bodies := revisesBodies_bodyRemoved name i

variable {name} in
/-- Of classes with different names, it changes this one. -/
theorem exists_split_bodyRemoved {classes : List Class} (hnodup : (classes.map Class.name).Nodup)
    {c : Class} (hc : c ∈ classes) :
    ∃ front back, classes = front ++ c :: back ∧
      classes.map (bodyRemoved c.name i) = front ++ c.withoutBody i :: back ∧
      ∀ d ∈ front ++ back, d.name ≠ c.name := by
  obtain ⟨front, back, rfl⟩ := List.append_of_mem hc
  rw [List.map_append, List.map_cons, List.nodup_middle, List.nodup_cons, ← List.map_append] at hnodup
  have hothers : ∀ d ∈ front ++ back, d.name ≠ c.name :=
    fun d hd hname => hnodup.1 (hname ▸ List.mem_map_of_mem hd)
  obtain ⟨hfront, hback⟩ := List.forall_mem_append.1 hothers
  have hsame : ∀ {rest : List Class}, (∀ d ∈ rest, d.name ≠ c.name) →
      rest.map (bodyRemoved c.name i) = rest := fun hrest =>
    (List.map_congr_left fun d hd => bodyRemoved_other i (hrest d hd)).trans (List.map_id _)
  refine ⟨front, back, rfl, ?_, hothers⟩
  rw [List.map_append, List.map_cons, hsame hfront, hsame hback, bodyRemoved_own]

end Removal

section Order

variable {f : Class → Class} (hf : RevisesBodies f)

include hf

theorem redrawn_map (pool : List Class) : Redrawn f pool (pool.map f) := by
  intro name
  have hname : (fun c : Class => decide (c.name = name)) ∘ f = fun c => decide (c.name = name) := by
    funext c
    simp only [Function.comp_apply, hf.name]
  rw [draw?, List.find?_map, hname]
  rfl

/-- Classes whose bodies change are emitted in the same order. -/
theorem Program.emissionOrder_map {p q : Program} (h : q.classes = p.classes.map f) :
    q.emissionOrder = p.emissionOrder.map f := by
  have hemitted : q.emitted = p.emitted.map f := by
    rw [emitted, h, List.filter_map, emitted]
    simp only [Function.comp_def, hf.isNative]
  have hpending : ∀ placed, q.pending (placed.map f) = (p.pending placed).map f := by
    intro placed
    rw [pending, hemitted, List.filter_map, pending]
    simp only [Function.comp_def, List.all_map, hf.name]
  have hnext : ∀ placed c, q.placeNext (placed.map f) (f c) = (p.placeNext placed c).map f := by
    intro placed c
    rw [placeNext, hpending, hf.name, climb_redrawn hf (redrawn_map hf _), placeNext, List.map_append,
      List.map_reverse]
  have hplaced : ∀ rest placed : List Class, (rest.map f).foldl q.placeNext (placed.map f) =
      (rest.foldl p.placeNext placed).map f := by
    intro rest
    induction rest with
    | nil => exact fun _ => rfl
    | cons c rest ih =>
        intro placed
        rw [List.map_cons, List.foldl_cons, hnext, ih, List.foldl_cons]
  rw [emissionOrder_eq, emissionOrder_eq, hemitted]
  exact hplaced p.emitted []

end Order

section Sharing

variable {p : Program} {c : Class} {i : Nat} {m : Method}

/-- The method at an index and its neighbours, with the method or without its body. -/
theorem Class.split_methods (h : c.methods[i]? = some m) :
    c.methods = c.methods.take i ++ m :: c.methods.drop (i + 1) ∧
      (c.withoutBody i).methods = c.methods.take i ++ m.bodiless :: c.methods.drop (i + 1) := by
  obtain ⟨hlt, hm⟩ := List.getElem?_eq_some_iff.1 h
  refine ⟨?_, ?_⟩
  · rw [← hm, List.getElem_cons_drop, List.take_append_drop]
  · rw [withoutBody, List.modify_eq_take_cons_drop hlt, hm]

/-- A method is found as before, unless it is the one whose body is gone. -/
theorem Class.method?_withoutBody (h : c.methods[i]? = some m) (name descriptor : String) :
    (c.withoutBody i).method? name descriptor = c.method? name descriptor ∨
      c.method? name descriptor = some m ∧ m ∉ c.methods.take i := by
  obtain ⟨hmethods, hwithout⟩ := c.split_methods h
  have hsame : m.bodiless.answers name descriptor = m.answers name descriptor := rfl
  have hfound : c.method? name descriptor =
      ((c.methods.take i).find? (·.answers name descriptor)).or
        ((m :: c.methods.drop (i + 1)).find? (·.answers name descriptor)) := by
    rw [← List.find?_append, ← hmethods]
    rfl
  rw [method?, hwithout, List.find?_append, hfound]
  cases hbefore : (c.methods.take i).find? (·.answers name descriptor) with
  | some found => exact .inl rfl
  | none =>
      rw [Option.none_or, Option.none_or, List.find?_cons, List.find?_cons, hsame]
      cases hanswers : m.answers name descriptor with
      | false => exact .inl rfl
      | true =>
          refine .inr ⟨rfl, fun hmem => ?_⟩
          simpa [hanswers] using List.find?_eq_none.1 hbefore m hmem

/-- A reference resolves as before, unless it means the method whose body is gone
and no equal one before it. -/
theorem Program.resolve_withoutBody (hc : c ∈ p.classes) (h : c.methods[i]? = some m) {r : MethodRef}
    (hr : p.resolve r = some m → m ∈ c.methods.take i) :
    (p.withoutBody c.name i).resolve r = p.resolve r := by
  have hsearch : ∀ classes : List Class, (∀ d ∈ classes, d ∈ p.classes) →
      (classes.findSome? (·.method? r.name r.descriptor) = some m → m ∈ c.methods.take i) →
      (classes.findSome? fun d => (bodyRemoved c.name i d).method? r.name r.descriptor) =
        classes.findSome? (·.method? r.name r.descriptor) := by
    intro classes hclasses htwin
    induction classes with
    | nil => rfl
    | cons d rest ih =>
        have hfirst : (bodyRemoved c.name i d).method? r.name r.descriptor =
            d.method? r.name r.descriptor := by
          by_cases hname : d.name = c.name
          · obtain rfl := eq_of_name_eq (hclasses d List.mem_cons_self) hc hname
            rw [bodyRemoved_own]
            rcases d.method?_withoutBody h r.name r.descriptor with hsame | ⟨hfound, hnew⟩
            · exact hsame
            · refine absurd (htwin ?_) hnew
              rw [List.findSome?_cons, hfound]
          · rw [bodyRemoved_other i hname]
        rw [List.findSome?_cons, List.findSome?_cons, hfirst]
        cases hfound : d.method? r.name r.descriptor with
        | some found => rfl
        | none =>
            rw [List.findSome?_cons, hfound] at htwin
            exact ih (fun e he => hclasses e (List.mem_cons_of_mem _ he)) htwin
  rw [resolve, findMethod] at hr
  rw [resolve, (p.revised_withoutBody c.name i).findMethod_eq, resolve, findMethod]
  cases hd : p.class? r.owner with
  | none => rfl
  | some d =>
      have hmem : d ∈ p.classes := List.mem_of_find?_eq_some hd
      cases hrelated : p.related d with
      | error name => simp [hrelated, Except.toOption]
      | ok classes =>
          simp only [hd, hrelated, Except.toOption, Option.bind_eq_bind, Option.bind_some] at hr ⊢
          exact hsearch classes (fun e he => mem_classes_of_mem_related hmem hrelated he) hr

end Sharing

end ClassScript
