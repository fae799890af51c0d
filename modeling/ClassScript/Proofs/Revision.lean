import ClassScript.Proofs.FieldLookup

/-!
A program and a revision of it: the same classes in any order, with other bodies of
methods. Classes are only ever found by their names, and no walk of the hierarchy
looks into a body. So every question about the hierarchy has the same answer in
both, up to the bodies.
-/

namespace ClassScript

/-- The method without its body. -/
def Method.bodiless (m : Method) : Method := { m with body := none }

/-- What other classes can see of a class: all but the bodies of its methods. -/
def Class.outline (c : Class) : Class := { c with methods := c.methods.map Method.bodiless }

/-- The function changes bodies and nothing else. -/
def RevisesBodies (f : Class → Class) : Prop :=
  ∀ c, (f c).outline = c.outline

namespace RevisesBodies

variable {f : Class → Class} (h : RevisesBodies f)

include h

theorem name (c : Class) : (f c).name = c.name := (congrArg Class.name (h c) :)

theorem parent (c : Class) : (f c).parent = c.parent := (congrArg Class.parent (h c) :)

theorem interfaces (c : Class) : (f c).interfaces = c.interfaces := (congrArg Class.interfaces (h c) :)

theorem links (c : Class) : (f c).links = c.links := by
  rw [Class.links, Class.links, h.interfaces, h.parent]

theorem id (c : Class) : (f c).id = c.id := (congrArg Class.id (h c) :)

theorem kind (c : Class) : (f c).kind = c.kind := (congrArg Class.kind (h c) :)

theorem fields (c : Class) : (f c).fields = c.fields := (congrArg Class.fields (h c) :)

theorem isNative (c : Class) : (f c).isNative = c.isNative := (congrArg Class.isNative (h c) :)

theorem methods (c : Class) :
    (f c).methods.map Method.bodiless = c.methods.map Method.bodiless :=
  congrArg Class.methods (h c)

/-- The method that a class has under a name is the same but for its body. -/
theorem method? (c : Class) (name descriptor : String) :
    ((f c).method? name descriptor).map Method.bodiless =
      (c.method? name descriptor).map Method.bodiless := by
  have hfind : ∀ methods : List Method,
      (methods.find? (·.answers name descriptor)).map Method.bodiless =
        (methods.map Method.bodiless).find? (·.answers name descriptor) := by
    intro methods
    rw [List.find?_map]
    rfl
  rw [Class.method?, Class.method?, hfind, hfind, h.methods]

end RevisesBodies

theorem revisesBodies_id : RevisesBodies id := fun _ => rfl

/-- The second pool has under every name the revision of what the first has. -/
def Redrawn (f : Class → Class) (pool pool' : List Class) : Prop :=
  ∀ name, draw? pool' name = (draw? pool name).map f

theorem draw?_without_self (pool : List Class) (name : ClassName) :
    draw? (without pool name) name = none := by
  rw [draw?, List.find?_eq_none]
  intro c hc
  simpa using (mem_without.1 hc).2

theorem Redrawn.without {f : Class → Class} {pool pool' : List Class} (h : Redrawn f pool pool')
    (name : ClassName) : Redrawn f (without pool name) (without pool' name) := by
  intro other
  by_cases hname : other = name
  · rw [hname, draw?_without_self, draw?_without_self]
    rfl
  · rw [draw?_without hname, draw?_without hname, h other]

/-- Two searches that find the same up to a function at every item. -/
theorem findSome?_map_congr {α β γ : Type} {find find' : α → Option β} {g : β → γ}
    (h : ∀ a, (find a).map g = (find' a).map g) (items : List α) :
    (items.findSome? find).map g = (items.findSome? find').map g := by
  induction items with
  | nil => rfl
  | cons a rest ih =>
      have hfirst := h a
      rw [List.findSome?_cons, List.findSome?_cons]
      cases hfind : find a with
      | none =>
          rw [hfind, Option.map_none, eq_comm, Option.map_eq_none_iff] at hfirst
          rw [hfirst]
          exact ih
      | some b =>
          rw [hfind, Option.map_some, eq_comm, Option.map_eq_some_iff] at hfirst
          obtain ⟨b', hb', hsame⟩ := hfirst
          rw [hb', Option.map_some, Option.map_some, hsame]

/-- The second program has the classes of the first, revised and in any order. -/
structure Program.Revised (f : Class → Class) (p q : Program) : Prop where
  classes : q.classes.Perm (p.classes.map f)
  entry : q.entry = p.entry
  customMains : q.customMains = p.customMains
  bodies : RevisesBodies f

section Walks

variable {f : Class → Class} (hf : RevisesBodies f)

include hf

theorem Redrawn.outside {pool pool' : List Class} (h : Redrawn f pool pool') (classes : List Class) :
    Redrawn f (outside pool classes) (outside pool' (classes.map f)) := by
  induction classes generalizing pool pool' with
  | nil => simpa using h
  | cons c rest ih =>
      rw [List.map_cons, outside_cons, outside_cons, hf.name]
      exact ih (h.without c.name)

theorem climb_redrawn {pool pool' : List Class} (h : Redrawn f pool pool')
    (next : Option ClassName) : climb pool' next = (climb pool next).map f := by
  fun_induction climb pool next generalizing pool' with
  | case1 => rw [climb_none, List.map_nil]
  | case2 pool name hnone =>
      have hnone' : draw? pool' name = none := by rw [h name, hnone, Option.map_none]
      rw [climb_absent hnone', List.map_nil]
  | case3 pool name c hc ih =>
      have hsome : draw? pool' name = some (f c) := by rw [h name, hc, Option.map_some]
      rw [climb_present hsome, hf.parent, ih (h.without name), List.map_cons]

theorem searchField_redrawn {r : FieldRef} {pool pool' : List Class} (h : Redrawn f pool pool')
    (stack : List ClassName) :
    Program.searchField r pool' stack = Program.searchField r pool stack := by
  have hfield : ∀ c : Class, (f c).field? r = c.field? r := fun c => by
    rw [Class.field?, Class.field?, hf.fields]
  fun_induction Program.searchField r pool stack generalizing pool' with
  | case1 pool => rw [Program.searchField_nil]
  | case2 pool name rest hnone ih =>
      have hnone' : draw? pool' name = none := by rw [h name, hnone, Option.map_none]
      rw [Program.searchField_absent hnone', ih h]
  | case3 pool name rest c hc found hfound =>
      have hsome : draw? pool' name = some (f c) := by rw [h name, hc, Option.map_some]
      rw [Program.searchField_present hsome, hfield, hfound, Option.some_or]
  | case4 pool name rest c hc hnone ih =>
      have hsome : draw? pool' name = some (f c) := by rw [h name, hc, Option.map_some]
      rw [Program.searchField_present hsome, hfield, hnone, Option.none_or, hf.links]
      exact ih (h.without name)

end Walks

namespace Program.Revised

variable {f : Class → Class} {p q : Program} (h : p.Revised f q)

include h

theorem redrawn : Redrawn f p.classes q.classes := by
  intro name
  cases hdraw : draw? p.classes name with
  | some c =>
      obtain ⟨hc, rfl⟩ := mem_of_draw? hdraw
      have hmem : f c ∈ q.classes := h.classes.mem_iff.2 (List.mem_map_of_mem hc)
      rw [← h.bodies.name c, draw?_name q.distinct hmem, Option.map_some]
  | none =>
      rw [Option.map_none, draw?, List.find?_eq_none]
      intro d hd
      obtain ⟨c, hc, rfl⟩ := List.mem_map.1 (h.classes.mem_iff.1 hd)
      simpa [h.bodies.name] using draw?_eq_none hdraw c hc

theorem class? (name : ClassName) : q.class? name = (p.class? name).map f :=
  h.redrawn name

theorem isNone_class? (name : ClassName) : (q.class? name).isNone = (p.class? name).isNone := by
  rw [h.class?, Option.isNone_map]

theorem ancestors (c : Class) : q.ancestors (f c) = (p.ancestors c).map f := by
  rw [Program.ancestors, Program.ancestors, h.bodies.name, h.bodies.parent]
  exact climb_redrawn h.bodies (h.redrawn.without c.name) c.parent

theorem explore {pool pool' : List Class} (hpool : Redrawn f pool pool') (queue : List ClassName) :
    q.explore pool' queue = (p.explore pool queue).map (List.map f) := by
  fun_induction p.explore pool queue generalizing pool' with
  | case1 pool =>
      rw [explore_nil]
      rfl
  | case2 pool name rest habsent =>
      rw [explore_absent ((h.isNone_class? name).trans habsent)]
      rfl
  | case3 pool name rest hpresent hnone ih =>
      have hnone' : draw? pool' name = none := by rw [hpool name, hnone, Option.map_none]
      rw [explore_visited (by rwa [h.isNone_class?]) hnone', ih hpool]
  | case4 pool name rest hpresent c hc ih =>
      have hsome : draw? pool' name = some (f c) := by rw [hpool name, hc, Option.map_some]
      rw [explore_fresh (by rwa [h.isNone_class?]) hsome, h.bodies.interfaces,
        ih (hpool.without name)]
      cases p.explore (ClassScript.without pool name) (rest ++ c.interfaces) <;> rfl

theorem related (c : Class) : q.related (f c) = (p.related c).map (List.map f) := by
  have hline : q.lineage (f c) = (p.lineage c).map f := congrArg (f c :: ·) (h.ancestors c)
  have hnames : (q.lineage (f c)).flatMap (·.interfaces) =
      (p.lineage c).flatMap (·.interfaces) := by
    rw [hline, List.flatMap_map]
    simp only [h.bodies.interfaces]
  have hsearch : q.explore (outside q.classes (q.lineage (f c)))
      ((q.lineage (f c)).flatMap (·.interfaces)) =
        (p.explore (outside p.classes (p.lineage c))
          ((p.lineage c).flatMap (·.interfaces))).map (List.map f) := by
    rw [hnames, hline]
    exact h.explore (h.redrawn.outside h.bodies _) _
  change (q.explore (outside q.classes (q.lineage (f c))) ((q.lineage (f c)).flatMap (·.interfaces)) >>=
    fun interfaces => Except.ok (q.lineage (f c) ++ interfaces)) = Except.map (List.map f)
      (p.explore (outside p.classes (p.lineage c)) ((p.lineage c).flatMap (·.interfaces)) >>=
        fun interfaces => Except.ok (p.lineage c ++ interfaces))
  rw [hsearch, hline]
  cases p.explore (outside p.classes (p.lineage c)) ((p.lineage c).flatMap (·.interfaces)) with
  | error name => rfl
  | ok interfaces => exact congrArg Except.ok (List.map_append ..).symm

theorem findField (r : FieldRef) : q.findField r = p.findField r :=
  searchField_redrawn h.bodies h.redrawn _

/-- Methods are looked for in the revisions of the classes that are related. -/
theorem findMethod_eq (owner : ClassName) (name descriptor : String) :
    q.findMethod owner name descriptor = (do
      let c ← p.class? owner
      let classes ← (p.related c).toOption
      classes.findSome? fun d => (f d).method? name descriptor) := by
  simp only [findMethod, h.class?]
  cases p.class? owner with
  | none => rfl
  | some c =>
      simp only [Option.map_some, Option.bind_eq_bind, Option.bind_some, h.related]
      cases p.related c with
      | error name => rfl
      | ok classes => exact List.findSome?_map ..

/-- The method that is found is the same but for its body. -/
theorem findMethod (owner : ClassName) (name descriptor : String) :
    (q.findMethod owner name descriptor).map Method.bodiless =
      (p.findMethod owner name descriptor).map Method.bodiless := by
  rw [h.findMethod_eq, Program.findMethod]
  cases p.class? owner with
  | none => rfl
  | some c =>
      cases hrelated : (p.related c).toOption with
      | none => simp [hrelated]
      | some classes =>
          simp only [Option.bind_eq_bind, Option.bind_some, hrelated]
          exact findSome?_map_congr (fun d => h.bodies.method? d name descriptor) classes

theorem resolve (r : MethodRef) :
    (q.resolve r).map Method.bodiless = (p.resolve r).map Method.bodiless :=
  h.findMethod ..

end Program.Revised

end ClassScript
