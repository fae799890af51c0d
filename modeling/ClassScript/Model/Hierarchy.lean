import ClassScript.Model.Program

/-!
Questions about the class hierarchy. Cycles are allowed, so every walk draws
its classes from a pool: a class that has been visited leaves the pool, absent
classes were never in it, and the walk ends because the pool shrinks.
-/

namespace ClassScript

/-- The pool without the class of that name. -/
def without (pool : List Class) (name : ClassName) : List Class :=
  pool.filter (·.name ≠ name)

/-- The class of that name in the pool. -/
def draw? (pool : List Class) (name : ClassName) : Option Class :=
  pool.find? (·.name = name)

theorem length_without_lt {pool : List Class} {name : ClassName} {c : Class}
    (h : draw? pool name = some c) : (without pool name).length < pool.length := by
  have hmem : c ∈ pool := List.mem_of_find?_eq_some h
  have hname : c.name = name := by simpa using List.find?_some h
  simp only [without, List.length_filter_lt_length_iff_exists]
  exact ⟨c, hmem, by simp [hname]⟩

/-- The chain of superclasses from a name upwards, as far as the pool goes. -/
def climb (pool : List Class) (next : Option ClassName) : List Class :=
  match next with
  | none => []
  | some name =>
      match _h : draw? pool name with
      | none => []
      | some c => c :: climb (without pool name) c.parent
termination_by pool.length
decreasing_by exact length_without_lt (by assumption)

namespace Program

/-- The superclasses of a class, nearest first and without the class itself,
up to the first one that the program lacks. -/
def ancestors (p : Program) (c : Class) : List Class :=
  climb (without p.classes c.name) c.parent

/-- The classes in the pool that a queue of names leads to, breadth first. A
name that the program lacks ends the search. -/
def explore (p : Program) (pool : List Class) (queue : List ClassName) :
    Except ClassName (List Class) :=
  match queue with
  | [] => .ok []
  | name :: rest =>
      if (p.class? name).isNone then .error name
      else
        match _h : draw? pool name with
        | none => p.explore pool rest
        | some c => do
            let others ← p.explore (without pool name) (rest ++ c.interfaces)
            return c :: others
termination_by (pool.length, queue.length)
decreasing_by
  · exact Prod.Lex.right _ (by simp)
  · exact Prod.Lex.left _ _ (length_without_lt (by assumption))

/-- The class, its ancestors, and then every interface that any of these
implements, directly or through others. The error names an absent interface. -/
def related (p : Program) (c : Class) : Except ClassName (List Class) := do
  let line := c :: p.ancestors c
  let pool := p.classes.filter fun d => line.all (·.name ≠ d.name)
  let interfaces ← p.explore pool (line.flatMap (·.interfaces))
  return line ++ interfaces

/-- Depth-first search for a field through the classes of the pool: a class,
its interfaces in order, then its superclass. -/
def searchField (r : FieldRef) (pool : List Class) (stack : List ClassName) : Option Field :=
  match stack with
  | [] => none
  | name :: rest =>
      match _h : draw? pool name with
      | none => searchField r pool rest
      | some c =>
          match c.field? r with
          | some f => some f
          | none => searchField r (without pool name) (c.interfaces ++ c.parent.toList ++ rest)
termination_by (pool.length, stack.length)
decreasing_by
  · exact Prod.Lex.right _ (by simp)
  · exact Prod.Lex.left _ _ (length_without_lt (by assumption))

/-- The field that a reference means. -/
def findField (p : Program) (r : FieldRef) : Option Field :=
  searchField r p.classes [r.owner]

/-- The method of that name and descriptor nearest to a class: its own, an
ancestor's or an interface's. Any absent interface makes the lookup fail. -/
def findMethod (p : Program) (owner : ClassName) (name descriptor : String) : Option Method := do
  let c ← p.class? owner
  let classes ← (p.related c).toOption
  classes.findSome? (·.method? name descriptor)

/-- The method that a reference means. -/
def resolve (p : Program) (r : MethodRef) : Option Method :=
  p.findMethod r.owner r.name r.descriptor

/-- Classes to emit, each after its superclass. A class is placed with those of
its superclasses that are not yet placed; native classes are left out and
impose no order. -/
def emissionOrder (p : Program) : List Class :=
  let drawn := p.classes.filter (!·.isNative)
  drawn.foldl (fun placed c =>
    let pending := drawn.filter fun d => placed.all (·.name ≠ d.name)
    placed ++ (climb pending (some c.name)).reverse) []

end Program

end ClassScript
