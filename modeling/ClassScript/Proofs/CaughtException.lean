import ClassScript.Proofs.Lineage
import ClassScript.Proofs.StatementRuns

/-!
What a body sees of the exceptions that it catches. All its handlers store theirs
in one variable when they are entered, and none of them puts back what was there
before. So a read shows the exception of the handler that was entered last, left
or not: in a handler, its own until another one inside it has been entered.
-/

namespace ClassScript.Output

/-- What opens a handler. -/
def handlerHead : String := "catch (J__i__exception__)"

/-- What stands in the handlers of a document, those inside others too. -/
def Doc.handlers : Doc → List Doc
  | .empty | .line _ | .mark _ => []
  | .seq first second => first.handlers ++ second.handlers
  | .block head body _ => (if head = handlerHead then [body] else []) ++ body.handlers
  | .indented body | .splice body => body.handlers

theorem Doc.handlers_lines (texts : List String) : (Doc.lines texts).handlers = [] := by
  induction texts with
  | nil => rfl
  | cons text rest ih => exact ih

theorem Doc.handlers_block {head : String} (h : head ≠ handlerHead) (body : Doc) (after : String) :
    (Doc.block head body after).handlers = body.handlers := by
  rw [Doc.handlers, if_neg h, List.nil_append]

end ClassScript.Output

namespace ClassScript.Emission

open Output

section Runs

variable {V : Type}

/-- What a run has to do with handlers: one is entered with an exception or
left, or the variable is read; it is null before the first of them. -/
inductive Handling (V : Type) where
  | entered (x : V)
  | left
  | read (seen : Option V)

/-- How a part of the text ends: with its end, with an exception, or with an exit
to somewhere around it. -/
inductive Ending (V : Type) where
  | done
  | thrown (x : V)
  | jumped

/-- The line starts with one of the words. -/
def StartsWith (words : List String) (text : String) : Prop :=
  ∃ word ∈ words, word.toList <+: text.toList

instance (words : List String) (text : String) : Decidable (StartsWith words text) :=
  inferInstanceAs (Decidable (∃ word ∈ words, _))

def jumpWords : List String := ["return ", "return;", "break ", "break;", "continue ", "continue;"]

/-- The ways in which a line can end. What it evaluates may always throw. -/
inductive LineEnds (text : String) : Ending V → Prop where
  | done (h : ¬ StartsWith ("throw " :: jumpWords) text) : LineEnds text .done
  | jumped (h : StartsWith jumpWords text) : LineEnds text .jumped
  | thrown (x : V) : LineEnds text (.thrown x)

/-- What evaluating a text with this value of the variable can do: read it, if it
is mentioned. -/
def Evaluates (text : String) (v : Option V) (events : List (Handling V)) : Prop :=
  (∀ e ∈ events, e = .read v) ∧ (events ≠ [] → exceptionSlot.toList <:+: text.toList)

/-- The ways in which a block can end with its body: an exit may end here. -/
inductive BlockEnds : Ending V → Ending V → Prop where
  | same (e : Ending V) : BlockEnds e e
  | here : BlockEnds .jumped .done

/-- What a handler does first. -/
def storeCaught : Doc := statement (exceptionSlot ++ " = J__i__exception__")

/-- The runs of a text, from one value of the variable to another, with what they
have to do with handlers. Which way a condition goes, what is thrown and where an
exit leads is left open; an indented part is an arm of a switch statement, which
need not be the one taken. The variable is only written where a handler starts by
storing its exception. -/
inductive Runs : Doc → Option V → List (Handling V) → Option V → Ending V → Prop where
  | empty {v : Option V} : Runs .empty v [] v .done
  | mark {m : Mark} {v : Option V} : Runs (.mark m) v [] v .done
  | line {text : String} {v : Option V} {events : List (Handling V)} {e : Ending V}
      (hreads : Evaluates text v events) (hend : LineEnds text e) : Runs (.line text) v events v e
  | next {d d' : Doc} {v w u : Option V} {events events' : List (Handling V)} {e : Ending V}
      (h : Runs d v events w .done) (h' : Runs d' w events' u e) :
      Runs (d ++ d') v (events ++ events') u e
  | cut {d d' : Doc} {v w : Option V} {events : List (Handling V)} {e : Ending V}
      (h : Runs d v events w e) (hend : e ≠ .done) : Runs (d ++ d') v events w e
  | arm {d : Doc} {v w : Option V} {events : List (Handling V)} {e : Ending V}
      (h : Runs d v events w e) : Runs (.indented d) v events w e
  | otherArm {d : Doc} {v : Option V} : Runs (.indented d) v [] v .done
  | spliced {d : Doc} {v w : Option V} {events : List (Handling V)} {e : Ending V}
      (h : Runs d v events w e) : Runs (.splice d) v events w e
  | passed {head after : String} {body : Doc} {v : Option V} {events : List (Handling V)}
      {e : Ending V} (hhead : head ≠ "try" ∧ head ≠ handlerHead) (hreads : Evaluates head v events)
      (hend : e ≠ .jumped) : Runs (.block head body after) v events v e
  | taken {head after : String} {body : Doc} {v w : Option V} {events events' : List (Handling V)}
      {e e' : Ending V} (hhead : head ≠ "try" ∧ head ≠ handlerHead)
      (hreads : Evaluates head v events) (h : Runs body v events' w e) (hend : BlockEnds e e') :
      Runs (.block head body after) v (events ++ events') w e'
  | again {head after : String} {body : Doc} {v w u : Option V}
      {events events' events'' : List (Handling V)} {e e' : Ending V}
      (hhead : head ≠ "try" ∧ head ≠ handlerHead) (hloop : "while (".toList <:+: head.toList)
      (hreads : Evaluates head v events) (h : Runs body v events' w e) (hend : BlockEnds e .done)
      (h' : Runs (.block head body after) w events'' u e') :
      Runs (.block head body after) v (events ++ (events' ++ events'')) u e'
  | tried {body handler : Doc} {after after' : String} {v w : Option V}
      {events : List (Handling V)} {e : Ending V} (h : Runs body v events w e)
      (hend : ∀ x, e ≠ .thrown x) :
      Runs (.block "try" body after ++ .block handlerHead handler after') v events w e
  | caught {body handler : Doc} {after after' : String} {v w u : Option V} {x : V}
      {events events' : List (Handling V)} {e : Ending V} (h : Runs body v events w (.thrown x))
      (h' : Runs handler (some x) events' u e) :
      Runs (.block "try" body after ++ .block handlerHead (storeCaught ++ handler) after') v
        (events ++ .entered x :: (events' ++ [.left])) u e
  | caughtBare {body handler : Doc} {after after' : String} {v w u : Option V} {x : V}
      {events events' : List (Handling V)} {e : Ending V} (h : Runs body v events w (.thrown x))
      (hbare : ∀ rest, handler ≠ storeCaught ++ rest) (h' : Runs handler w events' u e) :
      Runs (.block "try" body after ++ .block handlerHead handler after') v
        (events ++ .entered x :: (events' ++ [.left])) u e

end Runs

section Events

variable {V : Type}

/-- The exception of the handler entered last, or what was there before. -/
def lastCaught (v : Option V) : List (Handling V) → Option V
  | [] => v
  | .entered x :: rest => lastCaught (some x) rest
  | .left :: rest | .read _ :: rest => lastCaught v rest

/-- The exceptions of the handlers that are entered and not left, the innermost
first. -/
def openHandlers (opened : List V) : List (Handling V) → List V
  | [] => opened
  | .entered x :: rest => openHandlers (x :: opened) rest
  | .left :: rest => openHandlers opened.tail rest
  | .read _ :: rest => openHandlers opened rest

/-- Every handler that is entered is left, and no other. -/
def Balanced (events : List (Handling V)) : Prop :=
  ∀ opened, openHandlers opened events = opened

/-- Every read shows the exception of the handler entered last. -/
def ShowsLast (v : Option V) : List (Handling V) → Prop
  | [] => True
  | .entered x :: rest => ShowsLast (some x) rest
  | .left :: rest => ShowsLast v rest
  | .read seen :: rest => seen = v ∧ ShowsLast v rest

/-- Every read in a handler shows the exception with which the innermost handler
around it was entered. -/
def ShowsOwn : List V → List (Handling V) → Prop
  | _, [] => True
  | opened, .entered x :: rest => ShowsOwn (x :: opened) rest
  | opened, .left :: rest => ShowsOwn opened.tail rest
  | opened, .read seen :: rest => (∀ x ∈ opened.head?, seen = some x) ∧ ShowsOwn opened rest

theorem lastCaught_append (events events' : List (Handling V)) (v : Option V) :
    lastCaught v (events ++ events') = lastCaught (lastCaught v events) events' := by
  induction events generalizing v with
  | nil => rfl
  | cons e rest ih => cases e <;> exact ih _

theorem openHandlers_append (events events' : List (Handling V)) (opened : List V) :
    openHandlers opened (events ++ events') = openHandlers (openHandlers opened events) events' := by
  induction events generalizing opened with
  | nil => rfl
  | cons e rest ih => cases e <;> exact ih _

theorem showsLast_append {events events' : List (Handling V)} {v : Option V} :
    ShowsLast v (events ++ events') ↔
      ShowsLast v events ∧ ShowsLast (lastCaught v events) events' := by
  induction events generalizing v with
  | nil => exact ⟨fun h => ⟨trivial, h⟩, And.right⟩
  | cons e rest ih =>
      cases e with
      | entered x => exact ih
      | left => exact ih
      | read seen =>
          rw [List.cons_append, ShowsLast, ShowsLast, lastCaught, ih, and_assoc]

theorem showsOwn_append {events events' : List (Handling V)} {opened : List V} :
    ShowsOwn opened (events ++ events') ↔
      ShowsOwn opened events ∧ ShowsOwn (openHandlers opened events) events' := by
  induction events generalizing opened with
  | nil => exact ⟨fun h => ⟨trivial, h⟩, And.right⟩
  | cons e rest ih =>
      cases e with
      | entered x => exact ih
      | left => exact ih
      | read seen =>
          rw [List.cons_append, ShowsOwn, ShowsOwn, openHandlers, ih, and_assoc]

theorem balanced_nil : Balanced ([] : List (Handling V)) := fun _ => rfl

theorem Balanced.append {events events' : List (Handling V)} (h : Balanced events)
    (h' : Balanced events') : Balanced (events ++ events') := by
  intro opened
  rw [openHandlers_append, h, h']

/-- What happens in a handler, with entering and leaving it. -/
theorem Balanced.handler {events : List (Handling V)} (h : Balanced events) (x : V) :
    Balanced (.entered x :: (events ++ [.left])) := by
  intro opened
  rw [openHandlers, openHandlers_append, h]
  rfl

/-- Events that are reads of one value, such as those of an expression. -/
theorem openHandlers_reads {events : List (Handling V)} {v : Option V}
    (h : ∀ e ∈ events, e = .read v) : Balanced events := by
  induction events with
  | nil => exact balanced_nil
  | cons e rest ih =>
      obtain ⟨rfl, hrest⟩ := List.forall_mem_cons.1 h
      exact ih hrest

theorem lastCaught_reads {events : List (Handling V)} {v : Option V}
    (h : ∀ e ∈ events, e = .read v) (w : Option V) : lastCaught w events = w := by
  induction events with
  | nil => rfl
  | cons e rest ih =>
      obtain ⟨rfl, hrest⟩ := List.forall_mem_cons.1 h
      exact ih hrest

theorem showsLast_reads {events : List (Handling V)} {v : Option V}
    (h : ∀ e ∈ events, e = .read v) : ShowsLast v events := by
  induction events with
  | nil => trivial
  | cons e rest ih =>
      obtain ⟨rfl, hrest⟩ := List.forall_mem_cons.1 h
      exact ⟨rfl, ih hrest⟩

theorem showsOwn_reads {events : List (Handling V)} {v : Option V} {opened : List V}
    (h : ∀ e ∈ events, e = .read v) (hv : ∀ x ∈ opened.head?, v = some x) :
    ShowsOwn opened events := by
  induction events with
  | nil => trivial
  | cons e rest ih =>
      obtain ⟨rfl, hrest⟩ := List.forall_mem_cons.1 h
      exact ⟨hv, ih hrest⟩

theorem ShowsLast.seen {before after : List (Handling V)} {v seen : Option V}
    (h : ShowsLast v (before ++ .read seen :: after)) : seen = lastCaught v before :=
  (showsLast_append.1 h).2.1

/-- The innermost open handler was entered at some point, and since then every
other one that was entered has been left. -/
theorem entered_of_openHandlers {events : List (Handling V)} {x : V} {opened : List V}
    (h : openHandlers [] events = x :: opened) :
    ∃ before since, events = before ++ .entered x :: since ∧ Balanced since ∧
      openHandlers [] before = opened := by
  -- By the length: behind a handler that was left stands one that is shorter.
  induction hn : events.length using Nat.strongRecOn generalizing events x opened with
  | ind n ih =>
      obtain rfl | ⟨front, e, rfl⟩ := events.eq_nil_or_concat'
      · cases h
      · rw [List.length_append, List.length_singleton] at hn
        rw [openHandlers_append] at h
        cases e with
        | entered y =>
            obtain ⟨rfl, rfl⟩ := List.cons.inj h
            exact ⟨front, [], rfl, balanced_nil, rfl⟩
        | read seen =>
            obtain ⟨before, since, rfl, hsince, hbefore⟩ := ih _ (by omega) h rfl
            refine ⟨before, since ++ [.read seen], by simp, hsince.append fun _ => rfl, hbefore⟩
        | left =>
            have htail : (openHandlers [] front).tail = x :: opened := h
            cases hfront : openHandlers [] front with
            | nil =>
                rw [hfront] at htail
                cases htail
            | cons y others =>
                rw [hfront, List.tail_cons] at htail
                subst htail
                obtain ⟨middle, since', rfl, hsince', hmiddle⟩ := ih _ (by omega) hfront rfl
                have hshorter : middle.length < n := by
                  rw [List.length_append, List.length_cons] at hn
                  omega
                obtain ⟨before, since, rfl, hsince, hbefore⟩ := ih _ hshorter hmiddle rfl
                refine ⟨before, since ++ .entered y :: (since' ++ [.left]), by simp,
                  hsince.append (hsince'.handler y), hbefore⟩

end Events

section Invariants

variable {V : Type} {d : Doc} {v w : Option V} {events : List (Handling V)} {e : Ending V}

theorem Runs.balanced (h : Runs d v events w e) : Balanced events := by
  induction h with
  | empty | mark | otherArm => exact balanced_nil
  | line hreads _ => exact openHandlers_reads hreads.1
  | next _ _ ih ih' => exact ih.append ih'
  | cut _ _ ih | arm _ ih | spliced _ ih | tried _ _ ih => exact ih
  | passed _ hreads _ => exact openHandlers_reads hreads.1
  | taken _ hreads _ _ ih => exact (openHandlers_reads hreads.1).append ih
  | again _ _ hreads _ _ _ ih ih' => exact (openHandlers_reads hreads.1).append (ih.append ih')
  | caught _ _ ih ih' => exact ih.append (ih'.handler _)
  | caughtBare _ _ _ ih ih' => exact ih.append (ih'.handler _)

/-- In a text whose handlers all store their exception, the variable holds the one
of the handler entered last. -/
theorem Runs.showsLast (h : Runs d v events w e)
    (hstore : ∀ arm ∈ d.handlers, ∃ rest, arm = storeCaught ++ rest) :
    ShowsLast v events ∧ w = lastCaught v events := by
  induction h with
  | empty | mark | otherArm => exact ⟨trivial, rfl⟩
  | line hreads _ => exact ⟨showsLast_reads hreads.1, (lastCaught_reads hreads.1 _).symm⟩
  | passed _ hreads _ => exact ⟨showsLast_reads hreads.1, (lastCaught_reads hreads.1 _).symm⟩
  | arm _ ih | spliced _ ih => exact ih hstore
  | next _ _ ih ih' =>
      obtain ⟨hfirst, hsecond⟩ := List.forall_mem_append.1 hstore
      obtain ⟨hshows, rfl⟩ := ih hfirst
      obtain ⟨hshows', rfl⟩ := ih' hsecond
      exact ⟨showsLast_append.2 ⟨hshows, hshows'⟩, (lastCaught_append _ _ _).symm⟩
  | cut _ _ ih => exact ih (List.forall_mem_append.1 hstore).1
  | taken hhead hreads _ _ ih =>
      rw [Doc.handlers_block hhead.2] at hstore
      obtain ⟨hshows, rfl⟩ := ih hstore
      rw [showsLast_append, lastCaught_append, lastCaught_reads hreads.1]
      exact ⟨⟨showsLast_reads hreads.1, hshows⟩, rfl⟩
  | again hhead _ hreads _ _ _ ih ih' =>
      have hbody := hstore
      rw [Doc.handlers_block hhead.2] at hbody
      obtain ⟨hshows, rfl⟩ := ih hbody
      obtain ⟨hshows', rfl⟩ := ih' hstore
      rw [showsLast_append, showsLast_append, lastCaught_append, lastCaught_append,
        lastCaught_reads hreads.1]
      exact ⟨⟨showsLast_reads hreads.1, hshows, hshows'⟩, rfl⟩
  | tried _ _ ih =>
      exact ih (List.forall_mem_append.1 hstore).1
  | caught _ _ ih ih' =>
      obtain ⟨hbody, harm⟩ := List.forall_mem_append.1 hstore
      obtain ⟨hshows, rfl⟩ := ih hbody
      obtain ⟨hshows', rfl⟩ := ih' (List.forall_mem_append.1 harm).2
      refine ⟨showsLast_append.2 ⟨hshows, showsLast_append.2 ⟨hshows', trivial⟩⟩, ?_⟩
      rw [lastCaught_append, lastCaught, lastCaught_append]
      rfl
  | caughtBare _ hbare _ _ _ =>
      obtain ⟨-, harm⟩ := List.forall_mem_append.1 hstore
      obtain ⟨rest, hrest⟩ := harm _ List.mem_cons_self
      exact absurd hrest (hbare rest)

/-- A text without handlers only reads. -/
theorem Runs.reads (h : Runs d v events w e) (hnone : d.handlers = []) :
    w = v ∧ ∀ e ∈ events, e = .read v := by
  induction h with
  | empty | mark | otherArm => exact ⟨rfl, fun _ he => absurd he List.not_mem_nil⟩
  | line hreads _ => exact ⟨rfl, hreads.1⟩
  | passed _ hreads _ => exact ⟨rfl, hreads.1⟩
  | arm _ ih | spliced _ ih => exact ih hnone
  | next _ _ ih ih' =>
      obtain ⟨hfirst, hsecond⟩ := List.append_eq_nil_iff.1 hnone
      obtain ⟨rfl, hreads⟩ := ih hfirst
      obtain ⟨rfl, hreads'⟩ := ih' hsecond
      exact ⟨rfl, List.forall_mem_append.2 ⟨hreads, hreads'⟩⟩
  | cut _ _ ih => exact ih (List.append_eq_nil_iff.1 hnone).1
  | taken hhead hreads _ _ ih =>
      rw [Doc.handlers_block hhead.2] at hnone
      obtain ⟨rfl, hreads'⟩ := ih hnone
      exact ⟨rfl, List.forall_mem_append.2 ⟨hreads.1, hreads'⟩⟩
  | again hhead _ hreads _ _ _ ih ih' =>
      have hbody := hnone
      rw [Doc.handlers_block hhead.2] at hbody
      obtain ⟨rfl, hreads'⟩ := ih hbody
      obtain ⟨rfl, hreads''⟩ := ih' hnone
      exact ⟨rfl, List.forall_mem_append.2 ⟨hreads.1, List.forall_mem_append.2 ⟨hreads', hreads''⟩⟩⟩
  | tried _ _ _ | caught _ _ _ _ | caughtBare _ _ _ _ _ =>
      exact absurd (List.append_eq_nil_iff.1 hnone).2 (List.cons_ne_nil _ _)

/-- Without a handler inside another one, each sees its own exception. -/
theorem Runs.showsOwn (h : Runs d v events w e)
    (hstore : ∀ arm ∈ d.handlers, ∃ rest, arm = storeCaught ++ rest)
    (hflat : ∀ arm ∈ d.handlers, arm.handlers = []) : ShowsOwn [] events := by
  -- Outside of all handlers nothing is asked of a read, so the parts can be put together.
  have hreads : ∀ {u : Option V} {events : List (Handling V)},
      (∀ e ∈ events, e = .read u) → ShowsOwn [] events := fun h => showsOwn_reads h nofun
  have happend : ∀ {events events' : List (Handling V)}, Balanced events → ShowsOwn [] events →
      ShowsOwn [] events' → ShowsOwn [] (events ++ events') := by
    intro events events' hbalanced hfirst hsecond
    exact showsOwn_append.2 ⟨hfirst, by rwa [hbalanced]⟩
  induction h with
  | empty | mark | otherArm => trivial
  | line hline _ => exact hreads hline.1
  | passed _ hline _ => exact hreads hline.1
  | arm _ ih | spliced _ ih => exact ih hstore hflat
  | next h _ ih ih' =>
      obtain ⟨hstore, hstore'⟩ := List.forall_mem_append.1 hstore
      obtain ⟨hflat, hflat'⟩ := List.forall_mem_append.1 hflat
      exact happend h.balanced (ih hstore hflat) (ih' hstore' hflat')
  | cut _ _ ih =>
      exact ih (List.forall_mem_append.1 hstore).1 (List.forall_mem_append.1 hflat).1
  | taken hhead hline _ _ ih =>
      rw [Doc.handlers_block hhead.2] at hstore hflat
      exact happend (openHandlers_reads hline.1) (hreads hline.1) (ih hstore hflat)
  | again hhead _ hline h _ _ ih ih' =>
      have hrest := ih' hstore hflat
      rw [Doc.handlers_block hhead.2] at hstore hflat
      exact happend (openHandlers_reads hline.1) (hreads hline.1)
        (happend h.balanced (ih hstore hflat) hrest)
  | tried _ _ ih =>
      exact ih (List.forall_mem_append.1 hstore).1 (List.forall_mem_append.1 hflat).1
  | caught h h' ih _ =>
      obtain ⟨hstore, -⟩ := List.forall_mem_append.1 hstore
      obtain ⟨hflat, hflat'⟩ := List.forall_mem_append.1 hflat
      have hnone := hflat' (storeCaught ++ _) List.mem_cons_self
      have hinside : ShowsOwn [_] _ := showsOwn_reads (h'.reads hnone).2 fun x hx => hx
      exact happend h.balanced (ih hstore hflat) (showsOwn_append.2 ⟨hinside, trivial⟩)
  | caughtBare _ hbare _ _ _ =>
      obtain ⟨-, harm⟩ := List.forall_mem_append.1 hstore
      obtain ⟨rest, hrest⟩ := harm _ List.mem_cons_self
      exact absurd hrest (hbare rest)

end Invariants

section Lowering

variable {job : Job} {ctx : Context}

/-- Every handler of the text stores its exception and goes on with the document of
one of the handlers of these statements. -/
def HandlersOf (job : Job) (ctx : Context) (stmts : List Stmt) (d : Doc) : Prop :=
  ∀ arm ∈ d.handlers, ∃ body handler chain p doc q, Stmt.tryCatch body handler ∈ stmts ∧
    LowersStmt job ctx chain handler p doc q ∧ arm = storeCaught ++ doc

namespace HandlersOf

variable {stmts stmts' : List Stmt} {d d' : Doc}

theorem of_none (h : d.handlers = []) : HandlersOf job ctx stmts d := by
  intro arm harm
  rw [h] at harm
  cases harm

theorem line (text : String) : HandlersOf job ctx stmts (.line text) :=
  of_none rfl

theorem indented (h : HandlersOf job ctx stmts d) : HandlersOf job ctx stmts (.indented d) := h

theorem lines (texts : List String) : HandlersOf job ctx stmts (Doc.lines texts) :=
  of_none (Doc.handlers_lines texts)

theorem mono (h : HandlersOf job ctx stmts d) (hsub : stmts ⊆ stmts') :
    HandlersOf job ctx stmts' d := by
  intro arm harm
  obtain ⟨body, handler, chain, p, doc, q, hmem, hdoc⟩ := h arm harm
  exact ⟨body, handler, chain, p, doc, q, hsub hmem, hdoc⟩

theorem append (h : HandlersOf job ctx stmts d) (h' : HandlersOf job ctx stmts d') :
    HandlersOf job ctx stmts (d ++ d') := by
  intro arm harm
  rcases List.mem_append.1 harm with hfirst | hsecond
  · exact h arm hfirst
  · exact h' arm hsecond

/-- Of some statements, seen among more of them. -/
theorem left (h : HandlersOf job ctx stmts d) : HandlersOf job ctx (stmts ++ stmts') d :=
  h.mono (List.subset_append_left _ _)

theorem right (h : HandlersOf job ctx stmts' d) : HandlersOf job ctx (stmts ++ stmts') d :=
  h.mono (List.subset_append_right _ _)

theorem cons {s : Stmt} (h : HandlersOf job ctx stmts d) : HandlersOf job ctx (s :: stmts) d :=
  h.mono (List.subset_cons_self _ _)

theorem block (h : HandlersOf job ctx stmts d) (head after : String) (hhead : head ≠ handlerHead) :
    HandlersOf job ctx stmts (.block head d after) := by
  intro arm harm
  rw [Doc.handlers_block hhead] at harm
  exact h arm harm

/-- The default of a chain, which stands at its end, under an `else`, or not at all. -/
theorem last {otherwise : Stmt} (h : HandlersOf job ctx stmts d) (alone : Bool) :
    HandlersOf job ctx stmts
      (if alone then d else if otherwise.isEmpty then .empty else .block "else" d "") := by
  split
  · exact h
  · split
    · exact .of_none rfl
    · exact h.block "else" "" (by decide)

end HandlersOf

theorem ne_handlerHead_of_head {head : String} (h : head.toList.head? ≠ some 'c') :
    head ≠ handlerHead := by
  rintro rfl
  exact h rfl

theorem ne_handlerHead_of_colon {head : String} (h : ':' ∈ head.toList) : head ≠ handlerHead := by
  rintro rfl
  exact absurd h (by decide)

mutual

/-- The handlers in the text of a statement are those of the statements in it. -/
theorem LowersStmt.handlersOf {chain : Option Nat} {s : Stmt} {p q : Nat × State} {d : Doc}
    (h : LowersStmt job ctx chain s p d q) : HandlersOf job ctx s.substatements d := by
  cases h with
  | position _ _ _ _ => split <;> exact .of_none rfl
  | nop _ _ => exact .of_none rfl
  | line _ _ => exact .of_none rfl
  | block hbody => exact hbody.handlersOf.cons
  | when _ hyes => exact (hyes.handlersOf.block _ "" (ne_handlerHead_of_head (by simp))).cons
  | @choose _ _ _ _ _ _ _ _ _ c _ _ _ hyes hno =>
      have hfirst := hyes.handlersOf.block ("if (" ++ c ++ ")") "" (ne_handlerHead_of_head (by simp))
      have hsecond := hno.handlersOf.block "else" "" (by decide)
      exact (hfirst.left.append hsecond.right).cons
  | @loop _ label _ _ _ _ _ _ _ _ _ hbody =>
      refine (hbody.handlersOf.block _ "" ?_).cons
      cases label with
      | none => exact ne_handlerHead_of_head (by simp)
      | some label => exact ne_handlerHead_of_colon (by simp)
  | switch _ _ hcases hotherwise =>
      have hdefault := hotherwise.handlersOf.append (.line "break;")
      have hlabelled := hcases.handlersOf.append (.line "default:")
      have hall := hlabelled.left.append hdefault.indented.right
      exact (hall.block _ "" (ne_handlerHead_of_head (by simp))).cons
  | chain _ _ hcases hotherwise =>
      refine (HandlersOf.block ?_ _ "" (ne_handlerHead_of_colon (by simp))).cons
      exact ((HandlersOf.line _).append hcases.handlersOf.left).append
        (hotherwise.handlersOf.last _).right
  | @tryCatch chain body handler _ p q _ doc hbody hhandler =>
      have hfirst := hbody.handlersOf.block "try" "" (by decide)
      intro arm harm
      rcases List.mem_append.1 harm with hmem | hmem
      · exact hfirst.left.cons arm hmem
      · rcases List.mem_cons.1 hmem with rfl | hmem
        · exact ⟨body, handler, chain, _, doc, _, List.mem_cons_self, hhandler, rfl⟩
        · exact hhandler.handlersOf.right.cons arm hmem

theorem LowersStmts.handlersOf {chain : Option Nat} {body : List Stmt} {p q : Nat × State} {d : Doc}
    (h : LowersStmts job ctx chain body p d q) : HandlersOf job ctx (substatementsOfAll body) d := by
  cases h with
  | nil _ _ => exact .of_none rfl
  | cons hfirst hrest => exact hfirst.handlersOf.left.append hrest.handlersOf.right

theorem LowersArms.handlersOf {cases : List SwitchCase} {p q : Nat × State} {d : Doc}
    (h : LowersArms job ctx cases p d q) : HandlersOf job ctx (substatementsOfCases cases) d := by
  cases h with
  | nil _ => exact .of_none rfl
  | cons hbody hrest =>
      have harm := (hbody.handlersOf.append (.line "break;")).indented
      refine HandlersOf.append (HandlersOf.left ?_) hrest.handlersOf.right
      exact (HandlersOf.lines _).append harm

theorem LowersLinks.handlersOf : ∀ {n : Nat} {first : Bool} {cases : List SwitchCase}
    {p q : Nat × State} {d : Doc}, LowersLinks job ctx n first cases p d q →
      HandlersOf job ctx (substatementsOfCases cases) d
  | _, _, _, _, _, _, .nil _ _ _ => .of_none rfl
  | _, _, _, _, _, _, .skip hrest => hrest.handlersOf.right
  | _, first, _, _, _, _, .cons _ hbody hrest => by
      refine HandlersOf.append (HandlersOf.left ?_) hrest.handlersOf.right
      exact hbody.handlersOf.block _ "" (ne_handlerHead_of_head (by cases first <;> simp))

end

/-- So it is with a whole body: what stands before its statement has no handlers. -/
theorem lowerBody_handlers {owner : ClassName} {m : Method} {body : Body} {s t : State} {d : Doc}
    (h : (lowerBody job owner m body).run s = (.ok d, t)) :
    HandlersOf job ⟨⟨owner, m.name, m.type⟩, m.returnsThis⟩ body.stmt.substatements d := by
  obtain ⟨text, n, hstmt, rfl⟩ := lowersStmt_of_lowerBody h
  have hlocals : (declareLocals body.locals).handlers = [] := by
    cases body.locals <;> rfl
  have hslot : Doc.handlers (if body.hasTraps then Emission.statement ("var " ++ exceptionSlot ++ " = null")
      else .empty) = [] := by
    split <;> rfl
  exact (((HandlersOf.of_none hlocals).append (.of_none hslot)).append (.lines _)).append
    hstmt.handlersOf

end Lowering

end ClassScript.Emission

namespace ClassScript

/-- A handler with another one inside it. -/
def Stmt.nestsTraps : Stmt → Bool
  | .tryCatch _ handler => handler.substatements.any isTryCatch
  | _ => false

/-- Somewhere in the body a handler has another one inside it. -/
def Body.nestsTraps (b : Body) : Bool :=
  b.stmt.substatements.any Stmt.nestsTraps

namespace Emission

open Output

/-- What a read of the caught exception shows, in every run of a body's text: the
exception of the handler entered last. For a read in a handler this is the one with
which the innermost handler around it was entered, unless since then others were
entered and left; then it is that of the last of these. So in a body without a
handler inside another one, each handler sees its own. -/
theorem caught_shown {V : Type} {job : Job} {owner : ClassName} {m : Method} {body : Body}
    {s t : State} {d : Doc} (hbody : (lowerBody job owner m body).run s = (.ok d, t))
    {events : List (Handling V)} {last : Option V} {e : Ending V}
    (hrun : Runs d none events last e) :
    (∀ before seen after, events = before ++ .read seen :: after →
      seen = lastCaught none before ∧
        ∀ own opened, openHandlers [] before = own :: opened →
          ∃ outside inside, before = outside ++ .entered own :: inside ∧ Balanced inside ∧
            seen = lastCaught (some own) inside) ∧
      (body.nestsTraps = false → ShowsOwn [] events) := by
  have hhandlers := lowerBody_handlers hbody
  have hstore : ∀ arm ∈ d.handlers, ∃ rest, arm = storeCaught ++ rest := by
    intro arm harm
    obtain ⟨_, _, _, _, doc, _, -, -, rfl⟩ := hhandlers arm harm
    exact ⟨doc, rfl⟩
  constructor
  · rintro before seen after rfl
    have hseen := (hrun.showsLast hstore).1.seen
    refine ⟨hseen, fun own opened hopened => ?_⟩
    obtain ⟨outside, inside, rfl, hbalanced, -⟩ := entered_of_openHandlers hopened
    rw [lastCaught_append, lastCaught] at hseen
    exact ⟨outside, inside, rfl, hbalanced, hseen⟩
  · intro hflat
    refine hrun.showsOwn hstore fun arm harm => ?_
    obtain ⟨body', handler, chain, p, doc, q, hmem, hdoc, rfl⟩ := hhandlers arm harm
    have hnone : handler.substatements.any Stmt.isTryCatch = false := by
      simpa [Stmt.nestsTraps] using List.any_eq_false.1 hflat _ hmem
    -- A handler in the text would come from one among these statements.
    refine List.eq_nil_iff_forall_not_mem.2 fun inner hinner => ?_
    obtain ⟨_, _, _, _, _, _, hinside, -⟩ := hdoc.handlersOf inner hinner
    exact List.any_eq_false.1 hnone _ hinside rfl

/-- A method that throws its first parameter and catches that. -/
def catching (handler : Stmt) : Method where
  name := "run"
  owner := ⟨"Main"⟩
  type := ⟨[⟨"a", .ref ⟨"java.lang.Throwable"⟩⟩, ⟨"b", .ref ⟨"java.lang.Throwable"⟩⟩],
    .ref ⟨"java.lang.Throwable"⟩⟩
  isStatic := true
  role := .ordinary
  nativeName := none
  body := some ⟨[], .tryCatch (.throw (.param "a")) handler⟩
  bodyRef := none
  natives := []
  fluent := false

/-- Its text, in a program of one class without members. -/
def catchingDoc (handler : Doc) : Doc :=
  .empty ++ statement "var J__exception__ = null" ++ .empty ++
    (.block "try" (statement "throw a") "" ++ .block handlerHead (storeCaught ++ handler) "")

/-- A run of it comes to its handler with the parameter. -/
theorem runs_catchingDoc {handler : Doc} {events : List (Handling String)} {last : Option String}
    {e : Ending String} (h : Runs handler (some "a") events last e) :
    Runs (catchingDoc handler) none (.entered "a" :: (events ++ [.left])) last e := by
  have hthrow : Runs (statement "throw a") none [] none (.thrown "a") := .line ⟨nofun, nofun⟩ (.thrown "a")
  have hslot : Runs (statement "var J__exception__ = null") (none : Option String) [] none .done :=
    .line ⟨nofun, nofun⟩ (.done (by decide))
  exact ((Runs.empty.next hslot).next .empty).next (hthrow.caught h)

/-- A handler that ends with this line returns what is in the variable. -/
theorem runs_returnCaught (x : String) :
    Runs (statement "return J__exception__") (some x) [.read (some x)] (some x) .jumped :=
  .line ⟨by simp, fun _ => ⟨"return ".toList, ";".toList, by decide⟩⟩ (.jumped (by decide))

/-- A handler that returns what it has caught sees its own exception. -/
theorem caught_shown_returned :
    let body : Body := ⟨[], .tryCatch (.throw (.param "a")) (.ret (some .caught))⟩
    (lowerBody ⟨.bare "Main", {}, plainTemplater⟩ ⟨"Main"⟩ (catching (.ret (some .caught))) body).run
      .initial = (.ok (catchingDoc (statement "return J__exception__")), .initial) ∧
    Runs (catchingDoc (statement "return J__exception__")) none
      [.entered "a", .read (some "a"), .left] (some "a") .jumped ∧
    ShowsOwn [] [.entered "a", .read (some "a"), .left] := by
  intro body
  have hbody : (lowerBody ⟨.bare "Main", {}, plainTemplater⟩ ⟨"Main"⟩
      (catching (.ret (some .caught))) body).run .initial =
        (.ok (catchingDoc (statement "return J__exception__")), .initial) := rfl
  have hrun := runs_catchingDoc (runs_returnCaught "a")
  exact ⟨hbody, hrun, (caught_shown hbody hrun).2 rfl⟩

/-- A handler in which another exception has been caught before returns that one. -/
theorem caught_replaced :
    let handler : Stmt := .block [.tryCatch (.throw (.param "b")) .nop, .ret (some .caught)]
    let doc := catchingDoc (.block "try" (statement "throw b") "" ++
      .block handlerHead (storeCaught ++ .empty) "" ++ (statement "return J__exception__" ++ .empty))
    let events := [.entered "a", .entered "b", .left, .read (some "b"), .left]
    (lowerBody ⟨.bare "Main", {}, plainTemplater⟩ ⟨"Main"⟩ (catching handler)
      ⟨[], .tryCatch (.throw (.param "a")) handler⟩).run .initial = (.ok doc, .initial) ∧
    Runs doc none events (some "b") .jumped ∧ ¬ ShowsOwn [] events := by
  intro handler doc events
  have hthrow : Runs (statement "throw b") (some "a") [] (some "a") (.thrown "b") :=
    .line ⟨nofun, nofun⟩ (.thrown "b")
  refine ⟨rfl, runs_catchingDoc ((hthrow.caught .empty).next (.cut (runs_returnCaught "b") nofun)), ?_⟩
  simp [events, ShowsOwn]

end Emission

end ClassScript
