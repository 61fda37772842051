import Reshape.Proofs.Evaluate.Recursion
import Reshape.Proofs.Run.Matches
/-! What callbacks are told about where they are. The levels of a run are those that its projections
and the projectors of its callbacks open, each with the data that it reads and the projector it stands
in. Every context that a callback is given fits its level, so callbacks may be replaced by others that
answer alike wherever a context fits. -/
namespace Reshape
variable {F σ : Type}

def Context.ancestors : Context F → Nat
  | ⟨_, _, _, _, _, _, none, _, _⟩ => 0
  | ⟨_, _, _, _, _, _, some parent, _, _⟩ => parent.ancestors + 1

theorem Context.ancestorsParent (c : Context F) :
    c.ancestors = c.parent.elim 0 (·.ancestors + 1) := by
  obtain ⟨_, _, _, _, _, _, _ | parent, _, _⟩ := c <;> rfl

namespace Evaluate

structure Setting (F : Type) where
  engine : Engine F
  global : Scope F
  projector : Projector F
  data : Value
  inst : Option (Scope F)
  gives : Role → F → Context F → Computed F → Prop

namespace Setting

structure Fits (s : Setting F) (read : Value) (around : Projector F) (role : Role) (c : Context F) :
    Prop where
  depth : c.depth = c.ancestors
  allowed : c.depth ≤ s.engine.limit
  inst : c.instanceScope = s.inst
  scope : c.scope = Context.merge read s.global c.projectionScope s.inst c.parent
  around : c.projectionScope = around.context
  data : role ≠ .transformer → role ≠ .pipe → c.data = read
  params : role ≠ .pipe → c.params = none

/- The levels of the run: projection, context around it, data read and innermost projector. What is
nested stays in the projector that it stands in. A projector brings its own scope, be it that it
stands in the projection or that a callback gave it; a level that a pipe gave is opened at the key
where the reference stands. -/
inductive Level (s : Setting F) :
    Projection F → Option (Context F) → Value → Projector F → Prop where
  | top {read : Value} (found : readData s.engine.config s.data = .ok read) :
      Level s s.projector.projection none read s.projector
  | nested {outer : Context F} {around : Projector F} {p : Projection F} {handed read : Value}
      (level : Level s outer.projection outer.parent outer.data around)
      (fits : s.Fits outer.data around .function outer) (stands : outer.projection.Nests outer.key p)
      (hands : outer.Hands handed) (found : readData s.engine.config handed = .ok read) :
      Level s p (some outer) read around
  | standing {outer : Context F} {around q : Projector F} {handed read : Value}
      (level : Level s outer.projection outer.parent outer.data around)
      (fits : s.Fits outer.data around .function outer) (stands : outer.projection.Names outer.key q)
      (hands : outer.Hands handed) (found : readData s.engine.config handed = .ok read) :
      Level s q.projection (some outer) read q
  | returned {role : Role} {symbol : F} {c outer : Context F} {above handed read : Value}
      {around q : Projector F} (level : Level s c.projection c.parent above around)
      (fits : s.Fits above around role c) (gave : s.gives role symbol c (.apply q))
      (place : outer = c ∨ outer = c.withData above none) (hands : c.Hands handed)
      (found : readData s.engine.config handed = .ok read) : Level s q.projection (some outer) read q

def replies (s : Setting F) : Replies F :=
  ⟨s.gives, fun _ scope => scope = s.global⟩

structure Opens (s : Setting F) (inv : Invocation F) (handed : Value) : Prop where
  depth : inv.depth = inv.parent.elim 0 (·.ancestors + 1)
  inst : inv.instanceScope = s.inst
  level : ∀ read, readData s.engine.config handed = .ok read → ∃ around : Projector F,
    inv.projectionScope = around.context ∧ s.Level inv.projection inv.parent read around

section Level
variable {s : Setting F} {inv child child' : Invocation F} {handed read data : Value}
  {around : Projector F}

theorem Opens.fits (opens : s.Opens inv handed) (allowed : inv.depth ≤ s.engine.limit)
    (scope : inv.projectionScope = around.context) {role : Role} {c : Context F}
    (asked : Asked (baseContext inv s.global read) role c) : s.Fits read around role c := by
  obtain ⟨⟨key, data, params, rfl⟩, sameData, sameParams⟩ := asked
  exact {
    depth := by rw [Context.ancestorsParent]; exact opens.depth
    allowed := allowed
    inst := opens.inst
    scope := by rw [← opens.inst]; rfl
    around := scope
    data := sameData
    params := fun other => (sameParams other).elim id id }

def parts (inv : Invocation F) : Parts F where
  nested key p p' := p' = p ∧ inv.projection.Nests key p
  compiled _ _ _ := False
  standing key q := inv.projection.Names key q

def Returned (s : Setting F) (base c : Context F) (q : Projector F) : Prop :=
  ∃ role symbol, s.gives role symbol c (.apply q) ∧ Asked base role c

theorem Opens.opened (opens : s.Opens inv handed) (allowed : inv.depth ≤ s.engine.limit)
    (found : readData s.engine.config handed = .ok read)
    (opened : Opened (parts inv) (s.Returned (baseContext inv s.global read)) inv inv
      (baseContext inv s.global read) child child' data) : s.Opens child data := by
  obtain ⟨around, scope, level⟩ := opens.level read found
  have here : ∀ key, s.Fits read around .function ((baseContext inv s.global read).atKey key) :=
    fun key => opens.fits allowed scope (.atKey _ key .function)
  cases opened with
  | @nested key p p' data stands hands =>
    exact {
      depth := congrArg (· + 1) (here key).depth
      inst := opens.inst
      level := fun read' found' => ⟨around, scope, .nested level (here key) stands.2 hands found'⟩ }
  | compiled stands _ => exact stands.elim
  | @standing key q data stands hands =>
    exact {
      depth := congrArg (· + 1) (here key).depth
      inst := opens.inst
      level := fun read' found' => ⟨q, rfl, .standing level (here key) stands hands found'⟩ }
  | @returned c parent q data gave same place hands =>
    obtain ⟨role, symbol, gave, asked⟩ := gave
    have fits := opens.fits allowed scope asked
    have parentDepth : parent.depth = parent.ancestors := by
      obtain ⟨_, _, _, rfl⟩ := same
      rw [Context.ancestorsParent]
      exact opens.depth
    exact {
      depth := congrArg (· + 1) parentDepth
      inst := opens.inst
      level := fun read' found' => by
        obtain ⟨⟨key, data, params, rfl⟩, _, _⟩ := asked
        exact ⟨q, rfl, .returned level fits gave place hands found'⟩ }

end Level

def run (s : Setting F) : Run F (Option Value) :=
  s.projector.project (.single s.engine) s.data s.inst

end Setting

end Evaluate

def Session.AllSupplied (global : Scope F) (supplied : List (Nat × Scope F)) : Prop :=
  ∀ e ∈ supplied, e.2 = global

theorem Session.AllSupplied.found {global scope : Scope F} {session : Session F σ} {engine : Nat}
    (all : AllSupplied global session.supplied) (found : session.supplied? engine = some scope) :
    scope = global := by
  obtain ⟨e, inside, rfl⟩ := Option.map_eq_some_iff.mp found
  exact all e (List.mem_of_find?_eq_some inside)

namespace Evaluate

def reported : Projection Unit :=
  .object [("own", .function (.closure ())), ("inner", .nested (.object [("own", .function (.direct ())),
    ("piped", .literal (.string "\x7b\x7bkey|count:1\x7d\x7d"))] []))] []

end Evaluate
end Reshape
