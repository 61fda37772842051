import Mathlib.Logic.Function.Basic
import Reshape.Projector
import Reshape.Run.Exec
/-! Requests that go on side by side. Any of them may take the next step, and so may any of the jobs
within one. A lazy global scope is supplied by one caller at a time, and the others wait; what is
stored is kept. A caller whose run fails goes on with the error and the next one may start. Callers
that are dropped because a job beside them failed give up their runs. -/
namespace Reshape
variable {F σ : Type}

structure Place where
  task : Nat
  path : List Nat
  deriving DecidableEq

def Place.above (here there : Place) : Bool :=
  here.task = there.task && here.path.isPrefixOf there.path

structure Stage (F σ : Type) where
  session : Session F σ
  /-- whose run goes on -/
  running : Nat → Option Place

namespace Stage

def withState (stage : Stage F σ) (state : σ) : Stage F σ :=
  { stage with session := { stage.session with state } }

def settle (stage : Stage F σ) (id : Nat) : Stage F σ :=
  { stage with session := stage.session.settle id }

def warn (stage : Stage F σ) (text : String) : Stage F σ :=
  { stage with session := { stage.session with warnings := stage.session.warnings ++ [text] } }

def start (stage : Stage F σ) (engine : Nat) (caller : Place) : Stage F σ :=
  { stage with running := Function.update stage.running engine (some caller) }

def finish (stage : Stage F σ) (engine : Nat) : Stage F σ :=
  { stage with running := Function.update stage.running engine none }

def store (stage : Stage F σ) (engine : Nat) (scope : Scope F) : Stage F σ :=
  { stage with session := { stage.session with supplied := (engine, scope) :: stage.session.supplied } }

def drop (stage : Stage F σ) (here : Place) : Stage F σ :=
  { stage with running := fun engine => (stage.running engine).filter fun caller => !here.above caller }

section Running
variable (stage : Stage F σ) (engine other : Nat)

@[simp] theorem startRunning (caller : Place) :
    (stage.start engine caller).running other =
      if other = engine then some caller else stage.running other :=
  Function.update_apply _ _ _ _

@[simp] theorem finishRunning :
    (stage.finish engine).running other = if other = engine then none else stage.running other :=
  Function.update_apply _ _ _ _

@[simp] theorem dropRunning (here : Place) :
    (stage.drop here).running engine =
      (stage.running engine).filter fun caller => !here.above caller := rfl

@[simp] theorem storeRunning (scope : Scope F) :
    (stage.store engine scope).running other = stage.running other := rfl

@[simp] theorem withStateRunning (state : σ) :
    (stage.withState state).running engine = stage.running engine := rfl

end Running

end Stage

inductive Event (F : Type) where
  | other
  | passed (engine : Nat) (caller : Place) (scope : Scope F)
  | started (engine : Nat) (caller : Place)
  | supplied (engine : Nat) (caller : Place) (scope : Scope F)
  | failed (engine : Nat) (caller : Place) (error : Error)

def Event.engine? : Event F → Option Nat
  | .other => none
  | .passed engine _ _ | .started engine _ | .supplied engine _ _ | .failed engine _ _ => some engine

section Act
variable (engines : Engines F) (host : Host F σ) (here : Place) {α : Type}

inductive Act : Stage F σ → Run F α → Event F → Stage F σ → Run F α → Prop where
  | called {stage : Stage F σ} {role : Role} {symbol : F} {c : Context F}
      {next : Computed F → Run F α} {answer : Except Error (Computed F)} {state : σ}
      (answered : host.call symbol c stage.session.state = (answer, state)) :
      Act stage (.call role symbol c next) .other (stage.withState state)
        (.bind (.ofExcept answer) next)
  | settled {stage : Stage F σ} {d : Deferred} {next : Value → Run F α} :
      Act stage (.await d next) .other (stage.settle d.id) (next d.value)
  | warned {stage : Stage F σ} {text : String} {next : Run F α} :
      Act stage (.warn text next) .other (stage.warn text) next
  | given {stage : Stage F σ} {engine : Nat} {next : Scope F → Run F α} {scope : Scope F}
      (ready : (engines.get engine).source = .ready scope) :
      Act stage (.global engine next) (.passed engine here scope) stage (next scope)
  | passed {stage : Stage F σ} {engine : Nat} {next : Scope F → Run F α} {symbol : F}
      {scope : Scope F} (lazy : (engines.get engine).source = .lazy symbol)
      (there : stage.session.supplied? engine = some scope) :
      Act stage (.global engine next) (.passed engine here scope) stage (next scope)
  | started {stage : Stage F σ} {engine : Nat} {next : Scope F → Run F α} {symbol : F}
      (lazy : (engines.get engine).source = .lazy symbol)
      (missing : stage.session.supplied? engine = none) (idle : stage.running engine = none) :
      Act stage (.global engine next) (.started engine here) (stage.start engine here)
        (.global engine next)
  | supplied {stage : Stage F σ} {engine : Nat} {next : Scope F → Run F α} {symbol : F}
      {scope : Scope F} {state : σ} (lazy : (engines.get engine).source = .lazy symbol)
      (own : stage.running engine = some here)
      (answered : host.supply symbol stage.session.state = (.ok scope, state)) :
      Act stage (.global engine next) (.supplied engine here scope)
        (((stage.withState state).finish engine).store engine scope) (next scope)
  | failed {stage : Stage F σ} {engine : Nat} {next : Scope F → Run F α} {symbol : F} {e : Error}
      {state : σ} (lazy : (engines.get engine).source = .lazy symbol)
      (own : stage.running engine = some here)
      (answered : host.supply symbol stage.session.state = (.error e, state)) :
      Act stage (.global engine next) (.failed engine here e)
        ((stage.withState state).finish engine) (.fail e)
  | joined {stage : Stage F σ} {β : Type} {size : Nat} {results : Fin size → β}
      {next : List β → Run F α} :
      Act stage (.spread size (fun i => .pure (results i)) next) .other stage
        (next (List.ofFn results))
  | stopped {stage : Stage F σ} {β : Type} {size : Nat} {jobs : Fin size → Run F β}
      {next : List β → Run F α} {i : Fin size} {e : Error} (fails : jobs i = .fail e) :
      Act stage (.spread size jobs next) .other (stage.drop here) (.fail e)

end Act

inductive Swapped {β : Type} (node node' : Run F β) : {α : Type} → List Nat → Run F α → Run F α → Prop
    where
  | here : Swapped node node' [] node node'
  | job {α γ : Type} {size : Nat} {jobs : Fin size → Run F γ} {next : List γ → Run F α}
      {i : Fin size} {path : List Nat} {job' : Run F γ}
      (inside : Swapped node node' path (jobs i) job') :
      Swapped node node' (i.val :: path) (.spread size jobs next)
        (.spread size (Function.update jobs i job') next)

inductive Request (F : Type) where
  | projection (projector : Projector F) (data : Value) (inst : Option (Scope F))
  | globalContext (engine : Nat)

abbrev Task (F : Type) := Σ α : Type, Run F α

def Request.task (engines : Engines F) : Request F → Task F
  | .projection p data inst => ⟨_, p.project engines data inst⟩
  | .globalContext engine => ⟨_, .globalScope engine⟩

structure System (F σ : Type) where
  stage : Stage F σ
  tasks : List (Task F)

namespace System
variable (engines : Engines F) (host : Host F σ)

def fresh (state : σ) : System F σ :=
  ⟨⟨{ state }, fun _ => none⟩, []⟩

inductive Step : System F σ → Event F → System F σ → Prop where
  | arrived {s : System F σ} (request : Request F) :
      Step s .other { s with tasks := s.tasks ++ [request.task engines] }
  | acted {s : System F σ} (place : Place) {α β : Type} {r r' : Run F α} {node node' : Run F β}
      {event : Event F} {stage : Stage F σ} (there : s.tasks[place.task]? = some ⟨α, r⟩)
      (inside : Swapped node node' place.path r r')
      (act : Act engines host place s.stage node event stage node') :
      Step s event ⟨stage, s.tasks.set place.task ⟨α, r'⟩⟩

/- The last event comes first. -/
inductive Goes : System F σ → List (Event F) → System F σ → Prop where
  | nowhere {s : System F σ} : Goes s [] s
  | further {s t u : System F σ} {events : List (Event F)} {event : Event F} (goes : Goes s events t)
      (step : Step engines host t event u) : Goes s (event :: events) u

variable {engines : Engines F} {host : Host F σ}

theorem Goes.onward {s t u : System F σ} {events events' : List (Event F)}
    (first : Goes engines host s events t) (second : Goes engines host t events' u) :
    Goes engines host s (events' ++ events) u := by
  induction second with
  | nowhere => exact first
  | further _ step ih => exact ih.further step

end System
end Reshape
