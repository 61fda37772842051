import Reshape.Run.Basic
import Reshape.Engine
/-! Runs on a host with a state. Jobs go on in their order; what happened before an error stays
done. A lazy global scope is supplied on first use: a supplied scope is kept for good, a failure
reaches only the one who asked and the next to ask starts again. -/
namespace Reshape

structure Host (F σ : Type) where
  call : F → Context F → σ → Except Error (Computed F) × σ
  supply : F → σ → Except Error (Scope F) × σ

structure Session (F σ : Type) where
  supplied : List (Nat × Scope F) := []
  settled : List Nat := []
  warnings : List String := []
  state : σ

namespace Session
variable {F σ : Type}

def supplied? (s : Session F σ) (engine : Nat) : Option (Scope F) :=
  (s.supplied.find? (·.1 = engine)).map (·.2)

def isSettled (s : Session F σ) (id : Nat) : Bool :=
  s.settled.contains id

def settle (s : Session F σ) (id : Nat) : Session F σ :=
  if s.isSettled id then s else { s with settled := id :: s.settled }

def isReady (s : Session F σ) (engines : Engines F) (engine : Nat) : Bool :=
  match (engines.get engine).source with
  | .ready _ => true
  | .lazy _ => (s.supplied? engine).isSome

end Session

abbrev Acting (F σ : Type) := ExceptT Error (StateM (Session F σ))

namespace Run
variable {F σ : Type}

def onState {α : Type} (action : σ → Except Error α × σ) : Acting F σ α :=
  ExceptT.mk fun s =>
    let (result, state) := action s.state
    (result, { s with state })

def acquire (engines : Engines F) (host : Host F σ) (engine : Nat) : Acting F σ (Scope F) := do
  match (engines.get engine).source with
  | .ready scope => return scope
  | .lazy symbol =>
    match (← get).supplied? engine with
    | some scope => return scope
    | none =>
      let scope ← onState (host.supply symbol)
      modify fun s => { s with supplied := (engine, scope) :: s.supplied }
      return scope

def exec (engines : Engines F) (host : Host F σ) {α : Type} : Run F α → Acting F σ α
  | .pure a => return a
  | .fail e => throw e
  | .call _ symbol c next => do
    let computed ← onState (host.call symbol c)
    (next computed).exec engines host
  | .global engine next => do
    let scope ← acquire engines host engine
    (next scope).exec engines host
  | .await d next => do
    modify (·.settle d.id)
    (next d.value).exec engines host
  | .warn text next => do
    modify fun s => { s with warnings := s.warnings ++ [text] }
    next.exec engines host
  | .spread _ jobs next => do
    let results ← (List.ofFn fun i => (jobs i).exec engines host).mapM id
    (next results).exec engines host

end Run
end Reshape
