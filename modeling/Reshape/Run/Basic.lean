import Reshape.Context.Basic
import Reshape.Error
/-! Runs: what an evaluation asks of its host, step by step. A run is a tree that calls callbacks,
waits for global scopes and deferred values, warns, and spreads over independent jobs. How calls are
answered, and in which order jobs go on, is left to whoever follows the tree. -/
namespace Reshape

/-- As what a callback is called. The callback itself is not told. -/
inductive Role where
  | function
  | predicate
  | transformer
  | variable
  | pipe
  deriving DecidableEq, Repr

inductive Run (F : Type) : Type → Type 1 where
  | pure {α : Type} (result : α) : Run F α
  | fail {α : Type} (error : Error) : Run F α
  | call {α : Type} (role : Role) (symbol : F) (context : Context F)
      (next : Computed F → Run F α) : Run F α
  | global {α : Type} (engine : Nat) (next : Scope F → Run F α) : Run F α
  | await {α : Type} (deferred : Deferred) (next : Value → Run F α) : Run F α
  | warn {α : Type} (text : String) (next : Run F α) : Run F α
  /-- jobs that do not depend on each other; their results come back in their own order -/
  | spread {α β : Type} (size : Nat) (jobs : Fin size → Run F β) (next : List β → Run F α) : Run F α

namespace Run
variable {F α β : Type}

def bind : Run F α → (α → Run F β) → Run F β
  | .pure a, f => f a
  | .fail e, _ => .fail e
  | .call role symbol context next, f => .call role symbol context fun c => (next c).bind f
  | .global engine next, f => .global engine fun s => (next s).bind f
  | .await deferred next, f => .await deferred fun v => (next v).bind f
  | .warn text next, f => .warn text (next.bind f)
  | .spread size jobs next, f => .spread size jobs fun rs => (next rs).bind f

instance : Monad (Run F) where
  pure := Run.pure
  bind := Run.bind

theorem bindPure (r : Run F α) : r.bind .pure = r := by
  induction r with
  | pure => rfl
  | fail => rfl
  | call _ _ _ _ ih => simp only [bind, ih]
  | global _ _ ih => simp only [bind, ih]
  | await _ _ ih => simp only [bind, ih]
  | warn _ _ ih => simp only [bind, ih]
  | spread _ _ _ _ ih => simp only [bind, ih]

theorem bindAssoc {γ : Type} (r : Run F α) (f : α → Run F β) (g : β → Run F γ) :
    (r.bind f).bind g = r.bind fun a => (f a).bind g := by
  induction r with
  | pure => rfl
  | fail => rfl
  | call _ _ _ _ ih => simp only [bind, ih]
  | global _ _ ih => simp only [bind, ih]
  | await _ _ ih => simp only [bind, ih]
  | warn _ _ ih => simp only [bind, ih]
  | spread _ _ _ _ ih => simp only [bind, ih]

instance : LawfulMonad (Run F) :=
  LawfulMonad.mk' (Run F) bindPure (fun _ _ => rfl) bindAssoc

def gather (jobs : List (Run F α)) : Run F (List α) :=
  .spread jobs.length jobs.get .pure

def globalScope (engine : Nat) : Run F (Scope F) :=
  .global engine .pure

def settle (d : Deferred) : Run F Value :=
  .await d .pure

def warning (text : String) : Run F Unit :=
  .warn text (.pure ())

def ofExcept : Except Error α → Run F α
  | .ok a => .pure a
  | .error e => .fail e

end Run

variable {F : Type}

def ContextFn.run (fn : ContextFn F) (role : Role) (c : Context F) : Run F (Computed F) :=
  match fn with
  | .closure symbol => .call role symbol c fun r => .pure r.normalize
  | .direct symbol => .call role symbol c .pure

def Computed.holds : Computed F → Bool
  | .value v => v.isTruthy
  | .apply _ | .inherit => true
  | .absent => false

def Predicate.test (p : Predicate F) (role : Role) (c : Context F) : Run F Bool :=
  match p with
  | .always outcome => .pure outcome
  | .holds fn => do return (← fn.run role c).holds

end Reshape
