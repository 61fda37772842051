import Reshape.Run.Basic
/-! Runs whose host is a pure function: every callback is a function of its context and every global
scope is settled beforehand. Jobs go on in their order and the first error is the answer. -/
namespace Reshape

structure Answers (F : Type) where
  call : F → Context F → Except Error (Computed F)
  global : Nat → Except Error (Scope F)

namespace Run
variable {F : Type}

def eval (answers : Answers F) {α : Type} : Run F α → Except Error α
  | .pure a => .ok a
  | .fail e => .error e
  | .call _ symbol c next =>
    match answers.call symbol c with
    | .ok computed => (next computed).eval answers
    | .error e => .error e
  | .global engine next =>
    match answers.global engine with
    | .ok scope => (next scope).eval answers
    | .error e => .error e
  | .await d next => (next d.value).eval answers
  | .warn _ next => next.eval answers
  | .spread _ jobs next =>
    match (List.ofFn fun i => (jobs i).eval answers).mapM id with
    | .ok results => (next results).eval answers
    | .error e => .error e

theorem evalBind (answers : Answers F) {α β : Type} (r : Run F α) (f : α → Run F β) :
    (r.bind f).eval answers = (r.eval answers).bind fun a => (f a).eval answers := by
  induction r with
  | pure => rfl
  | fail => rfl
  | call _ symbol c _ ih =>
    simp only [bind, eval]
    cases answers.call symbol c <;> simp [ih, Except.bind]
  | global engine _ ih =>
    simp only [bind, eval]
    cases answers.global engine <;> simp [ih, Except.bind]
  | await _ _ ih => simp only [bind, eval, ih]
  | warn _ _ ih => simp only [bind, eval, ih]
  | spread _ jobs _ _ ih =>
    simp only [bind, eval]
    cases (List.ofFn fun i => eval answers (jobs i)).mapM id <;> simp [ih, Except.bind]

end Run
end Reshape
