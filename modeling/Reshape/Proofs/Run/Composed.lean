import Mathlib.Data.List.Forall2
import Mathlib.Data.List.OfFn
import Reshape.Proofs.Fallible
import Reshape.Run.Eval
/-! Runs that are put together. Relations between runs may respect the ways of building runs;
callbacks and levels below are not among these ways, since with which contexts they are asked is a
matter of the level that asks. A property of single runs is the relation that looks at its left side
only. The answer of a whole run comes from the answers of its parts. -/
namespace Reshape
variable {F : Type}

def Error.IsLimit (e : Error) : Prop :=
  ∃ depth limit, e = .recursionLimit depth limit

namespace Run

theorem gatherSized {α : Type} {size : Nat} {jobs : List (Run F α)} (length : size = jobs.length) :
    gather jobs = .spread size (fun i => jobs.get (i.cast length)) .pure := by
  subst length
  rfl

structure Congruence (R : (α : Type) → Run F α → Run F α → Prop) : Prop where
  result : ∀ {α : Type} (a : α), R α (pure a) (pure a)
  failure : ∀ {α : Type} {e : Error}, ¬ e.IsLimit → R α (.fail e) (.fail e)
  sequence : ∀ {α β : Type} {r r' : Run F α} {f f' : α → Run F β},
    R α r r' → (∀ a, R β (f a) (f' a)) → R β (r >>= f) (r' >>= f')
  waiting : ∀ d, R Value (settle d) (settle d)
  supplied : ∀ engine, R (Scope F) (globalScope engine) (globalScope engine)
  notice : ∀ text, R Unit (warning text) (warning text)
  gathering : ∀ {α : Type} {jobs jobs' : List (Run F α)},
    List.Forall₂ (R α) jobs jobs' → R (List α) (gather jobs) (gather jobs')

theorem equalCongruence : Congruence fun (α : Type) (r r' : Run F α) => r = r' where
  result _ := rfl
  failure _ := rfl
  sequence same sameNext := by rw [same, funext sameNext]
  waiting _ := rfl
  supplied _ := rfl
  notice _ := rfl
  gathering same := by
    rw [List.forall₂_eq_eq_eq] at same
    rw [same]

namespace Congruence
variable {R : (α : Type) → Run F α → Run F α → Prop} (congruence : Congruence R)
include congruence

theorem checked {α : Type} (checked : Except Error α) (ordinary : ∀ e, checked = .error e → ¬ e.IsLimit) :
    R α (ofExcept checked) (ofExcept checked) := by
  cases checked with
  | ok a => exact congruence.result a
  | error e => exact congruence.failure (ordinary e rfl)

theorem gatheredMap {α β : Type} {items : List α} {f f' : α → Run F β}
    (each : ∀ a ∈ items, R β (f a) (f' a)) :
    R (List β) (gather (items.map f)) (gather (items.map f')) := by
  apply congruence.gathering
  rw [List.forall₂_map_left_iff, List.forall₂_map_right_iff, List.forall₂_same]
  exact each

end Congruence

section Answers
variable {α β : Type} (answers : Answers F)

theorem evalThen (r : Run F α) (f : α → Run F β) :
    (r >>= f).eval answers = r.eval answers >>= fun a => (f a).eval answers :=
  evalBind answers r f

theorem evalChecked (checked : Except Error α) :
    (ofExcept checked : Run F α).eval answers = checked := by
  cases checked <;> rfl

theorem evalSpread {size : Nat} (jobs : Fin size → Run F α) (next : List α → Run F β) :
    (spread size jobs next).eval answers =
      (List.ofFn fun i => (jobs i).eval answers).mapM id >>= fun results => (next results).eval answers := by
  rw [eval]
  cases (List.ofFn fun i => (jobs i).eval answers).mapM id <;> rfl

theorem evalGather (jobs : List (Run F α)) :
    (gather jobs).eval answers = jobs.mapM (eval answers) := by
  have each : (List.ofFn fun i => (jobs.get i).eval answers) = jobs.map (eval answers) :=
    List.ofFn_getElem_eq_map jobs (eval answers)
  simp only [gather, eval, each, List.mapM_map, Function.id_comp]
  cases jobs.mapM (eval answers) <;> rfl

theorem evalGatherMap {γ : Type} (items : List γ) (job : γ → Run F α) :
    (gather (items.map job)).eval answers = items.mapM fun item => (job item).eval answers := by
  rw [evalGather, List.mapM_map]
  rfl

end Answers

end Run
end Reshape
