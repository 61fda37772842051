import Mathlib.Logic.Equiv.Defs
import Reshape.Proofs.Run.Composed
/-! Jobs that go on in another order than the declared one. The results are put back at the places of
their jobs, so an order can only decide which of several errors is met first. -/
namespace Reshape
variable {F α β : Type}

/- One order for every fan-out of a run. A fan-out is found by the way to it: at every fan-out before
it, either past that one or into one of its jobs. -/
def Order : Type :=
  List Nat → ∀ size, Equiv.Perm (Fin size)

namespace Order

def declared : Order :=
  fun _ _ => Equiv.refl _

def reversed : Order :=
  fun _ _ => ⟨Fin.rev, Fin.rev, Fin.rev_rev, Fin.rev_rev⟩

def behind (order : Order) : Order :=
  fun way => order (0 :: way)

def inside (order : Order) (job : Nat) : Order :=
  fun way => order ((job + 1) :: way)

end Order

def Agree (x y : Except Error α) : Prop :=
  ∀ a, x = .ok a ↔ y = .ok a

namespace Agree
variable {x y z : Except Error α}

theorem refl (x : Except Error α) : Agree x x :=
  fun _ => Iff.rfl

theorem symm (agree : Agree x y) : Agree y x :=
  fun a => (agree a).symm

theorem trans (first : Agree x y) (second : Agree y z) : Agree x z :=
  fun a => (first a).trans (second a)

theorem failed (agree : Agree x y) {e : Error} (fails : x = .error e) : ∃ e', y = .error e' := by
  cases given : y with
  | ok a =>
    rw [(agree a).mpr given] at fails
    cases fails
  | error e' => exact ⟨e', rfl⟩

theorem bind {f g : α → Except Error β} (first : Agree x y) (after : ∀ a, Agree (f a) (g a)) :
    Agree (x >>= f) (y >>= g) := by
  intro b
  rw [Fallible.bindOk, Fallible.bindOk]
  exact exists_congr fun a => and_congr (first a) (after a b)

end Agree

namespace Run
open Fallible

theorem jobsOk {size : Nat} {answers : Fin size → Except Error β} {results : List β} :
    (List.ofFn answers).mapM id = .ok results ↔
      ∃ given : Fin size → β, (∀ i, answers i = .ok (given i)) ∧ results = List.ofFn given := by
  constructor
  · intro ok
    rw [List.ofFn_eq_map, List.mapM_map] at ok
    exact eachPosition (mapMOk ok)
  · rintro ⟨given, each, rfl⟩
    have answered : List.ofFn answers = (List.ofFn given).map .ok := by
      rw [List.map_ofFn]
      exact congrArg List.ofFn (funext each)
    rw [answered, mapMGiven]

theorem agreeJobs {size : Nat} {answers answers' : Fin size → Except Error β}
    (each : ∀ i, Agree (answers i) (answers' i)) :
    Agree ((List.ofFn answers).mapM id) ((List.ofFn answers').mapM id) := by
  intro results
  rw [jobsOk, jobsOk]
  exact exists_congr fun given => and_congr_left' (forall_congr' fun i => each i (given i))

section PutBack
variable {size : Nat}

def putBack (taken : List (Fin size × β)) : List β :=
  (List.finRange size).filterMap (taken.lookup ·)

theorem lookupTaken (given : Fin size → β) {turns : List (Fin size)} {i : Fin size}
    (member : i ∈ turns) : (turns.map fun k => (k, given k)).lookup i = some (given i) := by
  induction turns with
  | nil => cases member
  | cons k rest ih =>
    rw [List.map_cons, List.lookup_cons]
    by_cases same : i = k
    · subst same
      simp
    · rw [beq_false_of_ne same]
      exact ih (List.mem_of_ne_of_mem same member)

theorem putBackAll (turn : Equiv.Perm (Fin size)) (given : Fin size → β) :
    putBack (List.ofFn fun k => (turn k, given (turn k))) = List.ofFn given := by
  have taken : (List.ofFn fun k => (turn k, given (turn k))) =
      (List.ofFn turn).map fun k => (k, given k) := by
    rw [List.map_ofFn]
    rfl
  have found : ∀ i, ((List.ofFn turn).map fun k => (k, given k)).lookup i = some (given i) :=
    fun i => lookupTaken given (List.mem_ofFn.mpr ⟨turn.symm i, turn.apply_symm_apply i⟩)
  rw [putBack, taken, List.filterMap_congr fun i _ => found i, List.filterMap_eq_map',
    List.ofFn_eq_map]

end PutBack

def takeTurns {size : Nat} (turn : Equiv.Perm (Fin size)) (answers : Fin size → Except Error β) :
    Except Error (List β) := do
  let taken ← (List.ofFn fun k => (answers (turn k)).map fun b => (turn k, b)).mapM id
  return putBack taken

theorem takeTurnsAgrees {size : Nat} (turn : Equiv.Perm (Fin size))
    (answers : Fin size → Except Error β) :
    Agree (takeTurns turn answers) ((List.ofFn answers).mapM id) := by
  intro results
  rw [jobsOk]
  constructor
  · intro ok
    obtain ⟨taken, all, same⟩ := bindOk.mp ok
    cases same
    obtain ⟨given, each, rfl⟩ := jobsOk.mp all
    have each' : ∀ i, answers i = .ok (given (turn.symm i)).2 := by
      intro i
      obtain ⟨b, ok, pair⟩ := mapOk.mp (each (turn.symm i))
      rw [turn.apply_symm_apply] at ok pair
      rw [ok, ← pair]
    have pairs : given = fun k => (turn k, (given (turn.symm (turn k))).2) := by
      funext k
      obtain ⟨b, _, pair⟩ := mapOk.mp (each k)
      rw [turn.symm_apply_apply, ← pair]
    refine ⟨fun i => (given (turn.symm i)).2, each', ?_⟩
    exact (congrArg (fun given => putBack (List.ofFn given)) pairs).trans
      (putBackAll turn fun i => (given (turn.symm i)).2)
  · rintro ⟨given, each, rfl⟩
    have all : (List.ofFn fun k => (answers (turn k)).map fun b => (turn k, b)).mapM id =
        .ok (List.ofFn fun k => (turn k, given (turn k))) :=
      jobsOk.mpr ⟨_, fun k => by rw [each]; rfl, rfl⟩
    rw [takeTurns, all, okThen, putBackAll]
    rfl

def evalIn (answers : Answers F) {α : Type} : Run F α → Order → Except Error α
  | .pure a, _ => .ok a
  | .fail e, _ => .error e
  | .call _ symbol c next, order => do (next (← answers.call symbol c)).evalIn answers order
  | .global engine next, order => do (next (← answers.global engine)).evalIn answers order
  | .await d next, order => (next d.value).evalIn answers order
  | .warn _ next, order => next.evalIn answers order
  | .spread size jobs next, order => do
    let results ← takeTurns (order [] size) fun i => (jobs i).evalIn answers (order.inside i)
    (next results).evalIn answers order.behind

theorem evalInAgrees (answers : Answers F) {α : Type} (r : Run F α) (order : Order) :
    Agree (r.evalIn answers order) (r.eval answers) := by
  induction r generalizing order with
  | pure a => exact .refl _
  | fail e => exact .refl _
  | call role symbol c next ih =>
    rw [evalIn, eval]
    cases answers.call symbol c with
    | ok computed => exact ih computed order
    | error e => exact .refl _
  | global engine next ih =>
    rw [evalIn, eval]
    cases answers.global engine with
    | ok scope => exact ih scope order
    | error e => exact .refl _
  | await d next ih => exact ih d.value order
  | warn text next ih => exact ih order
  | spread size jobs next ihEach ih =>
    have jobsAgree : Agree
        (takeTurns (order [] size) fun i => (jobs i).evalIn answers (order.inside i))
        ((List.ofFn fun i => (jobs i).eval answers).mapM id) :=
      (takeTurnsAgrees _ _).trans (agreeJobs fun i => ihEach i _)
    rw [evalIn, evalSpread]
    exact jobsAgree.bind fun results => ih results order.behind

theorem takeTurnsDeclared {size : Nat} (answers : Fin size → Except Error β) :
    takeTurns (Equiv.refl _) answers = (List.ofFn answers).mapM id := by
  have labelled := mapMThenMap (fun k => (answers k).map fun b => (k, b)) Prod.snd (List.finRange size)
  have plain : ∀ k, ((answers k).map fun b => (k, b)).map Prod.snd = answers k := fun k => by
    cases answers k <;> rfl
  have listed : ∀ {γ : Type} (f : Fin size → Except Error γ),
      (List.ofFn f).mapM id = (List.finRange size).mapM f := fun f => by
    rw [List.ofFn_eq_map, List.mapM_map]
    rfl
  simp only [plain] at labelled
  cases given : (List.ofFn answers).mapM id with
  | ok results => exact (takeTurnsAgrees _ answers results).mpr given
  | error e =>
    rw [listed, labelled] at given
    cases taken : (List.finRange size).mapM fun k => (answers k).map fun b => (k, b) with
    | ok pairs =>
      rw [taken] at given
      cases given
    | error e' =>
      rw [taken] at given
      cases given
      have first : takeTurns (Equiv.refl _) answers = _ >>= _ := rfl
      rw [first, listed]
      exact congrArg (· >>= _) taken

theorem evalInDeclared (answers : Answers F) {α : Type} (r : Run F α) :
    r.evalIn answers .declared = r.eval answers := by
  induction r with
  | pure a => rfl
  | fail e => rfl
  | call role symbol c next ih =>
    rw [evalIn, eval]
    cases answers.call symbol c with
    | ok computed => exact ih computed
    | error e => rfl
  | global engine next ih =>
    rw [evalIn, eval]
    cases answers.global engine with
    | ok scope => exact ih scope
    | error e => rfl
  | await d next ih => exact ih d.value
  | warn text next ih => exact ih
  | spread size jobs next ihEach ih =>
    have each : (fun i => (jobs i).evalIn answers (Order.declared.inside i)) =
        fun i => (jobs i).eval answers := funext ihEach
    have turns : takeTurns (Order.declared [] size) (fun i => (jobs i).eval answers) = _ :=
      takeTurnsDeclared _
    rw [evalIn, evalSpread, each, turns]
    exact bind_congr ih

end Run
end Reshape
