import Mathlib.Data.List.OfFn
import Reshape.Run.Exec
/-! How runs end on a host that has a state: from one session with an answer in another. A composed
run ends as its parts do, and the jobs of a fan-out take their turns, each in the session that the one
before it has left. -/
namespace Reshape
variable {F σ α β : Type} {engines : Engines F} {host : Host F σ}

theorem execThen (r : Run F α) (f : α → Run F β) :
    (r >>= f).exec engines host = r.exec engines host >>= fun a => (f a).exec engines host := by
  change (r.bind f).exec engines host = _
  induction r with
  | pure a => exact (pure_bind a fun a => (f a).exec engines host).symm
  | fail e => rfl
  | call role symbol c next ih => simp only [Run.bind, Run.exec, bind_assoc, ih]
  | global engine next ih => simp only [Run.bind, Run.exec, bind_assoc, ih]
  | await d next ih => simp only [Run.bind, Run.exec, bind_assoc, ih]
  | warn text next ih => simp only [Run.bind, Run.exec, bind_assoc, ih]
  | spread size jobs next _ ih => simp only [Run.bind, Run.exec, bind_assoc, ih]

theorem execGather (jobs : List (Run F α)) :
    (Run.gather jobs).exec engines host = jobs.mapM (Run.exec engines host) := by
  have each : (List.ofFn fun i => (jobs.get i).exec engines host) =
      jobs.map (Run.exec engines host) := List.ofFn_getElem_eq_map jobs (Run.exec engines host)
  simp only [Run.gather, Run.exec, each, List.mapM_map, Function.id_comp]
  exact bind_pure _

namespace Run

theorem sequenceRun (action : Acting F σ α) (after : α → Acting F σ β) (session : Session F σ) :
    (action >>= after).run.run session =
      match action.run.run session with
      | (.ok a, session) => (after a).run.run session
      | (.error e, session) => (.error e, session) := by
  rw [ExceptT.run_bind, StateT.run_bind]
  cases action.run.run session with
  | mk answer session => cases answer <;> rfl

def Ends (engines : Engines F) (host : Host F σ) (r : Run F α) (before : Session F σ)
    (answer : Except Error α) (after : Session F σ) : Prop :=
  (r.exec engines host).run.run before = (answer, after)

inductive InTurn (engines : Engines F) (host : Host F σ) :
    List (Run F α) → Session F σ → List α → Session F σ → Prop where
  | nil {session : Session F σ} : InTurn engines host [] session [] session
  | cons {job : Run F α} {rest : List (Run F α)} {before middle after : Session F σ} {a : α}
      {results : List α} (first : job.Ends engines host before (.ok a) middle)
      (others : InTurn engines host rest middle results after) :
      InTurn engines host (job :: rest) before (a :: results) after

theorem Ends.unique {r : Run F α} {before after after' : Session F σ} {answer answer' : Except Error α}
    (ended : r.Ends engines host before answer after) (again : r.Ends engines host before answer' after') :
    answer' = answer ∧ after' = after :=
  Prod.mk.inj (again.symm.trans ended)

theorem endsSomehow (engines : Engines F) (host : Host F σ) (r : Run F α) (before : Session F σ) :
    ∃ answer after, r.Ends engines host before answer after :=
  ⟨_, _, rfl⟩

theorem endsPure {a : α} {before after : Session F σ} {answer : Except Error α} :
    (pure a : Run F α).Ends engines host before answer after ↔ answer = .ok a ∧ after = before := by
  constructor
  · intro ended
    cases ended
    exact ⟨rfl, rfl⟩
  · rintro ⟨rfl, rfl⟩
    rfl

theorem Ends.then {r : Run F α} {f : α → Run F β} {before middle after : Session F σ} {a : α}
    {answer : Except Error β} (first : r.Ends engines host before (.ok a) middle)
    (onward : (f a).Ends engines host middle answer after) :
    (r >>= f).Ends engines host before answer after := by
  unfold Ends at *
  rw [execThen, sequenceRun, first]
  exact onward

theorem Ends.stopped {r : Run F α} {before after : Session F σ} {e : Error}
    (first : r.Ends engines host before (.error e) after) (f : α → Run F β) :
    (r >>= f).Ends engines host before (.error e) after := by
  unfold Ends at *
  rw [execThen, sequenceRun, first]

theorem endsThen {r : Run F α} {f : α → Run F β} {before after : Session F σ} {b : β} :
    (r >>= f).Ends engines host before (.ok b) after ↔
      ∃ a middle, r.Ends engines host before (.ok a) middle ∧
        (f a).Ends engines host middle (.ok b) after := by
  constructor
  · intro ended
    unfold Ends at *
    rw [execThen, sequenceRun] at ended
    cases first : (r.exec engines host).run.run before with
    | mk answer middle =>
      rw [first] at ended
      cases answer with
      | error e => cases ended
      | ok a => exact ⟨a, middle, rfl, ended⟩
  · rintro ⟨a, middle, first, onward⟩
    exact first.then onward

theorem endsGather {jobs : List (Run F α)} {before after : Session F σ} {results : List α} :
    (gather jobs).Ends engines host before (.ok results) after ↔
      InTurn engines host jobs before results after := by
  unfold Ends
  rw [execGather]
  induction jobs generalizing before results with
  | nil =>
    constructor
    · intro ended
      cases ended
      exact .nil
    · intro turns
      cases turns
      rfl
  | cons job rest ih =>
    rw [List.mapM_cons, sequenceRun]
    constructor
    · intro ended
      split at ended
      · rename_i a middle first
        rw [sequenceRun] at ended
        split at ended
        · rename_i others last behind
          cases ended
          exact .cons first (ih.mp behind)
        · cases ended
      · cases ended
    · intro turns
      obtain _ | ⟨first, others⟩ := turns
      have behind := ih.mpr others
      rw [Ends] at first
      simp only [first]
      rw [sequenceRun, behind]
      rfl

theorem InTurn.length {jobs : List (Run F α)} {before after : Session F σ} {results : List α}
    (turns : InTurn engines host jobs before results after) : results.length = jobs.length := by
  induction turns with
  | nil => rfl
  | cons _ _ ih => rw [List.length_cons, List.length_cons, ih]

theorem InTurn.place {jobs : List (Run F α)} {before after : Session F σ} {results : List α}
    (turns : InTurn engines host jobs before results after) {i : Nat} {job : Run F α}
    (place : jobs[i]? = some job) :
    ∃ a reached left, results[i]? = some a ∧ job.Ends engines host reached (.ok a) left := by
  induction turns generalizing i with
  | nil => cases place
  | cons first _ ih =>
    cases i with
    | zero =>
      cases place
      exact ⟨_, _, _, rfl, first⟩
    | succ i => exact ih place

theorem InTurn.append {before middle after : Session F σ} {jobs others : List (Run F α)}
    {results more : List α}
    (turns : InTurn engines host jobs before results middle)
    (onward : InTurn engines host others middle more after) :
    InTurn engines host (jobs ++ others) before (results ++ more) after := by
  induction turns with
  | nil => exact onward
  | cons first _ ih => exact .cons first (ih onward)

theorem InTurn.split {before after : Session F σ} {jobs others : List (Run F α)}
    {results : List α}
    (turns : InTurn engines host (jobs ++ others) before results after) :
    ∃ own more middle, results = own ++ more ∧ InTurn engines host jobs before own middle ∧
      InTurn engines host others middle more after := by
  induction jobs generalizing before results with
  | nil => exact ⟨[], results, before, rfl, .nil, turns⟩
  | cons job rest ih =>
    obtain _ | ⟨first, behind⟩ := turns
    obtain ⟨own, more, middle, rfl, here, onward⟩ := ih behind
    exact ⟨_ :: own, more, middle, rfl, .cons first here, onward⟩

theorem InTurn.worked {γ : Type} {before after : Session F σ} {items : List γ} {job : γ → Run F α}
    {f : α → β} {results : List β}
    (turns : InTurn engines host (items.map fun i => job i >>= fun a => pure (f a)) before results
      after) :
    ∃ given, results = given.map f ∧ InTurn engines host (items.map job) before given after := by
  induction items generalizing before results with
  | nil =>
    cases turns
    exact ⟨[], rfl, .nil⟩
  | cons i rest ih =>
    obtain _ | ⟨first, behind⟩ := turns
    obtain ⟨a, middle, here, worked⟩ := endsThen.mp first
    obtain ⟨same, rfl⟩ := endsPure.mp worked
    cases same
    obtain ⟨given, rfl, onward⟩ := ih behind
    exact ⟨a :: given, rfl, .cons here onward⟩

end Run
end Reshape
