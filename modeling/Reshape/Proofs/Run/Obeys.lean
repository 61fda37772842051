import Reshape.Proofs.Run.Composed
import Reshape.Run.Exec
/-! What every path of a run keeps to, whatever the host answers and in whatever order jobs go on:
the contexts that callbacks are given and the errors that the run itself stops at. A host adds
errors of its own. -/
namespace Reshape
variable {F σ : Type}

namespace Run
variable {calls : Context F → Prop} {errors : Error → Prop}

def Obeys (calls : Context F → Prop) (errors : Error → Prop) {α : Type} : Run F α → Prop
  | .pure _ => True
  | .fail e => errors e
  | .call _ _ c next => calls c ∧ ∀ r, (next r).Obeys calls errors
  | .global _ next => ∀ s, (next s).Obeys calls errors
  | .await _ next => ∀ v, (next v).Obeys calls errors
  | .warn _ next => next.Obeys calls errors
  | .spread _ jobs next =>
    (∀ i, (jobs i).Obeys calls errors) ∧ ∀ rs, (next rs).Obeys calls errors

theorem Obeys.bind {α β : Type} {r : Run F α} {f : α → Run F β} (obeys : r.Obeys calls errors)
    (after : ∀ a, (f a).Obeys calls errors) : (r.bind f).Obeys calls errors := by
  induction r with
  | pure a => exact after a
  | fail e => exact obeys
  | call role symbol c next ih => exact ⟨obeys.1, fun r => ih r (obeys.2 r) after⟩
  | global engine next ih => exact fun s => ih s (obeys s) after
  | await d next ih => exact fun v => ih v (obeys v) after
  | warn text next ih => exact ih obeys after
  | spread size jobs next _ ih => exact ⟨obeys.1, fun rs => ih rs (obeys.2 rs) after⟩

theorem obeysCongruence (ordinary : ∀ e, ¬ e.IsLimit → errors e) :
    Congruence fun (α : Type) (r _ : Run F α) => r.Obeys calls errors where
  result _ := trivial
  failure plain := ordinary _ plain
  sequence obeys after := obeys.bind after
  waiting _ := fun _ => trivial
  supplied _ := fun _ => trivial
  notice _ := trivial
  gathering each := ⟨fun i => each.get i.isLt (each.length_eq ▸ i.isLt), fun _ => trivial⟩

end Run

def Acting.StopsAt (errors : Error → Prop) {α : Type} (action : Acting F σ α) : Prop :=
  ∀ session e, (action.run.run session).1 = .error e → errors e

namespace Acting.StopsAt
variable {errors : Error → Prop} {α β : Type}

theorem result (a : α) : Acting.StopsAt errors (pure a : Acting F σ α) :=
  fun _ _ stopped => nomatch stopped

theorem sequence {action : Acting F σ α} {next : α → Acting F σ β} (first : action.StopsAt errors)
    (after : ∀ a, (next a).StopsAt errors) : (action >>= next).StopsAt errors := by
  intro session e stopped
  have here := first session
  rw [ExceptT.run_bind, StateT.run_bind] at stopped
  generalize (action.run.run session) = answer at here stopped
  obtain ⟨e | a, session⟩ := answer
  · exact here _ (by cases stopped; rfl)
  · exact after _ session e stopped

theorem stops {e : Error} (allowed : errors e) : (throw e : Acting F σ α).StopsAt errors := by
  intro session e stopped
  cases stopped
  exact allowed

theorem host {action : σ → Except Error α × σ}
    (allowed : ∀ state e, (action state).1 = .error e → errors e) :
    (Run.onState action : Acting F σ α).StopsAt errors :=
  fun session e stopped => allowed session.state e stopped

theorem update (f : Session F σ → Session F σ) :
    (modify f : Acting F σ Unit).StopsAt errors :=
  fun _ _ stopped => nomatch stopped

theorem jobs {jobs : List (Acting F σ α)} (each : ∀ job ∈ jobs, job.StopsAt errors) :
    (jobs.mapM id).StopsAt errors := by
  induction jobs with
  | nil => exact result []
  | cons job rest ih =>
    rw [List.mapM_cons]
    refine sequence (each job List.mem_cons_self) fun a => ?_
    refine sequence (ih fun job member => each job (List.mem_cons_of_mem _ member)) fun as => ?_
    exact result _

end Acting.StopsAt

structure Host.Adds (host : Host F σ) (errors : Error → Prop) : Prop where
  called : ∀ symbol c state e, (host.call symbol c state).1 = .error e → errors e
  supplied : ∀ symbol state e, (host.supply symbol state).1 = .error e → errors e

namespace Run
variable {calls : Context F → Prop} {errors : Error → Prop}
open Acting

theorem acquireStopsAt (engines : Engines F) {host : Host F σ} (adds : host.Adds errors)
    (engine : Nat) : (acquire engines host engine).StopsAt errors := by
  unfold acquire
  split
  · exact .result _
  · rename_i symbol _
    refine .sequence (fun _ _ stopped => nomatch stopped) fun session => ?_
    split
    · exact .result _
    · refine .sequence (.host (adds.supplied symbol)) fun scope => ?_
      exact .sequence (.update _) fun _ => .result scope

theorem Obeys.exec (engines : Engines F) {host : Host F σ} (adds : host.Adds errors) {α : Type}
    {r : Run F α} (obeys : r.Obeys calls errors) : (r.exec engines host).StopsAt errors := by
  induction r with
  | pure a => exact .result a
  | fail e => exact .stops obeys
  | call role symbol c next ih =>
    exact .sequence (.host (adds.called symbol c)) fun r => ih r (obeys.2 r)
  | global engine next ih =>
    exact .sequence (acquireStopsAt engines adds engine) fun s => ih s (obeys s)
  | await d next ih => exact .sequence (.update _) fun _ => ih d.value (obeys d.value)
  | warn text next ih => exact .sequence (.update _) fun _ => ih obeys
  | spread size jobs next ihEach ih =>
    refine .sequence (.jobs fun job member => ?_) fun rs => ih rs (obeys.2 rs)
    obtain ⟨i, rfl⟩ := List.mem_ofFn.mp member
    exact ihEach i (obeys.1 i)

end Run
end Reshape
