import Reshape.Proofs.Run.Onward
/-! Tasks on a host whose callbacks are pure, with all scopes there. What a run evaluates to does not
change while it goes on, except that another of several errors may be met. -/
namespace Reshape
variable {F σ : Type} {engines : Engines F} {host : Host F σ} {answers : Answers F}

def Host.Pure (host : Host F σ) (answers : Answers F) : Prop :=
  ∀ symbol c state, (host.call symbol c state).1 = answers.call symbol c

structure Resolved (engines : Engines F) (answers : Answers F) (stage : Stage F σ) : Prop where
  ready : ∀ {engine scope}, (engines.get engine).source = .ready scope →
    answers.global engine = .ok scope
  lazy : ∀ {engine symbol}, (engines.get engine).source = .lazy symbol →
    ∃ scope, Held engine scope stage ∧ answers.global engine = .ok scope

theorem Swapped.agrees {β : Type} {node node' : Run F β}
    (agree : Agree (node'.eval answers) (node.eval answers)) {α : Type} {path : List Nat}
    {r r' : Run F α} (inside : Swapped node node' path r r') :
    Agree (r'.eval answers) (r.eval answers) := by
  induction inside with
  | here => exact agree
  | @job _ _ size jobs next i path job' inside ih =>
    have each : ∀ k, Agree ((Function.update jobs i job' k).eval answers) ((jobs k).eval answers) := by
      intro k
      rcases eq_or_ne k i with rfl | different
      · rwa [Function.update_self]
      · rw [Function.update_of_ne different]
        exact .refl _
    rw [Run.evalSpread, Run.evalSpread]
    exact (Run.agreeJobs each).bind fun results => .refl _

namespace Resolved
variable {stage stage' : Stage F σ} (resolved : Resolved engines answers stage)
include resolved

theorem act {here : Place} {event : Event F} {α : Type} {node node' : Run F α}
    (act : Act engines host here stage node event stage' node') : Resolved engines answers stage' where
  ready := resolved.ready
  lazy lazy := by
    obtain ⟨scope, held, known⟩ := resolved.lazy lazy
    exact ⟨scope, held.act act, known⟩

theorem agrees (pure : host.Pure answers) {here : Place} {event : Event F} {α : Type}
    {node node' : Run F α} (act : Act engines host here stage node event stage' node') :
    Agree (node'.eval answers) (node.eval answers) := by
  cases act with
  | @called role symbol c next answer state answered =>
    have given : answers.call symbol c = answer := by rw [← pure symbol c, answered]
    rw [Run.evalBind, Run.evalChecked, Run.eval, given]
    cases answer <;> exact .refl _
  | settled => exact .refl _
  | warned => exact .refl _
  | given ready =>
    rw [Run.eval, resolved.ready ready]
    exact .refl _
  | passed lazy there =>
    obtain ⟨scope, held, known⟩ := resolved.lazy lazy
    cases there.symm.trans held.there
    rw [Run.eval, known]
    exact .refl _
  | started => exact .refl _
  | supplied lazy own _ =>
    obtain ⟨_, held, _⟩ := resolved.lazy lazy
    cases own.symm.trans held.idle
  | failed lazy own _ =>
    obtain ⟨_, held, _⟩ := resolved.lazy lazy
    cases own.symm.trans held.idle
  | @joined _ size results next =>
    have all : (List.ofFn fun i => (Run.pure (results i) : Run F _).eval answers).mapM id =
        .ok (List.ofFn results) := Run.jobsOk.mpr ⟨results, fun _ => rfl, rfl⟩
    rw [Run.evalSpread, all]
    exact .refl _
  | @stopped _ size jobs next i e fails =>
    intro a
    rw [Run.evalSpread, Fallible.bindOk]
    constructor
    · intro ended
      cases ended
    · rintro ⟨results, all, _⟩
      obtain ⟨given, each, _⟩ := Run.jobsOk.mp all
      have failed := each i
      rw [fails] at failed
      cases failed

end Resolved

namespace System
variable {s t : System F σ}

theorem Step.resolved (before : Resolved engines answers s.stage) {event : Event F}
    (step : Step engines host s event t) : Resolved engines answers t.stage := by
  cases step with
  | arrived request => exact before
  | acted place there inside act => exact before.act act

theorem Goes.resolved (first : Resolved engines answers s.stage) {events : List (Event F)}
    (goes : Goes engines host s events t) : Resolved engines answers t.stage := by
  induction goes with
  | nowhere => exact first
  | further _ step ih => exact step.resolved ih

variable (pure : host.Pure answers) (resolved : Resolved engines answers s.stage)
include pure resolved

theorem Step.agrees {event : Event F} (step : Step engines host s event t) {i : Nat} {α : Type}
    {r : Run F α} (there : s.tasks[i]? = some ⟨α, r⟩) :
    ∃ r', t.tasks[i]? = some ⟨α, r'⟩ ∧ Agree (r'.eval answers) (r.eval answers) := by
  cases step with
  | arrived request =>
    have known : i < s.tasks.length := (List.getElem?_eq_some_iff.mp there).1
    exact ⟨r, (List.getElem?_append_left known).trans there, .refl _⟩
  | @acted place _ _ acting acting' _ _ _ _ here inside act =>
    rcases eq_or_ne place.task i with rfl | different
    · cases here.symm.trans there
      refine ⟨acting', ?_, inside.agrees (resolved.agrees pure act)⟩
      exact List.getElem?_set_self (List.getElem?_eq_some_iff.mp there).1
    · exact ⟨r, (List.getElem?_set_ne different).trans there, .refl _⟩

theorem Goes.agrees {events : List (Event F)} (goes : Goes engines host s events t) {i : Nat}
    {α : Type} {r : Run F α} (there : s.tasks[i]? = some ⟨α, r⟩) :
    ∃ r', t.tasks[i]? = some ⟨α, r'⟩ ∧ Agree (r'.eval answers) (r.eval answers) := by
  induction goes with
  | nowhere => exact ⟨r, there, .refl _⟩
  | further before step ih =>
    obtain ⟨r', there', agree'⟩ := ih
    obtain ⟨r'', there'', agree''⟩ := step.agrees pure (before.resolved resolved) there'
    exact ⟨r'', there'', agree''.trans agree'⟩

end System
end Reshape
