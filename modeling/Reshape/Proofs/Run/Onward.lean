import Reshape.Proofs.Evaluate.Recursion
import Reshape.Proofs.Run.Order
import Reshape.Proofs.Run.Supplied
/-! What follows once a scope has been supplied. From there on the engine cannot be told from one that
had the scope at hand all along, and if all scopes are there and callbacks are pure, every task ends
as its run evaluates, whoever takes which step. -/
namespace Reshape
variable {F σ : Type}

def Engines.having (engines : Engines F) (engine : Nat) (scope : Scope F) : Engines F where
  get id := if id = engine then { engines.get id with source := .ready scope } else engines.get id
  ceiling := engines.ceiling
  limit_le id := by
    split
    · exact engines.limit_le id
    · exact engines.limit_le id

structure Held (engine : Nat) (scope : Scope F) (stage : Stage F σ) : Prop where
  there : stage.session.supplied? engine = some scope
  idle : stage.running engine = none

theorem Held.act {engines : Engines F} {host : Host F σ} {engine : Nat} {scope : Scope F}
    {stage stage' : Stage F σ} (held : Held engine scope stage) {here : Place} {event : Event F}
    {α : Type} {node node' : Run F α} (act : Act engines host here stage node event stage' node') :
    Held engine scope stage' := by
  obtain ⟨there, idle⟩ := held
  cases act with
  | settled => exact ⟨(Session.settleKeeps _ _ _).trans there, idle⟩
  | stopped => exact ⟨there, by simp [idle]⟩
  | @started other _ _ _ missing =>
    have different : engine ≠ other := by
      rintro rfl
      cases missing.symm.trans there
    exact ⟨there, by rwa [Stage.startRunning, if_neg different]⟩
  | @supplied other _ _ _ _ _ own _ =>
    have different : engine ≠ other := by
      rintro rfl
      cases own.symm.trans idle
    refine ⟨(Session.suppliedStored _ _ _ _).trans ((if_neg different).trans there), ?_⟩
    rwa [Stage.storeRunning, Stage.finishRunning, if_neg different]
  | failed => exact ⟨there, by rw [Stage.finishRunning]; split <;> [rfl; exact idle]⟩
  | _ => exact ⟨there, idle⟩

inductive Offers (stage : Stage F σ) (engine : Nat) (scope : Scope F) : GlobalSource F → Prop where
  | ready : Offers stage engine scope (.ready scope)
  | supplied (symbol : F) (there : stage.session.supplied? engine = some scope) :
      Offers stage engine scope (.lazy symbol)

inductive Offers.Alike (stage : Stage F σ) (engine : Nat) : GlobalSource F → GlobalSource F → Prop where
  | same (source : GlobalSource F) : Offers.Alike stage engine source source
  | both {source source' : GlobalSource F} {scope : Scope F} (idle : stage.running engine = none)
      (first : Offers stage engine scope source) (second : Offers stage engine scope source') :
      Offers.Alike stage engine source source'

theorem Offers.pass {engines : Engines F} {host : Host F σ} {stage : Stage F σ} {engine : Nat}
    {scope : Scope F} (offers : Offers stage engine scope (engines.get engine).source) (here : Place)
    {α : Type} (next : Scope F → Run F α) :
    Act engines host here stage (.global engine next) (.passed engine here scope) stage (next scope) := by
  generalize source : (engines.get engine).source = given at offers
  cases offers with
  | ready => exact .given source
  | supplied symbol there => exact .passed source there

theorem Offers.unique {stage : Stage F σ} {engine : Nat} {scope scope' : Scope F}
    {source : GlobalSource F} (offers : Offers stage engine scope source)
    (offers' : Offers stage engine scope' source) : scope' = scope := by
  cases offers with
  | ready =>
    cases offers'
    rfl
  | supplied _ there =>
    obtain _ | ⟨_, there'⟩ := offers'
    exact Option.some.inj (there'.symm.trans there)

theorem Act.alike {engines engines' : Engines F} {host : Host F σ} {here : Place}
    {stage stage' : Stage F σ}
    (alike : ∀ id, Offers.Alike stage id (engines.get id).source (engines'.get id).source)
    {event : Event F} {α : Type} {node node' : Run F α}
    (act : Act engines host here stage node event stage' node') :
    Act engines' host here stage node event stage' node' := by
  have sources : ∀ {id source}, (engines.get id).source = source →
      (engines'.get id).source = source ∨ stage.running id = none ∧
        ∃ scope, Offers stage id scope source ∧ Offers stage id scope (engines'.get id).source := by
    intro id source given
    have pair := alike id
    rw [given] at pair
    generalize (engines'.get id).source = source' at pair ⊢
    cases pair with
    | same => exact .inl rfl
    | both idle first second => exact .inr ⟨idle, _, first, second⟩
  cases act with
  | called answered => exact .called answered
  | settled => exact .settled
  | warned => exact .warned
  | joined => exact .joined
  | stopped fails => exact .stopped fails
  | @given engine _ scope ready =>
    rcases sources ready with same | ⟨_, scope', first, second⟩
    · exact .given same
    · obtain rfl := first.unique .ready
      exact second.pass here _
  | @passed engine _ symbol scope lazy there =>
    rcases sources lazy with same | ⟨_, scope', first, second⟩
    · exact .passed same there
    · obtain rfl := first.unique (.supplied symbol there)
      exact second.pass here _
  -- where the scope is offered no run starts, and none that goes on can end
  | started lazy missing idle =>
    rcases sources lazy with same | ⟨_, _, first, _⟩
    · exact .started same missing idle
    · obtain _ | ⟨_, there⟩ := first
      cases missing.symm.trans there
  | supplied lazy own answered =>
    rcases sources lazy with same | ⟨idle, _⟩
    · exact .supplied same own answered
    · cases idle.symm.trans own
  | failed lazy own answered =>
    rcases sources lazy with same | ⟨idle, _⟩
    · exact .failed same own answered
    · cases idle.symm.trans own

section Having
variable {engines : Engines F} {host : Host F σ} {engine : Nat} {symbol : F} {scope : Scope F}

theorem Engines.havingOther {id : Nat} (different : id ≠ engine) :
    (engines.having engine scope).get id = engines.get id :=
  if_neg different

theorem Engines.havingReady : ((engines.having engine scope).get engine).source = .ready scope := by
  simp only [having, if_true]

theorem Evaluate.withinHaving (room : Nat) :
    within (engines.having engine scope) room = within engines room := by
  have same : ∀ apply (inv : Invocation F) data,
      step ((engines.having engine scope).get inv.engine) apply inv data =
        step (engines.get inv.engine) apply inv data := by
    intro apply inv data
    unfold Engines.having
    dsimp only
    split <;> rfl
  induction room with
  | zero => exact funext fun inv => funext fun data => same _ inv data
  | succ room ih =>
    funext inv data
    rw [within, within, ih]
    exact same _ inv data

theorem Request.taskHaving (request : Request F) :
    request.task (engines.having engine scope) = request.task engines := by
  cases request with
  | globalContext id => rfl
  | projection p data inst =>
    have same : p.project (engines.having engine scope) data inst = p.project engines data inst := by
      have ceiling : (engines.having engine scope).ceiling = engines.ceiling := rfl
      rw [Projector.project, Projector.project, Evaluate.withinHaving, ceiling]
    rw [task, task, same]

theorem Held.alike (lazy : (engines.get engine).source = .lazy symbol) {stage : Stage F σ}
    (held : Held engine scope stage) (id : Nat) :
    Offers.Alike stage id (engines.get id).source ((engines.having engine scope).get id).source ∧
      Offers.Alike stage id ((engines.having engine scope).get id).source (engines.get id).source := by
  rcases eq_or_ne id engine with rfl | different
  · have offered : Offers stage id scope (engines.get id).source := lazy ▸ .supplied symbol held.there
    rw [Engines.havingReady]
    exact ⟨.both held.idle offered .ready, .both held.idle .ready offered⟩
  · rw [Engines.havingOther different]
    exact ⟨.same _, .same _⟩

namespace System
variable (lazy : (engines.get engine).source = .lazy symbol)
include lazy

theorem Step.having {s t : System F σ} {event : Event F} (held : Held engine scope s.stage) :
    Step engines host s event t ↔ Step (engines.having engine scope) host s event t := by
  constructor
  · intro step
    cases step with
    | arrived request =>
      rw [← request.taskHaving]
      exact .arrived request
    | acted place there inside act =>
      exact .acted place there inside (act.alike fun id => (held.alike lazy id).1)
  · intro step
    cases step with
    | arrived request =>
      rw [request.taskHaving]
      exact .arrived request
    | acted place there inside act =>
      exact .acted place there inside (act.alike fun id => (held.alike lazy id).2)

omit lazy in
theorem Step.held {s t : System F σ} {event : Event F} (held : Held engine scope s.stage)
    (step : Step engines host s event t) : Held engine scope t.stage := by
  cases step with
  | arrived request => exact held
  | acted place there inside act => exact held.act act

omit lazy in
theorem Goes.held {s t : System F σ} {events : List (Event F)} (held : Held engine scope s.stage)
    (goes : Goes engines host s events t) : Held engine scope t.stage := by
  induction goes with
  | nowhere => exact held
  | further _ step ih => exact step.held ih

theorem Goes.having {s t : System F σ} {events : List (Event F)} (held : Held engine scope s.stage) :
    Goes engines host s events t ↔ Goes (engines.having engine scope) host s events t := by
  constructor
  · intro goes
    induction goes with
    | nowhere => exact .nowhere
    | further before step ih => exact ih.further ((Step.having lazy (before.held held)).mp step)
  · intro goes
    induction goes with
    | nowhere => exact .nowhere
    | further before step ih => exact ih.further ((Step.having lazy (before.held held)).mpr step)

end System
end Having
end Reshape
