import Reshape.Proofs.Run.Interleaved
import Reshape.Proofs.Run.Matches
/-! The events of one lazy global scope. Until a run succeeds, runs follow each other, and each is
started by one caller, who alone sees it fail. After one has succeeded there are only callers that
pass, with the scope of that run. -/
namespace Reshape
variable {F σ : Type}

/- The caller is the one whose run goes on; the events are those up to now, the last one first. -/
inductive Unsupplied (engine : Nat) : Option Place → List (Event F) → Prop where
  | fresh : Unsupplied engine none []
  | elsewhere {running : Option Place} {events : List (Event F)} {event : Event F}
      (before : Unsupplied engine running events) (away : event.engine? ≠ some engine) :
      Unsupplied engine running (event :: events)
  | started {caller : Place} {events : List (Event F)} (before : Unsupplied engine none events) :
      Unsupplied engine (some caller) (.started engine caller :: events)
  | failed {caller : Place} {events : List (Event F)} (before : Unsupplied engine (some caller) events)
      (e : Error) : Unsupplied engine none (.failed engine caller e :: events)
  | dropped {caller : Place} {events : List (Event F)}
      (before : Unsupplied engine (some caller) events) : Unsupplied engine none (.other :: events)

inductive Supplied (engine : Nat) (scope : Scope F) : List (Event F) → Prop where
  | supplied {caller : Place} {events : List (Event F)}
      (before : Unsupplied engine (some caller) events) :
      Supplied engine scope (.supplied engine caller scope :: events)
  | passed {events : List (Event F)} (before : Supplied engine scope events) (caller : Place) :
      Supplied engine scope (.passed engine caller scope :: events)
  | elsewhere {events : List (Event F)} {event : Event F} (before : Supplied engine scope events)
      (away : event.engine? ≠ some engine) : Supplied engine scope (event :: events)

section Events
variable {engine : Nat} {running : Option Place} {scope : Scope F} {events : List (Event F)}

theorem Unsupplied.nothing (unsupplied : Unsupplied engine running events) {event : Event F}
    (member : event ∈ events) (caller : Place) (scope : Scope F) :
    event ≠ .passed engine caller scope ∧ event ≠ .supplied engine caller scope := by
  induction unsupplied with
  | fresh => cases member
  | elsewhere _ away ih =>
    rcases List.mem_cons.mp member with rfl | member
    · constructor <;> rintro rfl <;> exact away rfl
    · exact ih member
  | started _ ih | failed _ _ ih | dropped _ ih =>
    rcases List.mem_cons.mp member with rfl | member
    · exact ⟨nofun, nofun⟩
    · exact ih member

theorem Unsupplied.startedBy {caller : Place} (unsupplied : Unsupplied engine (some caller) events) :
    ∃ after before, events = after ++ .started engine caller :: before ∧
      ∀ event ∈ after, event.engine? ≠ some engine := by
  generalize same : some caller = running at unsupplied
  induction unsupplied with
  | fresh => cases same
  | @elsewhere _ _ event _ away ih =>
    obtain ⟨after, before, rfl, quiet⟩ := ih same
    exact ⟨event :: after, before, rfl, List.forall_mem_cons.mpr ⟨away, quiet⟩⟩
  | started => cases same; exact ⟨[], _, rfl, nofun⟩
  | failed => cases same
  | dropped => cases same

theorem Supplied.happened (supplied : Supplied engine scope events) :
    ∃ caller, .supplied engine caller scope ∈ events := by
  induction supplied with
  | supplied _ => exact ⟨_, List.mem_cons_self⟩
  | passed _ _ ih | elsewhere _ _ ih =>
    obtain ⟨caller, member⟩ := ih
    exact ⟨caller, List.mem_cons_of_mem _ member⟩

theorem Supplied.passedWith (supplied : Supplied engine scope events) {caller : Place}
    {other : Scope F} (member : .passed engine caller other ∈ events) : other = scope := by
  induction supplied with
  | supplied before =>
    rcases List.mem_cons.mp member with same | member
    · cases same
    · exact absurd rfl (before.nothing member caller other).1
  | passed _ _ ih =>
    rcases List.mem_cons.mp member with same | member
    · cases same
      rfl
    · exact ih member
  | elsewhere _ away ih =>
    rcases List.mem_cons.mp member with rfl | member
    · exact absurd rfl away
    · exact ih member

theorem Supplied.once (supplied : Supplied engine scope events) {after before : List (Event F)}
    {caller : Place} {other : Scope F} (here : events = after ++ .supplied engine caller other :: before) :
    other = scope ∧ Unsupplied engine (some caller) before ∧
      ∀ event ∈ after, event.engine? = some engine → ∃ c, event = .passed engine c scope := by
  induction supplied generalizing after with
  | supplied unsupplied =>
    cases after with
    | nil =>
      cases here
      exact ⟨rfl, unsupplied, nofun⟩
    | cons event after =>
      obtain ⟨_, rfl⟩ := List.cons_eq_cons.mp here
      have inside : Event.supplied engine caller other ∈ after ++ .supplied engine caller other :: before :=
        List.mem_append_right _ List.mem_cons_self
      exact absurd rfl (unsupplied.nothing inside caller other).2
  | passed _ c ih =>
    cases after with
    | nil => cases here
    | cons event after =>
      obtain ⟨rfl, behind⟩ := List.cons_eq_cons.mp here
      obtain ⟨same, unsupplied, rest⟩ := ih behind
      exact ⟨same, unsupplied, List.forall_mem_cons.mpr ⟨fun _ => ⟨c, rfl⟩, rest⟩⟩
  | elsewhere _ away ih =>
    cases after with
    | nil =>
      obtain ⟨rfl, _⟩ := List.cons_eq_cons.mp here
      exact absurd rfl away
    | cons event after =>
      obtain ⟨rfl, behind⟩ := List.cons_eq_cons.mp here
      obtain ⟨same, unsupplied, rest⟩ := ih behind
      exact ⟨same, unsupplied, List.forall_mem_cons.mpr ⟨fun concerns => absurd concerns away, rest⟩⟩

end Events

inductive Known (engine : Nat) (stage : Stage F σ) (events : List (Event F)) : Prop where
  | not (missing : stage.session.supplied? engine = none)
      (unsupplied : Unsupplied engine (stage.running engine) events)
  | already (scope : Scope F) (there : stage.session.supplied? engine = some scope)
      (idle : stage.running engine = none) (supplied : Supplied engine scope events)

theorem Session.suppliedStored (session : Session F σ) (engine other : Nat) (scope : Scope F) :
    Session.supplied? { session with supplied := (engine, scope) :: session.supplied } other =
      if other = engine then some scope else session.supplied? other := by
  by_cases same : engine = other <;> simp [Session.supplied?, same, eq_comm]

theorem Session.settleKeeps (session : Session F σ) (id engine : Nat) :
    (session.settle id).supplied? engine = session.supplied? engine := by
  rw [Session.supplied?, settleSupplied]
  rfl

namespace Known
variable {engines : Engines F} {host : Host F σ} {engine : Nat} {stage stage' : Stage F σ}
  {events : List (Event F)} {event : Event F} {here : Place}

theorem elsewhere (known : Known engine stage events) (away : event.engine? ≠ some engine)
    (sameSupplied : stage'.session.supplied? engine = stage.session.supplied? engine)
    (sameRunning : stage'.running engine = stage.running engine) :
    Known engine stage' (event :: events) := by
  cases known with
  | not missing unsupplied =>
    exact .not (sameSupplied.trans missing) (sameRunning ▸ unsupplied.elsewhere away)
  | already scope there idle supplied =>
    exact .already scope (sameSupplied.trans there) (sameRunning.trans idle) (supplied.elsewhere away)

theorem unsupplied (known : Known engine stage events)
    (missing : stage.session.supplied? engine = none) :
    Unsupplied engine (stage.running engine) events := by
  cases known with
  | not _ unsupplied => exact unsupplied
  | already _ there _ _ => cases missing.symm.trans there

theorem ofRunning (known : Known engine stage events) (own : stage.running engine = some here) :
    stage.session.supplied? engine = none ∧ Unsupplied engine (some here) events := by
  cases known with
  | not missing unsupplied => exact ⟨missing, own ▸ unsupplied⟩
  | already _ _ idle _ => cases idle.symm.trans own

theorem supplied (known : Known engine stage events) {scope : Scope F}
    (there : stage.session.supplied? engine = some scope) :
    stage.running engine = none ∧ Supplied engine scope events := by
  cases known with
  | not missing _ => cases missing.symm.trans there
  | already scope' there' idle supplied =>
    cases there.symm.trans there'
    exact ⟨idle, supplied⟩

theorem succeeded (known : Known engine stage events) {caller : Place} {scope : Scope F}
    (member : .supplied engine caller scope ∈ events) :
    stage.session.supplied? engine = some scope ∧ stage.running engine = none ∧
      Supplied engine scope events := by
  cases known with
  | not _ unsupplied => exact absurd rfl (unsupplied.nothing member caller scope).2
  | already scope' there idle supplied =>
    obtain ⟨after, before, split⟩ := List.append_of_mem member
    obtain ⟨rfl, _⟩ := supplied.once split
    exact ⟨there, idle, supplied⟩

theorem passedAfter (known : Known engine stage events) {caller : Place} {scope : Scope F}
    (member : .passed engine caller scope ∈ events) : ∃ c, .supplied engine c scope ∈ events := by
  cases known with
  | not _ unsupplied => exact absurd rfl (unsupplied.nothing member caller scope).1
  | already scope' _ _ supplied =>
    obtain rfl := supplied.passedWith member
    exact supplied.happened

theorem isReady {symbol : F} (lazy : (engines.get engine).source = .lazy symbol)
    (known : Known engine stage events) :
    stage.session.isReady engines engine = true ↔
      ∃ caller scope, .supplied engine caller scope ∈ events := by
  rw [Session.isReady, lazy]
  constructor
  · intro there
    cases known with
    | not missing _ => rw [missing] at there; cases there
    | already scope _ _ supplied =>
      obtain ⟨caller, member⟩ := supplied.happened
      exact ⟨caller, scope, member⟩
  · rintro ⟨caller, scope, member⟩
    rw [(known.succeeded member).1]
    rfl

theorem dropped (known : Known engine stage events) (here : Place) :
    Known engine (stage.drop here) (.other :: events) := by
  cases known with
  | already scope there idle supplied =>
    exact .already scope there (by simp [idle]) (supplied.elsewhere nofun)
  | not missing unsupplied =>
    refine .not missing ?_
    rw [Stage.dropRunning]
    cases own : stage.running engine with
    | none => exact (own ▸ unsupplied).elsewhere nofun
    | some caller =>
      rw [own] at unsupplied
      cases gone : here.above caller with
      | true => simpa [Option.filter, gone] using unsupplied.dropped
      | false =>
        have away : (Event.other : Event F).engine? ≠ some engine := nofun
        simpa [Option.filter, gone] using unsupplied.elsewhere away

/- One step of the engine itself is one line of `Unsupplied` or `Supplied`; all others change nothing. -/
theorem act {symbol : F} (lazy : (engines.get engine).source = .lazy symbol) {α : Type}
    {node node' : Run F α} (act : Act engines host here stage node event stage' node')
    (known : Known engine stage events) : Known engine stage' (event :: events) := by
  have away : ∀ {other}, other ≠ engine → some other ≠ some engine := fun different same =>
    different (Option.some.inj same)
  cases act with
  | called => exact known.elsewhere nofun rfl rfl
  | settled => exact known.elsewhere nofun (Session.settleKeeps _ _ _) rfl
  | warned => exact known.elsewhere nofun rfl rfl
  | joined => exact known.elsewhere nofun rfl rfl
  | stopped => exact known.dropped here
  -- a ready source is that of another engine
  | given ready =>
    refine known.elsewhere ?_ rfl rfl
    rintro ⟨⟩
    cases lazy.symm.trans ready
  | @passed other _ _ _ _ there =>
    rcases eq_or_ne other engine with rfl | different
    · obtain ⟨idle, supplied⟩ := known.supplied there
      exact .already _ there idle (supplied.passed here)
    · exact known.elsewhere (away different) rfl rfl
  | @started other _ _ _ missing idle =>
    rcases eq_or_ne other engine with rfl | different
    · have before := known.unsupplied missing
      rw [idle] at before
      refine .not missing ?_
      rw [Stage.startRunning, if_pos rfl]
      exact before.started
    · refine known.elsewhere (away different) rfl ?_
      rw [Stage.startRunning, if_neg different.symm]
  | @supplied other _ _ scope state _ own _ =>
    rcases eq_or_ne other engine with rfl | different
    · refine .already scope ?_ ?_ (.supplied (known.ofRunning own).2)
      · exact (Session.suppliedStored _ _ _ _).trans (if_pos rfl)
      · rw [Stage.storeRunning, Stage.finishRunning, if_pos rfl]
    · refine known.elsewhere (away different) ?_ ?_
      · exact (Session.suppliedStored _ _ _ _).trans (if_neg different.symm)
      · rw [Stage.storeRunning, Stage.finishRunning, if_neg different.symm, Stage.withStateRunning]
  | @failed other _ _ e state _ own _ =>
    rcases eq_or_ne other engine with rfl | different
    · obtain ⟨missing, before⟩ := known.ofRunning own
      refine .not missing ?_
      rw [Stage.finishRunning, if_pos rfl]
      exact before.failed e
    · refine known.elsewhere (away different) rfl ?_
      rw [Stage.finishRunning, if_neg different.symm, Stage.withStateRunning]

end Known

namespace System
variable {engines : Engines F} {host : Host F σ} {engine : Nat} {symbol : F}
  (lazy : (engines.get engine).source = .lazy symbol)
include lazy

theorem Step.known {s t : System F σ} {event : Event F} (step : Step engines host s event t)
    {events : List (Event F)} (known : Known engine s.stage events) :
    Known engine t.stage (event :: events) := by
  cases step with
  | arrived request => exact known.elsewhere nofun rfl rfl
  | acted place there inside act => exact known.act lazy act

theorem Goes.known {state : σ} {s : System F σ} {events : List (Event F)}
    (goes : Goes engines host (fresh state) events s) : Known engine s.stage events := by
  induction goes with
  | nowhere => exact .not rfl .fresh
  | further _ step ih => exact step.known lazy ih

end System
end Reshape
