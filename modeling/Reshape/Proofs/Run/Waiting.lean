import Reshape.Proofs.Run.Supplied
/-! The caller whose run goes on stands at its call until the run ends or the caller is dropped, so
every run can end and no caller waits for one that is gone. -/
namespace Reshape
variable {F σ : Type}

theorem Place.aboveWithin (here : Place) (rest : List Nat) :
    here.above ⟨here.task, here.path ++ rest⟩ = true := by
  have prefixed := List.isPrefixOf_iff_prefix.mpr (List.prefix_append here.path rest)
  simp [above, prefixed]

inductive Stands {β : Type} (node : Run F β) : {α : Type} → List Nat → Run F α → Prop where
  | here : Stands node [] node
  | job {α γ : Type} {size : Nat} {jobs : Fin size → Run F γ} {next : List γ → Run F α}
      {i : Fin size} {path : List Nat} (inside : Stands node path (jobs i)) :
      Stands node (i.val :: path) (.spread size jobs next)

section Stands
variable {α β γ : Type} {path there : List Nat} {r r' : Run F α} {node node' : Run F γ}

theorem Swapped.stands (swapped : Swapped node node' path r r') : Stands node' path r' := by
  induction swapped with
  | here => exact .here
  | job _ ih => exact .job (by rwa [Function.update_self])

theorem Stands.swap (stands : Stands node path r) (node' : Run F γ) :
    ∃ r', Swapped node node' path r r' := by
  induction stands with
  | here => exact ⟨node', .here⟩
  | job _ ih =>
    obtain ⟨job', inside⟩ := ih
    exact ⟨_, .job inside⟩

variable {engine : Nat} {next : Scope F → Run F β}

theorem Stands.elsewhere (stands : Stands (.global engine next) there r)
    (swapped : Swapped node node' path r r') (apart : ¬ path <+: there) :
    Stands (.global engine next) there r' := by
  induction swapped generalizing there with
  | here => exact absurd List.nil_prefix apart
  | @job _ _ size jobs _ i path job' _ ih =>
    obtain _ | @⟨_, _, _, _, _, k, rest, inside⟩ := stands
    refine .job ?_
    rcases eq_or_ne k i with rfl | different
    · rw [Function.update_self]
      exact ih inside fun prefixed => apart (List.cons_prefix_cons.mpr ⟨rfl, prefixed⟩)
    · rwa [Function.update_of_ne different]

theorem Stands.within (stands : Stands (.global engine next) there r)
    (swapped : Swapped node node' path r r') (around : path <+: there) :
    ∃ rest, there = path ++ rest ∧ Stands (.global engine next) rest node := by
  induction swapped generalizing there with
  | here => exact ⟨there, rfl, stands⟩
  | @job _ _ size jobs _ i path job' _ ih =>
    obtain _ | @⟨_, _, _, _, _, k, rest, inside⟩ := stands
    obtain ⟨same, behind⟩ := List.cons_prefix_cons.mp around
    obtain rfl := Fin.ext same
    obtain ⟨rest, rfl, stands⟩ := ih inside behind
    exact ⟨rest, rfl, stands⟩

end Stands

def System.WaitsAt (s : System F σ) (engine : Nat) (caller : Place) : Prop :=
  ∃ (α β : Type) (r : Run F α) (next : Scope F → Run F β),
    s.tasks[caller.task]? = some ⟨α, r⟩ ∧ Stands (.global engine next) caller.path r

section Waiting
variable {engines : Engines F} {host : Host F σ} {engine : Nat}

theorem Act.caller {here caller : Place} {stage stage' : Stage F σ} {event : Event F} {α : Type}
    {node node' : Run F α} (act : Act engines host here stage node event stage' node')
    (own : stage'.running engine = some caller) :
    stage.running engine = some caller ∨
      caller = here ∧ ∃ next, node' = .global engine next := by
  cases act with
  | stopped => exact .inl (Option.filter_eq_some_iff.mp own).1
  | @started other next =>
    rw [Stage.startRunning] at own
    split at own
    · rename_i same
      cases own
      exact .inr ⟨rfl, next, by rw [same]⟩
    · exact .inl own
  | supplied | failed =>
    simp only [Stage.storeRunning, Stage.finishRunning] at own
    split at own
    · cases own
    · exact .inl own
  | _ => exact .inl own

theorem Act.notAround {here caller : Place} {stage stage' : Stage F σ} {event : Event F}
    {events : List (Event F)} {α β : Type} {node node' : Run F α} {next : Scope F → Run F β}
    (act : Act engines host here stage node event stage' node') {symbol : F}
    (lazy : (engines.get engine).source = .lazy symbol) (known : Known engine stage events)
    (own : stage.running engine = some caller) (still : stage'.running engine = some caller)
    {rest : List Nat} (stands : Stands (.global engine next) rest node) :
    caller ≠ ⟨here.task, here.path ++ rest⟩ := by
  rintro rfl
  have missing := (known.ofRunning own).1
  cases stands with
  | here =>
    cases act with
    | given ready => cases lazy.symm.trans ready
    | passed _ there => cases missing.symm.trans there
    | started _ _ idle => cases idle.symm.trans own
    | supplied => simp at still
    | failed => simp at still
  | job inside =>
    cases act with
    | joined => cases inside
    | stopped =>
      have kept := (Option.filter_eq_some_iff.mp still).2
      rw [Place.aboveWithin] at kept
      cases kept

namespace System

theorem Step.waits {symbol : F} (lazy : (engines.get engine).source = .lazy symbol)
    {s t : System F σ} {event : Event F} (step : Step engines host s event t)
    {events : List (Event F)} (known : Known engine s.stage events)
    (waits : ∀ caller, s.stage.running engine = some caller → s.WaitsAt engine caller)
    {caller : Place} (own : t.stage.running engine = some caller) : t.WaitsAt engine caller := by
  cases step with
  | arrived request =>
    obtain ⟨α, β, r, next, there, stands⟩ := waits caller own
    have known : caller.task < s.tasks.length := (List.getElem?_eq_some_iff.mp there).1
    exact ⟨α, β, r, next, (List.getElem?_append_left known).trans there, stands⟩
  | @acted place _ _ acting acting' _ _ _ _ here inside act =>
    have inBounds := (List.getElem?_eq_some_iff.mp here).1
    -- either the run was this caller's before, or this very step has started it
    rcases act.caller own with before | ⟨rfl, next, rfl⟩
    · obtain ⟨α, β, r, next, there, stands⟩ := waits caller before
      rcases eq_or_ne place.task caller.task with same | different
      · rw [same] at here
        cases here.symm.trans there
        have apart : ¬ place.path <+: caller.path := by
          intro around
          obtain ⟨rest, split, stands⟩ := stands.within inside around
          have around : caller = ⟨place.task, place.path ++ rest⟩ := by rw [same, ← split]
          exact act.notAround lazy known before own stands around
        refine ⟨_, _, acting', next, ?_, stands.elsewhere inside apart⟩
        rw [same] at inBounds ⊢
        exact List.getElem?_set_self inBounds
      · exact ⟨α, β, r, next, (List.getElem?_set_ne different).trans there, stands⟩
    · exact ⟨_, _, acting', next, List.getElem?_set_self inBounds, inside.stands⟩

theorem Goes.waits {symbol : F} (lazy : (engines.get engine).source = .lazy symbol) {state : σ}
    {s : System F σ} {events : List (Event F)} (goes : Goes engines host (fresh state) events s) :
    ∀ caller, s.stage.running engine = some caller → s.WaitsAt engine caller := by
  induction goes with
  | nowhere => exact nofun
  | further before step ih => exact fun caller => step.waits lazy (before.known lazy) ih

/- Whatever stands at a call for the scope: it passes, or starts a run, or the run that goes on can
end. -/
theorem Goes.notStuck {symbol : F} (lazy : (engines.get engine).source = .lazy symbol) {state : σ}
    {s : System F σ} {events : List (Event F)} (goes : Goes engines host (fresh state) events s)
    {caller : Place} (waits : s.WaitsAt engine caller) :
    ∃ event t, event.engine? = some engine ∧ Step engines host s event t := by
  obtain ⟨α, β, r, next, there, stands⟩ := waits
  cases supplied : s.stage.session.supplied? engine with
  | some scope =>
    obtain ⟨r', swapped⟩ := stands.swap (next scope)
    exact ⟨_, _, rfl, .acted _ there swapped (.passed lazy supplied)⟩
  | none =>
    cases own : s.stage.running engine with
    | none =>
      obtain ⟨r', swapped⟩ := stands.swap (.global engine next)
      exact ⟨_, _, rfl, .acted _ there swapped (.started lazy supplied own)⟩
    | some other =>
      obtain ⟨_, _, r, next, there, stands⟩ := goes.waits lazy other own
      cases answered : host.supply symbol s.stage.session.state with
      | mk answer state =>
        cases answer with
        | ok scope =>
          obtain ⟨r', swapped⟩ := stands.swap (next scope)
          exact ⟨_, _, rfl, .acted _ there swapped (.supplied lazy own answered)⟩
        | error e =>
          obtain ⟨r', swapped⟩ := stands.swap (.fail e)
          exact ⟨_, _, rfl, .acted _ there swapped (.failed lazy own answered)⟩

end System
end Waiting
end Reshape
