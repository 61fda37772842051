import Mathlib.Data.List.Nodup
import Reshape.Proofs.Fallible
import Reshape.Proofs.Run.Ends
import Reshape.Proofs.Run.Interleaved
/-! The declared order among the interleavings: what a run on its own does, a system can do whose only
task it is. -/
namespace Reshape
variable {F σ : Type} {engines : Engines F} {host : Host F σ} {task : Nat}

def Stage.quiet (session : Session F σ) : Stage F σ :=
  ⟨session, fun _ => none⟩

inductive Walks (engines : Engines F) (host : Host F σ) (task : Nat) (path : List Nat) {α : Type} :
    Stage F σ → Run F α → Stage F σ → Run F α → Prop where
  | stays {stage : Stage F σ} {r : Run F α} : Walks engines host task path stage r stage r
  | further {first : Stage F σ} {r : Run F α} {middle last : Stage F σ} {r' r'' : Run F α} {β : Type}
      {node node' : Run F β} {within : List Nat} {event : Event F}
      (walks : Walks engines host task path first r middle r')
      (inside : Swapped node node' within r' r'')
      (act : Act engines host ⟨task, path ++ within⟩ middle node event last node') :
      Walks engines host task path first r last r''

namespace Walks
variable {path : List Nat} {α β : Type} {first middle last : Stage F σ}

theorem trans {r r' r'' : Run F α} (walks : Walks engines host task path first r middle r')
    (onward : Walks engines host task path middle r' last r'') :
    Walks engines host task path first r last r'' := by
  induction onward with
  | stays => exact walks
  | further _ inside act ih => exact ih.further inside act

theorem acts {r r' : Run F α} {event : Event F}
    (act : Act engines host ⟨task, path⟩ first r event last r') :
    Walks engines host task path first r last r' :=
  .further .stays .here ((List.append_nil path).symm ▸ act)

theorem job {size : Nat} {jobs : Fin size → Run F β} {i : Fin size} {r r' : Run F β}
    (here : jobs i = r) (walks : Walks engines host task (path ++ [i.val]) first r last r')
    (next : List β → Run F α) :
    Walks engines host task path first (.spread size jobs next) last
      (.spread size (Function.update jobs i r') next) := by
  induction walks with
  | stays =>
    subst here
    rw [Function.update_eq_self]
    exact .stays
  | @further _ _ r' r'' _ _ _ within _ _ inside act ih =>
    have there : Function.update jobs i r' i = r' := Function.update_self _ _ _
    rw [← there] at inside
    have swapped : Swapped _ _ _ (.spread size (Function.update jobs i r') next) _ := .job inside
    rw [Function.update_idem] at swapped
    rw [List.append_assoc] at act
    exact ih.further swapped act

theorem goes {session : Session F σ} {r r' : Run F α}
    (walks : Walks engines host 0 [] (.quiet session) r last r') :
    ∃ events, System.Goes engines host ⟨.quiet session, [⟨α, r⟩]⟩ events ⟨last, [⟨α, r'⟩]⟩ := by
  generalize Stage.quiet session = stage at walks ⊢
  induction walks with
  | stays => exact ⟨[], .nowhere⟩
  | @further _ _ _ _ _ _ _ within event _ inside act ih =>
    obtain ⟨events, goes⟩ := ih
    exact ⟨event :: events, goes.further (.acted ⟨0, within⟩ rfl inside act)⟩

end Walks

def Does (engines : Engines F) (host : Host F σ) (task : Nat) (path : List Nat) {α : Type}
    (r : Run F α) (action : Acting F σ α) : Prop :=
  ∀ session, Walks engines host task path (.quiet session) r
    (.quiet (action.run.run session).2) (.ofExcept (action.run.run session).1)

namespace Run
variable {α β : Type} {path : List Nat}

theorem sequenceDoes {r : Run F β} {action : Acting F σ α} {next : α → Run F β}
    {after : α → Acting F σ β}
    (first : ∀ session, Walks engines host task path (.quiet session) r
      (.quiet (action.run.run session).2) ((ofExcept (action.run.run session).1).bind next))
    (onward : ∀ a, Does engines host task path (next a) (after a)) :
    Does engines host task path r (action >>= after) := by
  intro session
  have first := first session
  rw [sequenceRun]
  generalize action.run.run session = outcome at first ⊢
  obtain ⟨e | a, session⟩ := outcome
  · exact first
  · exact first.trans (onward a session)

section Acquire
variable {engine : Nat} {symbol : F} (source : (engines.get engine).source = .lazy symbol)
  {session : Session F σ}
include source

theorem acquireThere {scope : Scope F} (there : session.supplied? engine = some scope) :
    (acquire engines host engine).run.run session = (.ok scope, session) := by
  have looked : (get : Acting F σ (Session F σ)).run.run session = (.ok session, session) := rfl
  unfold acquire
  simp only [source]
  rw [sequenceRun, looked]
  simp only [there]
  rfl

theorem acquireMissing (missing : session.supplied? engine = none) :
    (acquire engines host engine).run.run session = (do
      let scope ← onState (host.supply symbol)
      modify fun s : Session F σ => { s with supplied := (engine, scope) :: s.supplied }
      return scope : Acting F σ (Scope F)).run.run session := by
  have looked : (get : Acting F σ (Session F σ)).run.run session = (.ok session, session) := rfl
  unfold acquire
  simp only [source]
  rw [sequenceRun, looked]
  simp only [missing]

theorem supplyWalks (missing : session.supplied? engine = none) (next : Scope F → Run F α) :
    Walks engines host task path (.quiet session) (.global engine next)
      (.quiet ((acquire engines host engine).run.run session).2)
      ((ofExcept ((acquire engines host engine).run.run session).1).bind next) := by
  let running := (Stage.quiet session).start engine ⟨task, path⟩
  have starts : Walks engines host task path (.quiet session) (.global engine next) running
      (.global engine next) := .acts (.started source missing rfl)
  have own : running.running engine = some ⟨task, path⟩ := by simp [running]
  have quiet : ∀ state, (running.withState state).finish engine =
      (Stage.quiet session).withState state := by
    intro state
    simp only [running, Stage.quiet, Stage.start, Stage.finish, Stage.withState]
    rw [Function.update_idem]
    exact congrArg _ (Function.update_eq_self _ _)
  cases answered : host.supply symbol session.state with
  | mk answer state =>
    have asked : (onState (host.supply symbol) : Acting F σ (Scope F)).run.run session =
        (answer, { session with state }) := by
      show ((host.supply symbol session.state).1,
        { session with state := (host.supply symbol session.state).2 }) = _
      rw [answered]
    rw [acquireMissing source missing, sequenceRun, asked]
    cases answer with
    | ok scope =>
      have supplies : Act engines host ⟨task, path⟩ running (.global engine next) _ _ _ :=
        .supplied source own answered
      rw [quiet] at supplies
      exact starts.trans (.acts supplies)
    | error e =>
      have fails : Act engines host ⟨task, path⟩ running (.global engine next) _ _ _ :=
        .failed source own answered
      rw [quiet] at fails
      exact starts.trans (.acts fails)

end Acquire

theorem acquireWalks (engine : Nat) (next : Scope F → Run F α) (session : Session F σ) :
    Walks engines host task path (.quiet session) (.global engine next)
      (.quiet ((acquire engines host engine).run.run session).2)
      ((ofExcept ((acquire engines host engine).run.run session).1).bind next) := by
  cases source : (engines.get engine).source with
  | ready scope =>
    unfold acquire
    rw [source]
    exact .acts (.given source)
  | lazy symbol =>
    cases there : session.supplied? engine with
    | some scope =>
      rw [acquireThere source there]
      exact .acts (.passed source there)
    | none => exact supplyWalks source there next

theorem turnsWalk (path : List Nat) {size : Nat} {jobs : Fin size → Run F β} (next : List β → Run F α)
    (each : ∀ i path, Does engines host task path (jobs i) ((jobs i).exec engines host))
    {todo : List (Fin size)} (distinct : todo.Nodup) (current : Fin size → Run F β)
    (untouched : ∀ i ∈ todo, current i = jobs i) (session : Session F σ) :
    ∃ last, Walks engines host task path (.quiet session) (.spread size current next)
        (.quiet ((todo.mapM fun i => (jobs i).exec engines host).run.run session).2)
        (.spread size last next) ∧
      match ((todo.mapM fun i => (jobs i).exec engines host).run.run session).1 with
      | .ok results => List.Forall₂ (fun i b => last i = .pure b) todo results ∧
          ∀ i ∉ todo, last i = current i
      | .error e => ∃ i, last i = .fail e := by
  induction todo generalizing current session with
  | nil => exact ⟨current, .stays, .nil, fun _ _ => rfl⟩
  | cons i rest ih =>
    obtain ⟨fresh, distinct⟩ := List.nodup_cons.mp distinct
    have here := (each i (path ++ [i.val]) session).job (untouched i List.mem_cons_self) next
    rw [List.mapM_cons, sequenceRun]
    generalize ((jobs i).exec engines host).run.run session = outcome at here ⊢
    obtain ⟨e | b, session⟩ := outcome
    -- the jobs behind one that fails are not begun
    · exact ⟨_, here, i, Function.update_self _ _ _⟩
    · have apart : ∀ k ∈ rest, k ≠ i := fun k member same => fresh (same ▸ member)
      have others : ∀ k ∈ rest, Function.update current i (.pure b) k = jobs k := by
        intro k member
        rw [Function.update_of_ne (apart k member)]
        exact untouched k (List.mem_cons_of_mem _ member)
      obtain ⟨last, walks, ended⟩ := ih distinct _ others session
      refine ⟨last, ?_⟩
      dsimp only
      rw [sequenceRun]
      generalize (rest.mapM fun i => (jobs i).exec engines host).run.run session = outcome
        at walks ended ⊢
      obtain ⟨e | results, session⟩ := outcome
      · exact ⟨here.trans walks, ended⟩
      · obtain ⟨all, kept⟩ := ended
        have done : last i = .pure b := (kept i fresh).trans (Function.update_self _ _ _)
        refine ⟨here.trans walks, .cons done all, fun k outside => ?_⟩
        obtain ⟨different, outside⟩ := List.ne_and_not_mem_of_not_mem_cons outside
        rw [kept k outside, Function.update_of_ne different]

theorem spreadWalks {size : Nat} {jobs : Fin size → Run F β} (next : List β → Run F α)
    (each : ∀ i path, Does engines host task path (jobs i) ((jobs i).exec engines host))
    (session : Session F σ) :
    Walks engines host task path (.quiet session) (.spread size jobs next)
      (.quiet (((List.ofFn fun i => (jobs i).exec engines host).mapM id).run.run session).2)
      ((ofExcept (((List.ofFn fun i => (jobs i).exec engines host).mapM id).run.run session).1).bind
        next) := by
  have order : (List.ofFn fun i => (jobs i).exec engines host).mapM id =
      (List.finRange size).mapM fun i => (jobs i).exec engines host := by
    rw [List.ofFn_eq_map, List.mapM_map]
    rfl
  obtain ⟨last, walks, ended⟩ := turnsWalk path next each (List.nodup_finRange size) jobs
    (fun _ _ => rfl) session
  rw [order]
  refine walks.trans ?_
  generalize ((List.finRange size).mapM fun i => (jobs i).exec engines host).run.run session =
    outcome at ended ⊢
  obtain ⟨e | results, session⟩ := outcome
  · obtain ⟨i, failed⟩ := ended
    exact .acts (.stopped failed)
  · obtain ⟨given, all, rfl⟩ := Fallible.eachPosition ended.1
    obtain rfl : last = fun i => .pure (given i) := funext all
    exact .acts .joined

theorem execDoes (r : Run F α) (path : List Nat) :
    Does engines host task path r (r.exec engines host) := by
  induction r generalizing path with
  | pure a => exact fun _ => .stays
  | fail e => exact fun _ => .stays
  | call role symbol c next ih =>
    exact sequenceDoes (fun _ => .acts (.called rfl)) fun computed => ih computed path
  | global engine next ih => exact sequenceDoes (acquireWalks engine next) fun scope => ih scope path
  | await d next ih => exact sequenceDoes (fun _ => .acts .settled) fun _ => ih d.value path
  | warn text next ih => exact sequenceDoes (fun _ => .acts .warned) fun _ => ih path
  | spread size jobs next ihEach ih =>
    exact sequenceDoes (spreadWalks next ihEach) fun results => ih results path

end Run

theorem System.execGoes (engines : Engines F) (host : Host F σ) (request : Request F) (state : σ) :
    ∃ events, Goes engines host (fresh state) events
      ⟨.quiet (((request.task engines).2.exec engines host).run.run { state }).2,
        [⟨_, .ofExcept (((request.task engines).2.exec engines host).run.run { state }).1⟩]⟩ := by
  have arrived : Goes engines host (fresh state) [.other]
      ⟨.quiet { state }, [request.task engines]⟩ := Goes.nowhere.further (.arrived request)
  obtain ⟨events, goes⟩ := (Run.execDoes (request.task engines).2 [] { state }).goes
  exact ⟨events ++ [.other], arrived.onward goes⟩

end Reshape
