import Mathlib.Data.List.OfFn
import Reshape.Proofs.Fallible
import Reshape.Proofs.Run.Satisfies
import Reshape.Run.Eval
import Reshape.Run.Exec
/-! Runs that ask the same in the same order, each callback with contexts that correspond. Hosts that
answer corresponding contexts alike cannot tell the runs apart: they end the same way, with the same
state, warnings and supplied scopes. A run that satisfies bounds matches itself within them, so a host
may be replaced by one that differs only where the run never asks. -/
namespace Reshape
variable {F σ : Type}

structure Informed (F : Type) where
  call : Role → F → Context F → Except Error (Computed F)
  global : Nat → Except Error (Scope F)

def Answers.informed (answers : Answers F) : Informed F :=
  ⟨fun _ => answers.call, answers.global⟩

structure Informed.Within (informed : Informed F) (replies : Replies F) : Prop where
  called : ∀ role symbol c r, informed.call role symbol c = .ok r → replies.call role symbol c r
  global : ∀ engine s, informed.global engine = .ok s → replies.global engine s

theorem Informed.withinAny (informed : Informed F) : informed.Within .any :=
  ⟨fun _ _ _ _ _ => trivial, fun _ _ _ => trivial⟩

namespace Run

def answered (informed : Informed F) {α : Type} : Run F α → Except Error α
  | .pure a => .ok a
  | .fail e => .error e
  | .call role symbol c next =>
    match informed.call role symbol c with
    | .ok computed => (next computed).answered informed
    | .error e => .error e
  | .global engine next =>
    match informed.global engine with
    | .ok scope => (next scope).answered informed
    | .error e => .error e
  | .await d next => (next d.value).answered informed
  | .warn _ next => next.answered informed
  | .spread _ jobs next =>
    match (List.ofFn fun i => (jobs i).answered informed).mapM id with
    | .ok results => (next results).answered informed
    | .error e => .error e

theorem evalAnswered (answers : Answers F) {α : Type} (r : Run F α) :
    r.eval answers = r.answered answers.informed := by
  induction r with
  | pure a => rfl
  | fail e => rfl
  | call role symbol c next ih =>
    cases given : answers.call symbol c <;>
      simp only [eval, answered, Answers.informed, given, ih]
  | global engine next ih =>
    cases given : answers.global engine <;>
      simp only [eval, answered, Answers.informed, given, ih]
  | await d next ih => exact ih d.value
  | warn text next ih => exact ih
  | spread size jobs next ihEach ih =>
    cases given : (List.ofFn fun i => answered answers.informed (jobs i)).mapM id <;>
      simp only [eval, answered, ihEach, given, ih]

inductive Matches (replies : Replies F) (asked : Role → F → Context F → Context F → Prop) :
    {α : Type} → (α → Prop) → Run F α → Run F α → Prop where
  | pure {α : Type} {wanted : α → Prop} {a : α} (holds : wanted a) :
      Matches replies asked wanted (.pure a) (.pure a)
  | fail {α : Type} {wanted : α → Prop} (e : Error) :
      Matches replies asked wanted (.fail e) (.fail e)
  | call {α : Type} {wanted : α → Prop} {role : Role} {symbol : F} {c c' : Context F}
      {next next' : Computed F → Run F α} (corresponds : asked role symbol c c')
      (after : ∀ r, replies.call role symbol c r → Matches replies asked wanted (next r) (next' r)) :
      Matches replies asked wanted (.call role symbol c next) (.call role symbol c' next')
  | global {α : Type} {wanted : α → Prop} (engine : Nat) {next next' : Scope F → Run F α}
      (after : ∀ s, replies.global engine s → Matches replies asked wanted (next s) (next' s)) :
      Matches replies asked wanted (.global engine next) (.global engine next')
  | await {α : Type} {wanted : α → Prop} (d : Deferred) {next next' : Value → Run F α}
      (after : ∀ v, Matches replies asked wanted (next v) (next' v)) :
      Matches replies asked wanted (.await d next) (.await d next')
  | warn {α : Type} {wanted : α → Prop} (text : String) {next next' : Run F α}
      (after : Matches replies asked wanted next next') :
      Matches replies asked wanted (.warn text next) (.warn text next')
  | spread {α β : Type} {wanted : α → Prop} (each : β → Prop) {size : Nat}
      {jobs jobs' : Fin size → Run F β} {next next' : List β → Run F α}
      (every : ∀ i, Matches replies asked each (jobs i) (jobs' i))
      (after : ∀ rs, (∀ r ∈ rs, each r) → Matches replies asked wanted (next rs) (next' rs)) :
      Matches replies asked wanted (.spread size jobs next) (.spread size jobs' next')

section Matches
variable {replies : Replies F} {asked : Role → F → Context F → Context F → Prop} {α β : Type}

theorem Matches.bind {each : α → Prop} {wanted : β → Prop} {r r' : Run F α} {f f' : α → Run F β}
    (first : Matches replies asked each r r')
    (after : ∀ a, each a → Matches replies asked wanted (f a) (f' a)) :
    Matches replies asked wanted (r.bind f) (r'.bind f') := by
  induction first with
  | pure holds => exact after _ holds
  | fail e => exact .fail e
  | call corresponds _ ih => exact .call corresponds fun r given => ih r given after
  | global engine _ ih => exact .global engine fun s given => ih s given after
  | await d _ ih => exact .await d fun v => ih v after
  | warn text _ ih => exact .warn text (ih after)
  | spread results every _ _ ih => exact .spread results every fun rs all => ih rs all after

theorem matchesCongruence :
    Congruence fun (α : Type) (r r' : Run F α) => Matches replies asked (fun _ => True) r r' where
  result _ := .pure trivial
  failure _ := .fail _
  sequence first after := first.bind fun a _ => after a
  waiting d := .await d fun _ => .pure trivial
  supplied engine := .global engine fun _ _ => .pure trivial
  notice text := .warn text (.pure trivial)
  gathering each := by
    rw [gatherSized each.length_eq]
    exact .spread (fun _ => True) (fun i => each.get i.isLt _) fun _ _ => .pure trivial

theorem Satisfies.matches {asked : Role → F → Context F → Prop} {wanted : α → Prop} {r : Run F α}
    (satisfies : r.Satisfies replies asked wanted) :
    Matches replies (fun role symbol c c' => c' = c ∧ asked role symbol c) wanted r r := by
  induction r with
  | pure a => exact .pure satisfies
  | fail e => exact .fail e
  | call role symbol c next ih =>
    exact .call ⟨rfl, satisfies.1⟩ fun r given => ih r (satisfies.2 r given)
  | global engine next ih => exact .global engine fun s given => ih s (satisfies s given)
  | await d next ih => exact .await d fun v => ih v (satisfies v)
  | warn text next ih => exact .warn text (ih satisfies)
  | spread size jobs next ihEach ih =>
    obtain ⟨each, every, after⟩ := satisfies
    exact .spread each (fun i => ihEach i (every i)) fun rs all => ih rs (after rs all)

theorem Matches.answered {informed informed' : Informed F} (within : informed.Within replies)
    (alike : ∀ role symbol c c', asked role symbol c c' →
      informed'.call role symbol c' = informed.call role symbol c)
    (sameGlobal : informed'.global = informed.global) {wanted : α → Prop} {r r' : Run F α}
    (pair : Matches replies asked wanted r r') :
    r'.answered informed' = r.answered informed ∧
      ∀ a, r.answered informed = .ok a → wanted a := by
  induction pair with
  | pure holds => exact ⟨rfl, fun b same => by cases same; exact holds⟩
  | fail e => exact ⟨rfl, fun _ => nofun⟩
  | call corresponds _ ih =>
    simp only [Run.answered, alike _ _ _ _ corresponds]
    split
    · rename_i computed given
      exact ih computed (within.called _ _ _ _ given)
    · exact ⟨rfl, fun _ => nofun⟩
  | global engine _ ih =>
    simp only [Run.answered, sameGlobal]
    split
    · rename_i scope given
      exact ih scope (within.global _ _ given)
    · exact ⟨rfl, fun _ => nofun⟩
  | await d _ ih => exact ih d.value
  | warn text _ ih => exact ih
  | @spread _ _ _ each size jobs jobs' _ _ _ _ ihEach ih =>
    have sameJobs : (fun i => (jobs' i).answered informed') = fun i => (jobs i).answered informed :=
      funext fun i => (ihEach i).1
    simp only [Run.answered, sameJobs]
    split
    · rename_i results found
      refine ih results fun b member => ?_
      obtain ⟨job, inside, gave⟩ := Fallible.mapMSource found member
      obtain ⟨i, rfl⟩ := List.mem_ofFn.mp inside
      exact (ihEach i).2 b gave
    · exact ⟨rfl, fun _ => nofun⟩

end Matches

end Run

def Acting.Alike (kept : List (Nat × Scope F) → Prop) {α : Type} (wanted : α → Prop)
    (action action' : Acting F σ α) : Prop :=
  ∀ session, kept session.supplied → action'.run.run session = action.run.run session ∧
    kept (action.run.run session).2.supplied ∧
    ∀ a, (action.run.run session).1 = .ok a → wanted a

namespace Acting.Alike
variable {kept : List (Nat × Scope F) → Prop} {α β : Type} {each : α → Prop} {wanted : β → Prop}

theorem itself (action : Acting F σ α) : Acting.Alike (fun _ => True) (fun _ => True) action action :=
  fun _ _ => ⟨rfl, trivial, fun _ _ => trivial⟩

theorem result {a : α} (holds : each a) : Acting.Alike kept each (pure a : Acting F σ α) (pure a) := by
  refine fun session keeps => ⟨rfl, keeps, fun b same => ?_⟩
  cases same
  exact holds

theorem stops (e : Error) : Acting.Alike kept each (throw e : Acting F σ α) (throw e) :=
  fun _ keeps => ⟨rfl, keeps, fun _ => nofun⟩

theorem sequence {action action' : Acting F σ α} {next next' : α → Acting F σ β}
    (first : Acting.Alike kept each action action')
    (after : ∀ a, each a → Acting.Alike kept wanted (next a) (next' a)) :
    Acting.Alike kept wanted (action >>= next) (action' >>= next') := by
  intro session keeps
  obtain ⟨same, still, came⟩ := first session keeps
  rw [ExceptT.run_bind, StateT.run_bind, ExceptT.run_bind, StateT.run_bind, same]
  generalize (action.run.run session) = answer at still came
  obtain ⟨e | a, session⟩ := answer
  · exact ⟨rfl, still, fun _ => nofun⟩
  · exact after a (came a rfl) session still

theorem update {f : Session F σ → Session F σ}
    (still : ∀ session, kept session.supplied → kept (f session).supplied) :
    Acting.Alike kept (fun _ => True) (modify f : Acting F σ Unit) (modify f) :=
  fun session keeps => ⟨rfl, still session keeps, fun _ _ => trivial⟩

theorem host {action action' : σ → Except Error α × σ} (same : ∀ state, action' state = action state)
    (known : ∀ state a, (action state).1 = .ok a → each a) :
    Acting.Alike kept each (Run.onState action) (Run.onState action') := by
  obtain rfl : action' = action := funext same
  exact fun session keeps => ⟨rfl, keeps, fun a came => known session.state a came⟩

theorem jobs {jobs jobs' : List (Acting F σ α)}
    (all : List.Forall₂ (Acting.Alike kept each) jobs jobs') :
    Acting.Alike kept (fun results => ∀ r ∈ results, each r) (jobs.mapM id) (jobs'.mapM id) := by
  induction all with
  | nil => exact result fun _ => (nomatch ·)
  | cons here _ ih =>
    rw [List.mapM_cons, List.mapM_cons]
    refine sequence here fun a holds => sequence ih fun as others => ?_
    exact result (List.forall_mem_cons.mpr ⟨holds, others⟩)

end Acting.Alike

structure Host.Within (host : Host F σ) (engines : Engines F) (replies : Replies F)
    (kept : List (Nat × Scope F) → Prop) : Prop where
  called : ∀ role symbol c state r, (host.call symbol c state).1 = .ok r →
    replies.call role symbol c r
  global : ∀ engine, Acting.Alike kept (replies.global engine) (Run.acquire engines host engine)
    (Run.acquire engines host engine)

theorem Host.withinAny (host : Host F σ) (engines : Engines F) :
    host.Within engines .any fun _ => True :=
  ⟨fun _ _ _ _ _ _ => trivial, fun _ => .itself _⟩

theorem Session.settleSupplied (session : Session F σ) (id : Nat) :
    (session.settle id).supplied = session.supplied := by
  unfold Session.settle
  split <;> rfl

namespace Run
variable {replies : Replies F} {kept : List (Nat × Scope F) → Prop} {engines : Engines F}
  {host host' : Host F σ} {α : Type} {wanted : α → Prop} {r r' : Run F α}

theorem acquireSame (sameSupply : host'.supply = host.supply) (engine : Nat) :
    acquire engines host' engine = acquire engines host engine := by
  unfold acquire
  rw [sameSupply]

theorem Matches.exec {asked : Role → F → Context F → Context F → Prop}
    (within : host.Within engines replies kept)
    (alike : ∀ role symbol c c', asked role symbol c c' →
      ∀ state, host'.call symbol c' state = host.call symbol c state)
    (sameSupply : host'.supply = host.supply) (pair : Matches replies asked wanted r r') :
    (r.exec engines host).Alike kept wanted (r'.exec engines host') := by
  induction pair with
  | pure holds => exact .result holds
  | fail e => exact .stops e
  | @call _ _ role symbol c _ _ _ corresponds _ ih =>
    exact .sequence (.host (alike role symbol _ _ corresponds) (within.called role symbol c)) ih
  | global engine _ ih =>
    rw [Run.exec, Run.exec, acquireSame sameSupply]
    exact .sequence (within.global engine) ih
  | await d _ ih =>
    refine .sequence (.update fun session keeps => ?_) fun _ _ => ih d.value
    rwa [session.settleSupplied]
  | warn text _ ih => exact .sequence (.update fun _ keeps => keeps) fun _ _ => ih
  | spread each every _ ihEach ih =>
    refine .sequence (.jobs ?_) ih
    refine List.forall₂_of_length_eq_of_get (by simp) fun i inside _ => ?_
    simpa using ihEach ⟨i, by simpa using inside⟩

theorem Satisfies.eval {asked : Role → F → Context F → Prop} {answers : Answers F}
    (within : answers.informed.Within replies) (satisfies : r.Satisfies replies asked wanted) {a : α}
    (came : r.eval answers = .ok a) : wanted a := by
  rw [evalAnswered] at came
  refine (satisfies.matches.answered within (fun _ _ _ _ pair => ?_) rfl).2 a came
  rw [pair.1]

theorem Satisfies.exec {asked : Role → F → Context F → Prop}
    (within : host.Within engines replies kept) (satisfies : r.Satisfies replies asked wanted)
    {session : Session F σ} (keeps : kept session.supplied) {a : α}
    (came : ((r.exec engines host).run.run session).1 = .ok a) : wanted a := by
  have alike : (r.exec engines host).Alike kept wanted (r.exec engines host) :=
    satisfies.matches.exec within (fun _ _ _ _ pair _ => by rw [pair.1]) rfl
  exact (alike session keeps).2.2 a came

end Run
end Reshape
