import Reshape.Proofs.Run.Composed
/-! Runs that go on where others stop at a recursion limit. All else is the same in both, so an
answer of the lower run that is not such a stop is the answer of the higher run too. -/
namespace Reshape
variable {F : Type}

def Settled {α : Type} (answer : Except Error α) : Prop :=
  ∀ depth limit, answer ≠ .error (.recursionLimit depth limit)

def Kept {α : Type} (lower higher : Except Error α) : Prop :=
  Settled lower → higher = lower

namespace Kept
variable {α β : Type}

theorem same (answer : Except Error α) : Kept answer answer :=
  fun _ => rfl

theorem stopped (depth limit : Nat) (higher : Except Error α) :
    Kept (.error (.recursionLimit depth limit)) higher :=
  fun settled => absurd rfl (settled depth limit)

theorem bind {x y : Except Error α} {f g : α → Except Error β} (first : Kept x y)
    (after : ∀ a, Kept (f a) (g a)) : Kept (x >>= f) (y >>= g) := by
  intro settled
  cases x with
  | error e =>
    rw [first fun depth limit stops => settled depth limit (by cases stops; rfl)]
    rfl
  | ok a =>
    rw [first fun _ _ => nofun]
    exact after a settled

theorem map {x y : Except Error α} (kept : Kept x y) (f : α → β) : Kept (x.map f) (y.map f) :=
  kept.bind fun a => same (.ok (f a))

theorem jobs {answers answers' : List (Except Error α)} (each : List.Forall₂ Kept answers answers') :
    Kept (answers.mapM id) (answers'.mapM id) := by
  induction each with
  | nil => exact same _
  | cons here _ ih =>
    rw [List.mapM_cons, List.mapM_cons]
    exact here.bind fun a => ih.bind fun rest => same _

theorem mapM {items : List α} {f g : α → Except Error β} (each : ∀ a ∈ items, Kept (f a) (g a)) :
    Kept (items.mapM f) (items.mapM g) := by
  rw [← Function.id_comp f, ← Function.id_comp g, ← List.mapM_map, ← List.mapM_map]
  refine jobs ?_
  rw [List.forall₂_map_left_iff, List.forall₂_map_right_iff, List.forall₂_same]
  exact each

end Kept

namespace Run

inductive Above : (α : Type) → Run F α → Run F α → Prop where
  | limit {α : Type} (depth limit : Nat) (higher : Run F α) :
      Above α (.fail (.recursionLimit depth limit)) higher
  | pure {α : Type} (a : α) : Above α (.pure a) (.pure a)
  | fail {α : Type} (e : Error) : Above α (.fail e) (.fail e)
  | call {α : Type} (role : Role) (symbol : F) (c : Context F) {next next' : Computed F → Run F α}
      (after : ∀ r, Above α (next r) (next' r)) :
      Above α (.call role symbol c next) (.call role symbol c next')
  | global {α : Type} (engine : Nat) {next next' : Scope F → Run F α}
      (after : ∀ s, Above α (next s) (next' s)) : Above α (.global engine next) (.global engine next')
  | await {α : Type} (d : Deferred) {next next' : Value → Run F α}
      (after : ∀ v, Above α (next v) (next' v)) : Above α (.await d next) (.await d next')
  | warn {α : Type} (text : String) {next next' : Run F α} (after : Above α next next') :
      Above α (.warn text next) (.warn text next')
  | spread {α β : Type} {size : Nat} {jobs jobs' : Fin size → Run F β}
      {next next' : List β → Run F α} (each : ∀ i, Above β (jobs i) (jobs' i))
      (after : ∀ rs, Above α (next rs) (next' rs)) :
      Above α (.spread size jobs next) (.spread size jobs' next')

theorem Above.bind {α β : Type} {r r' : Run F α} {f f' : α → Run F β} (above : Above α r r')
    (after : ∀ a, Above β (f a) (f' a)) : Above β (r.bind f) (r'.bind f') := by
  induction above with
  | limit depth limit higher => exact .limit depth limit _
  | pure a => exact after a
  | fail e => exact .fail e
  | call role symbol c _ ih => exact .call role symbol c fun r => ih r after
  | global engine _ ih => exact .global engine fun s => ih s after
  | await d _ ih => exact .await d fun v => ih v after
  | warn text _ ih => exact .warn text (ih after)
  | spread each _ _ ih => exact .spread each fun rs => ih rs after

theorem aboveCongruence : Congruence (F := F) Above where
  result a := .pure a
  failure _ := .fail _
  sequence above after := above.bind after
  waiting d := .await d .pure
  supplied engine := .global engine .pure
  notice text := .warn text (.pure ())
  gathering each := by
    rw [gatherSized each.length_eq]
    exact .spread (fun i => each.get i.isLt _) .pure

theorem Above.eval {α : Type} {r r' : Run F α} (above : Above α r r') (answers : Answers F) :
    Kept (r.eval answers) (r'.eval answers) := by
  induction above with
  | limit depth limit higher => exact .stopped depth limit _
  | pure a => exact .same _
  | fail e => exact .same _
  | call role symbol c _ ih =>
    simp only [Run.eval]
    split
    · exact ih _
    · exact .same _
  | global engine _ ih =>
    simp only [Run.eval]
    split
    · exact ih _
    · exact .same _
  | await d _ ih => exact ih d.value
  | warn text _ ih => exact ih
  | @spread α β size jobs jobs' next next' _ _ ihEach ih =>
    rw [evalSpread, evalSpread]
    refine .bind (.jobs ?_) ih
    refine List.forall₂_of_length_eq_of_get (by simp) fun i inside _ => ?_
    have here := ihEach ⟨i, by simpa using inside⟩
    simpa only [List.get_eq_getElem, List.getElem_ofFn] using here

end Run
end Reshape
