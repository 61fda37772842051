import Reshape.Proofs.Evaluate.Recursion
import Reshape.Proofs.Run.Matches
import Reshape.Proofs.Value.Output
/-! What a projection gives, whatever its engine, its data and the host: nothing, or a value that only
projections build. Records are assembled by the level itself; lists hold what the levels below gave,
and neither null nor a gap for an item that gave nothing. -/
namespace Reshape
variable {F σ : Type}

namespace Evaluate

def Gives {α : Type} (wanted : α → Prop) (r : Run F α) : Prop :=
  r.Satisfies .any (fun _ _ _ => True) wanted

def Outputs (result : Option Value) : Prop :=
  ∀ v, result = some v → v.Output

theorem Gives.result {α : Type} {wanted : α → Prop} {a : α} (holds : wanted a) :
    Gives wanted (pure a : Run F α) :=
  holds

theorem Gives.sequence {α β : Type} {each : α → Prop} {wanted : β → Prop} {r : Run F α}
    {f : α → Run F β} (first : Gives each r) (after : ∀ a, each a → Gives wanted (f a)) :
    Gives wanted (r >>= f) :=
  Run.Satisfies.bind first after

theorem Gives.behind {α β : Type} {wanted : β → Prop} (r : Run F α) {f : α → Run F β}
    (after : ∀ a, Gives wanted (f a)) : Gives wanted (r >>= f) :=
  Run.Satisfies.behind r after

theorem Gives.gatheredMap {α β : Type} {each : β → Prop} {items : List α} {job : α → Run F β}
    (jobs : ∀ a ∈ items, Gives each (job a)) :
    Gives (fun results => ∀ r ∈ results, each r) (Run.gather (items.map job)) :=
  Run.Satisfies.gatheredMap jobs

theorem givesNothing : Gives Outputs (pure none : Run F (Option Value)) :=
  fun _ => (nomatch ·)

theorem dropNullSome {result : Option Value} {v : Value} (kept : dropNull result = some v) :
    result = some v :=
  (Option.filter_eq_some_iff.mp kept).1

theorem dropNullOutput {v : Value} (output : v.Output) : dropNull (some v) = some v :=
  Option.filter_eq_some_iff.mpr ⟨rfl, by rw [output.isNull]; rfl⟩

theorem presentOutput {results : List (Option Value)} (each : ∀ r ∈ results, Outputs r) :
    (Value.array (present results)).Output := by
  refine .array fun v member => ?_
  obtain ⟨r, inside, kept⟩ := List.mem_filterMap.mp member
  exact each r inside v (dropNullSome kept)

theorem stepSatisfies {replies : Replies F} {engine : Engine F} {apply : Apply F}
    {inv : Invocation F} {wanted : Option Value → Prop} (nothing : wanted none)
    (levels : ∀ global read,
      (level engine apply inv (baseContext inv global read) read).Satisfies replies
        (fun _ _ _ => True) fun v => wanted (some v))
    (data : Value) : (step engine apply inv data).Satisfies replies (fun _ _ _ => True) wanted := by
  rcases Nat.lt_or_ge engine.limit inv.depth with beyond | allowed
  · rw [stepBeyond beyond]
    split
    · exact trivial
    · exact nothing
  · rw [stepAllowed allowed]
    split
    · refine Run.Satisfies.behind _ fun read => ?_
      unfold readLevel
      split
      · refine Run.Satisfies.behind _ fun global => ?_
        exact (levels global read).bind fun v given => given
      · exact nothing
    · exact nothing

section Level
variable {engine : Engine F} {apply : Apply F} {inv : Invocation F} {base c : Context F}
  (below : ∀ child data, Gives Outputs (apply child data))
include below

theorem itemsGive (config : Config) (xs : List Value) :
    Gives Value.Output (items apply config inv base xs) := by
  have listed : ∀ {gathered : Run F (List (Option Value))},
      Gives (fun results => ∀ r ∈ results, Outputs r) gathered →
      Gives Value.Output (do return Value.array (present (← gathered))) := fun each =>
    Gives.sequence each fun results all => presentOutput all
  unfold items
  split
  · split
    · exact Gives.behind _ fun _ => listed (Gives.gatheredMap fun _ _ => below _ _)
    · exact listed (Gives.gatheredMap fun _ _ => below _ _)
  · exact listed (Gives.gatheredMap fun _ _ => below _ _)

theorem rawNestedGives (p : Projection F) : Gives Outputs (rawValue apply inv c (.nested p)) := by
  simp only [rawValue]
  split
  · split
    · exact below _ _
    · exact givesNothing
  · exact givesNothing

theorem slotGives (ts : List (Transformer F)) (p : Projection F) :
    Gives Outputs (field apply ts inv c (.nested p)) := by
  refine Gives.sequence (rawNestedGives below p) fun found outputs => ?_
  cases kept : dropNull found with
  | none => exact givesNothing
  | some raw =>
    simp only [Spec.isProjection, Bool.or_true, if_true]
    refine Gives.result fun v same => ?_
    cases same
    exact outputs raw (dropNullSome kept)

theorem slotsGive (ts : List (Transformer F)) (ps : List (Projection F)) :
    Gives Value.Output (slots apply ts inv base ps) := by
  refine Gives.sequence (Gives.gatheredMap fun slot _ => slotGives below ts slot.1) ?_
  intro results each
  refine Gives.result (.array fun v member => ?_)
  obtain ⟨r, inside, same⟩ := List.mem_filterMap.mp member
  exact each r inside v same

theorem levelGives (data : Value) : Gives Value.Output (level engine apply inv base data) := by
  unfold level
  split
  · exact itemsGive below _ _
  · split
    · exact Gives.behind _ fun parts => .projected _
    · exact slotsGive below _ _

theorem stepGives (data : Value) : Gives Outputs (step engine apply inv data) := by
  refine stepSatisfies (fun _ => (nomatch ·)) (fun global read => ?_) data
  refine (levelGives below read).weaken fun v output w same => ?_
  cases same
  exact output

end Level

theorem withinGives (engines : Engines F) (room : Nat) (inv : Invocation F) (data : Value) :
    Gives Outputs (within engines room inv data) := by
  induction room generalizing inv data with
  | zero => exact stepGives (fun _ _ => givesNothing) data
  | succ room ih => exact stepGives ih data

theorem onlyOutputsComeOut (engines : Engines F) (p : Projector F) (data : Value)
    (inst : Option (Scope F)) (v : Value)
    (came : (∃ answers, (p.project engines data inst).eval answers = .ok (some v)) ∨
      ∃ (host : Host F σ) (session : Session F σ),
        (((p.project engines data inst).exec engines host).run.run session).1 = .ok (some v)) :
    v.Output ∧ v.isTruthy = true ∧ (∀ w : Value, w.Listed v → w.isNull = false) ∧
      (v.isOutput = false ↔ (Value.array []).Listed v) := by
  have gives := withinGives engines (engines.ceiling + 1) (p.invocation inst none) data
  have output : v.Output := by
    obtain ⟨answers, came⟩ | ⟨host, session, came⟩ := came
    · exact gives.eval answers.informed.withinAny came v rfl
    · exact gives.exec (host.withinAny engines) trivial came v rfl
  exact ⟨output, output.isTruthy, fun w inside => (output.listed inside).isNull, output.notTaken⟩

def rows : Projector Unit := ⟨.object [("a", .passthrough)] [], none, 0⟩

def nestedRows : Value :=
  .array [.array [.record [("a", .ofNat 2)], .record []], .array []]

def nestedRowsOut : Value :=
  .array [.array [.projected [("a", .ofNat 2)], .projected []], .array []]

def lazily : Host Unit Unit where
  call _ _ state := (.error (.callback "called"), state)
  supply _ state := (.ok [], state)

theorem nestedRowsComeOut :
    (((rows.project (.single { source := .lazy () }) nestedRows none).exec
      (.single { source := .lazy () }) lazily).run.run { state := () }).1 =
        .ok (some nestedRowsOut) ∧
    nestedRowsOut.Output ∧ nestedRowsOut.isOutput = false := by
  have came : (((rows.project (.single { source := .lazy () }) nestedRows none).exec
      (.single { source := .lazy () }) lazily).run.run { state := () }).1 =
        .ok (some nestedRowsOut) := rfl
  obtain ⟨output, _, _, notTaken⟩ := onlyOutputsComeOut (.single { source := .lazy () }) rows
    nestedRows none nestedRowsOut (.inr ⟨lazily, { state := () }, came⟩)
  have empty : .array [] ∈ [Value.array [.projected [("a", .ofNat 2)], .projected []], .array []] :=
    List.mem_cons_of_mem _ List.mem_cons_self
  exact ⟨came, output, notTaken.mpr (.item empty .here)⟩

end Evaluate
end Reshape
