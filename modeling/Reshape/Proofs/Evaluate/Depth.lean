import Mathlib.Logic.Relation
import Reshape.Proofs.Run.Obeys
import Reshape.Proofs.Evaluate.Recursion
/-! How deep evaluation goes. All projectors of a run belong to one engine here; what callbacks give
back is free, so projectors may ask for each other without end. Neither the projection nor the data
need shrink from level to level, only the depth that is left. -/
namespace Reshape
variable {F σ : Type}

def Error.JustBeyond (limit : Nat) (e : Error) : Prop :=
  ∀ depth found, e = .recursionLimit depth found → found = limit ∧ depth = limit + 1

theorem Error.justBeyondOrdinary {limit : Nat} {e : Error} (ordinary : ¬ e.IsLimit) :
    e.JustBeyond limit :=
  fun depth found same => absurd ⟨depth, found, same⟩ ordinary

namespace Run

def KeepsTo (limit : Nat) {α : Type} (r : Run F α) : Prop :=
  r.Obeys (fun c => c.depth ≤ limit) (Error.JustBeyond limit)

theorem keepsToCongruence (limit : Nat) :
    Congruence fun (α : Type) (r _ : Run F α) => r.KeepsTo limit :=
  obeysCongruence fun _ ordinary => Error.justBeyondOrdinary ordinary

end Run

def Host.NeverAtLimit (host : Host F σ) : Prop :=
  host.Adds fun e => ¬ e.IsLimit

theorem Host.NeverAtLimit.justBeyond {host : Host F σ} (never : host.NeverAtLimit) (limit : Nat) :
    host.Adds (Error.JustBeyond limit) where
  called symbol c state e failed := Error.justBeyondOrdinary (never.called symbol c state e failed)
  supplied symbol state e failed := Error.justBeyondOrdinary (never.supplied symbol state e failed)

namespace Evaluate

theorem stepKeepsTo {engine : Engine F} {apply : Apply F} {inv : Invocation F}
    (reached : inv.depth ≤ engine.limit + 1)
    (below : ∀ child data, child.depth ≤ engine.limit + 1 → (apply child data).KeepsTo engine.limit)
    (data : Value) : (step engine apply inv data).KeepsTo engine.limit := by
  refine @stepAlike F _ engine apply apply inv (Run.keepsToCongruence engine.limit)
    (fun beyond => ?_) (fun allowed => ?_)
    (fun allowed child data deeper => below child data (by omega)) data
  · rintro depth found ⟨⟩
    exact ⟨rfl, by omega⟩
  · intro role symbol c here
    exact ⟨Nat.le_trans (Nat.le_of_eq here) allowed, fun _ => trivial⟩

theorem withinKeepsTo (engine : Engine F) (room : Nat) {inv : Invocation F}
    (reached : inv.depth ≤ engine.limit + 1) (data : Value) :
    (within (Engines.single engine) room inv data).KeepsTo engine.limit := by
  induction room generalizing inv data with
  | zero =>
    have nothing : ∀ (child : Invocation F) (data : Value), child.depth ≤ engine.limit + 1 →
        (Run.pure none : Run F (Option Value)).KeepsTo engine.limit := fun _ _ _ => trivial
    exact stepKeepsTo reached nothing data
  | succ room ih => exact stepKeepsTo reached (fun child data reached => ih reached data) data

/- A step depends on another evaluation if changing the runs of that one alone can change its own. -/
def DependsOn (engine : Engine F) (here below : Invocation F × Value) : Prop :=
  ∃ f g : Apply F, (∀ inv data, (inv, data) ≠ below → f inv data = g inv data) ∧
    step engine f here.1 here.2 ≠ step engine g here.1 here.2

theorem DependsOn.oneDeeper {engine : Engine F} {here below : Invocation F × Value}
    (depends : DependsOn engine here below) :
    here.1.depth ≤ engine.limit ∧ below.1.depth = here.1.depth + 1 := by
  obtain ⟨f, g, elsewhere, different⟩ := depends
  constructor
  · apply Nat.le_of_not_lt
    intro beyond
    exact different (by rw [stepBeyond beyond, stepBeyond beyond])
  · by_contra other
    refine different (stepAgrees (fun child data deeper => elsewhere child data ?_) here.2)
    rintro rfl
    exact other deeper

theorem dependenceEnds (engine : Engine F) :
    WellFounded fun below here : Invocation F × Value => DependsOn engine here below := by
  refine Subrelation.wf (fun depends => ?_)
    (measure fun task : Invocation F × Value => engine.limit + 1 - task.1.depth).wf
  have deeper := depends.oneDeeper
  change engine.limit + 1 - _ < engine.limit + 1 - _
  omega

theorem reachedDepth {engine : Engine F} {top task : Invocation F × Value}
    (reached : Relation.ReflTransGen (DependsOn engine) top task)
    (start : top.1.depth ≤ engine.limit + 1) : task.1.depth ≤ engine.limit + 1 := by
  induction reached with
  | refl => exact start
  | tail _ depends _ =>
    have deeper := depends.oneDeeper
    omega

theorem limitHitOneLevelTooDeep (engine : Engine F) (p : Projector F) (data : Value)
    (inst : Option (Scope F)) :
    WellFounded (fun below here : Invocation F × Value => DependsOn engine here below) ∧
    (∀ f, Recursive (Engines.single engine) f ↔ f = evaluate (Engines.single engine)) ∧
    p.project (Engines.single engine) data inst =
      evaluate (Engines.single engine) (p.invocation inst none) data ∧
    (∀ inv found,
      Relation.ReflTransGen (DependsOn engine) (p.invocation inst none, data) (inv, found) →
      inv.depth ≤ engine.limit + 1 ∧
      (engine.limit < inv.depth → evaluate (Engines.single engine) inv found =
        if found.isTruthy then .fail (.recursionLimit inv.depth engine.limit) else .pure none)) ∧
    (p.project (Engines.single engine) data inst).KeepsTo engine.limit ∧
    ∀ (host : Host F σ), host.NeverAtLimit → ∀ session depth limit,
      (((p.project (Engines.single engine) data inst).exec (Engines.single engine) host).run.run
        session).1 = .error (.recursionLimit depth limit) →
      limit = engine.limit ∧ depth = engine.limit + 1 := by
  have keeps : (p.project (Engines.single engine) data inst).KeepsTo engine.limit :=
    withinKeepsTo engine _ (Nat.zero_le _) data
  refine ⟨dependenceEnds engine, fun f => recursiveUnique, projectEvaluates _ p data inst, ?_,
    keeps, ?_⟩
  · intro inv found reached
    exact ⟨reachedDepth reached (Nat.zero_le _), fun beyond => withinBeyond beyond _ found⟩
  · intro host never session depth limit stopped
    exact keeps.exec _ (never.justBeyond _) session _ stopped depth limit rfl

def endless : Projector Unit := ⟨.object [] [.combine none (.closure ())], none, 0⟩

def asking : Host Unit Unit where
  call _ _ state := (.ok (.apply endless), state)
  supply _ state := (.ok [], state)

def threeLevels : Engine Unit := { config := { maxDepth := 2 } }

theorem askingNeverAtLimit : asking.NeverAtLimit where
  called _ _ _ _ := nofun
  supplied _ _ _ := nofun

theorem endlessHitsLimit : ∃ depth limit,
    (((endless.project (.single threeLevels) (.bool true) none).exec (.single threeLevels)
      asking).run.run { state := () }).1 = .error (.recursionLimit depth limit) ∧
    limit = threeLevels.limit ∧ depth = threeLevels.limit + 1 := by
  obtain ⟨_, _, _, _, _, stops⟩ := limitHitOneLevelTooDeep threeLevels endless (.bool true) none
  exact ⟨3, 2, rfl, stops asking askingNeverAtLimit { state := () } 3 2 rfl⟩

end Evaluate
end Reshape
