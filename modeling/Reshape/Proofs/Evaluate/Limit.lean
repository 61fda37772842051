import Reshape.Proofs.Run.Above
import Reshape.Proofs.Evaluate.Recursion
/-! Higher limits. Engines that differ in nothing but a higher limit give every answer that the
lower ones give, the error of the limit itself excepted. Any number of engines may be raised, each
to a limit of its own. -/
namespace Reshape
variable {F : Type}

def Engine.withLimit (e : Engine F) (limit : Nat) : Engine F :=
  { e with config := { e.config with maxDepth := limit } }

structure Engines.Raised (low high : Engines F) : Prop where
  limits : ∀ id, (low.get id).limit ≤ (high.get id).limit
  others : ∀ id, high.get id = (low.get id).withLimit (high.get id).limit

theorem Engines.raisedSingle (e : Engine F) {limit : Nat} (higher : e.limit ≤ limit) :
    (Engines.single e).Raised (.single (e.withLimit limit)) where
  limits _ := higher
  others _ := rfl

namespace Evaluate

theorem stepWithLimit {engine : Engine F} {limit : Nat} {inv : Invocation F}
    (allowed : inv.depth ≤ engine.limit) (higher : engine.limit ≤ limit) (apply : Apply F)
    (data : Value) : step (engine.withLimit limit) apply inv data = step engine apply inv data := by
  have allowedHigher : inv.depth ≤ (engine.withLimit limit).limit := Nat.le_trans allowed higher
  rw [stepAllowed allowedHigher, stepAllowed allowed]
  rfl

theorem stepAbove {engine : Engine F} {f g : Apply F} {inv : Invocation F}
    (below : ∀ child data, child.depth = inv.depth + 1 → Run.Above _ (f child data) (g child data))
    (data : Value) : Run.Above _ (step engine f inv data) (step engine g inv data) :=
  stepAlike Run.aboveCongruence (fun _ => .fail _) (fun _ role symbol c _ => .call role symbol c .pure)
    (fun _ => below) data

theorem stepRaised {low high : Engines F} (raised : low.Raised high) {f g : Apply F}
    {inv : Invocation F}
    (below : inv.depth ≤ (low.get inv.engine).limit →
      ∀ child data, child.depth = inv.depth + 1 → Run.Above _ (f child data) (g child data))
    (data : Value) :
    Run.Above _ (step (low.get inv.engine) f inv data) (step (high.get inv.engine) g inv data) := by
  cases truthy : data.isTruthy with
  | false =>
    rw [stepFalsy truthy, stepFalsy truthy]
    exact .pure none
  | true =>
    rcases Nat.lt_or_ge (low.get inv.engine).limit inv.depth with beyond | allowed
    · rw [stepBeyond beyond, if_pos truthy]
      exact .limit _ _ _
    · rw [raised.others, stepWithLimit allowed (raised.limits inv.engine)]
      exact stepAbove (below allowed) data

theorem evaluateRaised {low high : Engines F} (raised : low.Raised high) {left : Nat}
    {inv : Invocation F} (near : low.ceiling < inv.depth + left) (data : Value) :
    Run.Above _ (evaluate low inv data) (evaluate high inv data) := by
  induction left generalizing inv data with
  | zero =>
    rw [evaluateRecursive low, evaluateRecursive high]
    refine stepRaised raised (fun allowed => ?_) data
    have limited := low.limit_le inv.engine
    omega
  | succ left ih =>
    rw [evaluateRecursive low, evaluateRecursive high]
    exact stepRaised raised (fun _ child data deeper => ih (by omega) data) data

theorem answerKeptAbove {low high : Engines F} (raised : low.Raised high) (answers : Answers F)
    (p : Projector F) (data : Value) (inst : Option (Scope F))
    (settled : Settled ((p.project low data inst).eval answers)) :
    (p.project high data inst).eval answers = (p.project low data inst).eval answers := by
  have near : low.ceiling < (p.invocation inst none).depth + (low.ceiling + 1) := by omega
  have above := evaluateRaised raised near data
  rw [projectEvaluates] at settled ⊢
  rw [projectEvaluates]
  exact above.eval answers settled

def again : Projector Unit := ⟨.object [("a", .function (.closure ()))] [], none, 0⟩

def onceMore : Answers Unit where
  call _ c := .ok (if c.depth < 1 then .apply again else .absent)
  global _ := .ok []

def oneLevel : Engine Unit := { config := { maxDepth := 1 } }

def twoRecords : Value := .record [("a", .record [("a", .bool true)])]

theorem onceMoreKept :
    Settled ((again.project (.single oneLevel) twoRecords none).eval onceMore) ∧
    (again.project (.single (oneLevel.withLimit 4)) twoRecords none).eval onceMore =
      .ok (some (.projected [("a", .projected [])])) := by
  have low : (again.project (.single oneLevel) twoRecords none).eval onceMore =
      .ok (some (.projected [("a", .projected [])])) := rfl
  have settled : Settled ((again.project (.single oneLevel) twoRecords none).eval onceMore) := by
    rw [low]
    exact fun _ _ => nofun
  have raised := Engines.raisedSingle oneLevel (show oneLevel.limit ≤ 4 by decide)
  exact ⟨settled, (answerKeptAbove raised onceMore again twoRecords none settled).trans low⟩

end Evaluate
end Reshape
