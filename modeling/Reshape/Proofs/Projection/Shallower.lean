import Reshape.Proofs.Projection.Selection
import Reshape.Proofs.Run.Above
/-! Selections at smaller depths. A selection knows its depth for the sake of the limit alone, so where
the limit is not hit it is the same at every depth above. -/
namespace Reshape
variable {F : Type}

namespace Select
variable {below above : Select F} (kept : ∀ p data, Kept (below p data) (above p data))
include kept

theorem specKept (data : Option Value) (s : Spec F) : Kept (spec below data s) (spec above data s) := by
  cases s with
  | nested p =>
    cases data with
    | none => exact .same _
    | some inner => exact kept p inner
  | typed tag => cases tag <;> exact .same _
  | _ => exact .same _

theorem wholeKept (data : Value) (p : Projection F) : Kept (whole below data p) (whole above data p) := by
  cases p with
  | object fields directives =>
    refine .bind (.mapM fun f _ => ?_) fun selected => .same _
    exact (specKept kept (data.get? f.1) f.2).map _
  | list slots =>
    refine .bind (.mapM fun slot _ => ?_) fun selected => .same _
    unfold position
    split
    · exact kept _ _
    · exact .same _

theorem eachKept (items : List Value) (p : Projection F) :
    Kept (each below items p) (each above items p) := by
  cases p with
  | object fields directives => exact .bind (.mapM fun data _ => kept _ data) fun selected => .same _
  | list slots => exact .bind (.mapM fun pair _ => kept _ _) fun selected => .same _

theorem levelKept (p : Projection F) (data : Value) : Kept (level below p data) (level above p data) := by
  unfold level
  split
  · split
    · exact eachKept kept _ p
    · exact wholeKept kept _ p
  · exact wholeKept kept data p

end Select

theorem selectKept {config : Config} {depth shallow : Nat} (shallower : shallow ≤ depth)
    (below : depth ≤ config.maxDepth → ∀ (q : Projection F) inner,
      Kept (select config q inner (depth + 1)) (select config q inner (shallow + 1)))
    (p : Projection F) (data : Value) :
    Kept (select config p data depth) (select config p data shallow) := by
  cases truthy : data.isTruthy with
  | false =>
    rw [selectFalsy truthy, selectFalsy truthy]
    exact .same _
  | true =>
    rcases Nat.lt_or_ge config.maxDepth depth with beyond | allowed
    · rw [selectBeyond truthy beyond]
      exact .stopped _ _ _
    · rw [selectAllowed truthy allowed, selectAllowed truthy (Nat.le_trans shallower allowed)]
      refine .bind (.same _) fun read => ?_
      split
      · exact .bind (Select.levelKept (below allowed) p read) fun v => .same _
      · exact .same _

theorem selectShallower {config : Config} {left depth shallow : Nat}
    (near : config.maxDepth < depth + left) (shallower : shallow ≤ depth) (p : Projection F)
    (data : Value) : Kept (select config p data depth) (select config p data shallow) := by
  induction left generalizing depth shallow p data with
  | zero => exact selectKept shallower (fun allowed => absurd near (Nat.not_lt.mpr allowed)) p data
  | succ left ih =>
    exact selectKept shallower (fun _ q inner => ih (by omega) (Nat.succ_le_succ shallower) q inner) p data

end Reshape
