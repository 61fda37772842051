import Reshape.Projector
import Reshape.Proofs.Run.Order
/-! In which order the jobs of a projection go on. Fields, directives, the items of a condition and of
a list, the slots of a list projection and the parameters of a pipe are all gathered, so one order
decides about all of them; what several of them write is decided by declaration alone. -/
namespace Reshape
variable {F : Type}

namespace Evaluate

/- Which error is met first does depend on the order. -/
theorem completionOrderHidden (engines : Engines F) (p : Projector F) (data : Value)
    (inst : Option (Scope F)) (answers : Answers F) (order : Order) :
    (p.project engines data inst).evalIn answers .declared =
      (p.project engines data inst).eval answers ∧
    (∀ result, (p.project engines data inst).eval answers = .ok result →
      (p.project engines data inst).evalIn answers order = .ok result) ∧
    ∀ e, (p.project engines data inst).eval answers = .error e →
      ∃ e', (p.project engines data inst).evalIn answers order = .error e' := by
  have agree := (Run.evalInAgrees answers (p.project engines data inst) order).symm
  exact ⟨Run.evalInDeclared _ _, fun result => (agree result).mp, fun _ => agree.failed⟩

def overlapping : Projector Nat where
  projection := .object [("x", .literal (.ofNat 9))]
    [.conditions [⟨.always true, .compute (.direct 1)⟩, ⟨.always true, .compute (.direct 2)⟩],
      .combine none (.direct 3)]
  context := none
  engine := 0

def twoFail : Projector Nat where
  projection := .object [("a", .function (.direct 4)), ("b", .function (.direct 5))] []
  context := none
  engine := 0

def numbered : Answers Nat where
  call n _ :=
    if n < 4 then .ok (.value (.record [("x", .ofNat n), (toString n, .ofNat n)]))
    else .error (.callback (toString n))
  global _ := .ok []

theorem overlappingReversed :
    (overlapping.project (.single {}) (.record []) none).evalIn numbered .reversed =
      .ok (some (.projected [("x", .ofNat 3), ("1", .ofNat 1), ("2", .ofNat 2), ("3", .ofNat 3)])) ∧
    (twoFail.project (.single {}) (.record []) none).eval numbered = .error (.callback "4") ∧
    ∃ e, (twoFail.project (.single {}) (.record []) none).evalIn numbered .reversed = .error e := by
  obtain ⟨_, same, _⟩ :=
    completionOrderHidden (.single {}) overlapping (.record []) none numbered .reversed
  obtain ⟨_, _, fails⟩ :=
    completionOrderHidden (.single {}) twoFail (.record []) none numbered .reversed
  have first : (twoFail.project (.single {}) (.record []) none).eval numbered =
      .error (.callback "4") := rfl
  exact ⟨same _ rfl, first, fails _ first⟩

example : (twoFail.project (.single {}) (.record []) none).evalIn numbered .reversed =
    .error (.callback "5") := rfl

end Evaluate
end Reshape
