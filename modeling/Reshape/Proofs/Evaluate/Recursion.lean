import Reshape.Proofs.Evaluate.Parametric
import Reshape.Projector
/-! The recursion of levels, without the room that `within` counts. One more than the ceiling is
room enough for every invocation, so `evaluate` is one level with itself below; no other function
is. The room is a means of definition and never an answer. -/
namespace Reshape.Evaluate
variable {F : Type}

def evaluate (engines : Engines F) : Apply F :=
  within engines (engines.ceiling + 1)

def Recursive (engines : Engines F) (f : Apply F) : Prop :=
  ∀ inv data, f inv data = step (engines.get inv.engine) f inv data

theorem projectEvaluates (engines : Engines F) (p : Projector F) (data : Value)
    (inst : Option (Scope F)) :
    p.project engines data inst = evaluate engines (p.invocation inst none) data := rfl

theorem stepFalsy {data : Value} (falsy : data.isTruthy = false) (engine : Engine F)
    (apply : Apply F) (inv : Invocation F) : step engine apply inv data = .pure none := by
  unfold step
  rw [falsy]
  rfl

theorem stepBeyond {engine : Engine F} {inv : Invocation F} (beyond : engine.limit < inv.depth)
    (apply : Apply F) (data : Value) :
    step engine apply inv data =
      if data.isTruthy then .fail (.recursionLimit inv.depth engine.limit) else .pure none := by
  unfold step
  cases data.isTruthy with
  | false => rfl
  | true =>
    simp only [Bool.not_true, Bool.false_eq_true, if_false, if_pos beyond, if_true]
    rfl

def readLevel (engine : Engine F) (apply : Apply F) (inv : Invocation F) (data : Value) :
    Run F (Option Value) :=
  if data.isTruthy then do
    let global ← Run.globalScope inv.engine
    return some (← level engine apply inv (baseContext inv global data) data)
  else return none

theorem stepAllowed {engine : Engine F} {inv : Invocation F} (allowed : inv.depth ≤ engine.limit)
    (apply : Apply F) (data : Value) :
    step engine apply inv data =
      if data.isTruthy then Run.ofExcept (readData engine.config data) >>= readLevel engine apply inv
      else .pure none := by
  unfold step
  cases data.isTruthy with
  | false => rfl
  | true =>
    simp only [Bool.not_true, Bool.false_eq_true, if_false, if_neg (Nat.not_lt.mpr allowed), if_true]
    refine bind_congr fun data => ?_
    unfold readLevel
    cases data.isTruthy <;> rfl

theorem stepReads {engine : Engine F} {inv : Invocation F} (allowed : inv.depth ≤ engine.limit)
    {given read : Value} (found : readData engine.config given = .ok read)
    (truthy : given.isTruthy = true) (apply : Apply F) :
    step engine apply inv given = readLevel engine apply inv read := by
  rw [stepAllowed allowed, if_pos truthy, found]
  rfl

theorem readDataOrdinary {config : Config} {data : Value} {e : Error}
    (failed : readData config data = .error e) : ¬ e.IsLimit := by
  rintro ⟨depth, limit, rfl⟩
  unfold readData at failed
  split at failed
  · split at failed
    · unfold Value.parse at failed
      split at failed <;> cases failed
    · cases failed
  · cases failed

section Step
variable {R : (α : Type) → Run F α → Run F α → Prop} {engine : Engine F} {apply apply' : Apply F}
  {inv : Invocation F}

theorem stepLinked (congruence : Run.Congruence R) (inv' : Invocation F) (parts : Parts F)
    (returned : Context F → Context F → Projector F → Prop) (settled : Scope F → Prop)
    (sameEngine : inv'.engine = inv.engine) (sameDepth : inv'.depth = inv.depth)
    (beside : inv.projection.Beside parts inv'.projection)
    (sameBase : ∀ global data,
      baseContext inv' global data = (baseContext inv global data).under inv')
    (supplied : ∀ {α : Type} {next next' : Scope F → Run F α},
      (∀ scope, settled scope → R α (next scope) (next' scope)) →
      R α (.global inv.engine next) (.global inv.engine next'))
    (limited : engine.limit < inv.depth → R (Option Value)
      (.fail (.recursionLimit inv.depth engine.limit)) (.fail (.recursionLimit inv.depth engine.limit)))
    {data : Value}
    (below : inv.depth ≤ engine.limit → ∀ global, settled global →
      ∀ read, readData engine.config data = .ok read →
        Linked R parts (returned (baseContext inv global read)) apply apply' inv inv'
          (baseContext inv global read)) :
    R _ (step engine apply inv data) (step engine apply' inv' data) := by
  rcases Nat.lt_or_ge engine.limit inv.depth with beyond | allowed
  · rw [stepBeyond beyond, stepBeyond (sameDepth ▸ beyond), sameDepth]
    split
    · exact limited beyond
    · exact congruence.result none
  · rw [stepAllowed allowed, stepAllowed (sameDepth ▸ allowed)]
    split
    · cases found : readData engine.config data with
      | error e => exact congruence.failure (readDataOrdinary found)
      | ok read =>
        change R _ (readLevel engine apply inv read) (readLevel engine apply' inv' read)
        unfold readLevel
        rw [sameEngine]
        split
        · refine supplied fun global known => ?_
          have linked := below allowed global known read found
          have levels := linked.sequence (linked.oneLevel beside engine) fun v =>
            congruence.result (some v)
          rw [← sameBase] at levels
          exact levels
        · exact congruence.result none
    · exact congruence.result none

theorem stepAlike (congruence : Run.Congruence R)
    (limited : engine.limit < inv.depth → R (Option Value)
      (.fail (.recursionLimit inv.depth engine.limit)) (.fail (.recursionLimit inv.depth engine.limit)))
    (called : inv.depth ≤ engine.limit → ∀ role symbol c, c.depth = inv.depth →
      R _ (.call role symbol c pure) (.call role symbol c pure))
    (below : inv.depth ≤ engine.limit → ∀ child data, child.depth = inv.depth + 1 →
      R _ (apply child data) (apply' child data))
    (data : Value) : R _ (step engine apply inv data) (step engine apply' inv data) := by
  refine stepLinked congruence inv ⟨fun _ p p' => p' = p, fun _ _ _ => False, fun _ _ => True⟩
    (fun _ _ _ => True) (fun _ => True) rfl rfl
    (Projection.besideItself (fun _ _ _ => rfl) fun _ _ _ => trivial) (fun _ _ => rfl)
    (fun each => congruence.sequence (congruence.supplied inv.engine) fun scope => each scope trivial)
    limited fun allowed global _ read _ => ?_
  have itself : ∀ {c}, (baseContext inv global read).SameLevel c → c.under inv = c :=
    fun here => here.underItself rfl rfl
  exact {
    congruence with
    scope := rfl
    sameScope := rfl
    asked := fun {_ role symbol c _ _} asked each => by
      rw [itself asked.level]
      exact congruence.sequence (called allowed role symbol c asked.level.depth) fun r =>
        each r fun _ _ => trivial
    below := fun {child child' data} opened => by
      cases opened with
      | nested stands _ =>
        rw [stands, itself (.atKey _ _)]
        exact below allowed _ data rfl
      | compiled stands _ => exact stands.elim
      | standing _ _ =>
        rw [itself (.atKey _ _)]
        exact below allowed _ data rfl
      | returned _ here _ _ =>
        rw [itself here]
        exact below allowed _ data (congrArg (· + 1) here.depth)
    nothing := fun stands _ => stands.elim }

theorem stepAgrees (below : ∀ child data, child.depth = inv.depth + 1 →
      apply child data = apply' child data) (data : Value) :
    step engine apply inv data = step engine apply' inv data :=
  stepAlike Run.equalCongruence (fun _ => rfl) (fun _ _ _ _ _ => rfl) (fun _ => below) data

end Step

theorem withinFalsy (engines : Engines F) (room : Nat) (inv : Invocation F) {data : Value}
    (falsy : data.isTruthy = false) : within engines room inv data = pure none := by
  cases room with
  | zero => exact stepFalsy falsy _ _ inv
  | succ room => exact stepFalsy falsy _ _ inv

theorem withinBeyond {engines : Engines F} {inv : Invocation F}
    (beyond : (engines.get inv.engine).limit < inv.depth) (room : Nat) (data : Value) :
    within engines room inv data =
      if data.isTruthy then .fail (.recursionLimit inv.depth (engines.get inv.engine).limit)
      else .pure none := by
  cases room with
  | zero => exact stepBeyond beyond _ data
  | succ room => exact stepBeyond beyond _ data

/- Every engine's limit is passed where the room ends, so there the levels below do not count. -/
theorem withinRecursive {engines : Engines F} {room : Nat} {inv : Invocation F}
    (enough : engines.ceiling < inv.depth + room) (data : Value) :
    within engines room inv data = step (engines.get inv.engine) (within engines room) inv data := by
  induction room generalizing inv data with
  | zero =>
    have beyond := Nat.lt_of_le_of_lt (engines.limit_le inv.engine) enough
    rw [withinBeyond beyond, stepBeyond beyond]
  | succ room ih =>
    refine stepAgrees (fun child data deeper => ?_) data
    exact ih (by omega) data

theorem evaluateRecursive (engines : Engines F) : Recursive engines (evaluate engines) :=
  fun inv data => withinRecursive (by omega) data

theorem recursiveWithin {engines : Engines F} {f : Apply F} (recursive : Recursive engines f)
    {room : Nat} {inv : Invocation F} (enough : engines.ceiling < inv.depth + room) (data : Value) :
    f inv data = within engines room inv data := by
  induction room generalizing inv data with
  | zero =>
    have beyond := Nat.lt_of_le_of_lt (engines.limit_le inv.engine) enough
    rw [recursive, withinBeyond beyond, stepBeyond beyond]
  | succ room ih =>
    rw [recursive]
    exact stepAgrees (fun child data deeper => ih (by omega) data) data

theorem recursiveUnique {engines : Engines F} {f : Apply F} :
    Recursive engines f ↔ f = evaluate engines := by
  constructor
  · intro recursive
    funext inv data
    exact recursiveWithin recursive (by omega) data
  · rintro rfl
    exact evaluateRecursive engines

end Reshape.Evaluate
