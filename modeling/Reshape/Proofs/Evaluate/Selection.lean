import Reshape.Proofs.Evaluate.Recursion
import Reshape.Proofs.Evaluate.Selects
import Reshape.Proofs.Json.Bare
/-! Plain projections select. On data without references an engine without transformers computes
the selection, at every level and in every scope: what callers, parents and keys put into contexts
is never looked at, and the only thing that the host is asked for is the global scope. -/
namespace Reshape.Evaluate
open Fallible
variable {F : Type}

theorem readDataDocument (config : Config) (data : Value) :
    readData config data = Select.document config data := by
  cases data <;> rfl

theorem documentBare {config : Config} {data read : Value} (bare : data.Bare)
    (ok : Select.document config data = .ok read) : read.Bare := by
  unfold Select.document at ok
  split at ok
  · split at ok
    · exact Json.parseBare (bare _ .here) ok
    · cases ok
      exact bare
  · cases ok
    exact bare

theorem readLevelEvaluates {engine : Engine F} {answers : Answers F} {inv : Invocation F}
    {global : Scope F} (resolves : answers.global inv.engine = .ok global) {read : Value}
    (truthy : read.isTruthy = true) (apply : Apply F) :
    (readLevel engine apply inv read).eval answers =
      ((level engine apply inv (baseContext inv global read) read).eval answers).map some := by
  have supplied : (Run.globalScope inv.engine : Run F (Scope F)).eval answers = .ok global := by
    simp only [Run.globalScope, Run.eval, resolves]
  rw [readLevel, if_pos truthy, Run.evalThen, supplied, okThen, Run.evalThen]
  cases (level engine apply inv (baseContext inv global read) read).eval answers <;> rfl

theorem readLevelSelects {engine : Engine F} (plain : engine.transformers = [])
    {answers : Answers F} {apply : Apply F} {inv : Invocation F} {global : Scope F}
    (resolves : answers.global inv.engine = .ok global) (selective : inv.projection.Selective)
    {below : Select F} {read : Value}
    (selects : Selects answers apply inv (baseContext inv global read) below) (bare : read.Bare) :
    (readLevel engine apply inv read).eval answers = (do
      if read.isTruthy then return some (← Select.level below inv.projection read)
      else return none) := by
  have level := levelSelects selects selective plain bare
  split
  · rename_i truthy
    rw [readLevelEvaluates resolves truthy]
    exact congrArg (Except.map some) level
  · rename_i falsy
    rw [readLevel, if_neg falsy]
    rfl

theorem stepSelects {engine : Engine F} (plain : engine.transformers = []) {answers : Answers F}
    {inv : Invocation F} {global : Scope F} (resolves : answers.global inv.engine = .ok global)
    (selective : inv.projection.Selective) {apply : Apply F}
    (below : inv.depth ≤ engine.limit → ∀ p d c, p.Selective → d.Bare → c.depth = inv.depth →
      (apply (inv.nested p c) d).eval answers = select engine.config p d (inv.depth + 1))
    {data : Value} (bare : data.Bare) :
    (step engine apply inv data).eval answers =
      select engine.config inv.projection data inv.depth := by
  cases truthy : data.isTruthy with
  | false =>
    rw [stepFalsy truthy, selectFalsy truthy]
    rfl
  | true =>
    rcases Nat.lt_or_ge engine.limit inv.depth with beyond | allowed
    · rw [stepBeyond beyond, if_pos truthy, selectBeyond truthy beyond]
      rfl
    · have selects : ∀ read, Selects answers apply inv (baseContext inv global read)
          (fun p d => select engine.config p d (inv.depth + 1)) := fun read => {
        agrees := fun selective bare deep => below allowed _ _ _ selective bare deep
        falsy := fun p d falsy => selectFalsy falsy p
        notNull := fun p d => selectNotNull engine.config p d _ }
      rw [stepAllowed allowed, if_pos truthy, selectAllowed truthy allowed, Run.evalThen,
        Run.evalChecked, readDataDocument]
      cases read : Select.document engine.config data with
      | error e => rfl
      | ok v =>
        exact readLevelSelects plain resolves selective (selects v) (documentBare bare read)

theorem evaluateSelects {engine : Engine F} (plain : engine.transformers = [])
    {answers : Answers F} {left : Nat} {inv : Invocation F} {global : Scope F}
    (near : engine.limit < inv.depth + left) (resolves : answers.global inv.engine = .ok global)
    (selective : inv.projection.Selective) {data : Value} (bare : data.Bare) :
    (evaluate (.single engine) inv data).eval answers =
      select engine.config inv.projection data inv.depth := by
  induction left generalizing inv data with
  | zero =>
    rw [evaluateRecursive (.single engine)]
    refine stepSelects plain resolves selective (fun allowed => ?_) bare
    omega
  | succ left ih =>
    rw [evaluateRecursive (.single engine)]
    refine stepSelects plain resolves selective (fun _ p d c selective bare deep => ?_) bare
    have deeper : (inv.nested p c).depth = inv.depth + 1 := congrArg (· + 1) deep
    have below := @ih (inv.nested p c) (by omega) resolves selective d bare
    rw [below, deeper]
    rfl

theorem selectsBelow {engine : Engine F} (plain : engine.transformers = []) {answers : Answers F}
    {inv : Invocation F} {global : Scope F} (resolves : answers.global inv.engine = .ok global)
    (read : Value) :
    Selects answers (evaluate (.single engine)) inv (baseContext inv global read) fun q inner =>
      select engine.config q inner (inv.depth + 1) where
  agrees := fun {q inner c} selective bare deep => by
    have near : engine.limit < (inv.nested q c).depth + (engine.limit + 1) := by omega
    have deeper : (inv.nested q c).depth = inv.depth + 1 := congrArg (· + 1) deep
    have selected := evaluateSelects plain near resolves selective bare
    rwa [deeper] at selected
  falsy q inner falsy := selectFalsy falsy q
  notNull q inner := selectNotNull engine.config q inner _

/- The scopes of all layers are free: none of them occurs in the selection. -/
theorem documentSelects {document : Json} {p : Projection F}
    (accepted : Projection.ofJson document = .ok p)
    (literals : ∀ v, p.HasLiteral v → v.ReferenceFree)
    (engine : Engine F) (plain : engine.transformers = []) (id : Nat)
    (context inst : Option (Scope F)) (answers : Answers F) {global : Scope F}
    (resolves : answers.global id = .ok global) {data : Value} (bare : data.Bare) :
    ((Projector.mk p context id).project (.single engine) data inst).eval answers =
      select engine.config p data 0 := by
  have selective : p.Selective := ⟨Projection.ofJsonPlain accepted, literals⟩
  have near : engine.limit < 0 + (engine.limit + 1) := by omega
  rw [projectEvaluates]
  exact evaluateSelects plain near resolves selective bare

def ordersDocument : Json :=
  .object [("kind", .string "order"), ("buyer", .string "string"),
    ("lines", .object [("@array", .bool true), ("count", .string "number")])]

def orders : Projection Unit :=
  .object [("kind", .literal (.string "order")), ("buyer", .typed .string),
    ("lines", .nested (.object [("count", .typed .number)] [.array]))] []

def order : Value :=
  .record [("buyer", .string "Ann"), ("lines", .array [.record [("count", .ofNat 2)], .null])]

def failing : Answers Unit where
  call _ _ := .error (.callback "called")
  global _ := .ok [("buyer", .value (.string "global"))]

theorem ordersLiterals {v : Value} (literal : orders.HasLiteral v) : v = .string "order" := by
  simpa [orders, Projection.objectHasLiteral] using literal

theorem orderStrings {s : String} (inside : order.HasString s) : s = "Ann" := by
  simpa [order, Value.ofNat] using inside

theorem ordersSelected :
    Projection.ofJson ordersDocument = .ok orders ∧ order.Bare ∧
    select {} orders order 0 = .ok (some (.projected [("kind", .string "order"),
      ("buyer", .string "Ann"), ("lines", .array [.projected [("count", .ofNat 2)]])])) := by
  have accepted : Projection.ofJson ordersDocument = .ok orders := rfl
  have bareText : Text.Bare "order".toList ∧ Text.Bare "Ann".toList := by simp [Text.Bare]
  have literals : ∀ v, orders.HasLiteral v → v.ReferenceFree := by
    intro v literal s inside
    cases ordersLiterals literal
    cases inside
    exact bareText.1.free
  have bare : order.Bare := fun s inside => orderStrings inside ▸ bareText.2
  have selected := documentSelects accepted literals {} rfl 0 (some [("buyer", .value .null)])
    (some [("buyer", .function (.closure ()))]) failing rfl bare
  exact ⟨accepted, bare, selected.symm.trans rfl⟩

end Reshape.Evaluate
