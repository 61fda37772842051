import Reshape.Proofs.Evaluate.Output
import Reshape.Proofs.Evaluate.ReferenceFree
import Reshape.Proofs.Run.Ends
/-! Projectors that a function returns for a field, beside projectors that the field declares. Both are
applied alike. What a declared projector gave is final; what a returned one gave is final only if it
looks like output, and a value with an empty list in it does not. Without transformers that makes no
difference, since references stand nowhere in output. -/
namespace Reshape.Evaluate
variable {F σ : Type}

theorem interpolateItemsKept {apply : Apply F} {c : Context F} {items : List Value}
    (each : ∀ v ∈ items, interpolate apply c v = pure (some v)) :
    interpolateItems apply c items = pure items := by
  induction items with
  | nil => rfl
  | cons v rest ih =>
    obtain ⟨here, behind⟩ := List.forall_mem_cons.mp each
    rw [interpolateItems, here, pure_bind, ih behind]
    rfl

theorem interpolateOutput (apply : Apply F) (c : Context F) {v : Value} (output : v.Output) :
    interpolate apply c v = pure (some v) := by
  induction output with
  | projected fields => rfl
  | array each ih =>
    rw [interpolate, interpolateItemsKept ih]
    rfl

theorem refineOutput (apply : Apply F) (c : Context F) {v : Value} (output : v.Output) :
    refine apply [] c v = pure (some v) := by
  change (if v.isOutput then pure (some v) else interpolate apply c v >>= _) = _
  split
  · rfl
  · rw [interpolateOutput apply c output, pure_bind, dropNullOutput output]

section Field
variable {engines : Engines F} {host : Host F σ} {ts : List (Transformer F)} {inv : Invocation F}
  {c : Context F} {spec : Spec F} {p : Projector F} {fn : ContextFn F} {v : Value}
  {session before after last : Session F σ}

theorem projectedOutput
    (ended : (projectCurrent (evaluate engines) inv c p).Ends engines host before (.ok (some v)) after) :
    v.Output := by
  have gives : Gives Outputs (projectCurrent (evaluate engines) inv c p) :=
    withinGives engines (engines.ceiling + 1) _ _
  exact gives.exec (host.withinAny engines) trivial (congrArg Prod.fst ended) v rfl

theorem fieldFinal {apply : Apply F} (output : v.Output)
    (raw : (rawValue apply inv c spec).Ends engines host before (.ok (some v)) after)
    (final : (v.isOutput || spec.isProjection) = true) :
    (field apply ts inv c spec).Ends engines host before (.ok (some v)) after := by
  refine raw.then ?_
  simp only [dropNullOutput output, final, if_true]
  exact Run.endsPure.mpr ⟨rfl, rfl⟩

theorem fieldRefined {apply : Apply F} (output : v.Output)
    (raw : (rawValue apply inv c spec).Ends engines host before (.ok (some v)) after)
    (open' : (v.isOutput || spec.isProjection) = false) {answer : Except Error (Option Value)}
    (refined : (refine apply ts c v).Ends engines host after answer last) :
    (field apply ts inv c spec).Ends engines host before answer last := by
  refine raw.then ?_
  simp only [dropNullOutput output, open', Bool.false_eq_true, if_false]
  exact refined

theorem declaredEnds {answer : Except Error (Option Value)} :
    (field (evaluate engines) ts inv c (.project p)).Ends engines host before answer after ↔
      (projectCurrent (evaluate engines) inv c p).Ends engines host before answer after := by
  obtain ⟨given, reached, projected⟩ : ∃ given reached,
      (projectCurrent (evaluate engines) inv c p).Ends engines host before given reached := ⟨_, _, rfl⟩
  have same : (field (evaluate engines) ts inv c (.project p)).Ends engines host before given reached := by
    match given, projected with
    | .error e, projected => exact projected.stopped _
    | .ok none, projected => exact projected.then (Run.endsPure.mpr ⟨rfl, rfl⟩)
    | .ok (some v), projected =>
      exact fieldFinal (projectedOutput projected) projected (Bool.or_true _)
  constructor
  · intro declared
    obtain ⟨rfl, rfl⟩ := same.unique declared
    exact projected
  · intro declared
    obtain ⟨rfl, rfl⟩ := projected.unique declared
    exact same

theorem rawReturned (called : (fn.run .function c).Ends engines host session (.ok (.apply p)) before)
    {answer : Except Error (Option Value)}
    (projected : (projectCurrent (evaluate engines) inv c p).Ends engines host before answer after) :
    (rawValue (evaluate engines) inv c (.function fn)).Ends engines host session answer after :=
  called.then projected

/- One context, in which a function returns a projector. The only difference is an empty list in what
the projector gave: then this is not final, and the transformers get it. -/
theorem returnedAsDeclared {answer : Except Error (Option Value)}
    (called : (fn.run .function c).Ends engines host session (.ok (.apply p)) before)
    (declared : (field (evaluate engines) ts inv c (.project p)).Ends engines host before answer after) :
    (projectCurrent (evaluate engines) inv c p).Ends engines host before answer after ∧
    ((ts = [] ∨ ∀ v, answer = .ok (some v) → ¬ (Value.array []).Listed v) →
      (field (evaluate engines) ts inv c (.function fn)).Ends engines host session answer after) ∧
    ∀ v, answer = .ok (some v) → (Value.array []).Listed v →
      ∀ refined last, (refine (evaluate engines) ts c v).Ends engines host after refined last →
        (field (evaluate engines) ts inv c (.function fn)).Ends engines host session refined last := by
  have projected := declaredEnds.mp declared
  have raw := rawReturned called projected
  refine ⟨projected, fun harmless => ?_, ?_⟩
  · match answer, projected, raw with
    | .error e, _, raw => exact raw.stopped _
    | .ok none, _, raw => exact raw.then (Run.endsPure.mpr ⟨rfl, rfl⟩)
    | .ok (some v), projected, raw =>
      have output := projectedOutput projected
      cases taken : v.isOutput with
      | true => exact fieldFinal output raw (by rw [taken]; rfl)
      | false =>
        obtain rfl | full := harmless
        · refine fieldRefined output raw (by rw [taken]; rfl) ?_
          rw [refineOutput _ _ output]
          exact Run.endsPure.mpr ⟨rfl, rfl⟩
        · exact absurd (output.notTaken.mp taken) (full v rfl)
  · rintro v rfl empty refined last ended
    have output := projectedOutput projected
    exact fieldRefined output raw (by rw [output.notTaken.mpr empty]; rfl) ended

end Field

def collapsing : Engine Bool :=
  { transformers := [⟨"collapse", .always true, .direct false⟩] }

def hollow : Projector Bool := ⟨.object [] [.array], none, 0⟩

def returning : Host Bool Unit where
  call symbol _ state := (.ok (if symbol then .apply hollow else .value (.string "REPLACED")), state)
  supply _ state := (.ok [], state)

def idle : Session Bool Unit := { state := () }

def outer : Invocation Bool := ⟨0, .object [("a", .function (.closure true))] [], none, none, none, 0⟩

def rowsAtA : Context Bool :=
  (baseContext outer [] (.record [("a", .array [.record [], .record []])])).atKey (.field "a")

theorem hollowAsDeclared :
    let out := .array [.projected [], .projected []]
    ((ContextFn.closure true).run .function rowsAtA).Ends (.single collapsing) returning idle
      (.ok (.apply hollow)) idle ∧
    (field (evaluate (.single collapsing)) collapsing.transformers outer rowsAtA (.project hollow)).Ends
      (.single collapsing) returning idle (.ok (some out)) idle ∧
    (field (evaluate (.single collapsing)) collapsing.transformers outer rowsAtA
      (.function (.closure true))).Ends (.single collapsing) returning idle (.ok (some out)) idle := by
  intro out
  have called : ((ContextFn.closure true).run .function rowsAtA).Ends (.single collapsing) returning idle
      (.ok (.apply hollow)) idle := rfl
  have declared : (field (evaluate (.single collapsing)) collapsing.transformers outer rowsAtA
      (.project hollow)).Ends (.single collapsing) returning idle (.ok (some out)) idle := rfl
  obtain ⟨_, alike, _⟩ := returnedAsDeclared called declared
  refine ⟨called, declared, alike (.inr fun v same => ?_)⟩
  cases same
  have output : out.Output :=
    .array (List.forall_mem_cons.mpr ⟨.projected [], List.forall_mem_singleton.mpr (.projected [])⟩)
  rw [← output.notTaken]
  decide

theorem emptyListReplaced :
    let numbers := .record [("a", .array [.ofNat 1, .ofNat 2])]
    let run := fun spec : Spec Bool =>
      (Projector.mk (.object [("a", spec)] []) none 0).project (.single collapsing) numbers none
    (run (.project hollow)).Ends (.single collapsing) returning idle
      (.ok (some (.projected [("a", .array [])]))) idle ∧
    (run (.function (.closure true))).Ends (.single collapsing) returning idle
      (.ok (some (.projected [("a", .string "REPLACED")]))) idle :=
  ⟨rfl, rfl⟩

end Reshape.Evaluate
