import Reshape.Proofs.Evaluate.Alternatives
/-! How far a reference is looked at. Two pipelines one behind the other are one pipeline. What
stands behind the pipe that stops a pipeline, or behind the alternative that decides, is not looked
at: whatever it is, the answer is the same and the host is asked the same. -/
namespace Reshape.Evaluate
variable {F σ : Type}

theorem pipesCompose (apply : Apply F) (c : Context F) (v : Value) (front later : List PipeCall) :
    applyPipes apply c v (front ++ later) = (do
      match ← applyPipes apply c v front with
      | some w => applyPipes apply c w later
      | none => return none) := by
  induction front generalizing v with
  | nil => rfl
  | cons pipe rest ih =>
    simp only [List.cons_append, applyPipes, bind_assoc]
    congr 1
    funext fn
    congr 1
    funext params
    congr 1
    funext computed
    congr 1
    funext next
    cases next with
    | none => rfl
    | some w => exact ih w

section Behind
variable {engines : Engines F} {host : Host F σ} {apply : Apply F} {c : Context F}
  {before middle after : Session F σ}

theorem pipesStopped {v : Value} {front : List PipeCall} {answer : Except Error (Option Value)}
    (ended : (applyPipes apply c v front).Ends engines host before answer after)
    (stops : ∀ w, answer ≠ .ok (some w)) (later : List PipeCall) :
    (applyPipes apply c v (front ++ later)).Ends engines host before answer after := by
  rw [pipesCompose]
  match answer with
  | .error e => exact ended.stopped _
  | .ok none => exact ended.then (Run.endsPure.mpr ⟨rfl, rfl⟩)
  | .ok (some w) => exact absurd rfl (stops w)

theorem passedOrDecided (front : List Alternative) (before : Session F σ) :
    (∃ middle, Passed engines host (target apply c) front before middle) ∨
    ∃ answer after, ∀ later,
      (resolveAlternatives apply c (front ++ later)).Ends engines host before answer after := by
  induction front generalizing before with
  | nil => exact .inl ⟨before, .nil⟩
  | cons a rest ih =>
    obtain ⟨found, middle, first⟩ := Run.endsSomehow engines host (target apply c a) before
    match found with
    | .error e => exact .inr ⟨_, _, fun later => first.stopped _⟩
    | .ok (some v) =>
      obtain ⟨answer, after, piped⟩ :=
        Run.endsSomehow engines host (applyPipes apply c v a.pipes) middle
      exact .inr ⟨answer, after, fun later => resolvePiped ⟨v, middle, first, piped⟩ _⟩
    | .ok none =>
      obtain ⟨last, passed⟩ | ⟨answer, after, decided⟩ := ih middle
      · exact .inl ⟨last, passedCons.mpr ⟨middle, first, passed⟩⟩
      · exact .inr ⟨answer, after, fun later => first.then (decided later)⟩

theorem yieldedDecides {earlier : List Alternative} {a : Alternative} {w : Value}
    (passed : Passed engines host (alternative apply c) earlier before middle)
    (ended : (alternative apply c a).Ends engines host middle (.ok (some w)) after) :
    ∃ result stopped, ∀ later, (resolveAlternatives apply c (earlier ++ a :: later)).Ends
      engines host before (.ok result) stopped := by
  obtain ⟨nothing, _⟩ | piped := alternativeEnds.mp ended
  · cases nothing
  · obtain missing | ⟨first, b, between, reached, stopped, rfl, targets, emptied⟩ :=
      passedOrEmptied passed
    · exact ⟨some w, after, fun later => resolvePassed missing (resolvePiped piped later)⟩
    · refine ⟨none, stopped, fun later => ?_⟩
      rw [List.append_assoc]
      exact resolvePassed targets (resolvePiped emptied _)

end Behind

/- The session holds the state of the host, so the calls are the same as well. -/
theorem nothingBehindTouched (apply : Apply F) (c : Context F) :
    (∀ v front later, applyPipes apply c v (front ++ later) = (do
      match ← applyPipes apply c v front with
      | some w => applyPipes apply c w later
      | none => return none)) ∧
    ∀ (engines : Engines F) (host : Host F σ) (before : Session F σ),
      (∀ v front answer stopped, (applyPipes apply c v front).Ends engines host before answer stopped →
        (∀ w, answer ≠ .ok (some w)) →
        ∀ later, (applyPipes apply c v (front ++ later)).Ends engines host before answer stopped) ∧
      (∀ front, (∃ middle, Passed engines host (target apply c) front before middle) ∨
        ∃ answer stopped, ∀ later,
          (resolve apply c ⟨front ++ later⟩).Ends engines host before answer stopped) ∧
      ∀ earlier a w middle after, Passed engines host (alternative apply c) earlier before middle →
        (alternative apply c a).Ends engines host middle (.ok (some w)) after →
        ∃ result stopped, ∀ later,
          (resolve apply c ⟨earlier ++ a :: later⟩).Ends engines host before (.ok result) stopped := by
  refine ⟨pipesCompose apply c, fun engines host before => ⟨?_, ?_, ?_⟩⟩
  · intro v front answer stopped ended stops later
    exact pipesStopped ended stops later
  · intro front
    exact passedOrDecided front before
  · intro earlier a w middle after passed ended
    exact yieldedDecides passed ended

def recording : Host String (List String) where
  call name _ calls :=
    let reply := match name with
      | "drop" => .ok .absent
      | "double" => .ok (.value (.ofNat 2))
      | other => .error (.callback other)
    (reply, name :: calls)
  supply _ calls := (.ok [], calls)

def quiet : Session String (List String) := { state := [] }

def doubling : Context String :=
  { scope := [("a", .value (.ofNat 1)), ("double", .function (.direct "double")),
      ("drop", .function (.direct "drop")), ("fail", .function (.direct "fail"))]
    data := .null
    key := .root
    projection := .list []
    projectionScope := none
    instanceScope := none
    parent := none
    params := none
    depth := 0 }

def doubled : Alternative := ⟨.path "a", [⟨"double", []⟩]⟩
def broken : Alternative := ⟨.path "fail", [⟨"nowhere", [.path "fail"]⟩, ⟨"a", []⟩]⟩

theorem brokenUntouched :
    let here := alternative (fun _ _ => .pure none) doubling
    Passed (.single {}) recording here [missing] quiet quiet ∧
    (here doubled).Ends (.single {}) recording quiet (.ok (some (.ofNat 2))) { state := ["double"] } ∧
    (∀ later, (resolve (fun _ _ => .pure none) doubling ⟨[missing, doubled] ++ later⟩).Ends (.single {})
      recording quiet (.ok (some (.ofNat 2))) { state := ["double"] }) ∧
    (here broken).Ends (.single {}) recording quiet (.error (.callback "fail")) { state := ["fail"] } ∧
    ∀ later, (applyPipes (fun _ _ => .pure none) doubling (.ofNat 1)
      ([⟨"double", []⟩, ⟨"drop", []⟩] ++ later)).Ends (.single {}) recording quiet (.ok none)
        { state := ["drop", "double"] } := by
  intro here
  have passed : Passed (.single {}) recording here [missing] quiet quiet := .cons rfl .nil
  have yielded : (here doubled).Ends (.single {}) recording quiet (.ok (some (.ofNat 2)))
      { state := ["double"] } := rfl
  obtain ⟨_, behind⟩ :=
    nothingBehindTouched (σ := List String) (fun _ _ => .pure none) doubling
  obtain ⟨pipes, _, alternatives⟩ := behind (.single {}) recording quiet
  obtain ⟨result, stopped, same⟩ := alternatives [missing] doubled _ _ _ passed yielded
  have alone : (resolve (fun _ _ => .pure none) doubling ⟨[missing, doubled]⟩).Ends (.single {})
      recording quiet (.ok (some (.ofNat 2))) { state := ["double"] } := rfl
  obtain ⟨sameAnswer, rfl⟩ := alone.unique (same [])
  cases sameAnswer
  exact ⟨passed, yielded, same, rfl, pipes _ _ _ _ rfl nofun⟩

end Reshape.Evaluate
