import Reshape.Evaluate.Interpolation
import Reshape.Proofs.Run.Ends
/-! Which alternative of a reference decides. An alternative is a target with its pipes, but targets
alone are looked at to find one: the first that has a value decides, whatever its pipes make of the
value. So an alternative that has one may stand unused behind one whose pipes gave nothing. -/
namespace Reshape.Evaluate
variable {F σ : Type}

def alternative (apply : Apply F) (c : Context F) (a : Alternative) : Run F (Option Value) := do
  match ← resolveTarget apply c a.target with
  | some v => applyPipes apply c v a.pipes
  | none => return none

def target (apply : Apply F) (c : Context F) (a : Alternative) : Run F (Option Value) :=
  resolveTarget apply c a.target

def Passed (engines : Engines F) (host : Host F σ) (one : Alternative → Run F (Option Value))
    (alternatives : List Alternative) (before after : Session F σ) : Prop :=
  Run.InTurn engines host (alternatives.map one) before (List.replicate alternatives.length none) after

def Piped (engines : Engines F) (host : Host F σ) (apply : Apply F) (c : Context F) (a : Alternative)
    (before : Session F σ) (answer : Except Error (Option Value)) (after : Session F σ) : Prop :=
  ∃ v middle, (target apply c a).Ends engines host before (.ok (some v)) middle ∧
    (applyPipes apply c v a.pipes).Ends engines host middle answer after

section Search
variable {engines : Engines F} {host : Host F σ} {apply : Apply F} {c : Context F}
  {one : Alternative → Run F (Option Value)} {before middle after : Session F σ}
  {earlier rest : List Alternative} {a : Alternative}

theorem passedCons : Passed engines host one (a :: rest) before after ↔
    ∃ middle, (one a).Ends engines host before (.ok none) middle ∧
      Passed engines host one rest middle after := by
  constructor
  · rintro (_ | ⟨first, others⟩)
    exact ⟨_, first, others⟩
  · rintro ⟨middle, first, others⟩
    exact .cons first others

theorem alternativeEnds {result : Option Value} :
    (alternative apply c a).Ends engines host before (.ok result) after ↔
      (result = none ∧ (target apply c a).Ends engines host before (.ok none) after) ∨
      Piped engines host apply c a before (.ok result) after := by
  constructor
  · intro ended
    obtain ⟨found, middle, first, onward⟩ := Run.endsThen.mp ended
    cases found with
    | none =>
      obtain ⟨same, rfl⟩ := Run.endsPure.mp onward
      cases same
      exact .inl ⟨rfl, first⟩
    | some v => exact .inr ⟨v, middle, first, onward⟩
  · rintro (⟨rfl, first⟩ | ⟨v, middle, first, onward⟩)
    · exact first.then (Run.endsPure.mpr ⟨rfl, rfl⟩)
    · exact first.then onward

theorem resolvePiped {answer : Except Error (Option Value)}
    (piped : Piped engines host apply c a before answer after) (later : List Alternative) :
    (resolveAlternatives apply c (a :: later)).Ends engines host before answer after := by
  obtain ⟨v, middle, first, onward⟩ := piped
  exact first.then onward

theorem resolvePassed (passed : Passed engines host (target apply c) earlier before middle)
    {answer : Except Error (Option Value)}
    (ended : (resolveAlternatives apply c rest).Ends engines host middle answer after) :
    (resolveAlternatives apply c (earlier ++ rest)).Ends engines host before answer after := by
  induction earlier generalizing before with
  | nil =>
    cases passed
    exact ended
  | cons a earlier ih =>
    obtain ⟨next, first, others⟩ := passedCons.mp passed
    exact first.then (ih others)

theorem resolveEnded {alternatives : List Alternative} {result : Option Value}
    (ended : (resolveAlternatives apply c alternatives).Ends engines host before (.ok result) after) :
    (result = none ∧ Passed engines host (target apply c) alternatives before after) ∨
    ∃ earlier a later middle, alternatives = earlier ++ a :: later ∧
      Passed engines host (target apply c) earlier before middle ∧
      Piped engines host apply c a middle (.ok result) after := by
  induction alternatives generalizing before with
  | nil =>
    obtain ⟨same, rfl⟩ := Run.endsPure.mp ended
    cases same
    exact .inl ⟨rfl, .nil⟩
  | cons a rest ih =>
    obtain ⟨found, next, first, onward⟩ := Run.endsThen.mp ended
    cases found with
    | some v => exact .inr ⟨[], a, rest, before, rfl, .nil, v, next, first, onward⟩
    | none =>
      obtain ⟨rfl, passed⟩ | ⟨earlier, b, later, middle, rfl, passed, piped⟩ := ih onward
      · exact .inl ⟨rfl, passedCons.mpr ⟨next, first, passed⟩⟩
      · exact .inr ⟨a :: earlier, b, later, middle, rfl, passedCons.mpr ⟨next, first, passed⟩, piped⟩

theorem passedOrEmptied (passed : Passed engines host (alternative apply c) earlier before middle) :
    Passed engines host (target apply c) earlier before middle ∨
    ∃ first b between reached stopped, earlier = first ++ b :: between ∧
      Passed engines host (target apply c) first before reached ∧
      Piped engines host apply c b reached (.ok none) stopped := by
  induction earlier generalizing before with
  | nil => exact .inl passed
  | cons a earlier ih =>
    obtain ⟨next, first, others⟩ := passedCons.mp passed
    obtain ⟨_, missing⟩ | emptied := alternativeEnds.mp first
    · obtain targets | ⟨front, b, between, reached, stopped, rfl, targets, emptied⟩ := ih others
      · exact .inl (passedCons.mpr ⟨next, missing, targets⟩)
      · exact .inr ⟨a :: front, b, between, reached, stopped, rfl,
          passedCons.mpr ⟨next, missing, targets⟩, emptied⟩
    · exact .inr ⟨[], a, earlier, before, next, rfl, .nil, emptied⟩

end Search

/- When a reference has which value, and what it has where the alternatives before one come to
nothing and that one has a value: this value, or nothing, if an earlier one had a target. -/
theorem firstTargetDecides (engines : Engines F) (host : Host F σ) (apply : Apply F) (c : Context F)
    (r : Reference) (before : Session F σ) :
    (∀ result after, (resolve apply c r).Ends engines host before (.ok result) after ↔
      (result = none ∧ Passed engines host (target apply c) r.alternatives before after) ∨
      ∃ earlier a later middle, r.alternatives = earlier ++ a :: later ∧
        Passed engines host (target apply c) earlier before middle ∧
        Piped engines host apply c a middle (.ok result) after) ∧
    ∀ earlier a later w middle after, r.alternatives = earlier ++ a :: later →
      Passed engines host (alternative apply c) earlier before middle →
      (alternative apply c a).Ends engines host middle (.ok (some w)) after →
      (Passed engines host (target apply c) earlier before middle ∧
        (resolve apply c r).Ends engines host before (.ok (some w)) after) ∨
      ∃ first b between reached stopped, earlier = first ++ b :: between ∧
        Passed engines host (target apply c) first before reached ∧
        Piped engines host apply c b reached (.ok none) stopped ∧
        (resolve apply c r).Ends engines host before (.ok none) stopped := by
  unfold resolve
  refine ⟨fun result after => ⟨resolveEnded, ?_⟩, ?_⟩
  · rintro (⟨rfl, passed⟩ | ⟨earlier, a, later, middle, split, passed, piped⟩)
    · rw [← List.append_nil r.alternatives]
      exact resolvePassed passed (Run.endsPure.mpr ⟨rfl, rfl⟩)
    · rw [split]
      exact resolvePassed passed (resolvePiped piped later)
  · intro earlier a later w middle after split passed ended
    obtain ⟨nothing, _⟩ | piped := alternativeEnds.mp ended
    · cases nothing
    · rw [split]
      obtain missing | ⟨first, b, between, reached, stopped, rfl, targets, emptied⟩ :=
        passedOrEmptied passed
      · exact .inl ⟨missing, resolvePassed missing (resolvePiped piped later)⟩
      · refine .inr ⟨first, b, between, reached, stopped, rfl, targets, emptied, ?_⟩
        rw [List.append_assoc]
        exact resolvePassed targets (resolvePiped emptied _)

def dropping : Host Unit Unit where
  call _ _ s := (.ok .absent, s)
  supply _ s := (.ok [], s)

def untouched : Session Unit Unit := { state := () }

def oneWithDrop : Context Unit :=
  { scope := [("a", .value (.ofNat 1)), ("drop", .function (.direct ()))]
    data := .null
    key := .root
    projection := .list []
    projectionScope := none
    instanceScope := none
    parent := none
    params := none
    depth := 0 }

def missing : Alternative := ⟨.path "b", []⟩
def dropped : Alternative := ⟨.path "a", [⟨"drop", []⟩]⟩
def fallback : Alternative := ⟨.literal (.string "x"), []⟩

theorem fallbackTaken :
    let one := alternative (fun _ _ => .pure none) oneWithDrop
    Passed (.single {}) dropping one [missing] untouched untouched ∧
    (one fallback).Ends (.single {}) dropping untouched (.ok (some (.string "x"))) untouched ∧
    (resolve (fun _ _ => .pure none) oneWithDrop ⟨[missing, fallback, dropped]⟩).Ends (.single {}) dropping
      untouched (.ok (some (.string "x"))) untouched := by
  intro one
  have passed : Passed (.single {}) dropping one [missing] untouched untouched := .cons rfl .nil
  have ended : (one fallback).Ends (.single {}) dropping untouched (.ok (some (.string "x"))) untouched := rfl
  refine ⟨passed, ended, ?_⟩
  have decides := firstTargetDecides (.single {}) dropping (fun _ _ => .pure none) oneWithDrop
    ⟨[missing, fallback, dropped]⟩ untouched
  obtain ⟨_, found⟩ | ⟨_, _, _, _, _, _, _, _, nothing⟩ :=
    decides.2 [missing] fallback [dropped] (.string "x") untouched untouched rfl passed ended
  · exact found
  · cases nothing

theorem fallbackUnused :
    let one := alternative (fun _ _ => .pure none) oneWithDrop
    Reference.parse "\x7b\x7ba|drop || \"x\"\x7d\x7d" = ⟨[dropped, fallback]⟩ ∧
    Passed (.single {}) dropping one [dropped] untouched untouched ∧
    (one fallback).Ends (.single {}) dropping untouched (.ok (some (.string "x"))) untouched ∧
    (resolve (fun _ _ => .pure none) oneWithDrop ⟨[dropped, fallback]⟩).Ends (.single {}) dropping
      untouched (.ok none) untouched :=
  ⟨rfl, .cons rfl .nil, rfl, rfl⟩

end Reshape.Evaluate
