import Mathlib.Data.List.FinRange
import Mathlib.Data.List.Forall2
/-! Computations that may fail, taken apart when they succeed. -/
namespace Reshape.Fallible
variable {ε α β : Type}

theorem okThen (a : α) (f : α → Except ε β) : (.ok a >>= f) = f a := rfl

theorem bindOk {x : Except ε α} {f : α → Except ε β} {b : β} :
    x >>= f = .ok b ↔ ∃ a, x = .ok a ∧ f a = .ok b := by
  constructor
  · intro ok
    cases x with
    | error e => cases ok
    | ok a => exact ⟨a, rfl, ok⟩
  · rintro ⟨a, rfl, ok⟩
    exact ok

theorem mapOk {x : Except ε α} {f : α → β} {b : β} :
    x.map f = .ok b ↔ ∃ a, x = .ok a ∧ f a = b := by
  cases x with
  | error e => simp [Except.map]
  | ok a => simp [Except.map]

theorem bindFails {x : Except ε α} {f : α → Except ε β} {e : ε} :
    x >>= f = .error e ↔ x = .error e ∨ ∃ a, x = .ok a ∧ f a = .error e := by
  constructor
  · intro failed
    cases x with
    | error e' => cases failed; exact .inl rfl
    | ok a => exact .inr ⟨a, rfl, failed⟩
  · rintro (rfl | ⟨a, rfl, failed⟩)
    · rfl
    · exact failed

theorem mapFails {x : Except ε α} {f : α → β} {e : ε} : x.map f = .error e ↔ x = .error e := by
  cases x with
  | error e' => simp [Except.map]
  | ok a => simp [Except.map]

theorem mapThen {γ : Type} (x : Except ε α) (f : α → Except ε β) (g : β → γ) :
    (x >>= f).map g = x >>= fun a => (f a).map g := by
  cases x <;> rfl

theorem mapErrorOk {ε' : Type} {x : Except ε α} {f : ε → ε'} {a : α} :
    x.mapError f = .ok a ↔ x = .ok a := by
  cases x with
  | error e => simp [Except.mapError]
  | ok a => simp [Except.mapError]

theorem mapMCongr {f g : α → Except ε β} {items : List α} (same : ∀ a ∈ items, f a = g a) :
    items.mapM f = items.mapM g := by
  induction items with
  | nil => rfl
  | cons a rest ih =>
    obtain ⟨here, behind⟩ := List.forall_mem_cons.mp same
    rw [List.mapM_cons, List.mapM_cons, here, ih behind]

theorem mapMThenMap {γ : Type} (f : α → Except ε β) (g : β → γ) (items : List α) :
    (items.mapM fun a => (f a).map g) = (items.mapM f).map (List.map g) := by
  induction items with
  | nil => rfl
  | cons a rest ih =>
    rw [List.mapM_cons, List.mapM_cons, ih]
    cases f a with
    | error e => rfl
    | ok b => cases rest.mapM f <;> rfl

theorem mapMFlattenCons (f : α → Except ε (List β)) (a : α) (rest : List α) :
    ((a :: rest).mapM f).map List.flatten =
      f a >>= fun here => ((rest.mapM f).map List.flatten).map (here ++ ·) := by
  rw [List.mapM_cons]
  cases f a with
  | error e => rfl
  | ok here => cases rest.mapM f <;> rfl

theorem mapMOk {f : α → Except ε β} {items : List α} {results : List β}
    (ok : items.mapM f = .ok results) : List.Forall₂ (fun a b => f a = .ok b) items results := by
  induction items generalizing results with
  | nil =>
    cases ok
    exact .nil
  | cons a rest ih =>
    rw [List.mapM_cons] at ok
    obtain ⟨b, here, ok⟩ := bindOk.mp ok
    obtain ⟨others, behind, same⟩ := bindOk.mp ok
    cases same
    exact .cons here (ih behind)

theorem eachPosition {size : Nat} {R : Fin size → β → Prop} {results : List β}
    (each : List.Forall₂ R (List.finRange size) results) :
    ∃ given : Fin size → β, (∀ i, R i (given i)) ∧ results = List.ofFn given := by
  have length : results.length = size := by rw [← each.length_eq, List.length_finRange]
  refine ⟨fun i => results.get (i.cast length.symm), fun i => ?_, ?_⟩
  · have here := each.get (i := i) (by simp) (by omega)
    simpa using here
  · exact List.ext_get (by simp [length]) fun i _ _ => by simp

theorem mapMGiven (results : List β) :
    (results.map Except.ok).mapM id = (.ok results : Except ε (List β)) := by
  induction results with
  | nil => rfl
  | cons b rest ih =>
    rw [List.map_cons, List.mapM_cons, ih]
    rfl

theorem mapMSource {f : α → Except ε β} {items : List α} {results : List β} {b : β}
    (ok : items.mapM f = .ok results) (member : b ∈ results) : ∃ a ∈ items, f a = .ok b := by
  have each := mapMOk ok
  clear ok
  induction each with
  | nil => cases member
  | cons here _ ih =>
    rcases List.mem_cons.mp member with rfl | member
    · exact ⟨_, List.mem_cons_self, here⟩
    · obtain ⟨a, inside, gave⟩ := ih member
      exact ⟨a, List.mem_cons_of_mem _ inside, gave⟩

end Reshape.Fallible
