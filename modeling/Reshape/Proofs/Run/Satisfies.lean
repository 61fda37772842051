import Reshape.Proofs.Run.Composed
/-! What comes out of a run, and what its callbacks are asked on the way, when the host answers within
bounds. Callbacks are asked by role, symbol and context. Jobs of a fan-out have results of their own,
of which the results behind it may depend. -/
namespace Reshape
variable {F : Type}

structure Replies (F : Type) where
  call : Role → F → Context F → Computed F → Prop
  global : Nat → Scope F → Prop

def Replies.any : Replies F :=
  ⟨fun _ _ _ _ => True, fun _ _ => True⟩

namespace Run
variable {replies : Replies F} {asked : Role → F → Context F → Prop} {α β : Type}

def Satisfies (replies : Replies F) (asked : Role → F → Context F → Prop) :
    {α : Type} → (α → Prop) → Run F α → Prop
  | _, wanted, .pure a => wanted a
  | _, _, .fail _ => True
  | _, wanted, .call role symbol c next => asked role symbol c ∧
      ∀ r, replies.call role symbol c r → (next r).Satisfies replies asked wanted
  | _, wanted, .global engine next =>
      ∀ s, replies.global engine s → (next s).Satisfies replies asked wanted
  | _, wanted, .await _ next => ∀ v, (next v).Satisfies replies asked wanted
  | _, wanted, .warn _ next => next.Satisfies replies asked wanted
  | _, wanted, .spread _ jobs next => ∃ each : _ → Prop,
      (∀ i, (jobs i).Satisfies replies asked each) ∧
      ∀ rs, (∀ r ∈ rs, each r) → (next rs).Satisfies replies asked wanted

theorem Satisfies.bind {r : Run F α} {f : α → Run F β} {each : α → Prop} {wanted : β → Prop}
    (first : r.Satisfies replies asked each)
    (after : ∀ a, each a → (f a).Satisfies replies asked wanted) :
    (r.bind f).Satisfies replies asked wanted := by
  induction r with
  | pure a => exact after a first
  | fail e => exact trivial
  | call role symbol c next ih =>
    exact ⟨first.1, fun r given => ih r (first.2 r given) after⟩
  | global engine next ih => exact fun s given => ih s (first s given) after
  | await d next ih => exact fun v => ih v (first v) after
  | warn text next ih => exact ih first after
  | spread size jobs next _ ih =>
    obtain ⟨results, jobsSatisfy, behind⟩ := first
    exact ⟨results, jobsSatisfy, fun rs all => ih rs (behind rs all) after⟩

theorem Satisfies.gathered {jobs : List (Run F α)} {each : α → Prop}
    (jobsSatisfy : ∀ job ∈ jobs, job.Satisfies replies asked each) :
    (gather jobs).Satisfies replies asked fun results => ∀ r ∈ results, each r :=
  ⟨each, fun i => jobsSatisfy _ (jobs.get_mem i), fun _ all => all⟩

theorem satisfiesNothing (r : Run F α) :
    r.Satisfies replies (fun _ _ _ => True) fun _ => True := by
  induction r with
  | pure a => exact trivial
  | fail e => exact trivial
  | call role symbol c next ih => exact ⟨trivial, fun r _ => ih r⟩
  | global engine next ih => exact fun s _ => ih s
  | await d next ih => exact ih
  | warn text next ih => exact ih
  | spread size jobs next ihEach ih => exact ⟨fun _ => True, ihEach, fun rs _ => ih rs⟩

theorem Satisfies.behind {wanted : β → Prop} (r : Run F α) {f : α → Run F β}
    (after : ∀ a, (f a).Satisfies replies (fun _ _ _ => True) wanted) :
    (r >>= f).Satisfies replies (fun _ _ _ => True) wanted :=
  (satisfiesNothing r).bind fun a _ => after a

theorem Satisfies.weaken {r : Run F α} {each wanted : α → Prop}
    (satisfies : r.Satisfies replies asked each) (enough : ∀ a, each a → wanted a) :
    r.Satisfies replies asked wanted := by
  rw [← Run.bindPure r]
  exact satisfies.bind enough

theorem Satisfies.gatheredMap {items : List α} {job : α → Run F β} {each : β → Prop}
    (jobs : ∀ a ∈ items, (job a).Satisfies replies asked each) :
    (gather (items.map job)).Satisfies replies asked fun results => ∀ r ∈ results, each r := by
  refine Satisfies.gathered fun r member => ?_
  obtain ⟨a, inside, rfl⟩ := List.mem_map.mp member
  exact jobs a inside

end Run

end Reshape
