import Mathlib.Data.List.ReduceOption
import Reshape.Projection.Basic
import Reshape.Value.Basic
import Reshape.Value.Json
import Reshape.Engine
import Reshape.Error
import Reshape.Proofs.Fallible
/-! Selecting without scopes. A selection has the projection, the data and the depth, and nothing
else: no context, no callbacks, no references and no host. It is what plain projections mean. -/
namespace Reshape
open Fallible
variable {F : Type}

abbrev Select (F : Type) := Projection F → Value → Except Error (Option Value)

namespace Select

def spec (below : Select F) (data : Option Value) : Spec F → Except Error (Option Value)
  | .typed .date => .ok ((data.bind Value.toDate?).map .date)
  | .typed _ | .passthrough => .ok (data.filter fun v => !v.isNull)
  | .literal v => .ok (if v.isTruthy then some v else none)
  | .nested p =>
    match data with
    | some inner => below p inner
    | none => .ok none
  | .function _ | .project _ | .deferred _ => .ok none

def field (below : Select F) (data : Value) (f : String × Spec F) :
    Except Error (Option (String × Value)) :=
  (spec below (data.get? f.1) f.2).map fun v => v.map (f.1, ·)

def position (below : Select F) (data : Value) (slot : Projection F × Nat) :
    Except Error (Option Value) :=
  match data.get? (toString slot.2) with
  | some inner => below slot.1 inner
  | none => .ok none

def whole (below : Select F) (data : Value) : Projection F → Except Error Value
  | .object fields _ => do
    let selected ← fields.mapM (field below data)
    return .projected selected.reduceOption
  | .list slots => do
    let selected ← slots.zipIdx.mapM (position below data)
    return .array selected.reduceOption

def each (below : Select F) (items : List Value) : Projection F → Except Error Value
  | .object fields directives => do
    let selected ← (items.filter Value.isStructured).mapM (below (.object fields directives))
    return .array selected.reduceOption
  | .list slots => do
    let selected ← (items.zip slots).mapM fun (data, slot) => below slot data
    return .array selected.reduceOption

def level (below : Select F) (p : Projection F) (data : Value) : Except Error Value :=
  match data with
  | .array items =>
    if p.isArray || items.all Value.isStructured then each below items p else whole below data p
  | _ => whole below data p

def document (config : Config) : Value → Except Error Value
  | .string text => if config.parseStrings then Value.parse text else .ok (.string text)
  | data => .ok data

end Select

def select (config : Config) (p : Projection F) (data : Value) (depth : Nat) :
    Except Error (Option Value) :=
  if !data.isTruthy then .ok none
  else if _ : config.maxDepth < depth then .error (.recursionLimit depth config.maxDepth)
  else do
    let data ← Select.document config data
    if !data.isTruthy then return none
    return some (← Select.level (fun p data => select config p data (depth + 1)) p data)
termination_by config.maxDepth + 1 - depth

section Select
variable {config : Config} {data : Value} {depth : Nat}

theorem selectFalsy (falsy : data.isTruthy = false) (p : Projection F) :
    select config p data depth = .ok none := by
  rw [select, falsy]
  rfl

theorem selectBeyond (truthy : data.isTruthy = true) (beyond : config.maxDepth < depth)
    (p : Projection F) :
    select config p data depth = .error (.recursionLimit depth config.maxDepth) := by
  rw [select, truthy, dif_pos beyond]
  rfl

theorem selectAllowed (truthy : data.isTruthy = true) (allowed : depth ≤ config.maxDepth)
    (p : Projection F) :
    select config p data depth = (do
      let data ← Select.document config data
      if data.isTruthy then
        return some (← Select.level (fun p data => select config p data (depth + 1)) p data)
      else return none) := by
  rw [select, truthy, dif_neg (Nat.not_lt.mpr allowed)]
  refine bind_congr fun data => ?_
  cases data.isTruthy <;> rfl

theorem selectedThere {p : Projection F} {v : Value}
    (selected : select config p data depth = .ok (some v)) :
    depth ≤ config.maxDepth ∧ ∃ read, Select.document config data = .ok read ∧
      Select.level (fun p data => select config p data (depth + 1)) p read = .ok v := by
  have truthy : data.isTruthy = true := by
    by_contra falsy
    rw [selectFalsy (by simpa using falsy)] at selected
    cases selected
  rcases Nat.lt_or_ge config.maxDepth depth with beyond | allowed
  · rw [selectBeyond truthy beyond] at selected
    cases selected
  · rw [selectAllowed truthy allowed] at selected
    obtain ⟨read, found, selected⟩ := bindOk.mp selected
    split at selected
    · obtain ⟨w, level, same⟩ := bindOk.mp selected
      cases same
      exact ⟨allowed, read, found, level⟩
    · cases selected

end Select

namespace Select

theorem collectedNotNull {α : Type} {collected : Except Error α} {make : α → Value}
    (other : ∀ a, make a ≠ .null) : (collected >>= fun a => return make a) ≠ .ok .null := by
  intro ok
  obtain ⟨a, _, same⟩ := bindOk.mp ok
  injection same with same
  exact other a same

theorem wholeNotNull (below : Select F) (data : Value) (p : Projection F) :
    whole below data p ≠ .ok .null := by
  cases p with
  | object fields directives => exact collectedNotNull fun _ => nofun
  | list slots => exact collectedNotNull fun _ => nofun

theorem eachNotNull (below : Select F) (items : List Value) (p : Projection F) :
    each below items p ≠ .ok .null := by
  cases p with
  | object fields directives => exact collectedNotNull fun _ => nofun
  | list slots => exact collectedNotNull fun _ => nofun

theorem levelNotNull (below : Select F) (p : Projection F) (data : Value) :
    level below p data ≠ .ok .null := by
  unfold level
  split
  · split
    · exact eachNotNull below _ p
    · exact wholeNotNull below _ p
  · exact wholeNotNull below data p

end Select

theorem selectNotNull (config : Config) (p : Projection F) (data : Value) (depth : Nat) :
    select config p data depth ≠ .ok (some .null) := by
  cases truthy : data.isTruthy with
  | false =>
    rw [selectFalsy truthy]
    nofun
  | true =>
    rcases Nat.lt_or_ge config.maxDepth depth with beyond | allowed
    · rw [selectBeyond truthy beyond]
      nofun
    · rw [selectAllowed truthy allowed]
      intro ok
      obtain ⟨read, _, ok⟩ := bindOk.mp ok
      split at ok
      · obtain ⟨v, level, same⟩ := bindOk.mp ok
        cases same
        exact Select.levelNotNull _ p read level
      · cases ok

end Reshape
