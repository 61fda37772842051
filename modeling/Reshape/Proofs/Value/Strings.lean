import Reshape.Context.Basic
import Reshape.Proofs.Entries
import Reshape.Value.Json
/-! The strings that stand in a value, at any depth. Names of fields are not among them. What a look
into a value finds has no strings that the value does not have. The way to a place goes through
lists and plain records; what dates and projected records hold is at no place. -/
namespace Reshape

def Text.Bare (cs : List Char) : Prop :=
  '\x7b' ∉ cs ∧ '\\' ∉ cs

theorem Text.Bare.part {part cs : List Char} (bare : Bare cs) (inside : part ⊆ cs) : Bare part :=
  ⟨fun brace => bare.1 (inside brace), fun slash => bare.2 (inside slash)⟩

namespace Value

inductive HasString (s : String) : Value → Prop where
  | here : HasString s (.string s)
  | item {items : List Value} {v : Value} (member : v ∈ items) (inside : HasString s v) :
      HasString s (.array items)
  | field {fields : List (String × Value)} {f : String × Value} (member : f ∈ fields)
      (inside : HasString s f.2) : HasString s (.record fields)
  | final {fields : List (String × Value)} {f : String × Value} (member : f ∈ fields)
      (inside : HasString s f.2) : HasString s (.projected fields)

@[simp] theorem stringHasString {s text : String} : HasString s (.string text) ↔ s = text :=
  ⟨fun inside => by cases inside; rfl, fun same => same ▸ .here⟩

@[simp] theorem arrayHasString {s : String} {items : List Value} :
    HasString s (.array items) ↔ ∃ v ∈ items, HasString s v :=
  ⟨fun inside => by cases inside with | item member inside => exact ⟨_, member, inside⟩,
    fun ⟨_, member, inside⟩ => .item member inside⟩

@[simp] theorem recordHasString {s : String} {fields : List (String × Value)} :
    HasString s (.record fields) ↔ ∃ f ∈ fields, HasString s f.2 :=
  ⟨fun inside => by cases inside with | field member inside => exact ⟨_, member, inside⟩,
    fun ⟨_, member, inside⟩ => .field member inside⟩

@[simp] theorem nullHasString {s : String} : ¬ HasString s .null := nofun

@[simp] theorem numberHasString {s : String} {n : Number} : ¬ HasString s (.number n) := nofun

theorem HasString.ofChild {s key : String} {v child : Value} (found : v.get? key = some child)
    (inside : child.HasString s) : v.HasString s := by
  cases v with
  | record fs => exact .field (Entries.get?Member found) inside
  | projected fs => exact .final (Entries.get?Member found) inside
  | array items =>
    rw [get?, Option.bind_eq_some_iff] at found
    obtain ⟨i, _, found⟩ := found
    exact .item (List.mem_of_getElem? found) inside
  | _ => cases found

theorem itemsOfJsonMap (items : List Json) : itemsOfJson items = items.map ofJson := by
  induction items with
  | nil => rfl
  | cons j rest ih => rw [itemsOfJson, List.map_cons, ih]

def Bare (v : Value) : Prop :=
  ∀ s, v.HasString s → Text.Bare s.toList

theorem Bare.child {v child : Value} {key : String} (bare : v.Bare)
    (found : v.get? key = some child) : child.Bare :=
  fun s inside => bare s (inside.ofChild found)

theorem Bare.item {items : List Value} {v : Value} (bare : (array items).Bare) (member : v ∈ items) :
    v.Bare :=
  fun s inside => bare s (.item member inside)

inductive Within (u : Value) : List Key → Value → Prop where
  | here : Within u [] u
  | item {items : List Value} {i : Nat} {v : Value} {path : List Key} (place : items[i]? = some v)
      (inside : Within u path v) : Within u (.index i :: path) (.array items)
  | field {fields : List (String × Value)} {name : String} {v : Value} {path : List Key}
      (member : (name, v) ∈ fields) (inside : Within u path v) :
      Within u (.field name :: path) (.record fields)

inductive Marked : Value → Prop where
  | date (instant : Instant) : Marked (.date instant)
  | projected (fields : List (String × Value)) : Marked (.projected fields)

theorem Within.hasString {s : String} {path : List Key} {v : Value}
    (inside : Within (.string s) path v) : v.HasString s := by
  induction inside with
  | here => exact .here
  | item place _ ih => exact .item (List.mem_of_getElem? place) ih
  | field member _ ih => exact .field member ih

end Value
end Reshape
