import Reshape.Proofs.Json.RoundTrip
import Reshape.Value.Json
/-! Values that their JSON text keeps: no dates, no floats and no projected records, integers of 64
bits, and names that do not repeat. Reading the text gives the value back, its fields in the same
order. -/
namespace Reshape.Value

inductive Textual : Nat → Value → Prop where
  | null {levels : Nat} : Textual levels .null
  | bool {levels : Nat} (b : Bool) : Textual levels (.bool b)
  | integer {levels : Nat} {i : Int} (word : Json.IsWord i) : Textual levels (.ofInt i)
  | string {levels : Nat} (s : String) : Textual levels (.string s)
  | array {levels : Nat} {items : List Value} (each : ∀ v ∈ items, Textual levels v) :
      Textual (levels + 1) (.array items)
  | record {levels : Nat} {fields : List (String × Value)} (distinct : Entries.Distinct fields)
      (each : ∀ f ∈ fields, Textual levels f.2) : Textual (levels + 1) (.record fields)

theorem itemsToJsonMap (items : List Value) : itemsToJson items = items.map toJson := by
  induction items with
  | nil => rfl
  | cons v rest ih => rw [itemsToJson, List.map_cons, ih]

theorem fieldsToJsonMap (fields : List (String × Value)) :
    fieldsToJson fields = fields.map fun f => (f.1, f.2.toJson) := by
  induction fields with
  | nil => rfl
  | cons f rest ih => rw [fieldsToJson, List.map_cons, ih]

theorem itemsBack {items : List Value} (each : ∀ v ∈ items, ofJson v.toJson = v) :
    itemsOfJson (itemsToJson items) = items := by
  induction items with
  | nil => rfl
  | cons v rest ih =>
    obtain ⟨here, behind⟩ := List.forall_mem_cons.mp each
    rw [itemsToJson, itemsOfJson, here, ih behind]

theorem fieldsBack {fields : List (String × Value)} (each : ∀ f ∈ fields, ofJson f.2.toJson = f.2) :
    fieldsOfJson (fieldsToJson fields) = fields := by
  induction fields with
  | nil => rfl
  | cons f rest ih =>
    obtain ⟨here, behind⟩ := List.forall_mem_cons.mp each
    rw [fieldsToJson, fieldsOfJson, here, ih behind]

namespace Textual

theorem back {levels : Nat} {v : Value} (textual : v.Textual levels) : ofJson v.toJson = v := by
  induction textual with
  | null => rfl
  | bool b => rfl
  | integer word => rfl
  | string s => rfl
  | array _ ih => rw [toJson, ofJson, itemsBack ih]
  | record _ _ ih => rw [toJson, ofJson, fieldsBack ih]

theorem exact {levels : Nat} {v : Value} (textual : v.Textual levels) : v.toJson.Exact levels := by
  induction textual with
  | null => exact .null
  | bool b => exact .bool b
  | integer word => exact .integer word
  | string s => exact .string s
  | array _ ih =>
    rw [toJson, itemsToJsonMap]
    exact .array (List.forall_mem_map.mpr ih)
  | @record _ fields distinct _ ih =>
    rw [toJson, fieldsToJsonMap]
    refine .object ?_ (List.forall_mem_map.mpr ih)
    have names : Entries.keys (fields.map fun f => (f.1, f.2.toJson)) = Entries.keys fields := by
      rw [Entries.keys, List.map_map]
      rfl
    rw [Entries.Distinct, names]
    exact distinct

theorem parsed {v : Value} (textual : v.Textual Json.deepest) : parse v.toJson.compact = .ok v := by
  rw [parse, Json.parseCompact textual.exact]
  exact congrArg Except.ok textual.back

end Textual

end Reshape.Value
