import Reshape.Proofs.Value.Strings
import Reshape.Proofs.Value.Textual
/-! The JSON views of a value: its text as it is written directly, the document, and what the document
is as a value. All of them show the same tree. Only marks are gone: a date is its text, and a
projected record is a record with the same entries. -/
namespace Reshape

namespace Value

mutual

def unmarked : Value → Value
  | .null => .null
  | .bool b => .bool b
  | .number n => .number n
  | .string s => .string s
  | .date t => .string t.text
  | .array items => .array (itemsUnmarked items)
  | .record fields => .record (fieldsUnmarked fields)
  | .projected fields => .record (fieldsUnmarked fields)

def itemsUnmarked : List Value → List Value
  | [] => []
  | v :: rest => v.unmarked :: itemsUnmarked rest

def fieldsUnmarked : List (String × Value) → List (String × Value)
  | [] => []
  | f :: rest => (f.1, f.2.unmarked) :: fieldsUnmarked rest

end

def MarkFree (v : Value) : Prop :=
  ∀ path u, Within u path v → ¬ u.Marked

def at? (v : Value) : List Key → Option Value
  | [] => some v
  | .root :: _ => none
  | .field name :: path => (v.fields?.bind (Entries.get? · name)).bind (·.at? path)
  | .index i :: path => (v.items?.bind (·[i]?)).bind (·.at? path)

def namesAt? (v : Value) (path : List Key) : Option (List String) :=
  (v.at? path).bind fun w => w.fields?.map Entries.keys

end Value

namespace Json

def at? (j : Json) : List Key → Option Json
  | [] => some j
  | .root :: _ => none
  | .field name :: path => (j.asObject?.bind (Entries.get? · name)).bind (·.at? path)
  | .index i :: path => (j.asArray?.bind (·[i]?)).bind (·.at? path)

def namesAt? (j : Json) (path : List Key) : Option (List String) :=
  (j.at? path).bind fun here => here.asObject?.map Entries.keys

end Json

namespace Value

mutual

theorem writtenAsDocument : (v : Value) → v.write = v.toJson.render
  | .null => rfl
  | .bool true => rfl
  | .bool false => rfl
  | .number _ => rfl
  | .string _ => rfl
  | .date _ => rfl
  | .array [] => rfl
  | .array (v :: rest) => by
    rw [write, toJson, itemsToJson, Json.render, writtenAsDocument v, itemsWritten rest]
  | .record [] => rfl
  | .record (f :: rest) => by
    rw [write, toJson, fieldsToJson, Json.render, writtenAsDocument f.2, fieldsWritten rest]
  | .projected [] => rfl
  | .projected (f :: rest) => by
    rw [write, toJson, fieldsToJson, Json.render, writtenAsDocument f.2, fieldsWritten rest]

theorem itemsWritten : (items : List Value) → writeItems items = Json.renderItems (itemsToJson items)
  | [] => rfl
  | v :: rest => by
    rw [writeItems, itemsToJson, Json.renderItems, writtenAsDocument v, itemsWritten rest]

theorem fieldsWritten :
    (fields : List (String × Value)) → writeFields fields = Json.renderMembers (fieldsToJson fields)
  | [] => rfl
  | f :: rest => by
    rw [writeFields, fieldsToJson, Json.renderMembers, writtenAsDocument f.2, fieldsWritten rest]

end

mutual

theorem documentRead : (v : Value) → ofJson v.toJson = v.unmarked
  | .null => rfl
  | .bool _ => rfl
  | .number _ => rfl
  | .string _ => rfl
  | .date _ => rfl
  | .array items => by rw [toJson, ofJson, unmarked, itemsRead items]
  | .record fields => by rw [toJson, ofJson, unmarked, fieldsRead fields]
  | .projected fields => by rw [toJson, ofJson, unmarked, fieldsRead fields]

theorem itemsRead : (items : List Value) → itemsOfJson (itemsToJson items) = itemsUnmarked items
  | [] => rfl
  | v :: rest => by rw [itemsToJson, itemsOfJson, itemsUnmarked, documentRead v, itemsRead rest]

theorem fieldsRead :
    (fields : List (String × Value)) → fieldsOfJson (fieldsToJson fields) = fieldsUnmarked fields
  | [] => rfl
  | f :: rest => by rw [fieldsToJson, fieldsOfJson, fieldsUnmarked, documentRead f.2, fieldsRead rest]

end

mutual

theorem documentKept : (j : Json) → (ofJson j).toJson = j
  | .null => rfl
  | .bool _ => rfl
  | .number _ => rfl
  | .string _ => rfl
  | .array items => by rw [ofJson, toJson, itemsKept items]
  | .object members => by rw [ofJson, toJson, membersKept members]

theorem itemsKept : (items : List Json) → itemsToJson (itemsOfJson items) = items
  | [] => rfl
  | j :: rest => by rw [itemsOfJson, itemsToJson, documentKept j, itemsKept rest]

theorem membersKept : (members : List (String × Json)) → fieldsToJson (fieldsOfJson members) = members
  | [] => rfl
  | m :: rest => by rw [fieldsOfJson, fieldsToJson, documentKept m.2, membersKept rest]

end

theorem markFreeArray {items : List Value} : (array items).MarkFree ↔ ∀ v ∈ items, v.MarkFree := by
  constructor
  · intro free v member path u inside
    obtain ⟨i, place⟩ := List.mem_iff_getElem?.mp member
    exact free _ u (.item place inside)
  · intro each path u inside
    cases inside with
    | here => nofun
    | item place inside => exact each _ (List.mem_of_getElem? place) _ u inside

theorem markFreeRecord {fields : List (String × Value)} :
    (record fields).MarkFree ↔ ∀ f ∈ fields, f.2.MarkFree := by
  constructor
  · intro free f member path u inside
    exact free _ u (.field member inside)
  · intro each path u inside
    cases inside with
    | here => nofun
    | field member inside => exact each _ member _ u inside

theorem markFreeScalar {v : Value} (unmarked : ¬ v.Marked) (scalar : v.items? = none)
    (noRecord : v.fields? = none) : v.MarkFree := by
  intro path u inside
  cases inside with
  | here => exact unmarked
  | item => cases scalar
  | field => cases noRecord

theorem Marked.notFree {v : Value} (marked : v.Marked) : ¬ v.MarkFree :=
  fun free => free [] v .here marked

mutual

theorem unmarkedItself : (v : Value) → (v.unmarked = v ↔ v.MarkFree)
  | .null => iff_of_true rfl (markFreeScalar nofun rfl rfl)
  | .bool _ => iff_of_true rfl (markFreeScalar nofun rfl rfl)
  | .number _ => iff_of_true rfl (markFreeScalar nofun rfl rfl)
  | .string _ => iff_of_true rfl (markFreeScalar nofun rfl rfl)
  | .date t => iff_of_false nofun (Marked.date t).notFree
  | .projected fields => iff_of_false nofun (Marked.projected fields).notFree
  | .array items => by
    rw [unmarked, markFreeArray, array.injEq]
    exact itemsThemselves items
  | .record fields => by
    rw [unmarked, markFreeRecord, record.injEq]
    exact fieldsThemselves fields

theorem itemsThemselves :
    (items : List Value) → (itemsUnmarked items = items ↔ ∀ v ∈ items, v.MarkFree)
  | [] => iff_of_true rfl nofun
  | v :: rest => by
    rw [itemsUnmarked, List.cons.injEq, List.forall_mem_cons, unmarkedItself v, itemsThemselves rest]

theorem fieldsThemselves :
    (fields : List (String × Value)) → (fieldsUnmarked fields = fields ↔ ∀ f ∈ fields, f.2.MarkFree)
  | [] => iff_of_true rfl nofun
  | (name, v) :: rest => by
    rw [fieldsUnmarked, List.cons.injEq, List.forall_mem_cons, Prod.mk.injEq, unmarkedItself v,
      fieldsThemselves rest]
    exact and_congr_left fun _ => and_iff_right rfl

end

theorem toJsonFields (v : Value) :
    v.toJson.asObject? = v.fields?.map fun fields => fields.map fun f => (f.1, f.2.toJson) := by
  cases v with
  | record fields => rw [toJson, fieldsToJsonMap]; rfl
  | projected fields => rw [toJson, fieldsToJsonMap]; rfl
  | _ => rfl

theorem toJsonItems (v : Value) : v.toJson.asArray? = v.items?.map (List.map toJson) := by
  cases v with
  | array items => rw [toJson, itemsToJsonMap]; rfl
  | _ => rfl

theorem toJsonAt (v : Value) (path : List Key) : v.toJson.at? path = (v.at? path).map toJson := by
  induction path generalizing v with
  | nil => rfl
  | cons key path ih =>
    cases key with
    | root => rfl
    | field name =>
      rw [Json.at?, at?, toJsonFields]
      cases v.fields? with
      | none => rfl
      | some fields =>
        simp only [Option.map_some, Option.bind_some, Entries.get?MapValues]
        cases Entries.get? fields name with
        | none => rfl
        | some w => exact ih w
    | index i =>
      rw [Json.at?, at?, toJsonItems]
      cases v.items? with
      | none => rfl
      | some items =>
        simp only [Option.map_some, Option.bind_some, List.getElem?_map]
        cases items[i]? with
        | none => rfl
        | some w => exact ih w

theorem namesOfDocument (v : Value) (path : List Key) : v.toJson.namesAt? path = v.namesAt? path := by
  rw [Json.namesAt?, namesAt?, toJsonAt]
  cases v.at? path with
  | none => rfl
  | some w =>
    change w.toJson.asObject?.map Entries.keys = w.fields?.map Entries.keys
    rw [toJsonFields, Option.map_map]
    exact congrArg (Option.map · w.fields?) (funext fun fields => Entries.keysMapValues toJson fields)

theorem jsonViewsAgree (v : Value) :
    v.serialized = v.toJson.compact ∧
    ofJson v.toJson = v.unmarked ∧
    (ofJson v.toJson = v ↔ v.MarkFree) ∧
    (ofJson v.toJson).toJson = v.toJson ∧
    ∀ path, v.toJson.namesAt? path = v.namesAt? path ∧
      (ofJson v.toJson).namesAt? path = v.namesAt? path := by
  have back := documentKept v.toJson
  refine ⟨congrArg String.ofList (writtenAsDocument v), documentRead v, ?_, back, fun path => ?_⟩
  · rw [documentRead]
    exact unmarkedItself v
  · have shown := namesOfDocument (ofJson v.toJson) path
    rw [back] at shown
    exact ⟨namesOfDocument v path, shown.symm.trans (namesOfDocument v path)⟩

end Value
end Reshape
