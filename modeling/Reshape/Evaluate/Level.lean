import Reshape.Evaluate.Record
import Reshape.Value.Json
/-! Evaluating invocations, level by level. Falsy data gives nothing before any limit is looked at;
string data is read as JSON if the engine says so; lists of structured items, and all lists under
`@array`, are evaluated item by item. A list projection pairs items with slots by position; on data
that is no list its slots read positions. -/
namespace Reshape.Evaluate
variable {F : Type}

section Lists
variable (apply : Apply F)

def lengthWarning (items slots : Nat) : String :=
  "Data and projection length do not match (" ++ toString items ++ " items, " ++ toString slots ++
    " projections)"

def item (inv : Invocation F) (base : Context F) (index : Nat) (projection : Projection F)
    (data : Value) : Run F (Option Value) :=
  apply (inv.nested projection (base.atKey (.index index))) data

def present (results : List (Option Value)) : List Value :=
  results.filterMap dropNull

def paired (inv : Invocation F) (base : Context F) (items : List Value)
    (slots : List (Projection F)) : List (Run F (Option Value)) :=
  (items.zip slots).zipIdx.map fun ((data, slot), index) => item apply inv base index slot data

def broadcast (inv : Invocation F) (base : Context F) (items : List Value) :
    List (Run F (Option Value)) :=
  (items.zipIdx.filter (·.1.isStructured)).map fun (data, index) =>
    item apply inv base index inv.projection data

def items (config : Config) (inv : Invocation F) (base : Context F) (data : List Value) :
    Run F Value := do
  match inv.projection with
  | .list slots =>
    if data.length ≠ slots.length && config.warnOnLengths then
      Run.warning (lengthWarning data.length slots.length)
    return .array (present (← Run.gather (paired apply inv base data slots)))
  | .object _ _ => return .array (present (← Run.gather (broadcast apply inv base data)))

def slots (transformers : List (Transformer F)) (inv : Invocation F) (base : Context F)
    (slots : List (Projection F)) : Run F Value := do
  let jobs := slots.zipIdx.map fun (slot, index) =>
    field apply transformers inv (base.atKey (.field (toString index))) (.nested slot)
  return .array ((← Run.gather jobs).filterMap id)

end Lists

def readData (config : Config) (data : Value) : Except Error Value :=
  match data with
  | .string raw => if config.parseStrings then Value.parse raw else .ok data
  | _ => .ok data

def baseContext (inv : Invocation F) (global : Scope F) (data : Value) : Context F :=
  { scope :=
      Context.merge data global inv.projectionScope inv.instanceScope inv.parent
    data
    key := .root
    projection := inv.projection
    projectionScope := inv.projectionScope
    instanceScope := inv.instanceScope
    parent := inv.parent
    params := none
    depth := inv.depth }

def itemwise? (projection : Projection F) (data : Value) : Option (List Value) :=
  match data.items? with
  | some items =>
    if projection.isArray || items.all Value.isStructured then some items else none
  | none => none

def level (engine : Engine F) (apply : Apply F) (inv : Invocation F) (base : Context F)
    (data : Value) : Run F Value :=
  match itemwise? inv.projection data with
  | some xs => items apply engine.config inv base xs
  | none =>
    match inv.projection with
    | .object fields directives => record apply engine.transformers inv base fields directives
    | .list ps => slots apply engine.transformers inv base ps

def step (engine : Engine F) (apply : Apply F) (inv : Invocation F) (data : Value) :
    Run F (Option Value) := do
  if !data.isTruthy then return none
  if engine.limit < inv.depth then Run.fail (.recursionLimit inv.depth engine.limit)
  let data ← Run.ofExcept (readData engine.config data)
  if !data.isTruthy then return none
  let global ← Run.globalScope inv.engine
  return some (← level engine apply inv (baseContext inv global data) data)

/-- Evaluation with room for so many levels. Below the last one every limit has been passed, so
there `step` asks for nothing further. -/
def within (engines : Engines F) : Nat → Apply F
  | 0 => fun inv data => step (engines.get inv.engine) (fun _ _ => .pure none) inv data
  | room + 1 => fun inv data => step (engines.get inv.engine) (within engines room) inv data

end Reshape.Evaluate
