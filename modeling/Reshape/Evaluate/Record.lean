import Reshape.Evaluate.Interpolation
/-! Records. A field has a raw value, which goes through the transformers of the engine, and
references last; what a projection gave is final and skips both, and null and nothing mean that the
field is absent. Fields and directives contribute entries independently; the record takes the entries
of the fields first and those of the directives after them, in the order of declaration. -/
namespace Reshape.Evaluate
variable {F : Type} (apply : Apply F)

def transform (c : Context F) : List (Transformer F) → Value → Run F (Option Value)
  | [], v => .pure (some v)
  | t :: rest, v => do
    let here := c.withData v none
    if ← t.predicate.test .transformer here then
      let computed ← t.action.run .transformer here
      match ← computed.revise v fun p => p.applyIn apply v c.instanceScope here with
      | some w => transform c rest w
      | none => return none
    else transform c rest v

def projectCurrent (inv : Invocation F) (c : Context F) (p : Projector F) :
    Run F (Option Value) :=
  p.applyIn apply c.currentOrNull inv.instanceScope c

def rawValue (inv : Invocation F) (c : Context F) : Spec F → Run F (Option Value)
  | .typed .date => .pure ((c.current?.bind Value.toDate?).map .date)
  | .typed _ | .passthrough => .pure c.current?
  | .literal v => .pure (if v.isTruthy then some v else none)
  | .project p => projectCurrent apply inv c p
  | .function fn => do
    let computed ← fn.run .function c
    computed.value? c (projectCurrent apply inv c)
  | .deferred d => do return some (← Run.settle d)
  | .nested p =>
    match c.current? with
    | some data => if data.isTruthy then apply (inv.nested p c) data else .pure none
    | none => .pure none

def dropNull (v : Option Value) : Option Value :=
  v.filter fun v => !v.isNull

def refine (transformers : List (Transformer F)) (c : Context F) (raw : Value) :
    Run F (Option Value) := do
  match ← transform apply c transformers raw with
  | none => return none
  | some v =>
    if v.isOutput then return some v
    else return dropNull (← interpolate apply c v)

def field (transformers : List (Transformer F)) (inv : Invocation F) (c : Context F)
    (spec : Spec F) : Run F (Option Value) := do
  match dropNull (← rawValue apply inv c spec) with
  | none => return none
  | some raw =>
    if raw.isOutput || spec.isProjection then return some raw
    else refine apply transformers c raw

/-- Entries of what a function produced: falsy results have none, a projector is applied to all of
the data, and there is no current key to inherit from. -/
def computedEntries (inv : Invocation F) (c : Context F) : Computed F → Run F (Entries Value)
  | .value v => .pure (if v.isTruthy then v.entries else [])
  | .absent | .inherit => .pure []
  | .apply p => do
    match ← p.applyIn apply c.data inv.instanceScope c with
    | some v => return if v.isTruthy then v.entries else []
    | none => return []

def functionEntries (inv : Invocation F) (c : Context F) (fn : ContextFn F) :
    Run F (Entries Value) := do
  computedEntries apply inv c (← fn.run .function c)

def entriesOf : Option Value → Entries Value
  | some v => v.entries
  | none => []

def sourceEntries (inv : Invocation F) (c : Context F) : Source F → Run F (Entries Value)
  | .project p => do return entriesOf (← p.applyIn apply c.data inv.instanceScope c)
  | .inline p => do return entriesOf (← apply (inv.nested p c) c.data)
  | .compute fn => functionEntries apply inv c fn

def conditionEntries (inv : Invocation F) (c : Context F) (item : Condition F) :
    Run F (Entries Value) := do
  if ← item.predicate.test .predicate c then sourceEntries apply inv c item.source else return []

def directiveEntries (inv : Invocation F) (base : Context F) (d : Directive F) :
    Run F (Entries Value) :=
  let c := base.atKey (.field d.key)
  match d with
  | .array => .pure []
  | .conditions items => do
    return (← Run.gather (items.map (conditionEntries apply inv c))).flatten
  | .combine _ fn => functionEntries apply inv c fn

def fieldEntries (transformers : List (Transformer F)) (inv : Invocation F) (base : Context F)
    (f : String × Spec F) : Run F (Entries Value) := do
  match ← field apply transformers inv (base.atKey (.field f.1)) f.2 with
  | some v => return [(f.1, v)]
  | none => return []

def assemble (contributions : List (Entries Value)) : Value :=
  .projected (Entries.ofList contributions.flatten)

def record (transformers : List (Transformer F)) (inv : Invocation F) (base : Context F)
    (fields : Entries (Spec F)) (directives : List (Directive F)) : Run F Value := do
  let parts := fields.map (fieldEntries apply transformers inv base) ++
    directives.map (directiveEntries apply inv base)
  return assemble (← Run.gather parts)

end Reshape.Evaluate
