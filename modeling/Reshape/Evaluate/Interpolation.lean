import Reshape.Evaluate.Invocation
import Reshape.Reference.Basic
import Reshape.Value.Json
/-! Substituting references in resolved values. A string that is one reference becomes the value it
resolves to; references inside longer text are replaced one after the other by text. Plain records
and lists are walked, projected records and dates are left alone. -/
namespace Reshape.Evaluate
variable {F : Type} (apply : Apply F)

def callForValue (c : Context F) (fn : ContextFn F) : Run F (Option Value) := do
  let computed ← fn.run .variable c
  computed.value? c fun p => p.applyIn apply c.currentOrNull c.instanceScope c

def resolvePath (c : Context F) (path : String) : Run F (Option Value) :=
  match c.lookup? path with
  | none => .pure none
  | some (.value v) => .pure (some v)
  | some (.scope inner) => .pure (some (Scope.toValue inner))
  | some (.deferred d) => do return some (← Run.settle d)
  | some (.function fn) => callForValue apply c fn

/-- Falsy results of functions count as nothing; falsy values do not. -/
def resolveTarget (c : Context F) : Target → Run F (Option Value)
  | .spread => .pure (c.instanceScope.map Scope.toValue)
  | .literal v => .pure (some v)
  | .path path => do
    let found ← resolvePath apply c path
    match c.lookup? path with
    | some (.function _) => return found.filter Value.isTruthy
    | _ => return found

def resolveParam (c : Context F) : Param → Run F Value
  | .literal v => .pure v
  | .path path => do return (← resolvePath apply c path).getD .null

def findPipe (c : Context F) (name : String) : Except Error (ContextFn F) :=
  match c.lookup? name with
  | some (.function fn) => .ok fn
  | none => .error (.pipeNotFound name)
  | some (.value v) =>
    .error (if v.isTruthy then .pipeNotCallable name else .pipeNotFound name)
  | some _ => .error (.pipeNotCallable name)

def applyPipes (c : Context F) : Value → List PipeCall → Run F (Option Value)
  | v, [] => .pure (some v)
  | v, pipe :: rest => do
    let fn ← Run.ofExcept (findPipe c pipe.name)
    let params ← Run.gather (pipe.params.map (resolveParam apply c))
    let computed ← fn.run .pipe (c.withData v (if params.isEmpty then none else some params))
    let next ← computed.revise v fun p => p.applyIn apply v c.instanceScope c
    match next with
    | some w => applyPipes c w rest
    | none => return none

/-- The first alternative whose target gives a value is taken, whatever its pipes do. -/
def resolveAlternatives (c : Context F) : List Alternative → Run F (Option Value)
  | [] => .pure none
  | a :: rest => do
    match ← resolveTarget apply c a.target with
    | some v => applyPipes apply c v a.pipes
    | none => resolveAlternatives c rest

def resolve (c : Context F) (r : Reference) : Run F (Option Value) :=
  resolveAlternatives apply c r.alternatives

def undefinedText : String := "undefined"

def replacement : Option Value → List Char
  | some v => v.display.toList
  | none => undefinedText.toList

/-- Each reference in turn is replaced where its text first stands in what the text has become. -/
def replaceAll (c : Context F) : List (List Char) → List Char → Run F (List Char)
  | [], text => .pure text
  | r :: rest, text => do
    let v ← resolve apply c (Reference.parseChars r)
    replaceAll c rest (Reference.replaceFirst r (replacement v) text)

def interpolateString (c : Context F) (s : String) : Run F (Option Value) :=
  let text := s.toList
  match Reference.find text with
  | [] => .pure (some (.string s))
  | found =>
    if Reference.isWhole text then resolve apply c (Reference.parseChars text)
    else do
      let replaced ← replaceAll apply c found text
      return some (.string (String.ofList replaced))

mutual

def interpolate (c : Context F) : Value → Run F (Option Value)
  | .string s => interpolateString apply c s
  | .array items => do return some (.array (← interpolateItems c items))
  | .record fs => do return some (.record (← interpolateFields c fs))
  | v => .pure (some v)

def interpolateItems (c : Context F) : List Value → Run F (List Value)
  | [] => .pure []
  | v :: rest => do
    let item ← interpolate c v
    let items ← interpolateItems c rest
    return item.getD .null :: items

def interpolateFields (c : Context F) :
    List (String × Value) → Run F (List (String × Value))
  | [] => .pure []
  | f :: rest => do
    let field ← interpolate c f.2
    let fields ← interpolateFields c rest
    return match field with
      | some v => (f.1, v) :: fields
      | none => fields

end

end Reshape.Evaluate
