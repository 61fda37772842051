import Reshape.Value.Basic
/-! Scopes of variables and dotted look-up. Callbacks are symbols of a type `F` that the host gives
a meaning; here they are only stored and found. Functions and deferred values end a path. -/
namespace Reshape

/-- A callback. The result of a closure is normalized, the result of a direct one is not. -/
inductive ContextFn (F : Type) where
  | closure (symbol : F)
  | direct (symbol : F)
  deriving DecidableEq, Repr

/-- A value that readers wait for. All copies of one number settle together. -/
structure Deferred where
  id : Nat
  value : Value
  deriving Repr

inductive Variable (F : Type) where
  | value (content : Value)
  | function (fn : ContextFn F)
  | deferred (content : Deferred)
  | scope (entries : List (String × Variable F))
  deriving Repr

abbrev Scope (F : Type) := Entries (Variable F)

variable {F : Type}

namespace Variable

def isFunction : Variable F → Bool
  | .function _ => true
  | _ => false

def asValue? : Variable F → Option Value
  | .value v => some v
  | _ => none

def child? : Variable F → String → Option (Variable F)
  | .scope entries, segment => Entries.get? entries segment
  | .value v, segment => (v.get? segment).map .value
  | _, _ => none

def walk (x : Variable F) : List String → Option (Variable F)
  | [] => some x
  | segment :: rest => (x.child? segment).bind (·.walk rest)

end Variable

namespace Scope

def lookup? (s : Scope F) (path : String) : Option (Variable F) :=
  match Value.segments path with
  | [] => none
  | first :: rest => (Entries.get? s first).bind (·.walk rest)

def fields : List (String × Variable F) → List (String × Value)
  | [] => []
  | (name, .value v) :: rest => (name, v) :: fields rest
  | (name, .scope inner) :: rest => (name, .record (fields inner)) :: fields rest
  | (_, .function _) :: rest => fields rest
  | (_, .deferred _) :: rest => fields rest

def toValue (s : Scope F) : Value :=
  .record (fields s)

def ofFields (fs : Entries Value) : Scope F :=
  fs.map fun f => (f.1, .value f.2)

def ofValue : Value → Scope F
  | .record fs => ofFields fs
  | _ => []

end Scope
end Reshape
