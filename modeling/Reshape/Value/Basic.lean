import Reshape.Calendar.Reader
import Reshape.Entries
import Reshape.Text.Basic
/-! The values that projections read and produce: JSON values, dates, and records that a projection
has assembled. The last are records for every reader; the mark only says that their contents are
final. Names of a record are distinct in every value built through `Entries`. Read as dates, numbers
are milliseconds since 1970; a fraction of a millisecond is cut off, and what is no date is absent. -/
namespace Reshape

inductive Value where
  | null
  | bool (value : Bool)
  | number (value : Number)
  | string (text : String)
  | date (instant : Instant)
  | array (items : List Value)
  | record (fields : List (String × Value))
  | projected (fields : List (String × Value))
  deriving Repr, Inhabited

namespace Value

def ofNat (n : Nat) : Value :=
  .number (.int n)

def ofInt (i : Int) : Value :=
  .number (.int i)

/-- Null, false, zero and the empty string are falsy; containers and dates never are. -/
def isTruthy : Value → Bool
  | .null => false
  | .bool b => b
  | .number n => !n.isZero
  | .string s => s ≠ ""
  | _ => true

def isNull : Value → Bool
  | .null => true
  | _ => false

def isProjected : Value → Bool
  | .projected _ => true
  | _ => false

def isStructured : Value → Bool
  | .record _ | .projected _ | .array _ | .date _ => true
  | _ => false

def fields? : Value → Option (Entries Value)
  | .record fs | .projected fs => some fs
  | _ => none

def items? : Value → Option (List Value)
  | .array items => some items
  | _ => none

def entries (v : Value) : Entries Value :=
  v.fields?.getD []

mutual

/-- A projected record, or a list with items that has nothing else in it. -/
def isOutput : Value → Bool
  | .projected _ => true
  | .array [] => false
  | .array (item :: rest) => isOutput item && allOutput rest
  | _ => false

def allOutput : List Value → Bool
  | [] => true
  | item :: rest => isOutput item && allOutput rest

end

def typeName : Value → String
  | .null => "null"
  | .bool _ => "boolean"
  | .number _ => "number"
  | .string _ => "string"
  | .date _ => "date"
  | .array _ => "array"
  | .record _ => "object"
  | .projected _ => "projected"

def position? (key : String) : Option Nat :=
  let digits := match key.toList with
    | '+' :: rest => rest
    | cs => cs
  if digits.isEmpty || !digits.all Text.isDigit then none
  else
    let n := Text.naturalOf digits
    if n < Nat.pow 2 64 then some n else none

def get? : Value → String → Option Value
  | .record fs, key | .projected fs, key => Entries.get? fs key
  | .array items, key => (position? key).bind (items[·]?)
  | _, _ => none

def walk (v : Value) : List String → Option Value
  | [] => some v
  | segment :: rest => (v.get? segment).bind (·.walk rest)

def segments (path : String) : List String :=
  (Text.splitAt '.' path.toList).map String.ofList

def path? (v : Value) (path : String) : Option Value :=
  v.walk (segments path)

def asInt64? : Value → Option Int
  | .number n => n.asInt64?
  | _ => none

def asBinary64? : Value → Option Binary64
  | .number n => n.asBinary64?
  | _ => none

mutual

/-- Equality of contents: the order of fields and the sign of zero do not count. -/
def same : Value → Value → Bool
  | .null, .null => true
  | .bool a, .bool b => a = b
  | .number a, .number b => a.same b
  | .string a, .string b => a = b
  | .date a, .date b => a = b
  | .array as, .array bs => sameItems as bs
  | .record as, .record bs => as.length = bs.length && sameFields as bs
  | .projected as, .projected bs => as.length = bs.length && sameFields as bs
  | _, _ => false

def sameItems : List Value → List Value → Bool
  | [], [] => true
  | a :: as, b :: bs => same a b && sameItems as bs
  | _, _ => false

def sameFields : List (String × Value) → List (String × Value) → Bool
  | [], _ => true
  | a :: as, bs =>
    (match Entries.get? bs a.1 with
      | some b => same a.2 b
      | none => false) && sameFields as bs

end

def clamp64 (i : Int) : Int :=
  max Number.least64 (min Number.greatest64 i)

def millis? (n : Number) : Option Int :=
  n.asInt64? <|> n.asBinary64?.map fun x => clamp64 x.truncate

def toDate? (v : Value) : Option Instant :=
  if !v.isTruthy then none
  else match v with
    | .date t => some t
    | .number n => (millis? n).bind Instant.ofMillis?
    | .string s => Calendar.read? s
    | _ => none

end Value
end Reshape
