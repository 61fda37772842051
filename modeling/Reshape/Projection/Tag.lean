/-! Type tags. A tag names the declared type of a field; the bare ones are exact words. The list tag
`array<...>` is found at the start of a text in any case of letters and reaches to the last closing
angle bracket of the first line; what follows it is not kept. -/
namespace Reshape

inductive TypeTag where
  | string
  | number
  | boolean
  | date
  | object
  | array
  | undefined
  | any
  | unknown
  | arrayOf (inner : String)
  deriving DecidableEq, Repr

namespace TypeTag

def bare : List (String × TypeTag) :=
  [("string", .string), ("number", .number), ("boolean", .boolean), ("date", .date),
   ("object", .object), ("array", .array), ("undefined", .undefined), ("any", .any),
   ("unknown", .unknown)]

def opening : List Char :=
  ['a', 'r', 'r', 'a', 'y', '<']

def beforeLastBracket? (line : List Char) : Option (List Char) :=
  match line.reverse.dropWhile (· ≠ '>') with
  | [] => none
  | _ :: front => some front.reverse

def inner? (cs : List Char) : Option (List Char) :=
  if (cs.take opening.length).map Char.toLower = opening then
    match beforeLastBracket? ((cs.drop opening.length).takeWhile (· ≠ '\n')) with
    | some (c :: rest) => some (c :: rest)
    | _ => none
  else none

def parse? (text : String) : Option TypeTag :=
  match bare.find? (·.1 = text) with
  | some (_, tag) => some tag
  | none => (inner? text.toList).map fun cs => .arrayOf (String.ofList cs)

def name : TypeTag → String
  | .string => "string"
  | .number => "number"
  | .boolean => "boolean"
  | .date => "date"
  | .object => "object"
  | .array => "array"
  | .undefined => "undefined"
  | .any => "any"
  | .unknown => "unknown"
  | .arrayOf inner => "array<" ++ inner ++ ">"

end TypeTag
end Reshape
