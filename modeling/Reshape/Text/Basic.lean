/-! Characters and cutting. Blank means Unicode's White_Space property, so trimming here also removes
the no-break and ideographic spaces; digits are those of ASCII only. A text with `n` separators has
`n + 1` pieces, and the pieces joined by the separator are the text. -/
namespace Reshape.Text

def isBlank (c : Char) : Bool :=
  let n := c.toNat
  (9 ≤ n && n ≤ 13) || n == 0x20 || n == 0x85 || n == 0xA0 || n == 0x1680 ||
    (0x2000 ≤ n && n ≤ 0x200A) || n == 0x2028 || n == 0x2029 || n == 0x202F ||
    n == 0x205F || n == 0x3000

def trimStart (cs : List Char) : List Char :=
  cs.dropWhile isBlank

def trimEnd (cs : List Char) : List Char :=
  (cs.reverse.dropWhile isBlank).reverse

def trim (cs : List Char) : List Char :=
  trimEnd (trimStart cs)

theorem trimStartCons (c : Char) (cs : List Char) :
    trimStart (c :: cs) = if isBlank c then trimStart cs else c :: cs := by
  unfold trimStart
  rw [List.dropWhile_cons]

def isDigit (c : Char) : Bool :=
  '0' ≤ c && c ≤ '9'

def digitValue (c : Char) : Nat :=
  c.toNat - '0'.toNat

def naturalOf (digits : List Char) : Nat :=
  digits.foldl (fun n c => n * 10 + digitValue c) 0

def extendFirst (c : Char) : List (List Char) → List (List Char)
  | [] => [[c]]
  | piece :: rest => (c :: piece) :: rest

def splitAt (sep : Char) : List Char → List (List Char)
  | [] => [[]]
  | c :: rest => if c = sep then [] :: splitAt sep rest else extendFirst c (splitAt sep rest)

/-- Cut at every pair `sep sep`, leftmost pairs first: of three in a row the third is text. -/
def splitAtPair (sep : Char) : List Char → List (List Char)
  | [] => [[]]
  | [c] => [[c]]
  | c :: d :: rest =>
    if c = sep ∧ d = sep then [] :: splitAtPair sep rest
    else extendFirst c (splitAtPair sep (d :: rest))

theorem splitAtNotEmpty (sep : Char) (cs : List Char) : splitAt sep cs ≠ [] := by
  cases cs with
  | nil => simp [splitAt]
  | cons c rest =>
    unfold splitAt
    split
    · simp
    · cases splitAt sep rest <;> simp [extendFirst]

theorem splitAtPairNotEmpty (sep : Char) (cs : List Char) : splitAtPair sep cs ≠ [] := by
  fun_cases splitAtPair sep cs with
  | case1 => simp
  | case2 => simp
  | case3 => simp
  | case4 => cases splitAtPair sep _ <;> simp [extendFirst]

end Reshape.Text
