import Reshape.Proofs.Text.Digits
import Reshape.Proofs.Text.Padding
import Reshape.Reference.Basic
/-! The tokens of references: literals in quotes, digits and truth values, and paths, which are all
the other tokens. What a literal is written as is read as this literal again; what is no literal is
read as a path. A token has no blanks around it. -/
namespace Reshape.Reference
open Text

def Without (delimiters cs : List Char) : Prop :=
  ∀ d ∈ delimiters, d ∉ cs

instance (delimiters cs : List Char) : Decidable (Without delimiters cs) :=
  List.decidableBAll (· ∉ cs) delimiters

structure Token (delimiters cs : List Char) : Prop where
  trimmed : trim cs = cs
  plain : Without delimiters cs

def literalText : Value → List Char
  | .string s => '"' :: (s.toList ++ ['"'])
  | .number n => n.text.toList
  | .bool true => ['t', 'r', 'u', 'e']
  | .bool false => ['f', 'a', 'l', 's', 'e']
  | _ => []

inductive Literal (delimiters : List Char) : Value → Prop where
  | string {s : String} (filled : s ≠ "") (plain : Without delimiters s.toList) :
      Literal delimiters (.string s)
  | natural {n : Nat} (fits : (n : Int) ≤ Number.greatest64) : Literal delimiters (.ofNat n)
  | bool (b : Bool) : Literal delimiters (.bool b)

/- Quotes may hold quotes, and digits may write numbers that are too large for an integer. -/
inductive LiteralToken : List Char → Prop where
  | quoted {cs : List Char} (filled : cs ≠ []) : LiteralToken ('"' :: (cs ++ ['"']))
  | digits {cs : List Char} (filled : cs ≠ []) (each : ∀ c ∈ cs, isDigit c = true) : LiteralToken cs
  | bool (b : Bool) : LiteralToken (literalText (.bool b))

structure Path (delimiters : List Char) (path : String) : Prop where
  token : Token delimiters path.toList
  noLiteral : ¬ LiteralToken path.toList

theorem naturalText (n : Nat) : literalText (.ofNat n) = Nat.toDigits 10 n := by
  have natural : ¬ (n : Int) < 0 := by omega
  simp only [Value.ofNat, literalText, Number.text, String.toList_ofList, Number.intText,
    if_neg natural]
  rfl

def Separators (delimiters : List Char) : Prop :=
  delimiters ⊆ ['|', ':']

theorem barSeparates : Separators ['|'] := by
  simp [Separators]

theorem bothSeparate : Separators ['|', ':'] :=
  List.Subset.refl _

theorem Separators.visible {delimiters : List Char} (separators : Separators delimiters) {d : Char}
    (member : d ∈ delimiters) : isBlank d = false ∧ isDigit d = false ∧ d ≠ '"' := by
  have marks := separators member
  simp only [List.mem_cons, List.not_mem_nil, or_false] at marks
  obtain rfl | rfl := marks <;> decide

section Literals
variable {delimiters cs : List Char} {v : Value}

theorem digitsShown (filled : cs ≠ []) (each : ∀ c ∈ cs, isDigit c = true) :
    ¬ (3 ≤ cs.length ∧ cs.head? = some '"' ∧ cs.getLast? = some '"') ∧
    (!cs.isEmpty && cs.all isDigit) = true := by
  refine ⟨fun quoted => ?_, ?_⟩
  · have digit := each '"' (List.mem_of_mem_head? quoted.2.1)
    cases digit
  · rw [List.isEmpty_eq_false_iff.mpr filled, List.all_eq_true.mpr each]
    rfl

theorem literalNatural {n : Nat} (fits : (n : Int) ≤ Number.greatest64) :
    literal? (Nat.toDigits 10 n) = some (.ofNat n) := by
  obtain ⟨bare, digits⟩ :=
    digitsShown (digitsNotEmpty n) fun c member => digitsAreDigits member
  rw [literal?, if_neg bare, if_pos digits, naturalOfDigits, if_pos fits]

theorem literalQuoted (filled : cs ≠ []) :
    literal? ('"' :: (cs ++ ['"'])) = some (.string (String.ofList cs)) := by
  have long : 3 ≤ ('"' :: (cs ++ ['"'])).length := by
    have := List.length_pos_iff.mpr filled
    simp only [List.length_cons, List.length_append, List.length_nil]
    omega
  have last : ('"' :: (cs ++ ['"'])).getLast? = some '"' := by
    rw [← List.cons_append, List.getLast?_concat]
  rw [literal?, if_pos ⟨long, rfl, last⟩, List.tail_cons, List.dropLast_concat]

theorem Literal.reads (literal : Literal delimiters v) : literal? (literalText v) = some v := by
  cases literal with
  | string filled _ =>
    have letters : ∀ s : String, s ≠ "" → s.toList ≠ [] := fun s filled empty =>
      filled (String.toList_inj.mp empty)
    rw [literalText, literalQuoted (letters _ filled), String.ofList_toList]
  | natural fits => rw [naturalText, literalNatural fits]
  | bool b => cases b <;> rfl

theorem Literal.trimmed (literal : Literal delimiters v) : trim (literalText v) = literalText v := by
  cases literal with
  | string _ _ => exact trimVisible (by decide) (by decide) _
  | natural _ =>
    rw [naturalText]
    exact trimNoBlanks fun c member => digitNotBlank (digitsAreDigits member)
  | bool b => cases b <;> decide

theorem Literal.plainText (separators : Separators delimiters) (literal : Literal delimiters v) :
    Without delimiters (literalText v) := by
  intro d member
  obtain ⟨_, noDigit, noQuote⟩ := separators.visible member
  have marks := separators member
  cases literal with
  | string _ plain => simpa [literalText, noQuote] using plain d member
  | natural _ =>
    rw [naturalText]
    intro digit
    rw [digitsAreDigits digit] at noDigit
    cases noDigit
  | bool b =>
    simp only [List.mem_cons, List.not_mem_nil, or_false] at marks
    obtain rfl | rfl := marks <;> cases b <;> decide

theorem Literal.token (separators : Separators delimiters) (literal : Literal delimiters v) :
    Token delimiters (literalText v) :=
  ⟨literal.trimmed, literal.plainText separators⟩

theorem literalToken (found : literal? cs = some v) : LiteralToken cs := by
  unfold literal? at found
  split at found
  · rename_i quoted
    obtain ⟨long, first, last⟩ := quoted
    obtain ⟨rest, rfl⟩ := List.head?_eq_some_iff.mp first
    obtain ⟨front, split⟩ := List.getLast?_eq_some_iff.mp last
    cases front with
    | nil =>
      rw [split] at long
      contradiction
    | cons c inner =>
      rw [List.cons_append] at split
      obtain ⟨rfl, rfl⟩ := List.cons.inj split
      refine .quoted ?_
      rintro rfl
      contradiction
  · split at found
    · rename_i written
      obtain ⟨filled, digits⟩ := Bool.and_eq_true_iff.mp written
      refine .digits ?_ (List.all_eq_true.mp digits)
      rintro rfl
      contradiction
    · split at found
      · rename_i same
        exact same ▸ .bool true
      · split at found
        · rename_i same
          exact same ▸ .bool false
        · cases found

theorem LiteralToken.reads (literal : LiteralToken cs) : ∃ v, literal? cs = some v := by
  cases literal with
  | quoted filled => exact ⟨_, literalQuoted filled⟩
  | digits filled each =>
    obtain ⟨bare, digits⟩ := digitsShown filled each
    rw [literal?, if_neg bare, if_pos digits]
    dsimp only
    split
    · exact ⟨_, rfl⟩
    · split <;> exact ⟨_, rfl⟩
  | bool b => cases b <;> exact ⟨_, rfl⟩

theorem noLiteral : literal? cs = none ↔ ¬ LiteralToken cs := by
  constructor
  · intro missing literal
    obtain ⟨v, found⟩ := literal.reads
    rw [missing] at found
    cases found
  · intro other
    cases found : literal? cs with
    | none => rfl
    | some v => exact absurd (literalToken found) other

end Literals

def targetText : Target → List Char
  | .spread => ['.', '.', '.']
  | .literal v => literalText v
  | .path path => path.toList

def paramText : Param → List Char
  | .literal v => literalText v
  | .path path => path.toList

inductive TargetToken (delimiters : List Char) : Target → Prop where
  | spread : TargetToken delimiters .spread
  | literal {v : Value} (literal : Literal delimiters v) : TargetToken delimiters (.literal v)
  | path {name : String} (path : Path delimiters name) (other : name.toList ≠ ['.', '.', '.']) :
      TargetToken delimiters (.path name)

inductive ParamToken (delimiters : List Char) : Param → Prop where
  | literal {v : Value} (literal : Literal delimiters v) : ParamToken delimiters (.literal v)
  | path {name : String} (path : Path delimiters name) : ParamToken delimiters (.path name)

section Tokens
variable {delimiters : List Char}

theorem TargetToken.reads {t : Target} (target : TargetToken delimiters t) :
    readTarget (targetText t) = t := by
  cases target with
  | spread => rfl
  | @literal v literal =>
    have read := literal.reads
    have other : literalText v ≠ ['.', '.', '.'] := by
      intro same
      rw [same] at read
      cases read
    rw [targetText, readTarget, if_neg other, read]
  | path path other =>
    rw [targetText, readTarget, if_neg other, noLiteral.mpr path.noLiteral, String.ofList_toList]

theorem TargetToken.token (separators : Separators delimiters) {t : Target}
    (target : TargetToken delimiters t) : Token delimiters (targetText t) := by
  cases target with
  | spread =>
    refine ⟨by decide, fun d member => ?_⟩
    have marks := separators member
    simp only [List.mem_cons, List.not_mem_nil, or_false] at marks
    obtain rfl | rfl := marks <;> decide
  | literal literal => exact literal.token separators
  | path path _ => exact path.token

theorem ParamToken.reads {p : Param} (param : ParamToken delimiters p) :
    readParam (paramText p) = p := by
  cases param with
  | literal literal => rw [paramText, readParam, literal.reads]
  | path path => rw [paramText, readParam, noLiteral.mpr path.noLiteral, String.ofList_toList]

theorem ParamToken.token (separators : Separators delimiters) {p : Param}
    (param : ParamToken delimiters p) : Token delimiters (paramText p) := by
  cases param with
  | literal literal => exact literal.token separators
  | path path => exact path.token

end Tokens

end Reshape.Reference
