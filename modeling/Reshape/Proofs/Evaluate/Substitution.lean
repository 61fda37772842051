import Reshape.Proofs.Reference.Replacing
import Reshape.Evaluate.Interpolation
import Reshape.Run.Eval
/-! What interpolating a longer text gives. All references are resolved in their order and then
replaced one after the other. The result is the text with every reference replaced at its own place
as long as no reference stands earlier in what is final by then; a replacement that spells a later
reference breaks this. -/
namespace Reshape.Evaluate
open Reference
variable {F : Type}

def substituted (lead : List Char) (pieces : List (List Char × List Char))
    (values : List (Option Value)) : List Letter :=
  inTurn pieces (values.map replacement) (staying lead ++ marked pieces)

theorem replaceAllInTurn (apply : Apply F) (c : Context F)
    (pieces : List (List Char × List Char)) (ls : List Letter) :
    replaceAll apply c (pieces.map Prod.fst) (chars ls) = (do
      let values ← pieces.mapM fun piece => resolve apply c (parseChars piece.1)
      return chars (inTurn pieces (values.map replacement) ls)) := by
  induction pieces generalizing ls with
  | nil => rfl
  | cons piece pieces ih =>
    simp only [List.map_cons, replaceAll, List.mapM_cons, bind_assoc, pure_bind, inTurn]
    congr 1
    funext v
    rw [← charsReplaceLetters, ih]

theorem interpolateCut (apply : Apply F) (c : Context F) {text lead : List Char}
    {pieces : List (List Char × List Char)} (cut : Cut text lead pieces) (some : pieces ≠ [])
    (inner : ¬ IsReference text) :
    interpolateString apply c (String.ofList text) = (do
      let values ← pieces.mapM fun piece => resolve apply c (parseChars piece.1)
      return Option.some (.string (String.ofList (chars (substituted lead pieces values))))) := by
  have notWhole : isWhole text = false := by
    rw [← Bool.not_eq_true, wholeReference]
    exact inner
  have started := replaceAllInTurn apply c pieces (staying lead ++ marked pieces)
  rw [charsMarked, cut.text] at started
  obtain ⟨piece, rest, rfl⟩ := List.exists_cons_of_ne_nil some
  simp only [interpolateString, String.toList_ofList, findCut cut, List.map_cons, notWhole] at *
  simp only [started, Bool.false_eq_true, if_false, bind_assoc, pure_bind, substituted]

/- The marks say more than the text: a result that only happens to spell the text by place has
letters that wait. -/
theorem referencesReplacedInTurn (apply : Apply F) (c : Context F) {text r : List Char}
    (reference : IsReference r) (inside : r <:+: text) (inner : ¬ IsReference text) :
    (∃ lead pieces, Cut text lead pieces) ∧
    ∀ lead pieces, Cut text lead pieces →
      pieces ≠ [] ∧ joined lead pieces = text ∧
      interpolateString apply c (String.ofList text) = (do
        let values ← pieces.mapM fun piece => resolve apply c (parseChars piece.1)
        return some (.string (String.ofList (chars (substituted lead pieces values))))) ∧
      ∀ values : List (Option Value), values.length = pieces.length →
        let news := values.map replacement
        (substituted lead pieces values = staying (lead ++ byPlace pieces news) ↔
          Undisturbed lead pieces news) ∧
        (Undisturbed lead pieces news →
          chars (substituted lead pieces values) = lead ++ byPlace pieces news) := by
  refine ⟨everyTextCut text, fun lead pieces cut => ?_⟩
  have some := cut.hasPieces reference inside
  refine ⟨some, cut.text, interpolateCut apply c cut some inner, fun values same => ?_⟩
  have lengths : (values.map replacement).length = pieces.length := by simpa using same
  have byPlace := inTurnByPlace cut.references lengths lead
  refine ⟨byPlace, fun undisturbed => ?_⟩
  rw [substituted, byPlace.mpr undisturbed, charsStaying]

def named (name : Char) : List Char :=
  ['\x7b', '\x7b', name, '\x7d', '\x7d']

def neighbours : List (List Char × List Char) :=
  [(named 'a', []), (named 'b', [])]

theorem namedReference {name : Char} (open' : name ≠ '\x7d') : IsReference (named name) :=
  ⟨[name], by simp, by simpa using open'.symm, rfl⟩

theorem neighboursCut : Cut (named 'a' ++ named 'b') [] neighbours :=
  have last : Cut (named 'b') [] [(named 'b', [])] :=
    .next (.empty _) (namedReference (by decide)) (.last (.empty []))
  .next (.empty _) (namedReference (by decide)) last

theorem neighboursReplaced :
    IsReference (named 'a') ∧ named 'a' <:+: named 'a' ++ named 'b' ∧
    ¬ IsReference (named 'a' ++ named 'b') ∧
    chars (substituted [] neighbours [some (.string "1"), none]) = '1' :: undefinedText.toList := by
  have reference : IsReference (named 'a') := namedReference (by decide)
  have inside : named 'a' <:+: named 'a' ++ named 'b' := by decide
  have inner : ¬ IsReference (named 'a' ++ named 'b') := by
    rw [← wholeReference]
    decide
  have quiet : Undisturbed [] neighbours
      ([some (.string "1"), none].map replacement) :=
    ⟨by decide, by decide, trivial⟩
  obtain ⟨_, cuts⟩ := referencesReplacedInTurn (F := Unit) (fun _ _ => .pure none)
    ⟨[], .null, .root, .list [], none, none, none, none, 0⟩ reference inside inner
  obtain ⟨_, _, _, values⟩ := cuts [] neighbours neighboursCut
  exact ⟨reference, inside, inner, (values [some (.string "1"), none] rfl).2 quiet⟩

def spelling : Context Unit :=
  { scope := [("a", .value (.string (String.ofList (named 'b')))), ("b", .value (.string "X"))]
    data := .null
    key := .root
    projection := .list []
    projectionScope := none
    instanceScope := none
    parent := none
    params := none
    depth := 0 }

theorem insertedReferenceReplaced :
    Cut (named 'a' ++ named 'b') [] neighbours ∧
    resolve (fun _ _ => .pure none) spelling (parseChars (named 'a')) =
      .pure (some (.string (String.ofList (named 'b')))) ∧
    resolve (fun _ _ => .pure none) spelling (parseChars (named 'b')) =
      .pure (some (.string "X")) ∧
    byPlace neighbours [named 'b', ['X']] = named 'b' ++ ['X'] ∧
    interpolateString (fun _ _ => .pure none) spelling
        (String.ofList (named 'a' ++ named 'b')) =
      .pure (some (.string (String.ofList ('X' :: named 'b')))) ∧
    'X' :: named 'b' ≠ named 'b' ++ ['X'] := by
  refine ⟨neighboursCut, rfl, rfl, rfl, rfl, by decide⟩

end Reshape.Evaluate
