import Mathlib.Data.List.Infix
import Reshape.Proofs.Fallible
import Reshape.Proofs.Value.Strings
import Reshape.Value.Json
/-! Reading text in which no brace opens and nothing is escaped. There are no objects then, and the
strings of what is read are pieces of the text. Readers leave an end of their text unread. -/
namespace Reshape.Json
open Fallible

structure Leaves {α : Type} (read : Reading (α × List Char)) (cs : List Char) : Prop where
  suffix : ∀ a rest, read = .ok (a, rest) → rest <:+ cs

namespace Leaves
variable {α : Type} {cs : List Char}

theorem failed (stop : Stop) : Leaves (.error stop : Reading (α × List Char)) cs :=
  ⟨fun _ _ => nofun⟩

theorem found {a : α} {rest : List Char} (suffix : rest <:+ cs) : Leaves (.ok (a, rest)) cs := by
  constructor
  rintro a rest ⟨⟩
  exact suffix

theorem behind {read : Reading (α × List Char)} {front : List Char} (leaves : Leaves read cs)
    (suffix : cs <:+ front) : Leaves read front :=
  ⟨fun a rest ok => (leaves.suffix a rest ok).trans suffix⟩

theorem mapped {β : Type} {read : Reading (α × List Char)} (leaves : Leaves read cs) (f : α → β) :
    Leaves (read.map fun (a, rest) => (f a, rest)) cs := by
  constructor
  intro b rest ok
  obtain ⟨⟨a, rest'⟩, ok, same⟩ := mapOk.mp ok
  cases same
  exact leaves.suffix a rest ok

end Leaves

section Numbers
variable (negative : Bool) (significand : Nat) (cs : List Char)

theorem readPartsLeaves (power : Int) : Leaves (readParts negative significand power cs) cs := by
  unfold readParts
  split
  · exact .found (List.suffix_refl cs)
  · exact .failed _

theorem readExponentLeaves (power : Int) : Leaves (readExponent negative significand power cs) cs := by
  unfold readExponent
  split
  rename_i unsigned sign
  have behindSign : unsigned <:+ cs := by
    split at sign
    · cases sign
      exact List.suffix_cons _ _
    · cases sign
      exact List.suffix_cons _ _
    · cases sign
      exact List.suffix_refl _
  refine Leaves.behind ?_ behindSign
  have behindDigits := List.dropWhile_suffix (l := unsigned) Text.isDigit
  split
  · exact .failed _
  · split
    · exact .failed _
    · dsimp only
      split
      · split
        · exact .failed _
        · exact .found behindDigits
      · exact (readPartsLeaves ..).behind behindDigits

theorem readScaleLeaves (power : Int) : Leaves (readScale negative significand power cs) cs := by
  unfold readScale
  split
  · split
    · exact (readExponentLeaves ..).behind (List.suffix_cons _ _)
    · exact readPartsLeaves ..
  · exact readPartsLeaves ..

theorem readFractionLeaves (power : Int) : Leaves (readFraction negative significand power cs) cs := by
  have suffix := List.dropWhile_suffix (l := cs) Text.isDigit
  unfold readFraction
  dsimp only
  split
  · split
    · exact .failed _
    · exact .failed _
  · exact (readScaleLeaves ..).behind suffix

theorem readTailLeaves (dropped : Nat) : Leaves (readTail negative significand dropped cs) cs := by
  unfold readTail
  split
  · exact (readFractionLeaves ..).behind (List.suffix_cons _ _)
  · split
    · exact readScaleLeaves ..
    · split
      · unfold integerNumber
        split
        · exact .found (List.suffix_refl cs)
        · split
          · exact .found (List.suffix_refl cs)
          · exact readPartsLeaves ..
      · exact readPartsLeaves ..

theorem readNumberLeaves : Leaves (readNumber negative cs) cs := by
  unfold readNumber
  split
  · exact .failed _
  · rename_i c rest
    split
    · exact .failed _
    · split
      · split
        · exact .failed _
        · exact (readTailLeaves ..).behind (List.suffix_cons c rest)
      · exact (readTailLeaves ..).behind (List.dropWhile_suffix _)

end Numbers

theorem readWordLeaves (value : Json) (word cs : List Char) : Leaves (readWord value word cs) cs := by
  induction word generalizing cs with
  | nil => exact .found (List.suffix_refl cs)
  | cons w word ih =>
    cases cs with
    | nil => exact .failed _
    | cons c rest =>
      rw [readWord]
      split
      · exact (ih rest).behind (List.suffix_cons c rest)
      · exact .failed _

theorem readCharactersBare {cs text rest : List Char} (bare : Text.Bare cs)
    (ok : readCharacters 0 cs = .ok (text, rest)) : rest <:+ cs ∧ text ⊆ cs := by
  induction cs generalizing text with
  | nil => cases ok
  | cons c cs ih =>
    have unescaped : c ≠ '\\' := fun same => bare.2 (same ▸ List.mem_cons_self)
    have behind := List.suffix_cons c cs
    rw [readCharacters] at ok
    split at ok
    · cases ok
      exact ⟨behind, List.nil_subset _⟩
    · split at ok
      · cases ok
      · obtain ⟨⟨inner, _⟩, inside, same⟩ := bindOk.mp ok
        cases same
        obtain ⟨suffix, part⟩ := ih (bare.part behind.subset) inside
        exact ⟨suffix.trans behind, List.cons_subset_cons c part⟩

def ReadsBare (read : Reading (Json × List Char)) (cs : List Char) : Prop :=
  ∀ j rest, read = .ok (j, rest) → rest <:+ cs ∧ (Value.ofJson j).Bare

theorem ReadsBare.ofLeaves {read : Reading (Json × List Char)} {cs : List Char}
    (leaves : Leaves read cs)
    (stringless : ∀ j rest, read = .ok (j, rest) → ∀ s, ¬ (Value.ofJson j).HasString s) :
    ReadsBare read cs := fun j rest ok =>
  ⟨leaves.suffix j rest ok, fun s inside => absurd inside (stringless j rest ok s)⟩

theorem readWordValue {value j : Json} {word cs rest : List Char}
    (ok : readWord value word cs = .ok (j, rest)) : j = value := by
  induction word generalizing cs with
  | nil =>
    cases ok
    rfl
  | cons w word ih =>
    cases cs with
    | nil => cases ok
    | cons c cs =>
      rw [readWord] at ok
      split at ok
      · exact ih ok
      · cases ok

theorem readWordBare {value : Json} {word cs front : List Char}
    (stringless : ∀ s, ¬ (Value.ofJson value).HasString s) (behind : cs <:+ front) :
    ReadsBare (readWord value word cs) front := by
  refine .ofLeaves ((readWordLeaves value word cs).behind behind) fun j rest ok => ?_
  rw [readWordValue ok]
  exact stringless

theorem readNumberBare {negative : Bool} {cs front : List Char} (behind : cs <:+ front) :
    ReadsBare ((readNumber negative cs).map fun (n, rest) => (.number n, rest)) front := by
  refine .ofLeaves (((readNumberLeaves negative cs).mapped Json.number).behind behind) ?_
  intro j rest ok s inside
  obtain ⟨⟨n, _⟩, _, same⟩ := mapOk.mp ok
  cases same
  cases inside

theorem readStringBare {cs front : List Char} (bare : Text.Bare cs) (behind : cs <:+ front) :
    ReadsBare ((readString cs).map fun (s, rest) => (.string s, rest)) front := by
  intro j rest ok
  obtain ⟨⟨s, _⟩, read, same⟩ := mapOk.mp ok
  cases same
  obtain ⟨⟨text, _⟩, read, same⟩ := bindOk.mp read
  cases same
  obtain ⟨suffix, part⟩ := readCharactersBare bare read
  refine ⟨suffix.trans behind, ?_⟩
  rintro s ⟨⟩
  rw [String.toList_ofList]
  exact bare.part part

theorem readScalarBare {c : Char} {cs : List Char} (bare : Text.Bare (c :: cs)) :
    ReadsBare (readScalar c cs) (c :: cs) := by
  have behind := List.suffix_cons c cs
  unfold readScalar
  split
  · exact readWordBare (fun s inside => by cases inside) behind
  split
  · exact readWordBare (fun s inside => by cases inside) behind
  split
  · exact readWordBare (fun s inside => by cases inside) behind
  split
  · exact readNumberBare behind
  split
  · exact readNumberBare (List.suffix_refl _)
  split
  · exact readStringBare (bare.part behind.subset) behind
  · intro j rest ok
    cases ok

def ValuesBare (fuel : Nat) : Prop :=
  ∀ levels cs, Text.Bare cs → ReadsBare (readValue fuel levels cs) cs

def ItemsBare (fuel : Nat) : Prop :=
  ∀ levels first cs items rest, Text.Bare cs → readItems fuel levels first cs = .ok (items, rest) →
    rest <:+ cs ∧ ∀ j ∈ items, (Value.ofJson j).Bare

section Levels
variable {fuel levels : Nat}

theorem itemThenItems (values : ValuesBare fuel) (items : ItemsBare fuel) {cs rest : List Char}
    {read : List Json} (bare : Text.Bare cs)
    (ok : (do
      let (item, rest) ← readValue fuel levels cs
      let (items, rest) ← readItems fuel levels false rest
      .ok (item :: items, rest) : Reading (List Json × List Char)) = .ok (read, rest)) :
    rest <:+ cs ∧ ∀ j ∈ read, (Value.ofJson j).Bare := by
  obtain ⟨⟨item, left⟩, first, ok⟩ := bindOk.mp ok
  obtain ⟨⟨others, _⟩, more, same⟩ := bindOk.mp ok
  cases same
  obtain ⟨behind, here⟩ := values levels cs bare item left first
  obtain ⟨suffix, rest⟩ := items levels false left others _ (bare.part behind.subset) more
  exact ⟨suffix.trans behind, List.forall_mem_cons.mpr ⟨here, rest⟩⟩

theorem listBare (items : ItemsBare fuel) {cs rest : List Char} {j : Json} (bare : Text.Bare cs)
    (ok : (do
      let (items, rest) ← readItems fuel levels true cs
      .ok (.array items, rest) : Reading (Json × List Char)) = .ok (j, rest)) :
    rest <:+ cs ∧ (Value.ofJson j).Bare := by
  obtain ⟨⟨read, _⟩, ok, same⟩ := bindOk.mp ok
  cases same
  obtain ⟨left, each⟩ := items _ true cs read _ bare ok
  refine ⟨left, ?_⟩
  rintro s ⟨⟩
  rename_i v inside member
  rw [Value.itemsOfJsonMap, List.mem_map] at member
  obtain ⟨j, member, rfl⟩ := member
  exact each j member s inside

theorem readValueBare (items : ItemsBare fuel) : ValuesBare (fuel + 1) := by
  intro levels cs bare j rest ok
  have blanks : skipBlanks cs <:+ cs := List.dropWhile_suffix _
  rw [readValue] at ok
  split at ok
  · cases ok
  · rename_i c behind shown
    rw [shown] at blanks
    have bare := bare.part blanks.subset
    have suffix := List.suffix_cons c behind
    have noBrace : c ≠ '\x7b' := fun same => bare.1 (same ▸ List.mem_cons_self)
    split at ok
    · split at ok
      · cases ok
      · obtain ⟨left, value⟩ := listBare items (bare.part suffix.subset) ok
        exact ⟨left.trans (suffix.trans blanks), value⟩
    · obtain ⟨left, value⟩ := readScalarBare bare j rest ok
      exact ⟨left.trans blanks, value⟩

theorem readItemsBare (values : ValuesBare fuel) (items : ItemsBare fuel) : ItemsBare (fuel + 1) := by
  intro levels first cs read rest bare ok
  have blanks : skipBlanks cs <:+ cs := List.dropWhile_suffix _
  rw [readItems] at ok
  split at ok
  · cases ok
  rename_i c behind shown
  rw [shown] at blanks
  have bare := bare.part blanks.subset
  have suffix := List.suffix_cons c behind
  split at ok
  · cases ok
    exact ⟨suffix.trans blanks, by simp⟩
  split at ok
  · obtain ⟨left, each⟩ := itemThenItems values items bare ok
    exact ⟨left.trans blanks, each⟩
  split at ok
  · have more : skipBlanks behind <:+ behind := List.dropWhile_suffix _
    split at ok
    · cases ok
    rename_i shown
    rw [shown] at more
    split at ok
    · cases ok
    obtain ⟨left, each⟩ := itemThenItems values items (bare.part (more.trans suffix).subset) ok
    exact ⟨left.trans (more.trans (suffix.trans blanks)), each⟩
  · cases ok

end Levels

theorem readBare (fuel : Nat) : ValuesBare fuel ∧ ItemsBare fuel := by
  induction fuel with
  | zero => exact ⟨fun _ _ _ _ _ => nofun, fun _ _ _ _ _ _ => nofun⟩
  | succ fuel ih => exact ⟨readValueBare ih.2, readItemsBare ih.1 ih.2⟩

theorem parseBare {text : String} {v : Value} (bare : Text.Bare text.toList)
    (ok : Value.parse text = .ok v) : v.Bare := by
  unfold Value.parse at ok
  split at ok
  · rename_i document read
    cases ok
    obtain ⟨⟨value, left⟩, read, ended⟩ := bindOk.mp (mapErrorOk.mp read)
    dsimp only at ended
    split at ended
    · cases ended
      exact ((readBare _).1 _ _ bare _ _ read).2
    · cases ended
  · cases ok

end Reshape.Json
