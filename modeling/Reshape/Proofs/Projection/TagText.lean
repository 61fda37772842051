import Reshape.Projection.Basic
import Reshape.Proofs.Text.Padding
/-! Type tags as text. A bare tag is the whole text. A list tag may stand at the front of a longer
text: it reaches to the last closing bracket of the first line, and what follows it is given up. So
the name of a tag is the text it was read from, up to the case of letters in a leading `array`,
exactly if nothing follows the tag. The name of a tag that was read reads back as that tag. -/
namespace Reshape.TypeTag

def arrayWord : List Char :=
  ['a', 'r', 'r', 'a', 'y']

def lowerLead (text : String) : String :=
  if (text.toList.take arrayWord.length).map Char.toLower = arrayWord then
    String.ofList (arrayWord ++ text.toList.drop arrayWord.length)
  else text

/- A list tag at the front of a text: any closing bracket behind it stands on another line. -/
structure ListTag (cs inner rest : List Char) : Prop where
  spelled : ∃ word, word.map Char.toLower = arrayWord ∧ cs = word ++ '<' :: (inner ++ '>' :: rest)
  filled : inner ≠ []
  unbroken : '\n' ∉ inner
  last : ∀ more behind, rest = more ++ '>' :: behind → '\n' ∈ more

inductive Begins (text : String) : TypeTag → String → Prop where
  | word {tag : TypeTag} (listed : (text, tag) ∈ bare) : Begins text tag ""
  | list {inner rest : List Char} (tagged : ListTag text.toList inner rest) :
      Begins text (.arrayOf (String.ofList inner)) (String.ofList rest)

section Lines
variable {front rest : List Char}

theorem lineThrough (unbroken : '\n' ∉ front) (rest : List Char) :
    (front ++ '>' :: rest).takeWhile (· ≠ '\n') = front ++ '>' :: rest.takeWhile (· ≠ '\n') := by
  rw [List.takeWhile_append_of_pos (Text.othersThan unbroken), List.takeWhile_cons_of_pos (by decide)]

theorem lineStart {cs behind : List Char}
    (line : cs.takeWhile (· ≠ '\n') = front ++ '>' :: behind) :
    '\n' ∉ front ∧ cs = front ++ '>' :: (behind ++ cs.dropWhile (· ≠ '\n')) := by
  constructor
  · intro inside
    have onLine : '\n' ∈ cs.takeWhile (· ≠ '\n') := line ▸ List.mem_append_left _ inside
    exact Text.absentBefore _ cs onLine
  · rw [← List.cons_append, ← List.append_assoc, ← line, List.takeWhile_append_dropWhile]

theorem noBracketOnLine :
    '>' ∉ rest.takeWhile (· ≠ '\n') ↔ ∀ more behind, rest = more ++ '>' :: behind → '\n' ∈ more := by
  constructor
  · rintro absent more behind rfl
    by_contra unbroken
    rw [lineThrough unbroken] at absent
    exact absent (List.mem_append_right more List.mem_cons_self)
  · intro broken bracket
    obtain ⟨more, behind, line⟩ := List.append_of_mem bracket
    obtain ⟨unbroken, whole⟩ := lineStart line
    exact unbroken (broken more _ whole)

theorem lastBracketTaken {behind : List Char} (absent : '>' ∉ behind) (front : List Char) :
    beforeLastBracket? (front ++ '>' :: behind) = some front := by
  have backwards : (front ++ '>' :: behind).reverse = behind.reverse ++ '>' :: front.reverse := by
    simp
  have noBracket : '>' ∉ behind.reverse := fun bracket => absent (List.mem_reverse.mp bracket)
  rw [beforeLastBracket?, backwards, (Text.frontBefore noBracket _).2]
  simp

theorem lastBracketFound {line : List Char} :
    beforeLastBracket? line = some front ↔ ∃ behind, line = front ++ '>' :: behind ∧ '>' ∉ behind := by
  constructor
  · intro found
    have bracket : '>' ∈ line.reverse := by
      by_contra absent
      have nothing := List.dropWhile_eq_nil_iff.mpr (Text.othersThan absent)
      rw [beforeLastBracket?, nothing] at found
      cases found
    obtain ⟨behind, back, split, absent⟩ := List.eq_append_cons_of_mem bracket
    have whole : line = back.reverse ++ '>' :: behind.reverse := by
      rw [← List.reverse_reverse line, split]
      simp
    have last : '>' ∉ behind.reverse := fun inside => absent (List.mem_reverse.mp inside)
    rw [whole, lastBracketTaken last] at found
    cases found
    exact ⟨behind.reverse, whole, last⟩
  · rintro ⟨behind, rfl, absent⟩
    exact lastBracketTaken absent front

theorem lastOnLine {cs inner : List Char} :
    beforeLastBracket? (cs.takeWhile (· ≠ '\n')) = some inner ↔
      ∃ rest, cs = inner ++ '>' :: rest ∧ '\n' ∉ inner ∧
        ∀ more behind, rest = more ++ '>' :: behind → '\n' ∈ more := by
  rw [lastBracketFound]
  constructor
  · rintro ⟨behind, line, absent⟩
    obtain ⟨unbroken, whole⟩ := lineStart line
    refine ⟨_, whole, unbroken, noBracketOnLine.mp ?_⟩
    rw [whole, lineThrough unbroken] at line
    obtain ⟨_, same⟩ := List.cons.inj (List.append_cancel_left line)
    rwa [same]
  · rintro ⟨rest, rfl, unbroken, last⟩
    exact ⟨_, lineThrough unbroken rest, noBracketOnLine.mpr last⟩

end Lines

theorem bracketOfLower {c : Char} (lower : c.toLower = '<') : c = '<' := by
  unfold Char.toLower at lower
  split at lower
  · rename_i upper
    -- a capital letter is moved to a small one, which is no bracket
    have least : 65 ≤ c.val.toNat := UInt32.le_iff_toNat_le.mp upper.1
    have most : c.val.toNat ≤ 90 := UInt32.le_iff_toNat_le.mp upper.2
    have moved : (c.val.toNat + 32) % 2 ^ 32 = 60 := congrArg Char.toNat lower
    omega
  · exact lower

section Opening
variable {word : List Char}

theorem wordLength (spelled : word.map Char.toLower = arrayWord) : word.length = arrayWord.length := by
  rw [← spelled, List.length_map]

theorem openingFound {cs : List Char} (same : (cs.take opening.length).map Char.toLower = opening) :
    ∃ word behind, word.map Char.toLower = arrayWord ∧ cs = word ++ '<' :: behind := by
  have parts : opening = arrayWord ++ ['<'] := rfl
  rw [parts] at same
  obtain ⟨word, bracket, taken, spelled, closed⟩ := List.map_eq_append_iff.mp same
  obtain ⟨c, rfl, lower⟩ := List.map_eq_singleton_iff.mp closed
  obtain rfl := bracketOfLower lower
  refine ⟨word, cs.drop opening.length, spelled, ?_⟩
  rw [← List.singleton_append, ← List.append_assoc, ← taken, ← parts, List.take_append_drop]

theorem innerOpened (spelled : word.map Char.toLower = arrayWord) {behind inner : List Char} :
    inner? (word ++ '<' :: behind) = some inner ↔
      beforeLastBracket? (behind.takeWhile (· ≠ '\n')) = some inner ∧ inner ≠ [] := by
  have long : (word ++ ['<']).length = opening.length := by
    rw [List.length_append, wordLength spelled]
    rfl
  have text : word ++ '<' :: behind = (word ++ ['<']) ++ behind := by simp
  have same : (word ++ ['<']).map Char.toLower = opening := by
    rw [List.map_append, spelled]
    rfl
  rw [inner?, text, List.take_left' long, List.drop_left' long, if_pos same]
  split
  · rename_i c rest found
    rw [found]
    exact ⟨fun shown => ⟨shown, Option.some.inj shown ▸ List.cons_ne_nil c rest⟩, And.left⟩
  · rename_i other
    refine ⟨nofun, fun ⟨found, filled⟩ => ?_⟩
    obtain ⟨c, rest, rfl⟩ := List.exists_cons_of_ne_nil filled
    exact (other c rest found).elim

theorem innerFound {cs inner : List Char} :
    inner? cs = some inner ↔ ∃ rest, ListTag cs inner rest := by
  constructor
  · intro found
    have opened : (cs.take opening.length).map Char.toLower = opening := by
      by_contra other
      rw [inner?, if_neg other] at found
      cases found
    obtain ⟨word, behind, spelled, rfl⟩ := openingFound opened
    obtain ⟨closed, filled⟩ := (innerOpened spelled).mp found
    obtain ⟨rest, rfl, unbroken, last⟩ := lastOnLine.mp closed
    exact ⟨rest, ⟨word, spelled, rfl⟩, filled, unbroken, last⟩
  · rintro ⟨rest, ⟨word, spelled, rfl⟩, filled, unbroken, last⟩
    exact (innerOpened spelled).mpr ⟨lastOnLine.mpr ⟨rest, rfl, unbroken, last⟩, filled⟩

end Opening

theorem wordsApart : ∀ p ∈ bare, bare.find? (·.1 = p.1) = some p := by
  decide

theorem wordsOpen : ∀ p ∈ bare, '>' ∉ p.1.toList := by
  decide

theorem wordsNamed : ∀ p ∈ bare, p.2.name = p.1 ∧ lowerLead p.1 = p.1 := by
  decide

section Reading
variable {text rest : String} {tag : TypeTag}

theorem readBegins (read : parse? text = some tag) : ∃ rest, Begins text tag rest := by
  unfold parse? at read
  split at read
  · rename_i word _ found
    cases read
    obtain rfl : word = text := by simpa using List.find?_some found
    exact ⟨"", .word (List.mem_of_find?_eq_some found)⟩
  · obtain ⟨inner, found, rfl⟩ := Option.map_eq_some_iff.mp read
    obtain ⟨rest, tagged⟩ := innerFound.mp found
    exact ⟨String.ofList rest, .list tagged⟩

theorem ListTag.bracket {cs inner rest : List Char} (tagged : ListTag cs inner rest) : '>' ∈ cs := by
  obtain ⟨word, _, rfl⟩ := tagged.spelled
  simp

theorem Begins.read (beginning : Begins text tag rest) : parse? text = some tag := by
  cases beginning with
  | word listed => rw [parse?, wordsApart _ listed]
  | list tagged =>
    have noWord : bare.find? (·.1 = text) = none := by
      refine List.find?_eq_none.mpr fun p member same => wordsOpen p member ?_
      rw [of_decide_eq_true same]
      exact tagged.bracket
    rw [parse?, noWord]
    exact Option.map_eq_some_iff.mpr ⟨_, innerFound.mpr ⟨_, tagged⟩, rfl⟩

theorem Begins.kept (beginning : Begins text tag rest) : lowerLead text = tag.name ++ rest := by
  cases beginning with
  | word listed =>
    obtain ⟨named, lower⟩ := wordsNamed _ listed
    rw [String.append_empty, lower]
    exact named.symm
  | @list inner rest tagged =>
    obtain ⟨word, spelled, split⟩ := tagged.spelled
    have long := wordLength spelled
    rw [lowerLead, split, List.take_left' long, if_pos spelled, List.drop_left' long]
    rw [← String.toList_inj]
    simp [name, arrayWord]

theorem Begins.alone (beginning : Begins text tag rest) : Begins tag.name tag "" := by
  cases beginning with
  | word listed =>
    have named : tag.name = text := (wordsNamed _ listed).1
    rw [named]
    exact .word listed
  | @list inner rest tagged =>
    have closed : (TypeTag.arrayOf (String.ofList inner)).name.toList =
        arrayWord ++ '<' :: (inner ++ '>' :: []) := by
      simp [name, arrayWord]
    have nothing : ∀ more behind, [] = more ++ '>' :: behind → '\n' ∈ more := by simp
    exact .list ⟨⟨arrayWord, by decide, closed⟩, tagged.filled, tagged.unbroken, nothing⟩

end Reading

theorem onlyFollowingTextLost (text : String) (tag : TypeTag) :
    (parse? text = some tag ↔ ∃ rest, Begins text tag rest) ∧
    (∀ rest, Begins text tag rest → lowerLead text = tag.name ++ rest ∧
      (lowerLead text = tag.name ↔ rest = "")) ∧
    (parse? text = some tag → parse? tag.name = some tag) := by
  refine ⟨⟨readBegins, fun ⟨_, beginning⟩ => beginning.read⟩, fun rest beginning => ?_, fun read => ?_⟩
  · rw [beginning.kept]
    exact ⟨rfl, String.append_eq_left_iff⟩
  · obtain ⟨rest, beginning⟩ := readBegins read
    exact beginning.alone.read

theorem listOfListsRead :
    Begins "ARRAY<array<x>> of y\n>" (.arrayOf "array<x>") " of y\n>" ∧
    lowerLead "ARRAY<array<x>> of y\n>" ≠ "array<array<x>>" ∧
    parse? "ARRAY<array<x>> of y\n>" = some (.arrayOf "array<x>") ∧
    parse? "array<array<x>>" = some (.arrayOf "array<x>") := by
  have tagged : ListTag "ARRAY<array<x>> of y\n>".toList "array<x>".toList " of y\n>".toList :=
    ⟨⟨"ARRAY".toList, by decide, by decide⟩, by decide, by decide, noBracketOnLine.mp (by decide)⟩
  have beginning : Begins "ARRAY<array<x>> of y\n>" (.arrayOf "array<x>") " of y\n>" := .list tagged
  obtain ⟨reads, keeps, named⟩ := onlyFollowingTextLost "ARRAY<array<x>> of y\n>" (.arrayOf "array<x>")
  have read := reads.mpr ⟨_, beginning⟩
  have lost := mt (keeps _ beginning).2.mp (by decide)
  exact ⟨beginning, lost, read, named read⟩

theorem templateTakenForTag :
    parse? "array<string> of \x7b\x7bname\x7d\x7d" = some (.arrayOf "string") ∧
    lowerLead "array<string> of \x7b\x7bname\x7d\x7d" ≠ (TypeTag.arrayOf "string").name ∧
    (Spec.ofTag "array<string> of \x7b\x7bname\x7d\x7d" : Spec Unit) = .typed (.arrayOf "string") :=
  ⟨rfl, by decide, rfl⟩

end Reshape.TypeTag
