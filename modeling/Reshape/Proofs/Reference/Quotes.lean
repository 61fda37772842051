import Reshape.Proofs.Reference.Written
/-! Quotes in references. They mark literals but protect nothing: a text is cut at every bar and every
colon before quotes are looked at. So a quoted text is read as one literal exactly if it has no bar,
and as a parameter also no colon; no literal that is read has one. -/
namespace Reshape.Reference
open Text

theorem trimPart (cs : List Char) : trim cs ⊆ cs := by
  obtain ⟨before, after, _, _, split⟩ := paddedTrim cs
  intro c member
  rw [split]
  simp [member]

theorem literalPart {token : List Char} {s : String} (found : literal? token = some (.string s)) :
    s.toList ⊆ token := by
  unfold literal? at found
  split at found
  · cases found
    rw [String.toList_ofList]
    exact List.Subset.trans (List.dropLast_subset _) (List.tail_sublist _).subset
  · split at found
    · dsimp only at found
      split at found
      · cases found
      · split at found <;> cases found
    · split at found
      · cases found
      · split at found <;> cases found

theorem targetPart {token : List Char} {s : String}
    (read : readTarget token = .literal (.string s)) : s.toList ⊆ token := by
  unfold readTarget at read
  split at read
  · cases read
  · split at read
    · rename_i found
      cases read
      exact literalPart found
    · cases read

theorem paramPart {token : List Char} {s : String}
    (read : readParam token = .literal (.string s)) : s.toList ⊆ token := by
  unfold readParam at read
  split at read
  · rename_i found
    cases read
    exact literalPart found
  · cases read

theorem pipeClean {source : List Char} (noBar : '|' ∉ source) {s : String}
    (member : .literal (.string s) ∈ (readPipe source).params) : '|' ∉ s.toList ∧ ':' ∉ s.toList := by
  unfold readPipe at member
  split at member
  · cases member
  · rename_i name params split
    obtain ⟨token, inside, read⟩ := List.mem_map.mp member
    have listed : token ∈ (splitAt ':' source).map trim := split ▸ List.mem_cons_of_mem name inside
    obtain ⟨piece, cut, rfl⟩ := List.mem_map.mp listed
    have part : s.toList ⊆ piece := List.Subset.trans (paramPart read) (trimPart piece)
    exact ⟨fun bar => noBar (splitAtPart cut (part bar)), fun colon => splitAtClean cut (part colon)⟩

theorem alternativeClean (source : List Char) :
    (∀ s : String, (readAlternative source).target = .literal (.string s) → '|' ∉ s.toList) ∧
    ∀ call ∈ (readAlternative source).pipes, ∀ s : String, .literal (.string s) ∈ call.params →
      '|' ∉ s.toList ∧ ':' ∉ s.toList := by
  have clean : ∀ token ∈ (splitAt '|' source).map trim, '|' ∉ token := by
    intro token member
    obtain ⟨piece, cut, rfl⟩ := List.mem_map.mp member
    exact fun bar => splitAtClean cut (trimPart piece bar)
  unfold readAlternative
  split
  · exact ⟨nofun, List.forall_mem_nil _⟩
  · rename_i target pipes split
    rw [split] at clean
    obtain ⟨here, behind⟩ := List.forall_mem_cons.mp clean
    refine ⟨fun s read bar => here (targetPart read bar), fun call member s literal => ?_⟩
    obtain ⟨token, inside, rfl⟩ := List.mem_map.mp member
    exact pipeClean (behind token (List.mem_filter.mp inside).1) literal

theorem parsedClean {source : String} {a : Alternative} (member : a ∈ (parse source).alternatives) :
    (∀ s : String, a.target = .literal (.string s) → '|' ∉ s.toList) ∧
    ∀ call ∈ a.pipes, ∀ s : String, .literal (.string s) ∈ call.params →
      '|' ∉ s.toList ∧ ':' ∉ s.toList := by
  obtain ⟨piece, _, rfl⟩ := List.mem_map.mp member
  exact alternativeClean piece

def asideFirst (i _ _ : Nat) : Gap :=
  if i = 0 then ⟨[], [' ']⟩ else ⟨[' '], []⟩

def asidePipe (_ j k : Nat) : Gap :=
  if j = 0 then ⟨[], [' ']⟩ else if k = 0 then ⟨[' '], []⟩ else ⟨[], []⟩

section Forms
variable {x p s : String}

theorem fallbackParsed (path : Path ['|'] x) (noSpread : x.toList ≠ ['.', '.', '.'])
    (filled : s ≠ "") (noBar : '|' ∉ s.toList) :
    parse ("\x7b\x7b" ++ x ++ " || \"" ++ s ++ "\"\x7d\x7d") =
      ⟨[⟨.path x, []⟩, ⟨.literal (.string s), []⟩]⟩ := by
  have plain : Without ['|'] s.toList := List.forall_mem_singleton.mpr noBar
  have writable : Writable ⟨[⟨.path x, []⟩, ⟨.literal (.string s), []⟩]⟩ := by
    refine ⟨List.cons_ne_nil _ _, List.forall_mem_cons.mpr ⟨?_, List.forall_mem_singleton.mpr ?_⟩⟩
    · exact ⟨.path path noSpread, List.forall_mem_nil _⟩
    · exact ⟨.literal (.string filled plain), List.forall_mem_nil _⟩
  have blank : ∀ i j k, (asideFirst i j k).IsBlank := by
    intro i j k
    unfold asideFirst
    split <;> exact ⟨by decide, by decide⟩
  rw [← writable.parsed asideFirst blank]
  congr 1
  rw [← String.toList_inj]
  simp [text, alternativeText, asideFirst, braced, Gap.around, targetText, literalText,
    List.mapIdx_cons]

theorem paramParsed (path : Path ['|'] x) (noSpread : x.toList ≠ ['.', '.', '.']) (named : p ≠ "")
    (name : Token ['|', ':'] p.toList) (filled : s ≠ "") (plain : Without ['|', ':'] s.toList) :
    parse ("\x7b\x7b" ++ x ++ " | " ++ p ++ ":\"" ++ s ++ "\"\x7d\x7d") =
      ⟨[⟨.path x, [⟨p, [.literal (.string s)]⟩]⟩]⟩ := by
  have writable : Writable ⟨[⟨.path x, [⟨p, [.literal (.string s)]⟩]⟩]⟩ := by
    refine ⟨List.cons_ne_nil _ _, List.forall_mem_singleton.mpr ⟨.path path noSpread, ?_⟩⟩
    refine List.forall_mem_singleton.mpr ⟨named, name, List.forall_mem_singleton.mpr ?_⟩
    exact .literal (.string filled plain)
  have blank : ∀ i j k, (asidePipe i j k).IsBlank := by
    intro i j k
    unfold asidePipe
    split
    · exact ⟨by decide, by decide⟩
    · split <;> exact ⟨by decide, by decide⟩
  rw [← writable.parsed asidePipe blank]
  congr 1
  rw [← String.toList_inj]
  simp [text, alternativeText, pipeText, asidePipe, braced, Gap.around, targetText, paramText,
    literalText, List.mapIdx_cons]

theorem quotesProtectNothing (path : Path ['|'] x) (noSpread : x.toList ≠ ['.', '.', '.'])
    (named : p ≠ "") (name : Token ['|', ':'] p.toList) (filled : s ≠ "") :
    (parse ("\x7b\x7b" ++ x ++ " || \"" ++ s ++ "\"\x7d\x7d") =
        ⟨[⟨.path x, []⟩, ⟨.literal (.string s), []⟩]⟩ ↔ '|' ∉ s.toList) ∧
    (parse ("\x7b\x7b" ++ x ++ " | " ++ p ++ ":\"" ++ s ++ "\"\x7d\x7d") =
        ⟨[⟨.path x, [⟨p, [.literal (.string s)]⟩]⟩]⟩ ↔ '|' ∉ s.toList ∧ ':' ∉ s.toList) ∧
    ∀ source, ∀ a ∈ (parse source).alternatives,
      (∀ s : String, a.target = .literal (.string s) → '|' ∉ s.toList) ∧
      ∀ call ∈ a.pipes, ∀ s : String, .literal (.string s) ∈ call.params →
        '|' ∉ s.toList ∧ ':' ∉ s.toList := by
  refine ⟨⟨fun read => ?_, fallbackParsed path noSpread filled⟩, ⟨fun read => ?_, fun plain => ?_⟩,
    fun source a member => parsedClean member⟩
  · have member : ⟨.literal (.string s), []⟩ ∈
        (parse ("\x7b\x7b" ++ x ++ " || \"" ++ s ++ "\"\x7d\x7d")).alternatives := by simp [read]
    exact (parsedClean member).1 s rfl
  · have member : ⟨.path x, [⟨p, [.literal (.string s)]⟩]⟩ ∈
        (parse ("\x7b\x7b" ++ x ++ " | " ++ p ++ ":\"" ++ s ++ "\"\x7d\x7d")).alternatives := by
      simp [read]
    exact (parsedClean member).2 _ List.mem_cons_self s List.mem_cons_self
  · have apart : Without ['|', ':'] s.toList :=
      List.forall_mem_cons.mpr ⟨plain.1, List.forall_mem_singleton.mpr plain.2⟩
    exact paramParsed path noSpread named name filled apart

end Forms

theorem letterPath (delimiters : List Char) (apart : Without delimiters ['x']) : Path delimiters "x" :=
  ⟨⟨by decide, apart⟩, noLiteral.mp rfl⟩

theorem colonProtectedOnlyOnce :
    parse "\x7b\x7bx || \"b: c\"\x7d\x7d" = ⟨[⟨.path "x", []⟩, ⟨.literal (.string "b: c"), []⟩]⟩ ∧
    parse "\x7b\x7bx | p:\"b: c\"\x7d\x7d" ≠ ⟨[⟨.path "x", [⟨"p", [.literal (.string "b: c")]⟩]⟩]⟩ := by
  have path : Path ['|'] "x" := letterPath _ (by decide)
  have name : Token ['|', ':'] "p".toList := ⟨by decide, by decide⟩
  have filled : "b: c" ≠ "" := by decide
  obtain ⟨fallback, param, _⟩ := quotesProtectNothing path (by decide) (by decide) name filled
  exact ⟨fallback.mpr (by decide), fun read => absurd (param.mp read) (by decide)⟩

theorem quotedBarCut :
    Path ['|', ':'] "x" ∧ "a|b" ≠ "" ∧ Without ['"', '\x7d'] "a|b".toList ∧
    parse "\x7b\x7bx || \"a|b\"\x7d\x7d" =
      ⟨[⟨.path "x", []⟩, ⟨.path "\"a", [⟨"b\"", []⟩]⟩]⟩ ∧
    parse "\x7b\x7bx || \"a|b\"\x7d\x7d" ≠
      ⟨[⟨.path "x", []⟩, ⟨.literal (.string "a|b"), []⟩]⟩ := by
  have cut : parse "\x7b\x7bx || \"a|b\"\x7d\x7d" =
      ⟨[⟨.path "x", []⟩, ⟨.path "\"a", [⟨"b\"", []⟩]⟩]⟩ := rfl
  refine ⟨letterPath _ (by decide), by decide, by decide, cut, ?_⟩
  rw [cut]
  intro same
  cases same

end Reshape.Reference
