import Reshape.Proofs.Reference.Tokens
import Reshape.Proofs.Text.Pieces
/-! Writing references, with any blanks around every token. A written reference is read as it was,
with braces around it and also without them, unless the text itself has braces at both ends. -/
namespace Reshape.Reference
open Text

structure Gap where
  before : List Char
  after : List Char

def Gap.around (gap : Gap) (token : List Char) : List Char :=
  gap.before ++ token ++ gap.after

def Gap.IsBlank (gap : Gap) : Prop :=
  Blank gap.before ∧ Blank gap.after

def pipeText (gaps : Nat → Gap) (call : PipeCall) : List Char :=
  List.intercalate [':'] ((gaps 0).around call.name.toList ::
    call.params.mapIdx fun k p => (gaps (k + 1)).around (paramText p))

def alternativeText (gaps : Nat → Nat → Gap) (a : Alternative) : List Char :=
  List.intercalate ['|'] ((gaps 0 0).around (targetText a.target) ::
    a.pipes.mapIdx fun j call => pipeText (gaps (j + 1)) call)

def text (gaps : Nat → Nat → Nat → Gap) (r : Reference) : List Char :=
  List.intercalate ['|', '|'] (r.alternatives.mapIdx fun i a => alternativeText (gaps i) a)

def braced (body : List Char) : List Char :=
  '\x7b' :: '\x7b' :: (body ++ ['\x7d', '\x7d'])

structure WritablePipe (call : PipeCall) : Prop where
  named : call.name ≠ ""
  name : Token ['|', ':'] call.name.toList
  params : ∀ p ∈ call.params, ParamToken ['|', ':'] p

structure WritableAlternative (a : Alternative) : Prop where
  target : TargetToken ['|'] a.target
  pipes : ∀ call ∈ a.pipes, WritablePipe call

structure Writable (r : Reference) : Prop where
  some : r.alternatives ≠ []
  each : ∀ a ∈ r.alternatives, WritableAlternative a

theorem readBack {α β : Type} {items : List α} {write : Nat → α → β} {read : β → α}
    (back : ∀ a ∈ items, ∀ i, read (write i a) = a) : (items.mapIdx write).map read = items := by
  induction items generalizing write with
  | nil => rfl
  | cons a rest ih =>
    obtain ⟨here, behind⟩ := List.forall_mem_cons.mp back
    rw [List.mapIdx_cons, List.map_cons, here, ih fun a member i => behind a member (i + 1)]

theorem absentJoined {c : Char} {sep : List Char} {pieces : List (List Char)} (apart : c ∉ sep)
    (each : ∀ piece ∈ pieces, c ∉ piece) : c ∉ List.intercalate sep pieces := by
  induction pieces with
  | nil => exact List.not_mem_nil
  | cons first others ih =>
    obtain ⟨here, behind⟩ := List.forall_mem_cons.mp each
    cases others with
    | nil => rwa [List.intercalate_singleton]
    | cons second others =>
      rw [List.intercalate_cons_cons]
      simpa [here, apart] using ih behind

theorem readPipePadded {source other : List Char} (padded : Padded source other) :
    readPipe other = readPipe source := by
  have visible : isBlank ':' = false := by decide
  have same := trimmedAlike (fun _ _ => Padded.trimmed) (splitAtPadded visible padded)
  rw [readPipe, readPipe, same]

theorem readAlternativePadded {source other : List Char} (padded : Padded source other) :
    readAlternative other = readAlternative source := by
  have visible : isBlank '|' = false := by decide
  have same := trimmedAlike (fun _ _ => Padded.trimmed) (splitAtPadded visible padded)
  rw [readAlternative, readAlternative, same]

section Gaps
variable {gap : Gap} {delimiters cs : List Char}

theorem Gap.IsBlank.trimmed (blank : gap.IsBlank) (token : Token delimiters cs) :
    trim (gap.around cs) = cs := by
  have padded : Padded cs (gap.around cs) := ⟨gap.before, gap.after, blank.1, blank.2, rfl⟩
  rw [padded.trimmed, token.trimmed]

theorem Gap.IsBlank.plain (blank : gap.IsBlank) (separators : Separators delimiters)
    (token : Token delimiters cs) : Without delimiters (gap.around cs) := by
  intro d member
  obtain ⟨visible, _⟩ := separators.visible member
  have front := blank.1.absent visible
  have back := blank.2.absent visible
  simpa [Gap.around, front, back] using token.plain d member

end Gaps

section Pipes
variable {gaps : Nat → Gap} {call : PipeCall}

theorem WritablePipe.pieces (writable : WritablePipe call) (blank : ∀ k, (gaps k).IsBlank) :
    ∀ piece ∈ (gaps 0).around call.name.toList ::
      call.params.mapIdx fun k p => (gaps (k + 1)).around (paramText p),
      Without ['|', ':'] piece := by
  refine List.forall_mem_cons.mpr ⟨(blank 0).plain bothSeparate writable.name, fun piece member => ?_⟩
  obtain ⟨k, inside, rfl⟩ := List.mem_mapIdx.mp member
  have param := writable.params _ (List.getElem_mem inside)
  exact (blank (k + 1)).plain bothSeparate (param.token bothSeparate)

theorem WritablePipe.noBar (writable : WritablePipe call) (blank : ∀ k, (gaps k).IsBlank) :
    '|' ∉ pipeText gaps call :=
  absentJoined (by decide) fun piece member => writable.pieces blank piece member '|' (by decide)

theorem WritablePipe.reads (writable : WritablePipe call) (blank : ∀ k, (gaps k).IsBlank) :
    readPipe (pipeText gaps call) = call := by
  have pieces : ∀ piece ∈ _, ':' ∉ piece := fun piece member =>
    writable.pieces blank piece member ':' (by decide)
  have params : (call.params.mapIdx fun k p => (gaps (k + 1)).around (paramText p)).map
      (readParam ∘ trim) = call.params := by
    refine readBack fun p member k => ?_
    have param := writable.params p member
    rw [Function.comp, (blank (k + 1)).trimmed (param.token bothSeparate), param.reads]
  rw [readPipe, pipeText, splitAtJoined pieces (List.cons_ne_nil _ _), List.map_cons]
  dsimp only
  rw [List.map_map, params, (blank 0).trimmed writable.name, String.ofList_toList]

theorem WritablePipe.shown (writable : WritablePipe call) (blank : ∀ k, (gaps k).IsBlank) :
    trim (pipeText gaps call) ≠ [] := by
  intro nothing
  have read := writable.reads blank
  rw [readPipePadded (paddedTrim (pipeText gaps call)), nothing] at read
  exact writable.named (congrArg PipeCall.name read).symm

end Pipes

section Alternatives
variable {gaps : Nat → Nat → Gap} {a : Alternative}

theorem WritableAlternative.pieces (writable : WritableAlternative a)
    (blank : ∀ j k, (gaps j k).IsBlank) :
    ∀ piece ∈ (gaps 0 0).around (targetText a.target) ::
      a.pipes.mapIdx fun j call => pipeText (gaps (j + 1)) call, '|' ∉ piece := by
  have target := (blank 0 0).plain barSeparates (writable.target.token barSeparates)
  refine List.forall_mem_cons.mpr ⟨target '|' (by decide), fun piece member => ?_⟩
  obtain ⟨j, inside, rfl⟩ := List.mem_mapIdx.mp member
  exact (writable.pipes _ (List.getElem_mem inside)).noBar (blank (j + 1))

theorem WritableAlternative.reads (writable : WritableAlternative a)
    (blank : ∀ j k, (gaps j k).IsBlank) : readAlternative (alternativeText gaps a) = a := by
  have target := (blank 0 0).trimmed (writable.target.token barSeparates)
  have shown : ((a.pipes.mapIdx fun j call => pipeText (gaps (j + 1)) call).map trim).filter (· ≠ []) =
      (a.pipes.mapIdx fun j call => pipeText (gaps (j + 1)) call).map trim := by
    refine List.filter_eq_self.mpr fun piece member => ?_
    obtain ⟨written, inside, rfl⟩ := List.mem_map.mp member
    obtain ⟨j, place, rfl⟩ := List.mem_mapIdx.mp inside
    simpa using (writable.pipes _ (List.getElem_mem place)).shown (blank (j + 1))
  have pipes : (a.pipes.mapIdx fun j call => pipeText (gaps (j + 1)) call).map (readPipe ∘ trim) =
      a.pipes := by
    refine readBack fun call member j => ?_
    rw [Function.comp, ← readPipePadded (paddedTrim _)]
    exact (writable.pipes call member).reads (blank (j + 1))
  rw [readAlternative, alternativeText,
    splitAtJoined (writable.pieces blank) (List.cons_ne_nil _ _), List.map_cons]
  dsimp only
  rw [shown, List.map_map, pipes, target, writable.target.reads]

theorem WritableAlternative.unpaired (writable : WritableAlternative a)
    (blank : ∀ j k, (gaps j k).IsBlank) : Unpaired '|' (alternativeText gaps a) := by
  refine unpairedJoined (writable.pieces blank) fun piece member => ?_
  obtain ⟨j, inside, rfl⟩ := List.mem_mapIdx.mp member
  intro nothing
  refine (writable.pipes _ (List.getElem_mem inside)).shown (blank (j + 1)) ?_
  rw [nothing]
  rfl

end Alternatives

section References
variable {gaps : Nat → Nat → Nat → Gap} {r : Reference}

theorem Writable.alternatives (writable : r.Writable) (blank : ∀ i j k, (gaps i j k).IsBlank) :
    (splitAtPair '|' (r.text gaps)).map readAlternative = r.alternatives := by
  have pieces : ∀ piece ∈ r.alternatives.mapIdx fun i a => alternativeText (gaps i) a,
      Unpaired '|' piece := by
    intro piece member
    obtain ⟨i, inside, rfl⟩ := List.mem_mapIdx.mp member
    exact (writable.each _ (List.getElem_mem inside)).unpaired (blank i)
  have some : (r.alternatives.mapIdx fun i a => alternativeText (gaps i) a) ≠ [] :=
    List.mapIdx_ne_nil_iff.mpr writable.some
  rw [text, splitAtPairJoined pieces some]
  exact readBack fun a member i => (writable.each a member).reads (blank i)

end References

theorem stripBraced (body : List Char) : stripBraces (trim (braced body)) = body := by
  have split : braced body = '\x7b' :: (('\x7b' :: (body ++ ['\x7d'])) ++ ['\x7d']) := by
    simp [braced]
  have closed : 2 ≤ (body ++ ['\x7d', '\x7d']).length ∧
      (body ++ ['\x7d', '\x7d']).drop ((body ++ ['\x7d', '\x7d']).length - 2) = ['\x7d', '\x7d'] := by
    simp
  rw [split, trimVisible (by decide) (by decide), ← split, braced, stripBraces, if_pos closed]
  simp

theorem stripNothing {cs : List Char}
    (bare : ¬ (['\x7b', '\x7b'] <+: cs ∧ ['\x7d', '\x7d'] <:+ cs)) : stripBraces cs = cs := by
  unfold stripBraces
  split
  · rename_i inner
    split
    · rename_i closed
      refine absurd ⟨⟨inner, rfl⟩, ?_⟩ bare
      rw [← closed.2]
      exact (List.drop_suffix _ inner).trans (List.suffix_append ['\x7b', '\x7b'] inner)
    · rfl
  · rfl

theorem Writable.parsed {r : Reference} (writable : r.Writable) (gaps : Nat → Nat → Nat → Gap)
    (blank : ∀ i j k, (gaps i j k).IsBlank) :
    parse (String.ofList (braced (r.text gaps))) = r := by
  rw [parse, String.toList_ofList, parseChars, stripBraced, writable.alternatives blank]

/- Braces that belong to a path are taken for those around a reference if the path stands alone. -/
theorem writtenReadsBack (r : Reference) (writable : r.Writable) (gaps : Nat → Nat → Nat → Gap)
    (blank : ∀ i j k, (gaps i j k).IsBlank) :
    parse (String.ofList (braced (r.text gaps))) = r ∧
    (¬ (['\x7b', '\x7b'] <+: trim (r.text gaps) ∧ ['\x7d', '\x7d'] <:+ trim (r.text gaps)) →
      parse (String.ofList (r.text gaps)) = r) := by
  refine ⟨writable.parsed gaps blank, fun bare => ?_⟩
  have visible : isBlank '|' = false := by decide
  have padded := splitAtPairPadded visible (paddedTrim (r.text gaps))
  have same := trimmedAlike (fun _ _ => readAlternativePadded) padded
  rw [parse, String.toList_ofList, parseChars, stripNothing bare, ← same, writable.alternatives blank]

def tangled : Reference :=
  ⟨[⟨.path "", [⟨"p", [.path "", .literal (.string " \"\x7d\x7d")]⟩]⟩, ⟨.path "", []⟩,
    ⟨.literal (.string "x:y"), []⟩, ⟨.spread, [⟨"q", [.literal (.ofNat 9223372036854775807)]⟩]⟩]⟩

def wide : Gap := ⟨['\u3000'], ['\n']⟩

theorem tangledReadsBack :
    tangled.Writable ∧ wide.IsBlank ∧
    parse (String.ofList (braced (tangled.text fun _ _ _ => wide))) = tangled ∧
    parse (String.ofList (tangled.text fun _ _ _ => wide)) = tangled := by
  have empty : ∀ delimiters, Path delimiters "" := fun _ =>
    ⟨⟨rfl, fun _ _ => List.not_mem_nil⟩, noLiteral.mp rfl⟩
  have first : WritablePipe ⟨"p", [.path "", .literal (.string " \"\x7d\x7d")]⟩ := by
    refine ⟨by decide, ⟨by decide, by decide⟩, List.forall_mem_cons.mpr ⟨.path (empty _), ?_⟩⟩
    exact List.forall_mem_singleton.mpr (.literal (.string (by decide) (by decide)))
  have second : WritablePipe ⟨"q", [.literal (.ofNat 9223372036854775807)]⟩ :=
    ⟨by decide, ⟨by decide, by decide⟩,
      List.forall_mem_singleton.mpr (.literal (.natural (by decide)))⟩
  have writable : tangled.Writable := by
    refine ⟨List.cons_ne_nil _ _, ?_⟩
    simp only [tangled, List.forall_mem_cons]
    exact ⟨⟨.path (empty _) (by decide), List.forall_mem_singleton.mpr first⟩,
      ⟨.path (empty _) (by decide), List.forall_mem_nil _⟩,
      ⟨.literal (.string (by decide) (by decide)), List.forall_mem_nil _⟩,
      ⟨.spread, List.forall_mem_singleton.mpr second⟩, List.forall_mem_nil _⟩
  have blank : wide.IsBlank := ⟨by decide, by decide⟩
  obtain ⟨within, alone⟩ := writtenReadsBack tangled writable (fun _ _ _ => wide) fun _ _ _ => blank
  exact ⟨writable, blank, within, alone (by decide)⟩

end Reshape.Reference
