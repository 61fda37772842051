import Reshape.Proofs.Evaluate.ReferenceFree
import Reshape.Proofs.Reference.Written
import Reshape.Proofs.Run.Ends
/-! What interpolation makes of values. Lists keep their length, plain records keep their order and
lose the fields that come to nothing. Dates and projected records stay as they are wherever they
stand, and so does every value that a reference gives: what came in is not scanned again. -/
namespace Reshape.Evaluate
open Reference
variable {F σ : Type}

def keptFields (fields : List (String × Value)) (results : List (Option Value)) :
    List (String × Value) :=
  (fields.zip results).filterMap fun row => row.2.map (row.1.1, ·)

theorem interpolateWhole (apply : Apply F) (c : Context F) {s : String}
    (reference : IsReference s.toList) :
    interpolate apply c (.string s) = resolve apply c (parse s) := by
  have found : find s.toList = [s.toList] := by
    have alone := findAtFront reference []
    rw [List.append_nil] at alone
    rw [alone]
    rfl
  rw [interpolate, interpolateString, found]
  dsimp only
  rw [if_pos (wholeReference.mpr reference), parse]

theorem pathReference {gap : Gap} {name : String} (blank : gap.IsBlank) (filled : name ≠ "")
    (closed : '\x7d' ∉ name.toList) : IsReference (braced (gap.around name.toList)) := by
  have visible : Text.isBlank '\x7d' = false := by decide
  have front := blank.1.absent visible
  have back := blank.2.absent visible
  refine ⟨gap.around name.toList, ?_, ?_, rfl⟩
  · simp [Gap.around, filled]
  · simp [Gap.around, front, back, closed]

theorem interpolateVariable (apply : Apply F) (c : Context F) {gap : Gap} {name : String} {v : Value}
    (blank : gap.IsBlank) (path : Path ['|'] name) (noSpread : name.toList ≠ ['.', '.', '.'])
    (filled : name ≠ "") (closed : '\x7d' ∉ name.toList) (found : c.lookup? name = some (.value v)) :
    interpolate apply c (.string (String.ofList (braced (gap.around name.toList)))) =
      pure (some v) := by
  have writable : Writable ⟨[⟨.path name, []⟩]⟩ :=
    ⟨List.cons_ne_nil _ _, List.forall_mem_singleton.mpr ⟨.path path noSpread, List.forall_mem_nil _⟩⟩
  have read := writable.parsed (fun _ _ _ => gap) fun _ _ _ => blank
  have body : text (fun _ _ _ => gap) ⟨[⟨.path name, []⟩]⟩ = gap.around name.toList := by
    simp [text, alternativeText, targetText]
  have reference : IsReference (String.ofList (braced (gap.around name.toList))).toList := by
    rw [String.toList_ofList]
    exact pathReference blank filled closed
  rw [body] at read
  rw [interpolateWhole apply c reference, read]
  simp only [resolve, resolveAlternatives, resolveTarget, resolvePath, found]
  rfl

section Walk
variable {engines : Engines F} {host : Host F σ} {apply : Apply F} {c : Context F}
  {before after : Session F σ}

theorem itemsInterpolated {items ws : List Value}
    (ended : (interpolateItems apply c items).Ends engines host before (.ok ws) after) :
    ∃ results, Run.InTurn engines host (items.map (interpolate apply c)) before results after ∧
      ws = results.map fun r => r.getD .null := by
  induction items generalizing before ws with
  | nil =>
    obtain ⟨same, rfl⟩ := Run.endsPure.mp ended
    cases same
    exact ⟨[], .nil, rfl⟩
  | cons v rest ih =>
    obtain ⟨item, middle, first, ended⟩ := Run.endsThen.mp ended
    obtain ⟨others, last, behind, ended⟩ := Run.endsThen.mp ended
    obtain ⟨same, rfl⟩ := Run.endsPure.mp ended
    cases same
    obtain ⟨results, turns, rfl⟩ := ih behind
    exact ⟨item :: results, .cons first turns, rfl⟩

theorem fieldsInterpolated {fields ws : List (String × Value)}
    (ended : (interpolateFields apply c fields).Ends engines host before (.ok ws) after) :
    ∃ results, Run.InTurn engines host (fields.map fun f => interpolate apply c f.2) before results
      after ∧ ws = keptFields fields results := by
  induction fields generalizing before ws with
  | nil =>
    obtain ⟨same, rfl⟩ := Run.endsPure.mp ended
    cases same
    exact ⟨[], .nil, rfl⟩
  | cons f rest ih =>
    obtain ⟨field, middle, first, ended⟩ := Run.endsThen.mp ended
    obtain ⟨others, last, behind, ended⟩ := Run.endsThen.mp ended
    obtain ⟨same, rfl⟩ := Run.endsPure.mp ended
    cases same
    obtain ⟨results, turns, rfl⟩ := ih behind
    refine ⟨field :: results, .cons first turns, ?_⟩
    cases field <;> rfl

theorem listInterpolated {items : List Value} {result : Option Value}
    (ended : (interpolate apply c (.array items)).Ends engines host before (.ok result) after) :
    ∃ results, Run.InTurn engines host (items.map (interpolate apply c)) before results after ∧
      result = some (.array (results.map fun r => r.getD .null)) := by
  obtain ⟨ws, middle, walked, ended⟩ := Run.endsThen.mp ended
  obtain ⟨same, rfl⟩ := Run.endsPure.mp ended
  cases same
  obtain ⟨results, turns, rfl⟩ := itemsInterpolated walked
  exact ⟨results, turns, rfl⟩

theorem recordInterpolated {fields : List (String × Value)} {result : Option Value}
    (ended : (interpolate apply c (.record fields)).Ends engines host before (.ok result) after) :
    ∃ results, Run.InTurn engines host (fields.map fun f => interpolate apply c f.2) before results
      after ∧ result = some (.record (keptFields fields results)) := by
  obtain ⟨ws, middle, walked, ended⟩ := Run.endsThen.mp ended
  obtain ⟨same, rfl⟩ := Run.endsPure.mp ended
  cases same
  obtain ⟨results, turns, rfl⟩ := fieldsInterpolated walked
  exact ⟨results, turns, rfl⟩

theorem keptMember {fields : List (String × Value)} {results : List (Option Value)} {i : Nat}
    {name : String} {v w : Value} (field : fields[i]? = some (name, v))
    (result : results[i]? = some (some w)) : (name, w) ∈ keptFields fields results := by
  have row : (fields.zip results)[i]? = some ((name, v), some w) :=
    List.getElem?_zip_eq_some.mpr ⟨field, result⟩
  exact List.mem_filterMap.mpr ⟨_, List.mem_of_getElem? row, rfl⟩

theorem markedKept {u v : Value} {path : List Key} (marked : u.Marked) (inside : u.Within path v)
    {result : Option Value}
    (ended : (interpolate apply c v).Ends engines host before (.ok result) after) :
    ∃ w, result = some w ∧ u.Within path w := by
  induction inside generalizing before after result with
  | here =>
    cases marked with
    | date instant =>
      obtain ⟨same, _⟩ := Run.endsPure.mp ended
      cases same
      exact ⟨_, rfl, .here⟩
    | projected fields =>
      obtain ⟨same, _⟩ := Run.endsPure.mp ended
      cases same
      exact ⟨_, rfl, .here⟩
  | @item items i v path place _ ih =>
    obtain ⟨results, turns, rfl⟩ := listInterpolated ended
    have job : (items.map (interpolate apply c))[i]? = some (interpolate apply c v) := by
      rw [List.getElem?_map, place, Option.map_some]
    obtain ⟨r, reached, left, result, item⟩ := turns.place job
    obtain ⟨w, rfl, inside⟩ := ih item
    have there : (results.map fun r => r.getD .null)[i]? = some w := by
      rw [List.getElem?_map, result, Option.map_some, Option.getD_some]
    exact ⟨_, rfl, .item there inside⟩
  | @field fields name v path member _ ih =>
    obtain ⟨results, turns, rfl⟩ := recordInterpolated ended
    obtain ⟨i, place⟩ := List.mem_iff_getElem?.mp member
    have job : (fields.map fun f => interpolate apply c f.2)[i]? = some (interpolate apply c v) := by
      rw [List.getElem?_map, place, Option.map_some]
    obtain ⟨r, reached, left, result, field⟩ := turns.place job
    obtain ⟨w, rfl, inside⟩ := ih field
    exact ⟨_, rfl, .field (keptMember place result) inside⟩

end Walk

theorem onlyPlainStringsRewritten (apply : Apply F) (c : Context F) :
    (∀ (engines : Engines F) (host : Host F σ) (before after : Session F σ) (v w : Value),
      (interpolate apply c v).Ends engines host before (.ok (some w)) after →
      (∀ items, v = .array items → ∃ results,
        Run.InTurn engines host (items.map (interpolate apply c)) before results after ∧
        results.length = items.length ∧ w = .array (results.map fun r => r.getD .null)) ∧
      (∀ fields, v = .record fields → ∃ results,
        Run.InTurn engines host (fields.map fun f => interpolate apply c f.2) before results after ∧
        results.length = fields.length ∧ w = .record (keptFields fields results)) ∧
      ∀ path (u : Value), u.Marked → u.Within path v → u.Within path w) ∧
    (∀ s : String, IsReference s.toList →
      interpolate apply c (.string s) = resolve apply c (parse s)) ∧
    (∀ (gap : Gap) (name : String) (v : Value), gap.IsBlank → Path ['|'] name →
      name.toList ≠ ['.', '.', '.'] → name ≠ "" → '\x7d' ∉ name.toList →
      c.lookup? name = some (.value v) →
      interpolate apply c (.string (String.ofList (braced (gap.around name.toList)))) =
        pure (some v)) ∧
    ∀ v : Value, v.Unreferenced → interpolate apply c v = pure (some v) := by
  refine ⟨fun engines host before after v w ended => ⟨?_, ?_, ?_⟩, ?_, ?_, ?_⟩
  · rintro items rfl
    obtain ⟨results, turns, same⟩ := listInterpolated ended
    cases same
    exact ⟨results, turns, turns.length.trans (List.length_map _), rfl⟩
  · rintro fields rfl
    obtain ⟨results, turns, same⟩ := recordInterpolated ended
    cases same
    exact ⟨results, turns, turns.length.trans (List.length_map _), rfl⟩
  · intro path u marked inside
    obtain ⟨w', same, inside⟩ := markedKept marked inside ended
    cases same
    exact inside
  · intro s reference
    exact interpolateWhole apply c reference
  · intro gap name v blank path noSpread filled closed found
    exact interpolateVariable apply c blank path noSpread filled closed found
  · intro v free
    exact interpolateUnreferenced apply c free

def disguised : Context Unit :=
  { scope := [("a", .value (.string "\x7b\x7bb\x7d\x7d")), ("b", .value (.ofNat 1))]
    data := .null
    key := .root
    projection := .list []
    projectionScope := none
    instanceScope := none
    parent := none
    params := none
    depth := 0 }

def sealed : Value := .projected [("t", .string "\x7b\x7bb\x7d\x7d")]

def letters : Value :=
  .array [.record [("gone", .string "\x7b\x7bc\x7d\x7d"), ("kept", sealed)], .string "\x7b\x7bc\x7d\x7d",
    .string "\x7b\x7b a \x7d\x7d"]

def answered : Value :=
  .array [.record [("kept", sealed)], .null, .string "\x7b\x7bb\x7d\x7d"]

def mute : Host Unit Unit where
  call _ _ s := (.ok .absent, s)
  supply _ s := (.ok [], s)

theorem lettersRewritten :
    (interpolate (fun _ _ => .pure none) disguised letters).Ends (.single {}) mute { state := () }
      (.ok (some answered)) { state := () } ∧
    sealed.Marked ∧ sealed.Within [.index 0, .field "kept"] letters ∧
    sealed.Within [.index 0, .field "kept"] answered ∧
    Path ['|'] "a" ∧ disguised.lookup? "a" = some (.value (.string "\x7b\x7bb\x7d\x7d")) ∧
    interpolate (fun _ _ => .pure none) disguised (.string "\x7b\x7b a \x7d\x7d") =
      pure (some (.string "\x7b\x7bb\x7d\x7d")) ∧
    sealed.Unreferenced ∧ interpolate (fun _ _ => .pure none) disguised sealed = pure (some sealed) := by
  have ended : (interpolate (fun _ _ => .pure none) disguised letters).Ends (.single {}) mute
      { state := () } (.ok (some answered)) { state := () } := rfl
  have marked : sealed.Marked := .projected _
  have inside : sealed.Within [.index 0, .field "kept"] letters :=
    .item rfl (.field (List.mem_cons_of_mem _ List.mem_cons_self) .here)
  have path : Path ['|'] "a" := ⟨⟨by decide, by decide⟩, noLiteral.mp rfl⟩
  have blank : Gap.IsBlank ⟨[' '], [' ']⟩ := ⟨by decide, by decide⟩
  have found : disguised.lookup? "a" = some (.value (.string "\x7b\x7bb\x7d\x7d")) := rfl
  have closed : sealed.Unreferenced := fun path s inside => nomatch inside
  obtain ⟨walked, _, named, free⟩ :=
    onlyPlainStringsRewritten (σ := Unit) (fun _ _ => .pure none) disguised
  obtain ⟨_, _, places⟩ := walked (.single {}) mute _ _ letters answered ended
  have read := named ⟨[' '], [' ']⟩ "a" _ blank path (by decide) (by decide) (by decide) found
  exact ⟨ended, marked, inside, places _ _ marked inside, path, found, read, closed,
    free sealed closed⟩

end Reshape.Evaluate
