import Reshape.Proofs.Entries
import Reshape.Proofs.Json.NumberText
import Reshape.Proofs.Json.StringText
import Reshape.Json.Reader
/-! Documents, read back from their compact text. What the text keeps are integers of 64 bits and
objects without repeated names, as deep as the reader goes. The fuel of the reader is never short:
every level and every item has a character of its own. -/
namespace Reshape.Json
open Fallible

/- Documents that come back from their text, with at most so many containers open at once. -/
inductive Exact : Nat → Json → Prop where
  | null {levels : Nat} : Exact levels .null
  | bool {levels : Nat} (b : Bool) : Exact levels (.bool b)
  | integer {levels : Nat} {i : Int} (word : IsWord i) : Exact levels (.ofInt i)
  | string {levels : Nat} (s : String) : Exact levels (.string s)
  | array {levels : Nat} {items : List Json} (each : ∀ j ∈ items, Exact levels j) :
      Exact (levels + 1) (.array items)
  | object {levels : Nat} {members : List (String × Json)} (distinct : Entries.Distinct members)
      (each : ∀ m ∈ members, Exact levels m.2) : Exact (levels + 1) (.object members)

def ReadsBack (levels : Nat) (j : Json) : Prop :=
  ∀ fuel tail, (render j).length ≤ fuel → Ends tail →
    readValue fuel levels (render j ++ tail) = .ok (j, tail)

theorem skipVisible {c : Char} (visible : isBlank c = false) (rest : List Char) :
    skipBlanks (c :: rest) = c :: rest := by
  rw [skipBlanks, List.dropWhile_cons, visible]
  rfl

theorem endsItems (items : List Json) (tail : List Char) : Ends (renderItems items ++ tail) := by
  cases items <;> (rintro c ⟨⟩; decide)

theorem renderItemsPositive (items : List Json) : 0 < (renderItems items).length := by
  cases items <;> exact Nat.succ_pos _

theorem endsMembers (members : List (String × Json)) (tail : List Char) :
    Ends (renderMembers members ++ tail) := by
  cases members <;> (rintro c ⟨⟩; decide)

theorem digitDiffers {c d : Char} (digit : Text.isDigit c = true) (other : Text.isDigit d = false) :
    c ≠ d := by
  rintro rfl
  rw [other] at digit
  cases digit

theorem digitVisible {c : Char} (digit : Text.isDigit c = true) : isBlank c = false := by
  simp only [isBlank, digitDiffers digit (show Text.isDigit ' ' = false from rfl),
    digitDiffers digit (show Text.isDigit '\n' = false from rfl),
    digitDiffers digit (show Text.isDigit '\t' = false from rfl),
    digitDiffers digit (show Text.isDigit '\r' = false from rfl), decide_false, Bool.or_false]

theorem renderStarts {levels : Nat} {j : Json} (exact : Exact levels j) :
    ∃ c rest, render j = c :: rest ∧ isBlank c = false ∧ c ≠ ']' := by
  cases exact with
  | null => exact ⟨_, _, rfl, by decide, by decide⟩
  | bool b => cases b <;> exact ⟨_, _, rfl, by decide, by decide⟩
  | @integer _ i word =>
    rcases Int.lt_or_le i 0 with below | above
    · exact ⟨'-', _, renderNegative below, by decide, by decide⟩
    · obtain ⟨c, rest, shown, digit⟩ := digitsStart i.natAbs
      exact ⟨c, rest, (renderNatural above).trans shown, digitVisible digit, digitDiffers digit rfl⟩
  | string s => exact ⟨_, _, rfl, by decide, by decide⟩
  | @array _ items each => cases items <;> exact ⟨_, _, rfl, by decide, by decide⟩
  | @object _ members distinct each => cases members <;> exact ⟨_, _, rfl, by decide, by decide⟩

section Scalars
variable {levels : Nat}

theorem readScalarBack {j : Json} {c : Char} {front : List Char} (shown : render j = c :: front)
    (visible : isBlank c = false) (noList : c ≠ '[') (noObject : c ≠ '\x7b')
    (read : ∀ tail, Ends tail → readScalar c (front ++ tail) = .ok (j, tail)) :
    ReadsBack levels j := by
  intro fuel tail enough ends
  rw [shown] at enough ⊢
  obtain _ | fuel := fuel
  · cases enough
  · rw [List.cons_append, readValue, skipVisible visible]
    simp only [if_neg noList, if_neg noObject]
    exact read tail ends

theorem readIntegerBack {i : Int} (word : IsWord i) : ReadsBack levels (.ofInt i) := by
  rcases Int.lt_or_le i 0 with below | above
  · refine readScalarBack (renderNegative below) (by decide) (by decide) (by decide) fun tail ends => ?_
    change (readNumber true _).map _ = _
    rw [readNegative below word ends]
    rfl
  · obtain ⟨c, front, shown, digit⟩ := digitsStart i.natAbs
    have natural : ((i.natAbs : Nat) : Int) = i := by omega
    refine readScalarBack ((renderNatural above).trans shown) (digitVisible digit)
      (digitDiffers digit rfl) (digitDiffers digit rfl) fun tail ends => ?_
    have read := readNatural (natural.symm ▸ word) ends
    rw [shown, List.cons_append, natural] at read
    rw [readScalar, if_neg (digitDiffers digit rfl), if_neg (digitDiffers digit rfl),
      if_neg (digitDiffers digit rfl), if_neg (digitDiffers digit rfl), if_pos digit, read]
    rfl

theorem readStringBack (s : String) : ReadsBack levels (.string s) := by
  refine readScalarBack rfl (by decide) (by decide) (by decide) fun tail _ => ?_
  change (readString ((s.toList.flatMap escapeChar ++ ['"']) ++ tail)).map _ = _
  rw [List.append_assoc, List.singleton_append, readRenderedString]
  rfl

end Scalars

section Containers
variable {levels fuel : Nat} {tail : List Char}

theorem readItemsBack {items : List Json} (exact : ∀ j ∈ items, Exact levels j)
    (each : ∀ j ∈ items, ReadsBack levels j) (enough : (renderItems items).length ≤ fuel) :
    readItems fuel levels false (renderItems items ++ tail) = .ok (items, tail) := by
  induction items generalizing fuel with
  | nil =>
    obtain _ | fuel := fuel
    · cases enough
    · rfl
  | cons j rest ih =>
    obtain _ | fuel := fuel
    · cases enough
    -- one step for the comma, and the rest of the fuel for the item and for those behind it
    simp only [renderItems, List.length_cons, List.length_append] at enough
    obtain ⟨d, front, shown, visible, notEnd⟩ := renderStarts (exact j List.mem_cons_self)
    have first := each j List.mem_cons_self fuel (renderItems rest ++ tail) (by omega)
      (endsItems rest tail)
    have others := ih (List.forall_mem_cons.mp exact).2 (List.forall_mem_cons.mp each).2
      (show (renderItems rest).length ≤ fuel by omega)
    rw [shown, List.cons_append] at first
    rw [renderItems, List.cons_append, List.append_assoc, shown, List.cons_append, readItems,
      skipVisible (by decide)]
    simp only [skipVisible visible, if_neg notEnd, first, okThen, others]
    rfl

theorem readArrayBack {items : List Json} (exact : ∀ j ∈ items, Exact levels j)
    (each : ∀ j ∈ items, ReadsBack levels j) : ReadsBack (levels + 1) (.array items) := by
  intro fuel tail enough ends
  cases items with
  | nil =>
    obtain _ | _ | fuel := fuel
    · cases enough
    · simp [render] at enough
    · rfl
  | cons j rest =>
    obtain ⟨d, front, shown, visible, notEnd⟩ := renderStarts (exact j List.mem_cons_self)
    have more := renderItemsPositive rest
    simp only [render, List.length_cons, List.length_append, shown] at enough
    obtain _ | _ | fuel := fuel
    · cases enough
    · omega
    have first := each j List.mem_cons_self fuel (renderItems rest ++ tail)
      (by rw [shown, List.length_cons]; omega) (endsItems rest tail)
    have others := @readItemsBack levels fuel tail rest (List.forall_mem_cons.mp exact).2
      (List.forall_mem_cons.mp each).2 (by omega)
    have items : readItems (fuel + 1) levels true (render j ++ (renderItems rest ++ tail)) =
        .ok (j :: rest, tail) := by
      rw [shown, List.cons_append] at first ⊢
      rw [readItems, skipVisible visible]
      simp only [if_neg notEnd, if_true, first, okThen, others]
    rw [render, List.cons_append, List.append_assoc, readValue, skipVisible (by decide)]
    simp only [if_true, items, okThen]

def memberText (m : String × Json) : List Char :=
  m.1.toList.flatMap escapeChar ++ '"' :: ':' :: render m.2

theorem renderMember (m : String × Json) :
    renderString m.1 ++ ':' :: render m.2 = '"' :: memberText m := by
  simp only [renderString, memberText, List.cons_append, List.append_assoc, List.nil_append]

theorem readColonBack (cs : List Char) : readColon (':' :: cs) = .ok ((), cs) := by
  rw [readColon, skipVisible (by decide)]
  rfl

theorem readMembersBack {members : List (String × Json)}
    (each : ∀ m ∈ members, ReadsBack levels m.2) (enough : (renderMembers members).length ≤ fuel) :
    readMembers fuel levels false (renderMembers members ++ tail) = .ok (members, tail) := by
  induction members generalizing fuel with
  | nil =>
    obtain _ | fuel := fuel
    · cases enough
    · rfl
  | cons m rest ih =>
    have shown : renderMembers (m :: rest) ++ tail =
        ',' :: '"' :: (memberText m ++ (renderMembers rest ++ tail)) := by
      have member := congrArg (· ++ (renderMembers rest ++ tail)) (renderMember m)
      simp only [List.append_assoc, List.cons_append] at member
      simp only [renderMembers, List.append_assoc, List.cons_append, member]
    have length := congrArg List.length shown
    simp only [memberText, List.length_cons, List.length_append] at length
    obtain _ | fuel := fuel
    · omega
    have first := each m List.mem_cons_self fuel (renderMembers rest ++ tail) (by omega)
      (endsMembers rest tail)
    have others := ih (List.forall_mem_cons.mp each).2
      (show (renderMembers rest).length ≤ fuel by omega)
    rw [shown, readMembers, skipVisible (by decide), memberText, List.append_assoc]
    simp only [show ¬ (',' : Char) = '\x7d' by decide, if_false, Bool.not_false, ne_eq, not_true,
      decide_false, Bool.and_false, Bool.false_eq_true, skipVisible (show isBlank '"' = false from rfl),
      readNameStart, if_true, okThen, List.cons_append, readRenderedString, readColonBack, first,
      others]

theorem readObjectBack {members : List (String × Json)} (distinct : Entries.Distinct members)
    (each : ∀ m ∈ members, ReadsBack levels m.2) : ReadsBack (levels + 1) (.object members) := by
  intro fuel tail enough ends
  cases members with
  | nil =>
    obtain _ | _ | fuel := fuel
    · cases enough
    · simp [render] at enough
    · rfl
  | cons m rest =>
    have shown : render (.object (m :: rest)) ++ tail =
        openBrace :: '"' :: (memberText m ++ (renderMembers rest ++ tail)) := by
      have member := congrArg (· ++ (renderMembers rest ++ tail)) (renderMember m)
      simp only [List.append_assoc, List.cons_append] at member
      simp only [render, List.append_assoc, List.cons_append, member]
    have length := congrArg List.length shown
    simp only [memberText, List.length_cons, List.length_append] at length
    obtain _ | _ | fuel := fuel
    · omega
    · omega
    have first := each m List.mem_cons_self fuel (renderMembers rest ++ tail) (by omega)
      (endsMembers rest tail)
    have others := @readMembersBack levels fuel tail rest (List.forall_mem_cons.mp each).2 (by omega)
    have members : readMembers (fuel + 1) levels true
        ('"' :: (memberText m ++ (renderMembers rest ++ tail))) = .ok (m :: rest, tail) := by
      rw [readMembers, skipVisible (by decide), memberText, List.append_assoc]
      simp only [show ¬ ('"' : Char) = '\x7d' by decide, if_false, Bool.not_true, Bool.false_and,
        Bool.false_eq_true, readNameStart, if_true, okThen, List.cons_append, readRenderedString,
        readColonBack, first, others]
    rw [shown, openBrace, readValue, skipVisible (by decide)]
    simp only [show ¬ ('\x7b' : Char) = '[' by decide, if_false, if_true, members, okThen,
      Entries.ofListDistinct distinct]

end Containers

theorem Exact.readsBack {levels : Nat} {j : Json} (exact : Exact levels j) : ReadsBack levels j := by
  induction exact with
  | null => exact readScalarBack rfl (by decide) (by decide) (by decide) fun _ _ => rfl
  | bool b =>
    cases b <;> exact readScalarBack rfl (by decide) (by decide) (by decide) fun _ _ => rfl
  | integer word => exact readIntegerBack word
  | string s => exact readStringBack s
  | array each ih => exact readArrayBack each ih
  | object distinct _ ih => exact readObjectBack distinct ih

theorem parseCompact {j : Json} (exact : Exact deepest j) : parse j.compact = .ok j := by
  have read := exact.readsBack (2 * (render j).length + 2) [] (by omega) endsNothing
  rw [List.append_nil] at read
  rw [parse, compact, String.toList_ofList, readDocument, read]
  rfl

end Reshape.Json
