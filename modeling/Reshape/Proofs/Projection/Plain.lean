import Reshape.Proofs.Entries
import Reshape.Proofs.Fallible
import Reshape.Proofs.Reference.Free
import Reshape.Projection.Document
/-! Projections that only select: fields are type tags, data passed through, literals and plain
projections again, and the only directive is `@array`. Nothing in them calls back. Every projection
that is written as a document is plain. -/
namespace Reshape
open Fallible
variable {F : Type}

mutual

inductive Projection.Plain : Projection F → Prop where
  | object {fields : List (String × Spec F)} {directives : List (Directive F)}
      (distinct : Entries.Distinct fields) (specs : ∀ f ∈ fields, f.2.Plain)
      (arrays : ∀ d ∈ directives, d = .array) : Projection.Plain (.object fields directives)
  | list {slots : List (Projection F)} (each : ∀ p ∈ slots, p.Plain) : Projection.Plain (.list slots)

inductive Spec.Plain : Spec F → Prop where
  | typed (tag : TypeTag) : Spec.Plain (.typed tag)
  | passthrough : Spec.Plain .passthrough
  | literal (v : Value) : Spec.Plain (.literal v)
  | nested {p : Projection F} (plain : p.Plain) : Spec.Plain (.nested p)

end

inductive Projection.HasLiteral (v : Value) : Projection F → Prop where
  | field {fields : List (String × Spec F)} {directives : List (Directive F)} {key : String}
      (member : (key, .literal v) ∈ fields) : HasLiteral v (.object fields directives)
  | nested {fields : List (String × Spec F)} {directives : List (Directive F)} {key : String}
      {p : Projection F} (member : (key, .nested p) ∈ fields) (inside : p.HasLiteral v) :
      HasLiteral v (.object fields directives)
  | slot {slots : List (Projection F)} {p : Projection F} (member : p ∈ slots)
      (inside : p.HasLiteral v) : HasLiteral v (.list slots)

theorem Projection.objectHasLiteral {v : Value} {fields : List (String × Spec F)}
    {directives : List (Directive F)} :
    (object fields directives).HasLiteral v ↔
      (∃ key, (key, .literal v) ∈ fields) ∨ ∃ key p, (key, .nested p) ∈ fields ∧ p.HasLiteral v := by
  constructor
  · intro literal
    cases literal with
    | field member => exact .inl ⟨_, member⟩
    | nested member inside => exact .inr ⟨_, _, member, inside⟩
  · rintro (⟨_, member⟩ | ⟨_, _, member, inside⟩)
    · exact .field member
    · exact .nested member inside

theorem Projection.listHasLiteral {v : Value} {slots : List (Projection F)} :
    (list slots).HasLiteral v ↔ ∃ p ∈ slots, p.HasLiteral v := by
  constructor
  · intro literal
    cases literal with
    | slot member inside => exact ⟨_, member, inside⟩
  · rintro ⟨_, member, inside⟩
    exact .slot member inside

structure Projection.Selective (p : Projection F) : Prop where
  plain : p.Plain
  literals : ∀ v, p.HasLiteral v → v.ReferenceFree

inductive Projection.Objects : Projection F → Prop where
  | object {fields : List (String × Spec F)} {directives : List (Directive F)}
      (nested : ∀ key p, (key, .nested p) ∈ fields → p.Objects) :
      Projection.Objects (.object fields directives)

namespace Projection.Selective

theorem spec {fields : List (String × Spec F)} {directives : List (Directive F)}
    (selective : (object fields directives).Selective) {f : String × Spec F} (member : f ∈ fields) :
    f.2.Plain := by
  obtain ⟨_, specs, _⟩ := selective.plain
  exact specs f member

theorem nested {fields : List (String × Spec F)} {directives : List (Directive F)} {key : String}
    {p : Projection F} (selective : (object fields directives).Selective)
    (member : (key, .nested p) ∈ fields) : p.Selective where
  plain := by
    cases selective.spec member with
    | nested plain => exact plain
  literals v inside := selective.literals v (.nested member inside)

theorem slot {slots : List (Projection F)} {p : Projection F} (selective : (list slots).Selective)
    (member : p ∈ slots) : p.Selective where
  plain := by
    cases selective.plain with
    | list each => exact each p member
  literals v inside := selective.literals v (.slot member inside)

end Projection.Selective

namespace ObjectProjection

theorem plainEmpty : (empty : ObjectProjection F).build.Plain :=
  .object List.nodup_nil (fun _ => (nomatch ·)) fun _ => (nomatch ·)

theorem plainArray {p : ObjectProjection F} (plain : p.build.Plain) : p.array.build.Plain := by
  unfold array directive
  split
  · exact plain
  · obtain ⟨distinct, specs, arrays⟩ := plain
    refine .object distinct specs fun d member => ?_
    rcases List.mem_append.mp member with member | member
    · exact arrays d member
    · exact List.mem_singleton.mp member

theorem plainInsert {p : ObjectProjection F} (plain : p.build.Plain) {key : String}
    (free : isReserved key = false) {spec : Spec F} (plainSpec : spec.Plain) :
    (p.insert key spec).build.Plain := by
  obtain ⟨distinct, specs, arrays⟩ := plain
  rw [insert, free]
  refine .object (distinct.put key spec) (fun f member => ?_) arrays
  rcases Entries.memberPut member with member | rfl
  · exact specs f member
  · exact plainSpec

end ObjectProjection

namespace Projection

mutual

theorem loadPlain {j : Json} {p : Projection F} (ok : load j = .ok p) : p.Plain :=
  match j with
  | .object members => by
    obtain ⟨q, members, rfl⟩ := mapOk.mp ok
    exact loadMembersPlain ObjectProjection.plainEmpty members
  | .array items => by
    obtain ⟨slots, items, rfl⟩ := mapOk.mp ok
    exact .list (loadItemsPlain items)
  | .null | .bool _ | .number _ | .string _ => nomatch ok

theorem loadItemsPlain {items : List Json} {index : Nat} {slots : List (Projection F)}
    (ok : loadItems index items = .ok slots) : ∀ p ∈ slots, p.Plain :=
  match items with
  | [] => by
    cases ok
    exact fun _ => (nomatch ·)
  | item :: rest => by
    have behind : ∀ {slots}, (do
        let slot ← load item
        let slots ← loadItems (index + 1) rest
        .ok (slot :: slots) : Except Fault (List (Projection F))) = .ok slots →
        ∀ p ∈ slots, p.Plain := by
      intro slots ok
      obtain ⟨slot, first, ok⟩ := bindOk.mp ok
      obtain ⟨slots, others, same⟩ := bindOk.mp ok
      cases same
      exact List.forall_mem_cons.mpr ⟨loadPlain first, loadItemsPlain others⟩
    cases item with
    | object => exact behind ok
    | array => exact behind ok
    | _ => cases ok

theorem loadMembersPlain {members : List (String × Json)} {p q : ObjectProjection F}
    (plain : p.build.Plain) (ok : loadMembers p members = .ok q) : q.build.Plain :=
  match members with
  | [] => by
    cases ok
    exact plain
  | m :: rest => by
    rw [loadMembers] at ok
    split at ok
    · split at ok
      · exact loadMembersPlain (ObjectProjection.plainArray plain) ok
      · exact loadMembersPlain plain ok
    · split at ok
      · cases ok
      · rename_i free
        obtain ⟨spec, first, others⟩ := bindOk.mp ok
        have plainSpec := loadSpecPlain first
        exact loadMembersPlain (ObjectProjection.plainInsert plain (by simpa using free) plainSpec)
          others

theorem loadSpecPlain {j : Json} {spec : Spec F} (ok : loadSpec j = .ok spec) : spec.Plain :=
  match j with
  | .string tag => by
    cases ok
    unfold Spec.ofTag
    split
    · exact .typed _
    · exact .literal _
  | .object members => by
    obtain ⟨q, members, rfl⟩ := mapOk.mp ok
    exact .nested (loadMembersPlain ObjectProjection.plainEmpty members)
  | .array items => by
    obtain ⟨slots, items, rfl⟩ := mapOk.mp ok
    exact .nested (.list (loadItemsPlain items))
  | .null | .bool _ | .number _ => by
    cases ok
    exact .literal _

end

theorem ofJsonPlain {document : Json} {p : Projection F} (ok : ofJson document = .ok p) : p.Plain :=
  loadPlain (mapErrorOk.mp ok)

end Projection
end Reshape
