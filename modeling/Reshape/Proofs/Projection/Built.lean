import Reshape.Projection.Document
import Reshape.Proofs.Entries
import Reshape.Proofs.Fallible
import Reshape.Proofs.Projection.Beside
/-! Projections that a builder or a document builds. Fields get in by `insert` only, so no name of a
field starts with `@`, at any depth. -/
namespace Reshape
variable {F : Type}

mutual

inductive Projection.Built : Projection F → Prop where
  | object {fields : Entries (Spec F)} {directives : List (Directive F)}
      (built : ObjectProjection.Built ⟨fields, directives⟩) :
      Projection.Built (.object fields directives)
  | list {slots : List (Projection F)} (each : ∀ p ∈ slots, p.Built) : Projection.Built (.list slots)

inductive ObjectProjection.Built : ObjectProjection F → Prop where
  | empty : ObjectProjection.Built .empty
  | insert {p : ObjectProjection F} (built : p.Built) (key : String) {spec : Spec F}
      (stands : spec.Built) : ObjectProjection.Built (p.insert key spec)
  | directive {p : ObjectProjection F} (built : p.Built) {d : Directive F} (stands : d.Built) :
      ObjectProjection.Built (p.directive d)

inductive Spec.Built : Spec F → Prop where
  | plain {spec : Spec F} (plain : spec.isProjection = false) : Spec.Built spec
  | nested {p : Projection F} (built : p.Built) : Spec.Built (.nested p)
  | project {q : Projector F} (built : q.projection.Built) : Spec.Built (.project q)

inductive Directive.Built : Directive F → Prop where
  | array : Directive.Built .array
  | conditions {items : List (Condition F)} (each : ∀ item ∈ items, item.source.Built) :
      Directive.Built (.conditions items)
  | combine (suffix : Option String) (fn : ContextFn F) : Directive.Built (.combine suffix fn)

inductive Source.Built : Source F → Prop where
  | compute (fn : ContextFn F) : Source.Built (.compute fn)
  | inline {p : Projection F} (built : p.Built) : Source.Built (.inline p)
  | project {q : Projector F} (built : q.projection.Built) : Source.Built (.project q)

end

namespace ObjectProjection

theorem directive?Built {key : String} {spec : Spec F} {d : Directive F}
    (read : directive? key spec = some d) : d.Built := by
  unfold directive? at read
  split at read
  · split at read
    · cases read
      exact .array
    · cases read
  · split at read
    · cases read
      exact .combine _ _
    · obtain ⟨suffix, _, rfl⟩ := Option.map_eq_some_iff.mp read
      exact .combine _ _
  · cases read

theorem directiveFields (p : ObjectProjection F) (d : Directive F) :
    (p.directive d).fields = p.fields := by
  unfold directive
  split <;> rfl

theorem directiveMember {p : ObjectProjection F} {d e : Directive F} (member : e ∈ (p.directive d).directives) :
    e ∈ p.directives ∨ e = d := by
  unfold directive at member
  split at member
  · exact .inl member
  · rcases List.mem_append.mp member with before | last
    · exact .inl before
    · exact .inr (List.mem_singleton.mp last)

theorem insertField {p : ObjectProjection F} {key : String} {spec : Spec F} {f : String × Spec F}
    (member : f ∈ (p.insert key spec).fields) :
    f ∈ p.fields ∨ isReserved key = false ∧ f = (key, spec) := by
  unfold insert at member
  split at member
  · split at member
    · rw [directiveFields] at member
      exact .inl member
    · exact .inl member
  · rename_i ordinary
    exact (Entries.memberPut member).imp_right fun same => ⟨eq_false_of_ne_true ordinary, same⟩

theorem insertDirective {p : ObjectProjection F} {key : String} {spec : Spec F} {d : Directive F}
    (member : d ∈ (p.insert key spec).directives) :
    d ∈ p.directives ∨ directive? key spec = some d := by
  unfold insert at member
  split at member
  · split at member
    · rename_i read
      rcases directiveMember member with already | rfl
      · exact .inl already
      · exact .inr read
    · exact .inl member
  · exact .inl member

theorem Built.fields : {p : ObjectProjection F} → p.Built →
    ∀ f ∈ p.fields, isReserved f.1 = false ∧ f.2.Built
  | _, .empty => nofun
  | _, .directive before _ => fun f member => before.fields f (directiveFields _ _ ▸ member)
  | _, .insert before _ stands => by
    intro f member
    rcases insertField member with already | ⟨ordinary, rfl⟩
    · exact before.fields f already
    · exact ⟨ordinary, stands⟩

theorem Built.directives : {p : ObjectProjection F} → p.Built → ∀ d ∈ p.directives, d.Built
  | _, .empty => nofun
  | _, .directive before stands => by
    intro d member
    rcases directiveMember member with already | rfl
    · exact before.directives d already
    · exact stands
  | _, .insert before _ _ => by
    intro d member
    rcases insertDirective member with already | read
    · exact before.directives d already
    · exact directive?Built read

end ObjectProjection

namespace Projection
open Fallible

theorem Built.nested {p q : Projection F} {key : Key} (built : p.Built) (stands : p.Nests key q) :
    q.Built := by
  cases stands with
  | field stands =>
    obtain ⟨built⟩ := built
    cases (built.fields _ stands).2 with
    | nested built => exact built
    | plain plain => cases plain
  | inline declared stands =>
    obtain ⟨built⟩ := built
    obtain _ | each := built.directives _ declared
    cases each _ stands with
    | inline built => exact built
  | itself => exact built
  | slot stands =>
    obtain _ | each := built
    exact each _ (List.mem_of_getElem? stands)
  | position stands =>
    obtain _ | each := built
    exact each _ (List.mem_of_getElem? stands)

theorem Built.named {p : Projection F} {q : Projector F} {key : Key} (built : p.Built)
    (stands : p.Names key q) : q.projection.Built := by
  cases stands with
  | field stands =>
    obtain ⟨built⟩ := built
    cases (built.fields _ stands).2 with
    | project built => exact built
    | plain plain => cases plain
  | condition declared stands =>
    obtain ⟨built⟩ := built
    obtain _ | each := built.directives _ declared
    cases each _ stands with
    | project built => exact built

theorem ofTagBuilt (text : String) : (Spec.ofTag text : Spec F).Built := by
  unfold Spec.ofTag
  split <;> exact .plain rfl

theorem loadItemsCons {index : Nat} {item : Json} {rest : List Json} {slots : List (Projection F)}
    (read : loadItems index (item :: rest) = .ok slots) :
    ∃ slot others, load item = .ok slot ∧ loadItems (index + 1) rest = .ok others ∧
      slots = slot :: others := by
  have first : (do
      let slot ← load item
      let others ← loadItems (index + 1) rest
      .ok (slot :: others)) = (.ok slots : Except Fault _) := by
    cases item with
    | object members => exact read
    | array items => exact read
    | _ => cases read
  obtain ⟨slot, here, read⟩ := bindOk.mp first
  obtain ⟨others, behind, same⟩ := bindOk.mp read
  cases same
  exact ⟨slot, others, here, behind, rfl⟩

mutual

theorem loadBuilt {p : Projection F} : {document : Json} → load document = .ok p → p.Built
  | .object members, read => by
    rw [load] at read
    obtain ⟨q, loaded, rfl⟩ := mapOk.mp read
    exact .object (loadMembersBuilt .empty loaded)
  | .array items, read => by
    rw [load] at read
    obtain ⟨slots, loaded, rfl⟩ := mapOk.mp read
    exact .list (loadItemsBuilt loaded)
  | .null, read => nomatch read
  | .bool _, read => nomatch read
  | .number _, read => nomatch read
  | .string _, read => nomatch read

theorem loadItemsBuilt {index : Nat} {slots : List (Projection F)} :
    {items : List Json} → loadItems index items = .ok slots → ∀ p ∈ slots, p.Built
  | [], read => by
    cases read
    exact nofun
  | item :: rest, read => by
    obtain ⟨slot, others, here, behind, rfl⟩ := loadItemsCons read
    exact List.forall_mem_cons.mpr ⟨loadBuilt here, loadItemsBuilt behind⟩

theorem loadMembersBuilt {p q : ObjectProjection F} (built : p.Built) :
    {members : List (String × Json)} → loadMembers p members = .ok q → q.Built
  | [], read => by
    cases read
    exact built
  | (key, document) :: rest, read => by
    rw [loadMembers] at read
    split at read
    · split at read
      · exact loadMembersBuilt (built.directive .array) read
      · exact loadMembersBuilt built read
    · split at read
      · cases read
      · obtain ⟨spec, here, behind⟩ := bindOk.mp read
        exact loadMembersBuilt (built.insert key (loadSpecBuilt here)) behind

theorem loadSpecBuilt {spec : Spec F} : {document : Json} → loadSpec document = .ok spec → spec.Built
  | .string tag, read => by
    cases read
    exact ofTagBuilt tag
  | .object members, read => by
    rw [loadSpec] at read
    obtain ⟨q, loaded, rfl⟩ := mapOk.mp read
    exact .nested (.object (loadMembersBuilt .empty loaded))
  | .array items, read => by
    rw [loadSpec] at read
    obtain ⟨slots, loaded, rfl⟩ := mapOk.mp read
    exact .nested (.list (loadItemsBuilt loaded))
  | .null, read => by
    cases read
    exact .plain rfl
  | .bool b, read => by
    cases read
    exact .plain rfl
  | .number n, read => by
    cases read
    exact .plain rfl

end

theorem parseBuilt {text : String} {p : Projection F} (read : parse text = .ok p) : p.Built := by
  unfold parse at read
  split at read
  · exact loadBuilt (mapErrorOk.mp read)
  · cases read

end Projection
end Reshape
