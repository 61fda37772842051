import Reshape.Proofs.Projection.Built
import Reshape.Proofs.Projection.Calls
/-! What documents load as. Acceptable documents are a grammar of their own, and exactly these load,
every part of the document as a part of the projection. What is reported of any other document is its
first defect, in the order of the text; the value of `@array` has none. -/
namespace Reshape
open Fallible ObjectProjection
variable {F : Type}

namespace Json

def isContainer : Json → Bool
  | .array _ | .object _ => true
  | _ => false

inductive NamedOnce : Json → Prop where
  | scalar {j : Json} (scalar : j.isContainer = false) : NamedOnce j
  | array {items : List Json} (each : ∀ j ∈ items, j.NamedOnce) : NamedOnce (.array items)
  | object {members : List (String × Json)} (distinct : Entries.Distinct members)
      (each : ∀ m ∈ members, m.2.NamedOnce) : NamedOnce (.object members)

mutual

inductive Loadable : Json → Prop where
  | array {items : List Json} (each : ∀ j ∈ items, Loadable j) : Loadable (.array items)
  | object {members : List (String × Json)} (each : ∀ m ∈ members, LoadableMember m) :
      Loadable (.object members)

inductive LoadableMember : String × Json → Prop where
  | flag (value : Json) : LoadableMember (arrayKey, value)
  | scalar {key : String} {value : Json} (ordinary : isReserved key = false)
      (scalar : value.isContainer = false) : LoadableMember (key, value)
  | container {key : String} {value : Json} (ordinary : isReserved key = false)
      (loadable : Loadable value) : LoadableMember (key, value)

end

theorem NamedOnce.items {items : List Json} (named : (Json.array items).NamedOnce) :
    ∀ j ∈ items, j.NamedOnce := by
  cases named with
  | array each => exact each
  | scalar scalar => cases scalar

theorem NamedOnce.members {members : List (String × Json)} (named : (Json.object members).NamedOnce) :
    Entries.Distinct members ∧ ∀ m ∈ members, m.2.NamedOnce := by
  cases named with
  | object distinct each => exact ⟨distinct, each⟩
  | scalar scalar => cases scalar

end Json

namespace Projection

def ordinaryMembers (members : List (String × Json)) : List (String × Json) :=
  members.filter fun m => !isReserved m.1

mutual

inductive Loaded : Json → Projection F → Prop where
  | list {items : List Json} {slots : List (Projection F)} (each : List.Forall₂ Loaded items slots) :
      Loaded (.array items) (.list slots)
  | object {members : List (String × Json)} {fields : List (String × Spec F)}
      {directives : List (Directive F)}
      (each : List.Forall₂ LoadedField (ordinaryMembers members) fields)
      (flagged : (arrayKey, .bool true) ∈ members → directives = [.array])
      (unflagged : (arrayKey, .bool true) ∉ members → directives = []) :
      Loaded (.object members) (.object fields directives)

inductive LoadedField : String × Json → String × Spec F → Prop where
  | tag {key text : String} {tag : TypeTag} (known : TypeTag.parse? text = some tag) :
      LoadedField (key, .string text) (key, .typed tag)
  | text {key text : String} (unknown : TypeTag.parse? text = none) :
      LoadedField (key, .string text) (key, .literal (.string text))
  | null {key : String} : LoadedField (key, .null) (key, .literal .null)
  | bool {key : String} (b : Bool) : LoadedField (key, .bool b) (key, .literal (.bool b))
  | number {key : String} (n : Number) : LoadedField (key, .number n) (key, .literal (.number n))
  | container {key : String} {value : Json} {p : Projection F} (loaded : Loaded value p) :
      LoadedField (key, value) (key, .nested p)

end

mutual

inductive FirstFault : Json → Fault → Prop where
  | scalar {j : Json} (scalar : j.isContainer = false) :
      FirstFault j (.notContainer (Value.ofJson j).typeName)
  | item {items : List Json} {fault : Fault} (first : FirstItemFault 0 items fault) :
      FirstFault (.array items) fault
  | member {members : List (String × Json)} {fault : Fault} (first : FirstMemberFault members fault) :
      FirstFault (.object members) fault

inductive FirstItemFault : Nat → List Json → Fault → Prop where
  | scalar {i : Nat} {item : Json} {rest : List Json} (scalar : item.isContainer = false) :
      FirstItemFault i (item :: rest) (.itemNotContainer i)
  | inside {i : Nat} {item : Json} {rest : List Json} {fault : Fault}
      (container : item.isContainer = true) (first : FirstFault item fault) :
      FirstItemFault i (item :: rest) fault
  | behind {i : Nat} {item : Json} {rest : List Json} {fault : Fault} (loadable : item.Loadable)
      (first : FirstItemFault (i + 1) rest fault) : FirstItemFault i (item :: rest) fault

inductive FirstMemberFault : List (String × Json) → Fault → Prop where
  | directive {key : String} {value : Json} {rest : List (String × Json)}
      (reserved : isReserved key = true) (other : key ≠ arrayKey) :
      FirstMemberFault ((key, value) :: rest) (.directive key)
  | inside {key : String} {value : Json} {rest : List (String × Json)} {fault : Fault}
      (ordinary : isReserved key = false) (container : value.isContainer = true)
      (first : FirstFault value fault) : FirstMemberFault ((key, value) :: rest) fault
  | behind {m : String × Json} {rest : List (String × Json)} {fault : Fault}
      (loadable : Json.LoadableMember m) (first : FirstMemberFault rest fault) :
      FirstMemberFault (m :: rest) fault

end

section Members
variable {p q : ObjectProjection F} {rest : List (String × Json)} {key : String} {value : Json}

structure MembersLoaded (p : ObjectProjection F) (members : List (String × Json))
    (q : ObjectProjection F) : Prop where
  loadable : ∀ m ∈ members, Json.LoadableMember m
  fields : ∃ fields, List.Forall₂ LoadedField (ordinaryMembers members) fields ∧
    q.fields = p.fields.overlay fields
  flagged : (arrayKey, .bool true) ∈ members → q.directives = enlist p.directives .array
  unflagged : (arrayKey, .bool true) ∉ members → q.directives = p.directives

theorem enlistAgain (ds : List (Directive F)) : enlist (enlist ds .array) .array = enlist ds .array := by
  have already : (enlist ds .array).any Directive.isArray = true := by
    rw [enlistArray]
    exact Bool.or_true _
  rw [enlist, already]
  rfl

theorem reservedMember (reserved : isReserved key = true) :
    ordinaryMembers ((key, value) :: rest) = ordinaryMembers rest :=
  List.filter_cons_of_neg (by simp [reserved])

theorem ordinaryMember (ordinary : isReserved key = false) :
    ordinaryMembers ((key, value) :: rest) = (key, value) :: ordinaryMembers rest :=
  List.filter_cons_of_pos (by simp [ordinary])

theorem arrayKeyReserved : isReserved arrayKey = true := by decide

namespace MembersLoaded

theorem nothing (p : ObjectProjection F) : MembersLoaded p [] p where
  loadable := nofun
  fields := ⟨[], .nil, rfl⟩
  flagged := nofun
  unflagged _ := rfl

theorem flag (loaded : MembersLoaded p.array rest q) :
    MembersLoaded p ((arrayKey, .bool true) :: rest) q := by
  have declared : p.array = { p with directives := enlist p.directives .array } :=
    directiveEnlists p .array
  rw [declared] at loaded
  refine ⟨List.forall_mem_cons.mpr ⟨.flag _, loaded.loadable⟩, ?_, fun _ => ?_, fun without => ?_⟩
  · rw [reservedMember arrayKeyReserved]
    exact loaded.fields
  · by_cases again : (arrayKey, Json.bool true) ∈ rest
    · exact (loaded.flagged again).trans (enlistAgain _)
    · exact loaded.unflagged again
  · exact absurd List.mem_cons_self without

theorem past {m : String × Json} (other : m ≠ (arrayKey, .bool true)) {fields : Entries (Spec F)}
    (loadable : Json.LoadableMember m) (loaded : MembersLoaded ⟨fields, p.directives⟩ rest q)
    (each : ∃ fields, List.Forall₂ LoadedField (ordinaryMembers (m :: rest)) fields ∧
      q.fields = p.fields.overlay fields) :
    MembersLoaded p (m :: rest) q where
  loadable := List.forall_mem_cons.mpr ⟨loadable, loaded.loadable⟩
  fields := each
  flagged member := loaded.flagged (List.mem_of_ne_of_mem other.symm member)
  unflagged without := loaded.unflagged fun member => without (List.mem_cons_of_mem _ member)

theorem noFlag (other : value ≠ .bool true) (loaded : MembersLoaded p rest q) :
    MembersLoaded p ((arrayKey, value) :: rest) q := by
  refine past (fun same => other (congrArg Prod.snd same)) (.flag value) loaded ?_
  rw [reservedMember arrayKeyReserved]
  exact loaded.fields

theorem field {spec : Spec F} (ordinary : isReserved key = false)
    (loadable : Json.LoadableMember (key, value)) (here : LoadedField (key, value) (key, spec))
    (loaded : MembersLoaded (p.insert key spec) rest q) :
    MembersLoaded p ((key, value) :: rest) q := by
  have inserted : p.insert key spec = ⟨p.fields.put key spec, p.directives⟩ := by
    rw [ObjectProjection.insert, ordinary]
    rfl
  have other : (key, value) ≠ (arrayKey, .bool true) := fun same => by
    obtain ⟨rfl, _⟩ := Prod.mk.inj same
    cases arrayKeyReserved.symm.trans ordinary
  rw [inserted] at loaded
  refine past other loadable loaded ?_
  obtain ⟨fields, each, whole⟩ := loaded.fields
  rw [ordinaryMember ordinary]
  exact ⟨(key, spec) :: fields, .cons here each, whole⟩

end MembersLoaded

end Members

theorem loadSpecContainer {value : Json} (container : value.isContainer = true) :
    (loadSpec value : Except Fault (Spec F)) = (load value).map .nested := by
  cases value with
  | array items =>
    rw [loadSpec, load]
    cases (loadItems 0 items : Except Fault (List (Projection F))) <;> rfl
  | object members =>
    rw [loadSpec, load]
    cases (loadMembers .empty members : Except Fault (ObjectProjection F)) <;> rfl
  | _ => cases container

theorem scalarLoaded {value : Json} (scalar : value.isContainer = false) (key : String) :
    ∃ spec : Spec F, loadSpec value = .ok spec ∧ LoadedField (key, value) (key, spec) := by
  cases value with
  | null => exact ⟨_, rfl, .null⟩
  | bool b => exact ⟨_, rfl, .bool b⟩
  | number n => exact ⟨_, rfl, .number n⟩
  | string text =>
    refine ⟨_, rfl, ?_⟩
    unfold Spec.ofTag
    split
    · rename_i known
      exact .tag known
    · rename_i unknown
      exact .text unknown
  | array items => cases scalar
  | object members => cases scalar

theorem memberLoaded {key : String} {value : Json} (ordinary : isReserved key = false)
    (inside : ∀ p : Projection F, load value = .ok p → value.Loadable ∧ Loaded value p)
    {spec : Spec F} (read : loadSpec value = .ok spec) :
    Json.LoadableMember (key, value) ∧ LoadedField (key, value) (key, spec) := by
  cases container : value.isContainer with
  | false =>
    obtain ⟨found, same, field⟩ := scalarLoaded container key
    cases same.symm.trans read
    exact ⟨.scalar ordinary container, field⟩
  | true =>
    rw [loadSpecContainer container] at read
    obtain ⟨p, found, rfl⟩ := mapOk.mp read
    obtain ⟨loadable, loaded⟩ := inside p found
    exact ⟨.container ordinary loadable, .container loaded⟩

theorem LoadedField.name {m : String × Json} {f : String × Spec F} (loaded : LoadedField m f) :
    m.1 = f.1 := by
  cases loaded <;> rfl

theorem loadedNames {members : List (String × Json)} {fields : List (String × Spec F)}
    (each : List.Forall₂ LoadedField members fields) : Entries.keys members = Entries.keys fields := by
  induction each with
  | nil => rfl
  | cons here _ ih => exact List.cons_eq_cons.mpr ⟨here.name, ih⟩

/- Names that do not repeat are not written over, so all fields stand where their members stood. -/
theorem MembersLoaded.built {members : List (String × Json)} {q : ObjectProjection F}
    (distinct : Entries.Distinct members) (loaded : MembersLoaded .empty members q) :
    Loaded (.object members) q.build := by
  obtain ⟨fields, each, whole⟩ := loaded.fields
  have kept : (Entries.keys (ordinaryMembers members)).Nodup :=
    distinct.sublist (List.filter_sublist.map _)
  have separate : Entries.Distinct fields := by
    rw [Entries.Distinct, ← loadedNames each]
    exact kept
  have same : q.fields = fields := whole.trans (Entries.ofListDistinct separate)
  exact .object (same ▸ each) loaded.flagged loaded.unflagged

mutual

theorem loadOk : {document : Json} → document.NamedOnce → ∀ {p : Projection F},
    load document = .ok p → document.Loadable ∧ Loaded document p
  | .array items, named, p, read => by
    rw [load] at read
    obtain ⟨slots, found, rfl⟩ := mapOk.mp read
    obtain ⟨loadable, each⟩ := loadItemsOk named.items found
    exact ⟨.array loadable, .list each⟩
  | .object members, named, p, read => by
    rw [load] at read
    obtain ⟨q, found, rfl⟩ := mapOk.mp read
    have loaded := loadMembersOk named.members.2 found
    exact ⟨.object loaded.loadable, loaded.built named.members.1⟩
  | .null, _, _, read => nomatch read
  | .bool _, _, _, read => nomatch read
  | .number _, _, _, read => nomatch read
  | .string _, _, _, read => nomatch read

theorem loadItemsOk : {items : List Json} → (∀ j ∈ items, j.NamedOnce) → ∀ {index : Nat}
    {slots : List (Projection F)}, loadItems index items = .ok slots →
      (∀ j ∈ items, j.Loadable) ∧ List.Forall₂ Loaded items slots
  | [], _, _, _, read => by
    cases read
    exact ⟨nofun, .nil⟩
  | item :: rest, named, _, _, read => by
    obtain ⟨here, behind⟩ := List.forall_mem_cons.mp named
    obtain ⟨slot, others, first, more, rfl⟩ := loadItemsCons read
    obtain ⟨loadable, loaded⟩ := loadOk here first
    obtain ⟨loadables, each⟩ := loadItemsOk behind more
    exact ⟨List.forall_mem_cons.mpr ⟨loadable, loadables⟩, .cons loaded each⟩

theorem loadMembersOk : {members : List (String × Json)} → (∀ m ∈ members, m.2.NamedOnce) →
    ∀ {p q : ObjectProjection F}, loadMembers p members = .ok q → MembersLoaded p members q
  | [], _, p, _, read => by
    cases read
    exact .nothing p
  | (key, value) :: rest, named, p, q, read => by
    obtain ⟨here, behind⟩ := List.forall_mem_cons.mp named
    rw [loadMembers] at read
    split at read
    · rename_i same
      obtain rfl : key = arrayKey := same
      split at read
      · rename_i flag
        obtain rfl : value = .bool true := flag
        exact .flag (loadMembersOk behind read)
      · rename_i other
        exact .noFlag other (loadMembersOk behind read)
    · split at read
      · cases read
      · rename_i free
        have ordinary : isReserved key = false := eq_false_of_ne_true free
        obtain ⟨spec, first, more⟩ := bindOk.mp read
        obtain ⟨loadable, field⟩ := memberLoaded ordinary (fun _ => loadOk here) first
        exact .field ordinary loadable field (loadMembersOk behind more)

end

theorem memberFails {value : Json} {fault : Fault}
    (read : (loadSpec value : Except Fault (Spec F)) = .error fault) :
    value.isContainer = true ∧ (load value : Except Fault (Projection F)) = .error fault := by
  cases container : value.isContainer with
  | false =>
    have loads : ∃ spec : Spec F, loadSpec value = .ok spec ∧ _ := scalarLoaded container ""
    obtain ⟨spec, same, _⟩ := loads
    cases same.symm.trans read
  | true =>
    rw [loadSpecContainer container] at read
    exact ⟨rfl, mapFails.mp read⟩

theorem loadItemsContainer {item : Json} (container : item.isContainer = true) (index : Nat)
    (rest : List Json) :
    (loadItems index (item :: rest) : Except Fault (List (Projection F))) = (do
      let slot ← load item
      let others ← loadItems (index + 1) rest
      .ok (slot :: others)) := by
  cases item with
  | array items => rfl
  | object members => rfl
  | _ => cases container

theorem loadItemsScalar {item : Json} (scalar : item.isContainer = false) (index : Nat)
    (rest : List Json) :
    (loadItems index (item :: rest) : Except Fault (List (Projection F))) =
      .error (.itemNotContainer index) := by
  cases item with
  | array items => cases scalar
  | object members => cases scalar
  | _ => rfl

mutual

theorem loadFails : {document : Json} → document.NamedOnce → ∀ {fault : Fault},
    (load document : Except Fault (Projection F)) = .error fault → FirstFault document fault
  | .array items, named, _, read => by
    rw [load] at read
    exact .item (loadItemsFails named.items (mapFails.mp read))
  | .object members, named, _, read => by
    rw [load] at read
    exact .member (loadMembersFails named.members.2 (mapFails.mp read))
  | .null, _, _, read => by cases read; exact .scalar rfl
  | .bool _, _, _, read => by cases read; exact .scalar rfl
  | .number _, _, _, read => by cases read; exact .scalar rfl
  | .string _, _, _, read => by cases read; exact .scalar rfl

theorem loadItemsFails : {items : List Json} → (∀ j ∈ items, j.NamedOnce) → ∀ {index : Nat}
    {fault : Fault}, (loadItems index items : Except Fault (List (Projection F))) = .error fault →
      FirstItemFault index items fault
  | [], _, _, _, read => nomatch read
  | item :: rest, named, _, _, read => by
    obtain ⟨here, behind⟩ := List.forall_mem_cons.mp named
    cases container : item.isContainer with
    | false =>
      rw [loadItemsScalar container] at read
      cases read
      exact .scalar container
    | true =>
      rw [loadItemsContainer container] at read
      rcases bindFails.mp read with failed | ⟨slot, first, more⟩
      · exact .inside container (loadFails here failed)
      · rcases bindFails.mp more with failed | ⟨others, _, failed⟩
        · exact .behind (loadOk here first).1 (loadItemsFails behind failed)
        · cases failed

theorem loadMembersFails : {members : List (String × Json)} → (∀ m ∈ members, m.2.NamedOnce) →
    ∀ {p : ObjectProjection F} {fault : Fault}, loadMembers p members = .error fault →
      FirstMemberFault members fault
  | [], _, _, _, read => nomatch read
  | (key, value) :: rest, named, p, _, read => by
    obtain ⟨here, behind⟩ := List.forall_mem_cons.mp named
    rw [loadMembers] at read
    split at read
    · rename_i same
      obtain rfl : key = arrayKey := same
      split at read
      · exact .behind (.flag _) (loadMembersFails behind read)
      · exact .behind (.flag _) (loadMembersFails behind read)
    · rename_i other
      split at read
      · rename_i reserved
        cases read
        exact .directive reserved other
      · rename_i free
        have ordinary : isReserved key = false := eq_false_of_ne_true free
        rcases bindFails.mp read with failed | ⟨spec, first, failed⟩
        · obtain ⟨container, failed⟩ := memberFails failed
          exact .inside ordinary container (loadFails here failed)
        · obtain ⟨loadable, _⟩ := memberLoaded ordinary (fun _ => loadOk here) first
          exact .behind loadable (loadMembersFails behind failed)

end

mutual

theorem FirstFault.notLoadable {fault : Fault} :
    {document : Json} → FirstFault document fault → ¬ document.Loadable
  | _, .scalar scalar, loadable => by cases loadable <;> cases scalar
  | _, .item first, .array each => first.notAll each
  | _, .member first, .object each => first.notAll each

theorem FirstItemFault.notAll {fault : Fault} : {index : Nat} → {items : List Json} →
    FirstItemFault index items fault → ¬ ∀ j ∈ items, j.Loadable
  | _, _, .scalar scalar, each => by
    cases each _ List.mem_cons_self <;> cases scalar
  | _, _, .inside _ first, each => first.notLoadable (each _ List.mem_cons_self)
  | _, _, .behind _ first, each => first.notAll fun j member => each j (List.mem_cons_of_mem _ member)

theorem FirstMemberFault.notAll {fault : Fault} : {members : List (String × Json)} →
    FirstMemberFault members fault → ¬ ∀ m ∈ members, Json.LoadableMember m
  | _, .directive reserved other, each => by
    cases each _ List.mem_cons_self with
    | flag => exact other rfl
    | scalar ordinary => cases ordinary.symm.trans reserved
    | container ordinary => cases ordinary.symm.trans reserved
  | _, .inside ordinary container first, each => by
    cases each _ List.mem_cons_self with
    | flag => cases ordinary.symm.trans arrayKeyReserved
    | scalar _ scalar => cases scalar.symm.trans container
    | container _ loadable => exact first.notLoadable loadable
  | _, .behind _ first, each => first.notAll fun m member => each m (List.mem_cons_of_mem _ member)

end

theorem documentsLoaded {document : Json} (named : document.NamedOnce) :
    ((∃ p : Projection F, ofJson document = .ok p) ↔ document.Loadable) ∧
    (¬ document.Loadable → ∃ fault, FirstFault document fault ∧
      (ofJson document : Except Error (Projection F)) = .error (.invalidProjection fault.message)) ∧
    ∀ p : Projection F, ofJson document = .ok p → Loaded document p := by
  have accepted : ∀ {p : Projection F}, ofJson document = .ok p →
      document.Loadable ∧ Loaded document p := fun read => loadOk named (mapErrorOk.mp read)
  cases read : (load document : Except Fault (Projection F)) with
  | ok p =>
    have built : (ofJson document : Except Error (Projection F)) = .ok p := by rw [ofJson, read]; rfl
    have loadable := (accepted built).1
    exact ⟨⟨fun _ => loadable, fun _ => ⟨p, built⟩⟩, fun refused => absurd loadable refused,
      fun _ again => (accepted again).2⟩
  | error fault =>
    have failed : (ofJson document : Except Error (Projection F)) =
        .error (.invalidProjection fault.message) := by rw [ofJson, read]; rfl
    have first := loadFails named read
    refine ⟨⟨fun ⟨p, built⟩ => (accepted built).1, fun loadable => absurd loadable first.notLoadable⟩,
      fun _ => ⟨fault, first, failed⟩, fun _ again => (accepted again).2⟩

def listing : Json :=
  .object [("kind", .string "number"), ("@array", .object [("@if", .null)]),
    ("rows", .array [.object [("id", .null)]])]

def twiceFaulty : Json :=
  .object [("rows", .array [.array [], .object [("@if", .null)]]), ("@combine", .null)]

theorem listingLoaded :
    listing.NamedOnce ∧ listing.Loadable ∧ twiceFaulty.NamedOnce ∧ ¬ twiceFaulty.Loadable ∧
      ∃ fault, FirstFault twiceFaulty fault ∧
        fault.message = "directive @if cannot be expressed in JSON" := by
  have single : ∀ key, (Json.object [(key, .null)]).NamedOnce := fun key =>
    .object (List.nodup_singleton key) (List.forall_mem_singleton.mpr (.scalar rfl))
  have listed : listing.NamedOnce := by
    refine .object (by simp [Entries.Distinct, Entries.keys]) ?_
    refine List.forall_mem_cons.mpr ⟨.scalar rfl, List.forall_mem_cons.mpr ⟨single "@if", ?_⟩⟩
    exact List.forall_mem_singleton.mpr (.array (List.forall_mem_singleton.mpr (single "id")))
  have faulty : twiceFaulty.NamedOnce := by
    refine .object (by simp [Entries.Distinct, Entries.keys]) ?_
    refine List.forall_mem_cons.mpr ⟨.array ?_, List.forall_mem_singleton.mpr (.scalar rfl)⟩
    exact List.forall_mem_cons.mpr ⟨.array nofun, List.forall_mem_singleton.mpr (single "@if")⟩
  obtain ⟨accepts, _, _⟩ := @documentsLoaded Unit _ listed
  obtain ⟨refuses, first, _⟩ := @documentsLoaded Unit _ faulty
  have failed : (ofJson twiceFaulty : Except Error (Projection Unit)) =
      .error (.invalidProjection "directive @if cannot be expressed in JSON") := rfl
  have refused : ¬ twiceFaulty.Loadable := fun loadable => by
    obtain ⟨p, built⟩ := refuses.mpr loadable
    cases failed.symm.trans built
  obtain ⟨fault, found, reported⟩ := first refused
  have message := Error.invalidProjection.inj (Except.error.inj (reported.symm.trans failed))
  exact ⟨listed, accepts.mp ⟨_, rfl⟩, faulty, refused, fault, found, message⟩

end Projection
end Reshape
