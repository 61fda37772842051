import Mathlib.Data.List.Forall2
import Reshape.Context.Basic
/-! What stands in a projection, and projections side by side. A level of a projection opens further
levels under its keys: nested projections, and projectors that stand in a field or in a condition.
Two projections are side by side if they have the same keys and what stands under a key on one side
corresponds to what stands there on the other; a projector may take the place of a nested projection. -/
namespace Reshape
variable {F : Type}

namespace Projection

/- The items of a list are evaluated by the object projection itself; a slot is read by the item of
its position, or on other data as the field that the position names. -/
inductive Nests : Projection F → Key → Projection F → Prop where
  | field {fields : List (String × Spec F)} {directives : List (Directive F)} {key : String}
      {p : Projection F} (stands : (key, .nested p) ∈ fields) :
      Nests (.object fields directives) (.field key) p
  | inline {fields : List (String × Spec F)} {directives : List (Directive F)}
      {items : List (Condition F)} {predicate : Predicate F} {p : Projection F}
      (declared : .conditions items ∈ directives) (stands : ⟨predicate, .inline p⟩ ∈ items) :
      Nests (.object fields directives) (.field conditionsKey) p
  | itself (fields : List (String × Spec F)) (directives : List (Directive F)) (index : Nat) :
      Nests (.object fields directives) (.index index) (.object fields directives)
  | slot {slots : List (Projection F)} {index : Nat} {p : Projection F}
      (stands : slots[index]? = some p) : Nests (.list slots) (.index index) p
  | position {slots : List (Projection F)} {index : Nat} {p : Projection F}
      (stands : slots[index]? = some p) : Nests (.list slots) (.field (toString index)) p

inductive Names : Projection F → Key → Projector F → Prop where
  | field {fields : List (String × Spec F)} {directives : List (Directive F)} {key : String}
      {p : Projector F} (stands : (key, .project p) ∈ fields) :
      Names (.object fields directives) (.field key) p
  | condition {fields : List (String × Spec F)} {directives : List (Directive F)}
      {items : List (Condition F)} {predicate : Predicate F} {p : Projector F}
      (declared : .conditions items ∈ directives) (stands : ⟨predicate, .project p⟩ ∈ items) :
      Names (.object fields directives) (.field conditionsKey) p

end Projection

structure Parts (F : Type) where
  nested : Key → Projection F → Projection F → Prop
  compiled : Key → Projection F → Projector F → Prop
  standing : Key → Projector F → Prop

section Beside
variable (parts : Parts F)

inductive Spec.Beside (key : Key) : Spec F → Spec F → Prop where
  | plain {spec : Spec F} (plain : spec.isProjection = false) : Spec.Beside key spec spec
  | nested {p p' : Projection F} (stands : parts.nested key p p') :
      Spec.Beside key (.nested p) (.nested p')
  | compiled {p : Projection F} {q : Projector F} (stands : parts.compiled key p q) :
      Spec.Beside key (.nested p) (.project q)
  | project {q : Projector F} (stands : parts.standing key q) :
      Spec.Beside key (.project q) (.project q)

inductive Source.Beside (key : Key) : Source F → Source F → Prop where
  | compute (fn : ContextFn F) : Source.Beside key (.compute fn) (.compute fn)
  | inline {p p' : Projection F} (stands : parts.nested key p p') :
      Source.Beside key (.inline p) (.inline p')
  | compiled {p : Projection F} {q : Projector F} (stands : parts.compiled key p q) :
      Source.Beside key (.inline p) (.project q)
  | project {q : Projector F} (stands : parts.standing key q) :
      Source.Beside key (.project q) (.project q)

structure Condition.Beside (item item' : Condition F) : Prop where
  predicate : item'.predicate = item.predicate
  source : item.source.Beside parts (.field conditionsKey) item'.source

inductive Directive.Beside : Directive F → Directive F → Prop where
  | array : Directive.Beside .array .array
  | conditions {items items' : List (Condition F)}
      (each : List.Forall₂ (Condition.Beside parts) items items') :
      Directive.Beside (.conditions items) (.conditions items')
  | combine (suffix : Option String) (fn : ContextFn F) :
      Directive.Beside (.combine suffix fn) (.combine suffix fn)

structure Field.Beside (field field' : String × Spec F) : Prop where
  key : field'.1 = field.1
  spec : field.2.Beside parts (.field field.1) field'.2

inductive Projection.Beside : Projection F → Projection F → Prop where
  | object {fields fields' : List (String × Spec F)} {directives directives' : List (Directive F)}
      (eachField : List.Forall₂ (Field.Beside parts) fields fields')
      (eachDirective : List.Forall₂ (Directive.Beside parts) directives directives')
      (again : ∀ index,
        parts.nested (.index index) (.object fields directives) (.object fields' directives')) :
      Projection.Beside (.object fields directives) (.object fields' directives')
  | list {slots slots' : List (Projection F)} (length : slots.length = slots'.length)
      (each : ∀ index (inside : index < slots.length) (inside' : index < slots'.length),
        parts.nested (.index index) slots[index] slots'[index] ∧
        parts.nested (.field (toString index)) slots[index] slots'[index]) :
      Projection.Beside (.list slots) (.list slots')

end Beside

section Sides
variable {parts : Parts F}

theorem Spec.Beside.isProjection {key : Key} {spec spec' : Spec F}
    (beside : spec.Beside parts key spec') : spec'.isProjection = spec.isProjection := by
  cases beside <;> rfl

theorem Directive.Beside.isArray {d d' : Directive F} (beside : d.Beside parts d') :
    d'.isArray = d.isArray := by
  cases beside <;> rfl

theorem Projection.Beside.isArray {p p' : Projection F} (beside : p.Beside parts p') :
    p'.isArray = p.isArray := by
  cases beside with
  | object _ eachDirective again =>
    clear again
    simp only [Projection.isArray]
    induction eachDirective with
    | nil => rfl
    | cons here _ ih => simp only [List.any_cons, here.isArray, ih]
  | list => rfl

theorem Projection.Beside.again {fields fields' : List (String × Spec F)}
    {directives directives' : List (Directive F)}
    (beside : (Projection.object fields directives).Beside parts (.object fields' directives'))
    (index : Nat) :
    parts.nested (.index index) (.object fields directives) (.object fields' directives') := by
  cases beside with
  | object _ _ again => exact again index

theorem Projection.besideItself {p : Projection F}
    (nested : ∀ key r, p.Nests key r → parts.nested key r r)
    (standing : ∀ key q, p.Names key q → parts.standing key q) : p.Beside parts p := by
  have sources : ∀ {fields directives items}, p = .object fields directives →
      .conditions items ∈ directives → ∀ item ∈ items, Condition.Beside parts item item := by
    rintro fields directives items rfl declared ⟨predicate, source⟩ stands
    refine ⟨rfl, ?_⟩
    cases source with
    | compute fn => exact .compute fn
    | inline r => exact .inline (nested _ r (.inline declared stands))
    | project q => exact .project (standing _ q (.condition declared stands))
  cases p with
  | object fields directives =>
    refine .object (List.forall₂_same.mpr fun f member => ⟨rfl, ?_⟩)
      (List.forall₂_same.mpr fun d member => ?_) fun index => nested _ _ (.itself _ _ index)
    · obtain ⟨key, spec⟩ := f
      cases spec with
      | nested r => exact .nested (nested _ r (.field member))
      | project q => exact .project (standing _ q (.field member))
      | _ => exact .plain rfl
    · cases d with
      | array => exact .array
      | conditions items => exact .conditions (List.forall₂_same.mpr (sources rfl member))
      | combine suffix fn => exact .combine suffix fn
  | list slots =>
    refine .list rfl fun index inside _ => ?_
    have stands : slots[index]? = some slots[index] := List.getElem?_eq_getElem inside
    exact ⟨nested _ _ (.slot stands), nested _ _ (.position stands)⟩

end Sides
end Reshape
