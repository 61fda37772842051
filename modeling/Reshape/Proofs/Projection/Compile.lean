import Reshape.Proofs.Projection.Beside
/-! Compiling what is nested. In fields and in conditions a projector of the same engine and scope
takes the place of every nested projection, which is compiled itself; the slots of a list stay slots.
Projectors that stand in a projection already are left as they are. -/
namespace Reshape
variable {F : Type}

section Compile
variable (context : Option (Scope F)) (engine : Nat)

mutual

def Projection.compile : Projection F → Projection F
  | .object fields directives => .object (compileFields fields) (compileDirectives directives)
  | .list slots => .list (compileSlots slots)

def compileFields : List (String × Spec F) → List (String × Spec F)
  | [] => []
  | f :: rest => (f.1, f.2.compile) :: compileFields rest

def Spec.compile : Spec F → Spec F
  | .nested p => .project ⟨p.compile, context, engine⟩
  | .typed tag => .typed tag
  | .passthrough => .passthrough
  | .literal v => .literal v
  | .function fn => .function fn
  | .project q => .project q
  | .deferred d => .deferred d

def compileDirectives : List (Directive F) → List (Directive F)
  | [] => []
  | d :: rest => d.compile :: compileDirectives rest

def Directive.compile : Directive F → Directive F
  | .array => .array
  | .conditions items => .conditions (compileConditions items)
  | .combine suffix fn => .combine suffix fn

def compileConditions : List (Condition F) → List (Condition F)
  | [] => []
  | item :: rest => item.compile :: compileConditions rest

def Condition.compile : Condition F → Condition F
  | ⟨predicate, source⟩ => ⟨predicate, source.compile⟩

def Source.compile : Source F → Source F
  | .inline p => .project ⟨p.compile, context, engine⟩
  | .project q => .project q
  | .compute fn => .compute fn

def compileSlots : List (Projection F) → List (Projection F)
  | [] => []
  | p :: rest => p.compile :: compileSlots rest

end

theorem compileFieldsMap (fields : List (String × Spec F)) :
    compileFields context engine fields = fields.map fun f => (f.1, f.2.compile context engine) := by
  induction fields with
  | nil => rfl
  | cons f rest ih => rw [compileFields, ih, List.map_cons]

theorem compileDirectivesMap (directives : List (Directive F)) :
    compileDirectives context engine directives = directives.map (·.compile context engine) := by
  induction directives with
  | nil => rfl
  | cons d rest ih => rw [compileDirectives, ih, List.map_cons]

theorem compileConditionsMap (items : List (Condition F)) :
    compileConditions context engine items = items.map (·.compile context engine) := by
  induction items with
  | nil => rfl
  | cons item rest ih => rw [compileConditions, ih, List.map_cons]

theorem compileSlotsMap (slots : List (Projection F)) :
    compileSlots context engine slots = slots.map (·.compile context engine) := by
  induction slots with
  | nil => rfl
  | cons p rest ih => rw [compileSlots, ih, List.map_cons]

section Beside
variable {parts : Parts F}
  (nested : ∀ key p, parts.nested key p (p.compile context engine))
  (compiled : ∀ key p, parts.compiled key p ⟨p.compile context engine, context, engine⟩)
  (standing : ∀ key q, parts.standing key q)
include compiled standing

theorem Spec.compileBeside (key : Key) (spec : Spec F) :
    spec.Beside parts key (spec.compile context engine) := by
  cases spec with
  | nested p => exact .compiled (compiled key p)
  | project q => exact .project (standing key q)
  | _ => exact .plain rfl

theorem Source.compileBeside (key : Key) (source : Source F) :
    source.Beside parts key (source.compile context engine) := by
  cases source with
  | inline p => exact .compiled (compiled key p)
  | project q => exact .project (standing key q)
  | compute fn => exact .compute fn

theorem Directive.compileBeside (d : Directive F) : d.Beside parts (d.compile context engine) := by
  cases d with
  | array => exact .array
  | combine suffix fn => exact .combine suffix fn
  | conditions items =>
    rw [compile, compileConditionsMap]
    refine .conditions (List.forall₂_map_right_iff.mpr (List.forall₂_same.mpr ?_))
    rintro ⟨predicate, source⟩ _
    exact ⟨rfl, source.compileBeside context engine compiled standing _⟩

include nested in
theorem Projection.compileBeside (p : Projection F) : p.Beside parts (p.compile context engine) := by
  cases p with
  | object fields directives =>
    have again := fun index => nested (.index index) (.object fields directives)
    rw [compile, compileFieldsMap, compileDirectivesMap] at again ⊢
    refine .object (List.forall₂_map_right_iff.mpr (List.forall₂_same.mpr fun f _ => ?_))
      (List.forall₂_map_right_iff.mpr (List.forall₂_same.mpr fun d _ => ?_)) again
    · exact ⟨rfl, f.2.compileBeside context engine compiled standing _⟩
    · exact d.compileBeside context engine compiled standing
  | list slots =>
    rw [compile, compileSlotsMap]
    refine .list (List.length_map _).symm fun index inside inside' => ?_
    rw [List.getElem_map]
    exact ⟨nested _ _, nested _ _⟩

end Beside
end Compile
end Reshape
