import Reshape.Context.Basic
import Reshape.Proofs.Overwriting
import Reshape.Proofs.Value.Paths
/-! The scope of a level. A name is looked for in the enclosing level, then in the instance, the
projection and the global scope, and last it may be the data itself. Every level around can be reached
through those in between: the name that leads outwards belongs to a level that has another one around
it, whatever the scopes define, and outside the last level it leads nowhere. -/
namespace Reshape
variable {F : Type}

theorem Scope.lookupWalks (s : Scope F) (path : String) :
    s.lookup? path = (Variable.scope s).walk (Value.segments path) := by
  unfold lookup?
  cases shown : Value.segments path with
  | nil => exact absurd shown (by simp [Value.segments, Text.splitAtNotEmpty])
  | cons first rest => rfl

theorem Variable.walkFurther (x : Variable F) (path further : List String) :
    x.walk (path ++ further) = (x.walk path).bind (·.walk further) := by
  induction path generalizing x with
  | nil => rfl
  | cons segment rest ih =>
    rw [List.cons_append, walk, walk]
    cases x.child? segment with
    | none => rfl
    | some inner => exact ih inner

theorem Scope.lookupFurther (s : Scope F) (path further : String) :
    s.lookup? (path ++ "." ++ further) = (s.lookup? path).bind (·.walk (Value.segments further)) := by
  rw [lookupWalks, lookupWalks, Value.segmentsApart, Variable.walkFurther]

theorem Variable.walkValue (v : Value) (path : List String) :
    (Variable.value v : Variable F).walk path = (v.walk path).map .value := by
  induction path generalizing v with
  | nil => rfl
  | cons segment rest ih =>
    rw [walk, child?, Value.walk]
    cases v.get? segment with
    | none => rfl
    | some inner => exact ih inner

namespace Context

def chain : Context F → List (Context F)
  | ⟨scope, data, key, projection, context, inst, none, params, depth⟩ =>
    [⟨scope, data, key, projection, context, inst, none, params, depth⟩]
  | ⟨scope, data, key, projection, context, inst, some parent, params, depth⟩ =>
    ⟨scope, data, key, projection, context, inst, some parent, params, depth⟩ :: parent.chain

theorem chainAround (c : Context F) : c.chain = c :: c.parent.elim [] chain := by
  obtain ⟨_, _, _, _, _, _, _ | parent, _, _⟩ := c <;> rfl

theorem layerData (c : Context F) : Entries.get? c.layer "data" = some (.value c.data) := by
  obtain ⟨_, _, _, _, _, _, _ | parent, _, _⟩ := c <;> rfl

theorem layerKey (c : Context F) : Entries.get? c.layer "key" = some (.value c.key.toValue) := by
  obtain ⟨_, _, _, _, _, _, _ | parent, _, _⟩ := c <;> rfl

theorem layerParent (c : Context F) :
    Entries.get? c.layer parentName = c.parent.map fun parent => .scope parent.layer := by
  obtain ⟨_, _, _, _, _, _, _ | parent, _, _⟩ := c <;> rfl

theorem layerDistinct (c : Context F) : Entries.Distinct c.layer := by
  obtain ⟨_, _, _, _, _, _, _ | parent, _, _⟩ := c <;>
    simp [layer, Entries.Distinct, Entries.keys, parentName]

theorem climb (c : Context F) (k : Nat) (path : List String) :
    (Variable.scope c.layer).walk (List.replicate k parentName ++ path) =
      c.chain[k]?.bind fun above => (Variable.scope above.layer).walk path := by
  induction k generalizing c with
  | zero =>
    rw [chainAround]
    rfl
  | succ k ih =>
    rw [List.replicate_succ, List.cons_append, Variable.walk, Variable.child?, layerParent,
      chainAround, List.getElem?_cons_succ]
    cases c.parent with
    | none => rfl
    | some parent => exact ih parent

section Merge
variable (data : Value) (global : Scope F) (projection inst : Option (Scope F))
  (parent : Option (Context F))

/- From the lowest layer up. -/
def layers : List (Scope F) :=
  [[(currentName, .value data)], global, projection.getD [], inst.getD [], (parent.map layer).getD []]

theorem mergeLayers :
    merge data global projection inst parent =
      Entries.ofList (layers data global projection inst parent).flatten := by
  rw [Entries.ofList, Entries.overlay, List.foldl_flatten]
  rfl

theorem mergedKeys :
    Entries.keys (merge data global projection inst parent) =
      ((layers data global projection inst parent).flatMap Entries.keys).eraseDups := by
  rw [mergeLayers, Entries.keysOfList, Entries.keys, List.map_flatten, List.flatMap]
  rfl

variable {data global projection inst parent}

theorem layersDistinct (globals : global.Distinct) (projections : ∀ s ∈ projection, Entries.Distinct s)
    (insts : ∀ s ∈ inst, Entries.Distinct s) :
    ∀ s ∈ layers data global projection inst parent, Entries.Distinct s := by
  have given : ∀ {scope : Option (Scope F)}, (∀ s ∈ scope, Entries.Distinct s) →
      Entries.Distinct (scope.getD []) := by
    intro scope distinct
    cases scope with
    | none => exact List.nodup_nil
    | some s => exact distinct s rfl
  have outer : ∀ s ∈ parent.map layer, Entries.Distinct s := by
    intro s shown
    obtain ⟨inner, _, rfl⟩ := Option.map_eq_some_iff.mp shown
    exact layerDistinct inner
  simp only [layers, List.forall_mem_cons]
  exact ⟨List.nodup_singleton _, globals, given projections, given insts, given outer,
    List.forall_mem_nil _⟩

theorem mergedName (distinct : ∀ s ∈ layers data global projection inst parent, Entries.Distinct s)
    (name : String) :
    Entries.get? (merge data global projection inst parent) name =
      (layers data global projection inst parent).reverse.findSome? (Entries.get? · name) := by
  rw [mergeLayers, Entries.lastLayer distinct]

theorem mergedOutward {inner : Context F}
    (distinct : ∀ s ∈ layers data global projection inst (some inner), Entries.Distinct s)
    {first : String} {x : Variable F} (defined : Entries.get? inner.layer first = some x)
    (path : List String) :
    (Variable.scope (merge data global projection inst (some inner))).walk (first :: path) =
      (Variable.scope inner.layer).walk (first :: path) := by
  have found : Entries.get? (merge data global projection inst (some inner)) first = some x := by
    rw [mergedName distinct]
    change List.findSome? _ (inner.layer :: _) = _
    rw [List.findSome?_cons, defined]
  rw [Variable.walk, Variable.walk, Variable.child?, Variable.child?, found, defined]

theorem mergedReach {inner above : Context F}
    (distinct : ∀ s ∈ layers data global projection inst (some inner), Entries.Distinct s)
    {k : Nat} (stands : inner.chain[k]? = some above) {name : String} {x : Variable F}
    (own : Entries.get? above.layer name = some x) (rest : List String) :
    (Variable.scope (merge data global projection inst (some inner))).walk
      (List.replicate k parentName ++ name :: rest) = x.walk rest := by
  have outward : (Variable.scope (merge data global projection inst (some inner))).walk
        (List.replicate k parentName ++ name :: rest) =
      (Variable.scope inner.layer).walk (List.replicate k parentName ++ name :: rest) := by
    rw [chainAround] at stands
    cases k with
    | zero =>
      cases stands
      exact mergedOutward distinct own rest
    | succ k =>
      cases shown : inner.parent with
      | none =>
        rw [shown] at stands
        cases stands
      | some parent =>
        have defined := (layerParent inner).trans (congrArg _ shown)
        exact mergedOutward distinct defined _
  rw [outward, climb, stands, Option.bind_some, Variable.walk, Variable.child?, own, Option.bind_some]

theorem mergedBeyond {inner : Context F}
    (distinct : ∀ s ∈ layers data global projection inst (some inner), Entries.Distinct s)
    (several : 2 ≤ inner.chain.length) {k : Nat} (beyond : inner.chain.length ≤ k + 1) :
    (Variable.scope (merge data global projection inst (some inner))).walk
      (List.replicate (k + 1) parentName) = none := by
  have outside : inner.chain[k + 1]? = none := List.getElem?_eq_none beyond
  have nowhere := climb inner (k + 1) []
  rw [outside, Option.bind_none, List.append_nil, List.replicate_succ] at nowhere
  cases shown : inner.parent with
  | none =>
    rw [chainAround, shown] at several
    exact absurd several (Nat.not_succ_le_self 1)
  | some parent =>
    have defined := (layerParent inner).trans (congrArg _ shown)
    rw [List.replicate_succ, mergedOutward distinct defined, nowhere]

end Merge

theorem outwardPlain (k : Nat) : ∀ name ∈ List.replicate k parentName, '.' ∉ name.toList := by
  intro name member
  rw [List.eq_of_mem_replicate member]
  decide

/- Scopes hold each name once. The context around the level is the first of `inner.chain`, so the
one around that is found behind one `parentContext`. -/
theorem scopesMerged (data : Value) {global : Scope F} {projection inst : Option (Scope F)}
    (parent : Option (Context F)) (globals : global.Distinct)
    (projections : ∀ s ∈ projection, Entries.Distinct s) (insts : ∀ s ∈ inst, Entries.Distinct s) :
    let merged := merge data global projection inst parent
    let fromBelow : List (Scope F) :=
      [[(currentName, .value data)], global, projection.getD [], inst.getD [],
        (parent.map layer).getD []]
    (∀ name, Entries.get? merged name = fromBelow.reverse.findSome? (Entries.get? · name)) ∧
    Entries.keys merged = (fromBelow.flatMap Entries.keys).eraseDups ∧
    ∀ inner, parent = some inner →
      (∀ k above, inner.chain[k]? = some above →
        let reach := fun name => Value.dotted (List.replicate k parentName ++ [name])
        Scope.lookup? merged (reach "data") = some (.value above.data) ∧
        (∀ path, Scope.lookup? merged (reach "data" ++ "." ++ path) =
          (above.data.path? path).map .value) ∧
        Scope.lookup? merged (reach "key") = some (.value above.key.toValue)) ∧
      (2 ≤ inner.chain.length → ∀ k, inner.chain.length ≤ k →
        let run := Value.dotted (List.replicate k parentName)
        Scope.lookup? merged run = none ∧
        ∀ path, Scope.lookup? merged (run ++ "." ++ path) = none) := by
  intro merged fromBelow
  have distinct : ∀ s ∈ layers data global projection inst parent, Entries.Distinct s :=
    layersDistinct globals projections insts
  refine ⟨mergedName distinct, mergedKeys data global projection inst parent, ?_⟩
  rintro inner rfl
  constructor
  · intro k above stands reach
    have reached : ∀ {name : String} {x : Variable F}, '.' ∉ name.toList →
        Entries.get? above.layer name = some x → Scope.lookup? merged (reach name) = some x := by
      intro name x plain own
      rw [Scope.lookupWalks, Value.segmentsDotted (outwardPlain k), Value.segmentsPlain plain]
      exact mergedReach distinct stands own []
    have here := reached (by decide) (layerData above)
    refine ⟨here, fun path => ?_, reached (by decide) (layerKey above)⟩
    rw [Scope.lookupFurther, here, Option.bind_some, Variable.walkValue, Value.path?]
  · intro several k beyond run
    have nowhere : Scope.lookup? merged run = none := by
      obtain ⟨k, rfl⟩ : ∃ before, k = before + 1 := ⟨k - 1, by omega⟩
      have last : run = Value.dotted (List.replicate k parentName ++ [parentName]) := by
        rw [← List.replicate_succ']
      rw [Scope.lookupWalks, last, Value.segmentsDotted (outwardPlain k),
        Value.segmentsPlain (by decide), ← List.replicate_succ']
      exact mergedBeyond distinct several beyond
    refine ⟨nowhere, fun path => ?_⟩
    rw [Scope.lookupFurther, nowhere, Option.bind_none]

def outermost : Context Unit where
  scope := []
  data := .record [("id", .ofNat 7)]
  key := .field "rows"
  projection := default
  projectionScope := none
  instanceScope := none
  parent := none
  params := none
  depth := 0

def rowAround : Context Unit :=
  { outermost with data := .array [], key := .index 2, parent := some outermost, depth := 1 }

def claimed : Scope Unit :=
  [("data", .value (.string "mine")), ("parentContext", .function (.closure ())),
    ("title", .value .null)]

def currentClaimed : Scope Unit := [("current", .value .null)]

theorem outermostReached :
    let merged := merge (.bool true) claimed (some currentClaimed) none (some rowAround)
    claimed.Distinct ∧ currentClaimed.Distinct ∧
    Entries.get? merged "current" = some (.value .null) ∧
    Entries.keys merged = ["current", "data", "parentContext", "title", "key"] ∧
    Scope.lookup? merged "parentContext.data.id" = some (.value (.ofNat 7)) ∧
    Scope.lookup? merged "key" = some (.value (.ofNat 2)) ∧
    Scope.lookup? merged "parentContext.parentContext.data" = none := by
  intro merged
  have globals : claimed.Distinct := by simp [claimed, Entries.Distinct, Entries.keys]
  have currents : currentClaimed.Distinct := by simp [currentClaimed, Entries.Distinct, Entries.keys]
  have projections : ∀ s ∈ some currentClaimed, Entries.Distinct s := by
    rintro _ ⟨⟩
    exact currents
  have insts : ∀ s ∈ (none : Option (Scope Unit)), Entries.Distinct s := by
    rintro _ ⟨⟩
  obtain ⟨named, listed, reached⟩ :=
    scopesMerged (.bool true) (some rowAround) globals projections insts
  obtain ⟨inward, outside⟩ := reached rowAround rfl
  have far := inward 1 outermost rfl
  have near := inward 0 rowAround rfl
  have beyond := outside (Nat.le_refl 2) 2 (Nat.le_refl 2)
  exact ⟨globals, currents, (named "current").trans rfl, listed.trans rfl, (far.2.1 "id").trans rfl,
    near.2.2, beyond.2 "data"⟩

end Context
end Reshape
