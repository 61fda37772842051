import Reshape.Proofs.Projection.Beside
import Reshape.Proofs.Run.Composed
import Reshape.Evaluate.Level
/-! One level of two evaluations, side by side. The evaluator as a whole respects every congruence of
runs, once callbacks are asked alike and the levels below correspond: nothing a level does depends on
what is below it but through the runs it gets from there. Both sides have the same scope, data and
keys; the projection and the parent may differ, and a projector may stand for a nested projection.
What callbacks are asked with and what is opened below is recorded, so that a single evaluation can
be followed as well. -/
namespace Reshape
variable {F : Type}

namespace Context

/- Contexts of one level differ in the key, and for pipes and transformers in data and parameters. -/
def SameLevel (base c : Context F) : Prop :=
  ∃ key data params, c = { base with key := key, data := data, params := params }

def under (inv : Invocation F) (c : Context F) : Context F :=
  { c with projection := inv.projection, parent := inv.parent }

def Hands (c : Context F) (data : Value) : Prop :=
  data = c.data ∨ data = c.currentOrNull

theorem Hands.current {c : Context F} {data : Value} (shown : c.current? = some data) :
    c.Hands data :=
  .inr (by rw [currentOrNull, shown]; rfl)

namespace SameLevel
variable {base c : Context F}

theorem atKey (base : Context F) (key : Key) : base.SameLevel (base.atKey key) :=
  ⟨key, base.data, base.params, rfl⟩

theorem withData (here : base.SameLevel c) (data : Value) (params : Option (List Value)) :
    base.SameLevel (c.withData data params) := by
  obtain ⟨key, _, _, rfl⟩ := here
  exact ⟨key, data, params, rfl⟩

theorem instanceScope (here : base.SameLevel c) : c.instanceScope = base.instanceScope := by
  obtain ⟨_, _, _, rfl⟩ := here
  rfl

theorem depth (here : base.SameLevel c) : c.depth = base.depth := by
  obtain ⟨_, _, _, rfl⟩ := here
  rfl

theorem underItself {inv : Invocation F} (here : base.SameLevel c)
    (projection : base.projection = inv.projection) (parent : base.parent = inv.parent) :
    c.under inv = c := by
  obtain ⟨_, _, _, rfl⟩ := here
  rw [under, ← projection, ← parent]

end SameLevel

end Context

namespace Evaluate

/- With which contexts of a level callbacks are asked: only transformers and pipes are given a value
of their own, and only pipes are given parameters. -/
structure Asked (base : Context F) (role : Role) (c : Context F) : Prop where
  level : base.SameLevel c
  data : role ≠ .transformer → role ≠ .pipe → c.data = base.data
  params : role ≠ .pipe → c.params = base.params ∨ c.params = none

namespace Asked
variable (base : Context F) (key : Key)

theorem atKey (role : Role) : Asked base role (base.atKey key) :=
  ⟨.atKey base key, fun _ _ => rfl, fun _ => .inl rfl⟩

theorem onValue (v : Value) : Asked base .transformer ((base.atKey key).withData v none) :=
  ⟨(Context.SameLevel.atKey base key).withData v none, fun other => absurd rfl other,
    fun _ => .inr rfl⟩

theorem piped (v : Value) (params : Option (List Value)) :
    Asked base .pipe ((base.atKey key).withData v params) :=
  ⟨(Context.SameLevel.atKey base key).withData v params, fun _ other => absurd rfl other,
    fun other => absurd rfl other⟩

end Asked

/- The invocations that a level opens, with those on the other side and with their data. Projectors
stand in the projection, or a callback gave them; the level is then opened at the context that the
callback was given, or for a pipe at the key where the reference stands. -/
inductive Opened (parts : Parts F) (returned : Context F → Projector F → Prop)
    (inv inv' : Invocation F) (base : Context F) : Invocation F → Invocation F → Value → Prop where
  | nested {key : Key} {p p' : Projection F} {data : Value} (stands : parts.nested key p p')
      (handed : (base.atKey key).Hands data) :
      Opened parts returned inv inv' base (inv.nested p (base.atKey key))
        (inv'.nested p' ((base.atKey key).under inv')) data
  | compiled {key : Key} {p : Projection F} {q : Projector F} {data : Value}
      (stands : parts.compiled key p q) (handed : (base.atKey key).Hands data) :
      Opened parts returned inv inv' base (inv.nested p (base.atKey key))
        (q.invocation inv.instanceScope (some ((base.atKey key).under inv'))) data
  | standing {key : Key} {q : Projector F} {data : Value} (stands : parts.standing key q)
      (handed : (base.atKey key).Hands data) :
      Opened parts returned inv inv' base (q.invocation inv.instanceScope (some (base.atKey key)))
        (q.invocation inv.instanceScope (some ((base.atKey key).under inv'))) data
  | returned {c parent : Context F} {q : Projector F} {data : Value} (gave : returned c q)
      (here : base.SameLevel parent) (place : parent = c ∨ parent = base.atKey c.key)
      (handed : c.Hands data) :
      Opened parts returned inv inv' base (q.invocation inv.instanceScope (some parent))
        (q.invocation inv.instanceScope (some (parent.under inv'))) data

structure Linked (R : (α : Type) → Run F α → Run F α → Prop) (parts : Parts F)
    (returned : Context F → Projector F → Prop) (apply apply' : Apply F) (inv inv' : Invocation F)
    (base : Context F) : Prop extends Run.Congruence R where
  scope : base.instanceScope = inv.instanceScope
  sameScope : inv'.instanceScope = inv.instanceScope
  asked : ∀ {α : Type} {role symbol c} {next next' : Computed F → Run F α}, Asked base role c →
    (∀ r, (∀ q, r = .apply q → returned c q) → R α (next r) (next' r)) →
    R α (.call role symbol c next) (.call role symbol (c.under inv') next')
  below : ∀ {child child' data}, Opened parts returned inv inv' base child child' data →
    R _ (apply child data) (apply' child' data)
  nothing : ∀ {key p q data}, parts.compiled key p q → data.isTruthy = false →
    apply' (q.invocation inv.instanceScope (some ((base.atKey key).under inv'))) data = pure none

theorem findPipeOrdinary {c : Context F} {name : String} {e : Error}
    (failed : findPipe c name = .error e) : ¬ e.IsLimit := by
  rintro ⟨depth, limit, rfl⟩
  unfold findPipe at failed
  split at failed
  · cases failed
  · cases failed
  · split at failed <;> cases failed
  · cases failed

theorem normalizeApply {r : Computed F} {q : Projector F} (same : r.normalize = .apply q) :
    r = .apply q := by
  unfold Computed.normalize at same
  split at same
  · split at same <;> cases same
  · exact same

theorem itemwiseArray {p : Projection F} {data : Value} {xs : List Value}
    (itemwise : itemwise? p data = some xs) : data = .array xs := by
  unfold itemwise? at itemwise
  split at itemwise
  · rename_i found
    split at itemwise
    · cases data <;> cases found
      cases itemwise
      rfl
    · cases itemwise
  · cases itemwise

namespace Linked
variable {R : (α : Type) → Run F α → Run F α → Prop} {parts : Parts F}
  {returned : Context F → Projector F → Prop} {apply apply' : Apply F} {inv inv' : Invocation F}
  {base c : Context F} (linked : Linked R parts returned apply apply' inv inv' base)
include linked

section Calls

theorem function {α : Type} {role : Role} (asked : Asked base role c) (fn : ContextFn F)
    {next next' : Computed F → Run F α}
    (after : ∀ r, (∀ q, r = .apply q → returned c q) → R α (next r) (next' r)) :
    R α (fn.run role c >>= next) (fn.run role (c.under inv') >>= next') := by
  cases fn with
  | closure symbol =>
    exact linked.asked asked fun r given => after r.normalize fun q same =>
      given q (normalizeApply same)
  | direct symbol => exact linked.asked asked after

theorem predicate {role : Role} (asked : Asked base role c) (p : Predicate F) :
    R _ (p.test role c) (p.test role (c.under inv')) := by
  cases p with
  | always outcome => exact linked.result outcome
  | holds fn => exact linked.function asked fn fun r _ => linked.result r.holds

theorem projected {parent : Context F} {q : Projector F} {data : Value} (gave : returned c q)
    (here : base.SameLevel parent) (place : parent = c ∨ parent = base.atKey c.key)
    (handed : c.Hands data) :
    R _ (q.applyIn apply data parent.instanceScope parent)
      (q.applyIn apply' data (parent.under inv').instanceScope (parent.under inv')) := by
  have scope : parent.instanceScope = inv.instanceScope := here.instanceScope.trans linked.scope
  have scope' : (parent.under inv').instanceScope = inv.instanceScope := scope
  rw [scope, scope']
  exact linked.below (.returned gave here place handed)

theorem revised {v : Value} {r : Computed F} {below below' : Projector F → Run F (Option Value)}
    (each : ∀ q, r = .apply q → R _ (below q) (below' q)) :
    R _ (r.revise v below) (r.revise v below') := by
  cases r with
  | value w => exact linked.result _
  | absent => exact linked.result _
  | inherit => exact linked.result _
  | apply q => exact each q rfl

theorem valued {r : Computed F} {below below' : Projector F → Run F (Option Value)}
    (each : ∀ q, r = .apply q → R _ (below q) (below' q)) :
    R _ (r.value? c below) (r.value? (c.under inv') below') := by
  cases r with
  | value w => exact linked.result _
  | absent => exact linked.result _
  | inherit => exact linked.result c.current?
  | apply q => exact each q rfl

end Calls

section References
variable (key : Key)

theorem functionValue (fn : ContextFn F) :
    R _ (callForValue apply (base.atKey key) fn)
      (callForValue apply' ((base.atKey key).under inv') fn) :=
  linked.function (.atKey base key .variable) fn fun _ given => linked.valued fun q same =>
    linked.projected (given q same) (.atKey base key) (.inl rfl) (.inr rfl)

theorem path (path : String) :
    R _ (resolvePath apply (base.atKey key) path)
      (resolvePath apply' ((base.atKey key).under inv') path) := by
  have sameLookup : ((base.atKey key).under inv').lookup? path = (base.atKey key).lookup? path := rfl
  unfold resolvePath
  rw [sameLookup]
  split
  · exact linked.result _
  · exact linked.result _
  · exact linked.result _
  · exact linked.sequence (linked.waiting _) fun v => linked.result (some v)
  · exact linked.functionValue key _

theorem target (t : Target) :
    R _ (resolveTarget apply (base.atKey key) t)
      (resolveTarget apply' ((base.atKey key).under inv') t) := by
  cases t with
  | spread => exact linked.result _
  | literal v => exact linked.result _
  | path path =>
    have sameLookup :
        ((base.atKey key).under inv').lookup? path = (base.atKey key).lookup? path := rfl
    refine linked.sequence (linked.path key path) fun found => ?_
    rw [sameLookup]
    split
    · exact linked.result _
    · exact linked.result _

theorem param (p : Param) :
    R _ (resolveParam apply (base.atKey key) p)
      (resolveParam apply' ((base.atKey key).under inv') p) := by
  cases p with
  | literal v => exact linked.result _
  | path path => exact linked.sequence (linked.path key path) fun found => linked.result _

theorem pipes (v : Value) (calls : List PipeCall) :
    R _ (applyPipes apply (base.atKey key) v calls)
      (applyPipes apply' ((base.atKey key).under inv') v calls) := by
  induction calls generalizing v with
  | nil => exact linked.result _
  | cons pipe rest ih =>
    refine linked.sequence (linked.checked (findPipe (base.atKey key) pipe.name) fun e failed =>
      findPipeOrdinary failed) fun fn => ?_
    refine linked.sequence (linked.gatheredMap fun p _ => linked.param key p) fun params => ?_
    refine linked.function (.piped base key v _) fn fun computed given => ?_
    have here := Context.SameLevel.atKey base key
    refine linked.sequence (linked.revised fun q same => ?_) fun next => ?_
    · exact linked.projected (given q same) here (.inr rfl) (.inl rfl)
    · cases next with
      | some w => exact ih w
      | none => exact linked.result _

theorem alternatives (choices : List Alternative) :
    R _ (resolveAlternatives apply (base.atKey key) choices)
      (resolveAlternatives apply' ((base.atKey key).under inv') choices) := by
  induction choices with
  | nil => exact linked.result _
  | cons a rest ih =>
    refine linked.sequence (linked.target key a.target) fun found => ?_
    cases found with
    | some v => exact linked.pipes key v a.pipes
    | none => exact ih

theorem replaced (references : List (List Char)) (text : List Char) :
    R _ (replaceAll apply (base.atKey key) references text)
      (replaceAll apply' ((base.atKey key).under inv') references text) := by
  induction references generalizing text with
  | nil => exact linked.result _
  | cons r rest ih =>
    exact linked.sequence (linked.alternatives key (Reference.parseChars r).alternatives) fun v =>
      ih (Reference.replaceFirst r (replacement v) text)

theorem string (s : String) :
    R _ (interpolateString apply (base.atKey key) s)
      (interpolateString apply' ((base.atKey key).under inv') s) := by
  unfold interpolateString
  dsimp only
  split
  · exact linked.result _
  · split
    · exact linked.alternatives key _
    · exact linked.sequence (linked.replaced key _ _) fun text => linked.result _

mutual

theorem interpolated :
    ∀ v : Value, R _ (interpolate apply (base.atKey key) v)
      (interpolate apply' ((base.atKey key).under inv') v)
  | .string s => by simpa only [interpolate] using linked.string key s
  | .array items => by
    simp only [interpolate]
    exact linked.sequence (interpolatedItems items) fun items => linked.result _
  | .record fs => by
    simp only [interpolate]
    exact linked.sequence (interpolatedFields fs) fun fs => linked.result _
  | .null => by simpa only [interpolate] using linked.result _
  | .bool _ => by simpa only [interpolate] using linked.result _
  | .number _ => by simpa only [interpolate] using linked.result _
  | .date _ => by simpa only [interpolate] using linked.result _
  | .projected _ => by simpa only [interpolate] using linked.result _

theorem interpolatedItems :
    ∀ items : List Value, R _ (interpolateItems apply (base.atKey key) items)
      (interpolateItems apply' ((base.atKey key).under inv') items)
  | [] => by simpa only [interpolateItems] using linked.result _
  | v :: rest => by
    simp only [interpolateItems]
    refine linked.sequence (interpolated v) fun item => ?_
    exact linked.sequence (interpolatedItems rest) fun items => linked.result _

theorem interpolatedFields :
    ∀ fs : List (String × Value), R _ (interpolateFields apply (base.atKey key) fs)
      (interpolateFields apply' ((base.atKey key).under inv') fs)
  | [] => by simpa only [interpolateFields] using linked.result _
  | f :: rest => by
    simp only [interpolateFields]
    refine linked.sequence (interpolated f.2) fun field => ?_
    exact linked.sequence (interpolatedFields rest) fun fields => linked.result _

end

end References

section Fields
variable (key : Key)

theorem transformed (ts : List (Transformer F)) (v : Value) :
    R _ (transform apply (base.atKey key) ts v)
      (transform apply' ((base.atKey key).under inv') ts v) := by
  induction ts generalizing v with
  | nil => exact linked.result _
  | cons t rest ih =>
    have there := Context.SameLevel.atKey base key
    refine linked.sequence (linked.predicate (.onValue base key v) t.predicate) fun applies => ?_
    cases applies with
    | false => exact ih v
    | true =>
      refine linked.function (.onValue base key v) t.action fun computed given => ?_
      refine linked.sequence (linked.revised fun q same => ?_) fun next => ?_
      · exact linked.projected (given q same) (there.withData v none) (.inl rfl) (.inl rfl)
      · cases next with
        | some w => exact ih w
        | none => exact linked.result _

theorem current {q : Projector F} (stands : returned (base.atKey key) q) :
    R _ (projectCurrent apply inv (base.atKey key) q)
      (projectCurrent apply' inv' ((base.atKey key).under inv') q) := by
  unfold projectCurrent
  rw [linked.sameScope]
  exact linked.below (.returned stands (.atKey base key) (.inl rfl) (.inr rfl))

theorem raw {spec spec' : Spec F} (beside : spec.Beside parts key spec') :
    R _ (rawValue apply inv (base.atKey key) spec)
      (rawValue apply' inv' ((base.atKey key).under inv') spec') := by
  have sameCurrent : ((base.atKey key).under inv').current? = (base.atKey key).current? := rfl
  cases beside with
  | plain plain =>
    cases spec with
    | typed tag => cases tag <;> exact linked.result _
    | passthrough => exact linked.result _
    | literal v => exact linked.result _
    | function fn =>
      exact linked.function (.atKey base key .function) fn fun computed given =>
        linked.valued fun q same => linked.current key (given q same)
    | deferred d => exact linked.sequence (linked.waiting d) fun v => linked.result (some v)
    | nested p => cases plain
    | project q => cases plain
  | nested stands =>
    simp only [rawValue, sameCurrent]
    split
    · rename_i data shown
      split
      · exact linked.below (.nested stands (.current shown))
      · exact linked.result _
    · exact linked.result _
  | @compiled p q stands =>
    have outside : projectCurrent apply' inv' ((base.atKey key).under inv') q =
        apply' (q.invocation inv.instanceScope (some ((base.atKey key).under inv')))
          (base.atKey key).currentOrNull := by
      rw [projectCurrent, linked.sameScope]
      rfl
    simp only [rawValue, outside]
    split
    · rename_i data shown
      have handed : (base.atKey key).currentOrNull = data := by
        rw [Context.currentOrNull, shown]
        rfl
      rw [handed]
      split
      · exact linked.below (.compiled stands (.current shown))
      · rename_i falsy
        rw [linked.nothing stands (by simpa using falsy)]
        exact linked.result _
    · rename_i missing
      have handed : (base.atKey key).currentOrNull = .null := by
        rw [Context.currentOrNull, missing]
        rfl
      rw [handed, linked.nothing stands rfl]
      exact linked.result _
  | @project q stands =>
    have below := linked.below (.standing stands (.inr rfl))
    simp only [rawValue, projectCurrent]
    rw [linked.sameScope]
    exact below

theorem refined (ts : List (Transformer F)) (v : Value) :
    R _ (refine apply ts (base.atKey key) v)
      (refine apply' ts ((base.atKey key).under inv') v) := by
  refine linked.sequence (linked.transformed key ts v) fun next => ?_
  cases next with
  | none => exact linked.result _
  | some w =>
    dsimp only
    split
    · exact linked.result _
    · exact linked.sequence (linked.interpolated key w) fun found => linked.result _

theorem fieldValue (ts : List (Transformer F)) {spec spec' : Spec F}
    (beside : spec.Beside parts key spec') :
    R _ (field apply ts inv (base.atKey key) spec)
      (field apply' ts inv' ((base.atKey key).under inv') spec') := by
  refine linked.sequence (linked.raw key beside) fun found => ?_
  rw [beside.isProjection]
  cases dropNull found with
  | none => exact linked.result _
  | some v =>
    dsimp only
    split
    · exact linked.result _
    · exact linked.refined key ts v

end Fields

section Records

theorem computed (key : Key) {r : Computed F}
    (given : ∀ q, r = .apply q → returned (base.atKey key) q) :
    R _ (computedEntries apply inv (base.atKey key) r)
      (computedEntries apply' inv' ((base.atKey key).under inv') r) := by
  cases r with
  | value v => exact linked.result _
  | absent => exact linked.result _
  | inherit => exact linked.result _
  | apply q =>
    have below := linked.below (.returned (given q rfl) (.atKey base key) (.inl rfl) (.inl rfl))
    simp only [computedEntries]
    rw [linked.sameScope]
    refine linked.sequence below fun found => ?_
    cases found with
    | some v => exact linked.result _
    | none => exact linked.result _

theorem functionContribution (key : Key) (fn : ContextFn F) :
    R _ (functionEntries apply inv (base.atKey key) fn)
      (functionEntries apply' inv' ((base.atKey key).under inv') fn) :=
  linked.function (.atKey base key .function) fn fun _ given => linked.computed key given

theorem source {key : Key} {s s' : Source F} (beside : s.Beside parts key s') :
    R _ (sourceEntries apply inv (base.atKey key) s)
      (sourceEntries apply' inv' ((base.atKey key).under inv') s') := by
  cases beside with
  | compute fn => exact linked.functionContribution key fn
  | inline stands =>
    exact linked.sequence (linked.below (.nested stands (.inl rfl))) fun found =>
      linked.result (entriesOf found)
  | compiled stands =>
    simp only [sourceEntries]
    rw [linked.sameScope]
    exact linked.sequence (linked.below (.compiled stands (.inl rfl))) fun found =>
      linked.result (entriesOf found)
  | project stands =>
    simp only [sourceEntries]
    rw [linked.sameScope]
    exact linked.sequence (linked.below (.standing stands (.inl rfl))) fun found =>
      linked.result (entriesOf found)

theorem condition {item item' : Condition F} (beside : item.Beside parts item') :
    R _ (conditionEntries apply inv (base.atKey (.field conditionsKey)) item)
      (conditionEntries apply' inv' ((base.atKey (.field conditionsKey)).under inv') item') := by
  have tested := linked.predicate (.atKey base (.field conditionsKey) .predicate) item.predicate
  unfold conditionEntries
  rw [beside.predicate]
  refine linked.sequence tested fun holds => ?_
  cases holds with
  | false => exact linked.result _
  | true => exact linked.source beside.source

theorem directive {d d' : Directive F} (beside : d.Beside parts d') :
    R _ (directiveEntries apply inv base d) (directiveEntries apply' inv' (base.under inv') d') := by
  cases beside with
  | array => exact linked.result _
  | conditions each =>
    refine linked.sequence (linked.gathering ?_) fun results => linked.result _
    rw [List.forall₂_map_left_iff, List.forall₂_map_right_iff]
    exact each.imp fun _ _ beside => linked.condition beside
  | combine suffix fn => exact linked.functionContribution _ fn

theorem fieldContribution (ts : List (Transformer F)) {f f' : String × Spec F}
    (beside : Field.Beside parts f f') :
    R _ (fieldEntries apply ts inv base f) (fieldEntries apply' ts inv' (base.under inv') f') := by
  have value := linked.fieldValue (.field f.1) ts beside.spec
  unfold fieldEntries
  rw [beside.key]
  refine linked.sequence value fun found => ?_
  cases found with
  | some v => exact linked.result _
  | none => exact linked.result _

theorem recordLevel (ts : List (Transformer F)) {fields fields' : List (String × Spec F)}
    {directives directives' : List (Directive F)}
    (eachField : List.Forall₂ (Field.Beside parts) fields fields')
    (eachDirective : List.Forall₂ (Directive.Beside parts) directives directives') :
    R _ (record apply ts inv base fields directives)
      (record apply' ts inv' (base.under inv') fields' directives') := by
  refine linked.sequence (linked.gathering (List.rel_append ?_ ?_)) fun parts => linked.result _
  · rw [List.forall₂_map_left_iff, List.forall₂_map_right_iff]
    exact eachField.imp fun _ _ beside => linked.fieldContribution ts beside
  · rw [List.forall₂_map_left_iff, List.forall₂_map_right_iff]
    exact eachDirective.imp fun _ _ beside => linked.directive beside

end Records

section Lists

theorem itemLevel {index : Nat} {p p' : Projection F} (stands : parts.nested (.index index) p p')
    {xs : List Value} {data : Value} (inside : base.data = .array xs)
    (shown : xs[index]? = some data) :
    R _ (item apply inv base index p data) (item apply' inv' (base.under inv') index p' data) := by
  refine linked.below (.nested stands (.current ?_))
  simp only [Context.current?, Context.atKey, inside, Value.items?, Option.bind_some, shown]

theorem pairedLevel {slots slots' : List (Projection F)} {xs : List Value}
    (beside : (Projection.list slots).Beside parts (.list slots')) (inside : base.data = .array xs) :
    R _ (Run.gather (paired apply inv base xs slots))
      (Run.gather (paired apply' inv' (base.under inv') xs slots')) := by
  obtain _ | ⟨length, each⟩ := beside
  apply linked.gathering
  refine List.forall₂_of_length_eq_of_get (by simp [paired, length]) fun index inside inside' => ?_
  simp only [paired, List.length_map, List.length_zipIdx, List.length_zip] at inside inside'
  simp only [paired, List.get_eq_getElem, List.getElem_map, List.getElem_zipIdx, List.getElem_zip,
    Nat.zero_add]
  refine linked.itemLevel (each index (by omega) (by omega)).1 ‹_› ?_
  exact List.getElem?_eq_getElem (by omega)

theorem broadcastLevel {xs : List Value} (inside : base.data = .array xs)
    (again : ∀ index, parts.nested (.index index) inv.projection inv'.projection) :
    R _ (Run.gather (broadcast apply inv base xs))
      (Run.gather (broadcast apply' inv' (base.under inv') xs)) := by
  refine linked.gatheredMap fun x member => ?_
  have shown := List.mem_zipIdx_iff_getElem?.mp (List.mem_of_mem_filter member)
  exact linked.itemLevel (again x.2) inside shown

theorem itemsLevel (beside : inv.projection.Beside parts inv'.projection) (config : Config)
    {xs : List Value} (inside : base.data = .array xs) :
    R _ (items apply config inv base xs) (items apply' config inv' (base.under inv') xs) := by
  unfold items
  cases shown : inv.projection with
  | list slots =>
    rw [shown] at beside
    cases shown' : inv'.projection with
    | object => rw [shown'] at beside; cases beside
    | list slots' =>
      rw [shown'] at beside
      have results := linked.pairedLevel beside inside
      have listed := linked.sequence results fun found => linked.result (Value.array (present found))
      have length : slots'.length = slots.length := by
        obtain _ | ⟨length, _⟩ := beside
        exact length.symm
      simp only [length]
      split
      · exact linked.sequence (linked.notice _) fun _ => listed
      · exact listed
  | object fields directives =>
    rw [shown] at beside
    cases shown' : inv'.projection with
    | object fields' directives' =>
      rw [shown'] at beside
      have results := linked.broadcastLevel inside (by rw [shown, shown']; exact beside.again)
      exact linked.sequence results fun found => linked.result (Value.array (present found))
    | list => rw [shown'] at beside; cases beside

theorem slotsLevel (ts : List (Transformer F)) {ps ps' : List (Projection F)}
    (beside : (Projection.list ps).Beside parts (.list ps')) :
    R _ (slots apply ts inv base ps) (slots apply' ts inv' (base.under inv') ps') := by
  obtain _ | ⟨length, each⟩ := beside
  refine linked.sequence (linked.gathering ?_) fun found => linked.result _
  refine List.forall₂_of_length_eq_of_get (by simp [length]) fun index inside inside' => ?_
  simp only [List.length_map, List.length_zipIdx] at inside inside'
  simp only [List.get_eq_getElem, List.getElem_map, List.getElem_zipIdx, Nat.zero_add]
  exact linked.fieldValue (.field (toString index)) ts (.nested (each index inside inside').2)

theorem oneLevel (beside : inv.projection.Beside parts inv'.projection) (engine : Engine F) :
    R _ (level engine apply inv base base.data)
      (level engine apply' inv' (base.under inv') base.data) := by
  have sameItems : itemwise? inv'.projection base.data = itemwise? inv.projection base.data := by
    rw [itemwise?, itemwise?, beside.isArray]
  unfold level
  rw [sameItems]
  split
  · rename_i xs itemwise
    exact linked.itemsLevel beside _ (itemwiseArray itemwise)
  · cases shown : inv.projection with
    | object fields directives =>
      rw [shown] at beside
      cases shown' : inv'.projection with
      | object fields' directives' =>
        rw [shown'] at beside
        obtain ⟨eachField, eachDirective, _⟩ := beside
        exact linked.recordLevel _ eachField eachDirective
      | list => rw [shown'] at beside; cases beside
    | list ps =>
      rw [shown] at beside
      cases shown' : inv'.projection with
      | object => rw [shown'] at beside; cases beside
      | list ps' =>
        rw [shown'] at beside
        exact linked.slotsLevel _ beside

end Lists

end Linked
end Evaluate
end Reshape
