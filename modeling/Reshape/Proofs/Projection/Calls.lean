import Reshape.Proofs.Overwriting
import Reshape.Projection.Builder
/-! Object projections as sequences of calls build them. Fields and directives come about apart from
one another: fields are the ordinary names of the insertions written over one another, and directives
are all that the calls declare, `@array` the first time only. -/
namespace Reshape
variable {F : Type}

namespace ObjectProjection

inductive Call (F : Type) where
  | field (key : String) (spec : Spec F)
  | insert (key : String) (spec : Spec F)
  | array
  | conditions (items : List (Condition F))
  | combine (fn : ContextFn F)
  | combineNamed (suffix : String) (fn : ContextFn F)
  | directive (d : Directive F)

inductive Means : String → Spec F → Directive F → Prop where
  | array {flag : Value} (truthy : flag.isTruthy = true) : Means arrayKey (.literal flag) .array
  | combine (fn : ContextFn F) : Means combineKey (.function fn) (.combine none fn)
  | combineNamed (suffix : String) (fn : ContextFn F) :
      Means (combineKey ++ ":" ++ suffix) (.function fn) (.combine (some suffix) fn)

namespace Call

def on (p : ObjectProjection F) : Call F → ObjectProjection F
  | .field key spec | .insert key spec => p.insert key spec
  | .array => p.array
  | .conditions items => p.conditions items
  | .combine fn => p.combine fn
  | .combineNamed suffix fn => p.combineNamed suffix fn
  | .directive d => p.directive d

def insertion? : Call F → Option (String × Spec F)
  | .field key spec | .insert key spec => some (key, spec)
  | _ => none

def ordinary? : Call F → Option (String × Spec F)
  | .field key spec | .insert key spec => if isReserved key then none else some (key, spec)
  | _ => none

inductive Declares : Call F → Directive F → Prop where
  | array : Declares .array .array
  | conditions (items : List (Condition F)) : Declares (.conditions items) (.conditions items)
  | combine (fn : ContextFn F) : Declares (.combine fn) (.combine none fn)
  | combineNamed (suffix : String) (fn : ContextFn F) :
      Declares (.combineNamed suffix fn) (.combine (some suffix) fn)
  | directive (d : Directive F) : Declares (.directive d) d
  | inserted {call : Call F} {key : String} {spec : Spec F} {d : Directive F}
      (insertion : call.insertion? = some (key, spec)) (means : Means key spec d) : Declares call d

structure Ignored (call : Call F) : Prop where
  reserved : ∃ key spec, call.insertion? = some (key, spec) ∧ isReserved key = true
  nothing : ∀ d, ¬ call.Declares d

end Call

/- All directives but `@array` that calls declare, in the order of the calls. -/
inductive DeclaredInTurn : List (Call F) → List (Directive F) → Prop where
  | nil : DeclaredInTurn [] []
  | adds {call : Call F} {d : Directive F} {calls : List (Call F)} {ds : List (Directive F)}
      (declares : call.Declares d) (other : d ≠ .array) (rest : DeclaredInTurn calls ds) :
      DeclaredInTurn (call :: calls) (d :: ds)
  | passes {call : Call F} {calls : List (Call F)} {ds : List (Directive F)}
      (nothing : ∀ d, call.Declares d → d = .array) (rest : DeclaredInTurn calls ds) :
      DeclaredInTurn (call :: calls) ds

def called (calls : List (Call F)) : ObjectProjection F :=
  calls.foldl Call.on .empty

section Directives

def enlist (ds : List (Directive F)) (d : Directive F) : List (Directive F) :=
  if d.isArray && ds.any Directive.isArray then ds else ds ++ [d]

theorem directiveEnlists (p : ObjectProjection F) (d : Directive F) :
    p.directive d = { p with directives := enlist p.directives d } := by
  unfold directive enlist isArray
  split <;> rfl

variable (before ds : List (Directive F)) (d : Directive F)

theorem enlistArray : (enlist before d).any Directive.isArray =
    (before.any Directive.isArray || d.isArray) := by
  unfold enlist
  split
  · rename_i again
    rw [(Bool.and_eq_true_iff.mp again).1, (Bool.and_eq_true_iff.mp again).2]
    rfl
  · rw [List.any_append, List.any_cons, List.any_nil, Bool.or_false]

theorem enlistOther : (enlist before d).filter (fun e => !e.isArray) =
    before.filter (fun e => !e.isArray) ++ [d].filter fun e => !e.isArray := by
  unfold enlist
  split
  · rename_i again
    have array : d.isArray = true := (Bool.and_eq_true_iff.mp again).1
    rw [List.filter_cons_of_neg (by simp [array]), List.filter_nil, List.append_nil]
  · exact List.filter_append _ _

variable {before} in
theorem enlistOnce (once : before.countP Directive.isArray ≤ 1) :
    (enlist before d).countP Directive.isArray ≤ 1 := by
  unfold enlist
  split
  · exact once
  · rename_i fresh
    rw [List.countP_append, List.countP_singleton]
    cases array : d.isArray with
    | false => exact once
    | true =>
      have none : before.countP Directive.isArray = 0 := by
        rw [array, Bool.true_and, Bool.not_eq_true, List.any_eq_false] at fresh
        exact List.countP_eq_zero.mpr fresh
      rw [none]
      exact Nat.le_refl 1

theorem enlistedArray : (ds.foldl enlist before).any Directive.isArray =
    (before.any Directive.isArray || ds.any Directive.isArray) := by
  induction ds generalizing before with
  | nil => exact (Bool.or_false _).symm
  | cons d rest ih => rw [List.foldl_cons, ih, enlistArray, Bool.or_assoc, List.any_cons]

theorem enlistedOthers : (ds.foldl enlist before).filter (fun e => !e.isArray) =
    before.filter (fun e => !e.isArray) ++ ds.filter fun e => !e.isArray := by
  induction ds generalizing before with
  | nil => exact (List.append_nil _).symm
  | cons d rest ih =>
    rw [List.foldl_cons, ih, enlistOther, List.append_assoc, ← List.filter_append,
      List.singleton_append]

variable {before} in
theorem enlistedOnce (once : before.countP Directive.isArray ≤ 1) :
    (ds.foldl enlist before).countP Directive.isArray ≤ 1 := by
  induction ds generalizing before with
  | nil => exact once
  | cons d rest ih => exact ih (enlistOnce d once)

end Directives

theorem combineSuffix?Reads {key suffix : String} :
    combineSuffix? key = some suffix ↔ key = combineKey ++ ":" ++ suffix := by
  have opened : (combineKey ++ ":" ++ suffix).toList = combineKey.toList ++ [':'] ++ suffix.toList := by
    rw [String.toList_append, String.toList_append]
    rfl
  simp only [combineSuffix?]
  split
  · rename_i front
    obtain ⟨rest, whole⟩ := List.isPrefixOf_iff_prefix.mp front
    rw [← whole, List.drop_left, Option.some.injEq]
    constructor
    · rintro rfl
      rw [String.toList_ofList] at opened
      exact String.toList_injective (whole.symm.trans opened.symm)
    · rintro rfl
      rw [opened] at whole
      rw [List.append_cancel_left whole, String.ofList_toList]
  · rename_i other
    refine iff_of_false nofun ?_
    rintro rfl
    exact other (List.isPrefixOf_iff_prefix.mpr ⟨suffix.toList, opened.symm⟩)

theorem directive?Means {key : String} {spec : Spec F} {d : Directive F} :
    directive? key spec = some d ↔ Means key spec d := by
  constructor
  · intro read
    unfold directive? at read
    split at read
    · split at read
      · rename_i declared
        obtain ⟨same, truthy⟩ := Bool.and_eq_true_iff.mp declared
        cases read
        exact of_decide_eq_true same ▸ .array truthy
      · cases read
    · split at read
      · rename_i same
        cases read
        exact same ▸ .combine _
      · obtain ⟨suffix, named, rfl⟩ := Option.map_eq_some_iff.mp read
        exact combineSuffix?Reads.mp named ▸ .combineNamed suffix _
    · cases read
  · intro means
    cases means with
    | array truthy => simp [directive?, truthy]
    | combine fn => rw [directive?, if_pos rfl]
    | combineNamed suffix fn =>
      have longer : combineKey.length < (combineKey ++ ":" ++ suffix).length := by
        have colon : ":".length = 1 := rfl
        rw [String.length_append, String.length_append, colon]
        omega
      have other : combineKey ++ ":" ++ suffix ≠ combineKey := fun same =>
        Nat.ne_of_gt longer (congrArg String.length same)
      rw [directive?, if_neg other, combineSuffix?Reads.mpr rfl]
      rfl

theorem Means.reserved {key : String} {spec : Spec F} {d : Directive F} (means : Means key spec d) :
    isReserved key = true := by
  cases means with
  | array => decide
  | combine => decide
  | combineNamed suffix =>
    have opened : (combineKey ++ ":" ++ suffix).toList =
        '@' :: ("combine:".toList ++ suffix.toList) := by
      rw [String.toList_append, String.toList_append]
      rfl
    rw [isReserved, opened]
    rfl

theorem insertParts (p : ObjectProjection F) (key : String) (spec : Spec F) :
    p.insert key spec =
      ⟨p.fields.overlay (if isReserved key then none else some (key, spec)).toList,
        (directive? key spec).toList.foldl enlist p.directives⟩ := by
  cases read : directive? key spec with
  | none =>
    unfold insert
    rw [read]
    split <;> rfl
  | some d =>
    have reserved := (directive?Means.mp read).reserved
    rw [insert, read, reserved]
    exact directiveEnlists p d

namespace Call

def declared? : Call F → Option (Directive F)
  | .field key spec | .insert key spec => directive? key spec
  | .array => some .array
  | .conditions items => some (.conditions items)
  | .combine fn => some (.combine none fn)
  | .combineNamed suffix fn => some (.combine (some suffix) fn)
  | .directive d => some d

theorem onParts (p : ObjectProjection F) (call : Call F) :
    call.on p =
      ⟨p.fields.overlay call.ordinary?.toList, call.declared?.toList.foldl enlist p.directives⟩ := by
  cases call with
  | field key spec => exact insertParts p key spec
  | insert key spec => exact insertParts p key spec
  | array => exact directiveEnlists p .array
  | conditions items => exact directiveEnlists p (.conditions items)
  | combine fn => exact directiveEnlists p (.combine none fn)
  | combineNamed suffix fn => exact directiveEnlists p (.combine (some suffix) fn)
  | directive d => exact directiveEnlists p d

theorem onAllParts (p : ObjectProjection F) (calls : List (Call F)) :
    calls.foldl on p =
      ⟨p.fields.overlay (calls.filterMap ordinary?),
        (calls.filterMap declared?).foldl enlist p.directives⟩ := by
  induction calls generalizing p with
  | nil => rfl
  | cons call rest ih =>
    rw [List.foldl_cons, ih, onParts]
    cases named : call.ordinary? <;> cases declared : call.declared? <;>
      simp only [List.filterMap_cons, named, declared] <;> rfl

theorem declaredDeclares {call : Call F} {d : Directive F} :
    call.declared? = some d ↔ call.Declares d := by
  constructor
  · intro declared
    cases call with
    | field key spec => exact .inserted rfl (directive?Means.mp declared)
    | insert key spec => exact .inserted rfl (directive?Means.mp declared)
    | array => cases declared; exact .array
    | conditions items => cases declared; exact .conditions items
    | combine fn => cases declared; exact .combine fn
    | combineNamed suffix fn => cases declared; exact .combineNamed suffix fn
    | directive => cases declared; exact .directive d
  · intro declares
    cases declares with
    | @inserted call key spec _ insertion means =>
      cases call with
      | field => cases insertion; exact directive?Means.mpr means
      | insert => cases insertion; exact directive?Means.mpr means
      | _ => cases insertion
    | _ => rfl

end Call

theorem isArrayIff {d : Directive F} : d.isArray = true ↔ d = .array := by
  cases d <;> simp [Directive.isArray]

theorem declaredInTurn (calls : List (Call F)) :
    DeclaredInTurn calls ((calls.filterMap Call.declared?).filter fun d => !d.isArray) := by
  induction calls with
  | nil => exact .nil
  | cons call rest ih =>
    cases declared : call.declared? with
    | none =>
      rw [List.filterMap_cons_none declared]
      refine .passes (fun d declares => ?_) ih
      rw [Call.declaredDeclares.mpr declares] at declared
      cases declared
    | some d =>
      rw [List.filterMap_cons_some declared]
      cases array : d.isArray with
      | true =>
        rw [List.filter_cons_of_neg (by simp [array])]
        refine .passes (fun e declares => ?_) ih
        rw [Call.declaredDeclares.mpr declares] at declared
        cases declared
        exact isArrayIff.mp array
      | false =>
        rw [List.filter_cons_of_pos (by simp [array])]
        refine .adds (Call.declaredDeclares.mp declared) (fun same => ?_) ih
        rw [same] at array
        cases array

theorem declaredSome {calls : List (Call F)} :
    (calls.filterMap Call.declared?).any Directive.isArray = true ↔
      ∃ call ∈ calls, call.Declares .array := by
  rw [List.any_eq_true]
  constructor
  · rintro ⟨d, member, array⟩
    obtain ⟨call, inside, declared⟩ := List.mem_filterMap.mp member
    rw [isArrayIff.mp array] at declared
    exact ⟨call, inside, Call.declaredDeclares.mp declared⟩
  · rintro ⟨call, inside, declares⟩
    exact ⟨.array, List.mem_filterMap.mpr ⟨call, inside, Call.declaredDeclares.mpr declares⟩, rfl⟩

theorem ordinaryName {call : Call F} {f : String × Spec F} (named : call.ordinary? = some f) :
    isReserved f.1 = false := by
  cases call with
  | field key spec =>
    obtain ⟨ordinary, same⟩ := Option.ite_none_left_eq_some.mp named
    cases same
    exact eq_false_of_ne_true ordinary
  | insert key spec =>
    obtain ⟨ordinary, same⟩ := Option.ite_none_left_eq_some.mp named
    cases same
    exact eq_false_of_ne_true ordinary
  | _ => cases named

theorem ignoredOn {call : Call F} (ignored : call.Ignored) (p : ObjectProjection F) :
    call.on p = p := by
  obtain ⟨key, spec, insertion, reserved⟩ := ignored.reserved
  have declared : call.declared? = none :=
    Option.eq_none_iff_forall_ne_some.mpr fun d shown =>
      ignored.nothing d (Call.declaredDeclares.mp shown)
  have named : call.ordinary? = none := by
    cases call with
    | field => cases insertion; exact if_pos reserved
    | insert => cases insertion; exact if_pos reserved
    | _ => rfl
  rw [Call.onParts, declared, named]
  rfl

theorem wellFormedByCalls (calls : List (Call F)) :
    let p := called calls
    let inserted := calls.filterMap Call.ordinary?
    (∀ key ∈ p.fields.keys, isReserved key = false) ∧
    p.fields.Distinct ∧
    p.fields.keys = (Entries.keys inserted).eraseDups ∧
    (∀ key, p.get? key = Entries.get? inserted.reverse key) ∧
    p.directives.countP Directive.isArray ≤ 1 ∧
    (p.isArray = true ↔ ∃ call ∈ calls, call.Declares .array) ∧
    DeclaredInTurn calls (p.directives.filter fun d => !d.isArray) ∧
    ∀ call ∈ calls, call.Ignored → ∀ q, call.on q = q := by
  intro p inserted
  have parts : p = ⟨Entries.ofList inserted, (calls.filterMap Call.declared?).foldl enlist []⟩ :=
    Call.onAllParts .empty calls
  refine ⟨?_, ?_, ?_, ?_, ?_, ?_, ?_, fun call _ ignored => ignoredOn ignored⟩
  · intro key member
    rw [parts] at member
    obtain ⟨f, inside, rfl⟩ := List.mem_map.mp member
    obtain ⟨call, _, named⟩ := List.mem_filterMap.mp (Entries.memberOfList inside)
    exact ordinaryName named
  · rw [parts]
    exact Entries.distinctOfList inserted
  · rw [parts]
    exact Entries.keysOfList inserted
  · intro key
    rw [parts]
    exact Entries.get?OfList inserted key
  · rw [parts]
    exact enlistedOnce _ (Nat.zero_le 1)
  · rw [parts, ← declaredSome]
    exact Bool.eq_iff_iff.mp (enlistedArray [] _)
  · have others := declaredInTurn calls
    rw [parts]
    exact (enlistedOthers [] _).symm ▸ others

def mixedCalls : List (Call Unit) :=
  [.field "@array" (.literal (.bool true)), .field "b" .passthrough,
    .insert "@combine:" (.function (.direct ())), .insert "@if" .passthrough, .array,
    .insert "a" .passthrough, .field "b" (.typed .date)]

theorem mixedWellFormed :
    let p := called mixedCalls
    let stray : Call Unit := .insert "@if" .passthrough
    p.fields.keys = ["b", "a"] ∧ p.get? "b" = some (.typed .date) ∧ p.isArray = true ∧
      stray ∈ mixedCalls ∧ stray.Ignored ∧ ∀ q, stray.on q = q := by
  intro p stray
  have member : stray ∈ mixedCalls := by simp [stray, mixedCalls]
  have ignored : stray.Ignored := by
    refine ⟨⟨"@if", .passthrough, rfl, by decide⟩, fun d declares => ?_⟩
    have declared := Call.declaredDeclares.mpr declares
    cases declared
  obtain ⟨_, _, keys, specs, _, array, _, without⟩ := wellFormedByCalls mixedCalls
  have flagged : Call.Declares (.field "@array" (.literal (.bool true)) : Call Unit) .array :=
    .inserted rfl (.array rfl)
  exact ⟨keys.trans rfl, (specs "b").trans rfl, array.mpr ⟨_, List.mem_cons_self, flagged⟩, member,
    ignored, without stray member ignored⟩

end ObjectProjection
end Reshape
