import Reshape.Proofs.Context.Merged
/-! Scopes as values. A dotted path leads through a scope to what it leads to in the record that the
scope is as a value, wherever on the way it passes from scopes to records and lists. Functions and
deferred values are no values: a path that ends at one finds nothing in the record. -/
namespace Reshape
variable {F : Type}

namespace Variable

inductive NamedOnce : Variable F → Prop where
  | value (v : Value) : NamedOnce (.value v)
  | function (fn : ContextFn F) : NamedOnce (.function fn)
  | deferred (d : Deferred) : NamedOnce (.deferred d)
  | scope {entries : Scope F} (distinct : entries.Distinct) (each : ∀ e ∈ entries, e.2.NamedOnce) :
      NamedOnce (.scope entries)

def view? : Variable F → Option Value
  | .value v => some v
  | .scope inner => some (Scope.toValue inner)
  | .function _ | .deferred _ => none

def inside? : Variable F → String → Option (Variable F)
  | .scope inner, path => Scope.lookup? inner path
  | .value v, path => (v.path? path).map .value
  | .function _, _ | .deferred _, _ => none

end Variable

theorem Scope.fieldsViewed (s : Scope F) :
    fields s = s.filterMap fun e => e.2.view?.map (e.1, ·) := by
  induction s with
  | nil => rw [fields]; rfl
  | cons e rest ih =>
    obtain ⟨name, v | fn | d | inner⟩ := e <;> rw [fields, ih] <;> rfl

namespace Variable

theorem NamedOnce.child {x y : Variable F} {segment : String} (named : x.NamedOnce)
    (found : x.child? segment = some y) : y.NamedOnce := by
  cases named with
  | value v =>
    obtain ⟨w, _, rfl⟩ := Option.map_eq_some_iff.mp found
    exact .value w
  | scope _ each => exact each _ (Entries.get?Member found)
  | function => cases found
  | deferred => cases found

theorem childViewed {x : Variable F} (named : x.NamedOnce) (segment : String) :
    (x.child? segment).bind view? = x.view?.bind (·.get? segment) := by
  cases named with
  | value v =>
    change ((v.get? segment).map Variable.value).bind view? = v.get? segment
    cases v.get? segment <;> rfl
  | @scope entries distinct _ =>
    change (Entries.get? entries segment).bind view? = Entries.get? (Scope.fields entries) segment
    rw [Scope.fieldsViewed, distinct.get?FilterValues]
  | function => rfl
  | deferred => rfl

theorem walkViewed {x : Variable F} (named : x.NamedOnce) (path : List String) :
    (x.walk path).bind view? = x.view?.bind (·.walk path) := by
  induction path generalizing x with
  | nil => exact (Option.bind_fun_some x.view?).symm
  | cons segment rest ih =>
    have behind : ∀ y, x.child? segment = some y → (y.walk rest).bind view? = y.view?.bind (·.walk rest) :=
      fun y found => ih (named.child found)
    calc
      (x.walk (segment :: rest)).bind view?
          = (x.child? segment).bind fun y => (y.walk rest).bind view? := Option.bind_assoc ..
      _ = (x.child? segment).bind fun y => y.view?.bind (·.walk rest) := Option.bind_congr behind
      _ = ((x.child? segment).bind view?).bind (·.walk rest) := (Option.bind_assoc ..).symm
      _ = (x.view?.bind (·.get? segment)).bind (·.walk rest) := by rw [childViewed named]
      _ = x.view?.bind (·.walk (segment :: rest)) := Option.bind_assoc ..

theorem insideWalks (x : Variable F) (path : String) : x.inside? path = x.walk (Value.segments path) := by
  have cut : Value.segments path ≠ [] := by simp [Value.segments, Text.splitAtNotEmpty]
  obtain ⟨segment, rest, shown⟩ := List.exists_cons_of_ne_nil cut
  cases x with
  | scope inner => exact Scope.lookupWalks inner path
  | value v => exact (walkValue v (Value.segments path)).symm
  | function fn => rw [shown]; rfl
  | deferred d => rw [shown]; rfl

theorem viewShows {x : Option (Variable F)} {v : Value} :
    x.bind view? = some v ↔
      x = some (.value v) ∨ ∃ inner, x = some (.scope inner) ∧ Scope.toValue inner = v := by
  obtain _ | v | fn | d | inner := x <;> simp [view?]

theorem viewShowsNothing {x : Option (Variable F)} :
    x.bind view? = none ↔
      x = none ∨ (∃ fn, x = some (.function fn)) ∨ ∃ d, x = some (.deferred d) := by
  obtain _ | v | fn | d | inner := x <;> simp [view?]

end Variable

namespace Scope

theorem lookupViewed {s : Scope F} (named : (Variable.scope s).NamedOnce) (path : String) :
    (s.lookup? path).bind Variable.view? = (toValue s).path? path := by
  rw [lookupWalks, Variable.walkViewed named]
  rfl

theorem pathsLeadAlike {s : Scope F} (named : (Variable.scope s).NamedOnce) (path : String) :
    (∀ v, (s.lookup? path = some (.value v) ∨
        ∃ inner, s.lookup? path = some (.scope inner) ∧ toValue inner = v) ↔
      (toValue s).path? path = some v) ∧
    ((s.lookup? path = none ∨ (∃ fn, s.lookup? path = some (.function fn)) ∨
        ∃ d, s.lookup? path = some (.deferred d)) ↔
      (toValue s).path? path = none) ∧
    ∀ further, s.lookup? (path ++ "." ++ further) = (s.lookup? path).bind (·.inside? further) := by
  rw [← lookupViewed named]
  refine ⟨fun v => Variable.viewShows.symm, Variable.viewShowsNothing.symm, fun further => ?_⟩
  simp only [Variable.insideWalks]
  exact lookupFurther s path further

def shelf : Scope Unit :=
  [("pipes", .scope
      [("upper", .function (.closure ())),
        ("rows", .value (.array [.null, .record [("", .string "x")]]))]),
    ("later", .deferred ⟨0, .null⟩)]

theorem shelfLeads :
    (Variable.scope shelf).NamedOnce ∧
    (toValue shelf).path? "pipes.rows.+01" = some (.record [("", .string "x")]) ∧
    (toValue shelf).path? "pipes.upper" = none ∧
    shelf.lookup? ("pipes.rows.+01" ++ "." ++ "") = some (.value (.string "x")) := by
  have named : (Variable.scope shelf).NamedOnce := by
    have distinct : Entries.Distinct shelf := by simp [shelf, Entries.Distinct, Entries.keys]
    refine .scope distinct (List.forall_mem_cons.mpr ⟨.scope ?_ ?_, ?_⟩)
    · simp [Entries.Distinct, Entries.keys]
    · exact List.forall_mem_cons.mpr ⟨.function _, List.forall_mem_singleton.mpr (.value _)⟩
    · exact List.forall_mem_singleton.mpr (.deferred _)
  refine ⟨named, ?_, ?_, ?_⟩
  · exact ((pathsLeadAlike named "pipes.rows.+01").1 _).mp (.inl rfl)
  · exact (pathsLeadAlike named "pipes.upper").2.1.mp (.inr (.inl ⟨.closure (), rfl⟩))
  · exact ((pathsLeadAlike named "pipes.rows.+01").2.2 "").trans rfl

end Scope
end Reshape
