import Reshape.Proofs.Evaluate.Output
import Reshape.Proofs.Projection.Built
/-! What stands in the records that a level assembles. Fields bring neither null nor a name that
starts with `@`. What a function of a directive gives is taken as it is, so such functions alone can
bring either in: at the level itself, or at a level below whose record a condition takes over. -/
namespace Reshape
variable {F σ : Type}

def ContextFn.symbol : ContextFn F → F
  | .closure symbol | .direct symbol => symbol

inductive Projection.Computes : Projection F → Key → F → Prop where
  | condition {fields : List (String × Spec F)} {directives : List (Directive F)}
      {items : List (Condition F)} {predicate : Predicate F} {fn : ContextFn F}
      (declared : .conditions items ∈ directives) (stands : ⟨predicate, .compute fn⟩ ∈ items) :
      Computes (.object fields directives) (.field conditionsKey) fn.symbol
  | combine {fields : List (String × Spec F)} {directives : List (Directive F)}
      {suffix : Option String} {fn : ContextFn F} (declared : .combine suffix fn ∈ directives) :
      Computes (.object fields directives) (.field (Directive.combine suffix fn).key) fn.symbol

/- Projections that lead to no others, neither by what stands in them nor by what callbacks return. -/
structure Family (replies : Replies F) (among : Projection F → Prop) : Prop where
  built : ∀ {p}, among p → p.Built
  nested : ∀ {p key q}, among p → p.Nests key q → among q
  named : ∀ {p key q}, among p → p.Names key q → among q.projection
  returned : ∀ {role symbol c q}, replies.call role symbol c (.apply q) → among q.projection

def Host.replies (host : Host F σ) : Replies F where
  call _ symbol c r := ∃ state, (host.call symbol c state).1 = .ok r
  global _ _ := True

namespace Evaluate

def Clean (e : String × Value) : Prop :=
  ObjectProjection.isReserved e.1 = false ∧ e.2.isNull = false

def Brought (replies : Replies F) (among : Projection F → Prop) (e : String × Value) : Prop :=
  ∃ symbol c v, among c.projection ∧ c.projection.Computes c.key symbol ∧
    replies.call .function symbol c (.value v) ∧ e ∈ v.entries

section Accounts
variable {replies : Replies F} {among : Projection F → Prop}

def Accounted (replies : Replies F) (among : Projection F → Prop) (es : Entries Value) : Prop :=
  ∀ e ∈ es, Clean e ∨ Brought replies among e

def Brings (replies : Replies F) {α : Type} (wanted : α → Prop) (r : Run F α) : Prop :=
  r.Satisfies replies (fun _ _ _ => True) wanted

theorem accountedNone : Accounted replies among [] :=
  fun _ => (nomatch ·)

theorem accountedJoined {contributions : List (Entries Value)}
    (each : ∀ es ∈ contributions, Accounted replies among es) :
    Accounted replies among contributions.flatten := by
  intro e member
  obtain ⟨es, inside, member⟩ := List.mem_flatten.mp member
  exact each es inside e member

/- A list has no entries, so of what comes out only records count. -/
def AccountedOutput (replies : Replies F) (among : Projection F → Prop)
    (result : Option Value) : Prop :=
  Accounted replies among (entriesOf result)

theorem AccountedOutput.truthy {v : Value} (accounted : AccountedOutput replies among (some v)) :
    Accounted replies among (if v.isTruthy then v.entries else []) := by
  split
  · exact accounted
  · exact accountedNone

theorem dropNullKeeps {result : Option Value} {v : Value} (kept : dropNull result = some v) :
    v.isNull = false := by
  simpa using (Option.filter_eq_some_iff.mp kept).2

theorem outputNotNull {v : Value} (output : v.isOutput = true) : v.isNull = false := by
  cases v <;> first | rfl | cases output

section Fields
variable {apply : Apply F} {inv : Invocation F} {c : Context F}

theorem refineBrings (ts : List (Transformer F)) (raw : Value) :
    Brings replies (fun found => ∀ v, found = some v → v.isNull = false)
      (refine apply ts c raw) := by
  refine Run.Satisfies.behind _ fun transformed => ?_
  cases transformed with
  | none => exact fun _ => (nomatch ·)
  | some v =>
    dsimp only
    split
    · rename_i output
      rintro w ⟨⟩
      exact outputNotNull output
    · exact Run.Satisfies.behind _ fun found w kept => dropNullKeeps kept

theorem fieldBrings (ts : List (Transformer F)) (spec : Spec F) :
    Brings replies (fun found => ∀ v, found = some v → v.isNull = false)
      (field apply ts inv c spec) := by
  refine Run.Satisfies.behind _ fun found => ?_
  cases kept : dropNull found with
  | none => exact fun _ => (nomatch ·)
  | some raw =>
    dsimp only
    split
    · rintro w ⟨⟩
      exact dropNullKeeps kept
    · exact refineBrings ts raw

theorem fieldEntriesBring (ts : List (Transformer F)) (base : Context F) {f : String × Spec F}
    (ordinary : ObjectProjection.isReserved f.1 = false) :
    Brings replies (Accounted replies among) (fieldEntries apply ts inv base f) := by
  refine Run.Satisfies.bind (fieldBrings ts f.2) fun found present => ?_
  cases found with
  | none => exact accountedNone
  | some v =>
    intro e member
    obtain rfl := List.mem_singleton.mp member
    exact .inl ⟨ordinary, present v rfl⟩

end Fields

section Directives
variable {apply : Apply F} {inv : Invocation F} {c : Context F}

theorem functionGives (fn : ContextFn F) (role : Role) :
    Brings replies (fun computed => replies.call role fn.symbol c computed ∨ computed = .inherit)
      (fn.run role c) := by
  cases fn with
  | direct symbol => exact ⟨trivial, fun r given => .inl given⟩
  | closure symbol =>
    refine ⟨trivial, fun r given => ?_⟩
    show replies.call role symbol c r.normalize ∨ r.normalize = .inherit
    unfold Computed.normalize
    split
    · split
      · exact .inr rfl
      · exact .inl given
    · exact .inl given

variable (family : Family replies among) (here : among c.projection)
  (below : ∀ child data, among child.projection →
    Brings replies (AccountedOutput replies among) (apply child data))
include family here below

theorem functionEntriesBring {fn : ContextFn F} (computes : c.projection.Computes c.key fn.symbol) :
    Brings replies (Accounted replies among) (functionEntries apply inv c fn) := by
  refine Run.Satisfies.bind (functionGives fn .function) fun computed given => ?_
  cases computed with
  | absent => exact accountedNone
  | inherit => exact accountedNone
  | value v =>
    have given := given.resolve_right nofun
    exact AccountedOutput.truthy fun e member => .inr ⟨_, c, v, here, computes, given, member⟩
  | apply q =>
    have returned := family.returned (given.resolve_right nofun)
    refine Run.Satisfies.bind (below _ _ returned) fun result accounted => ?_
    cases result with
    | none => exact accountedNone
    | some v => exact AccountedOutput.truthy accounted

theorem sourceEntriesBring {source : Source F}
    (inline : ∀ p, source = .inline p → c.projection.Nests c.key p)
    (project : ∀ q, source = .project q → c.projection.Names c.key q)
    (compute : ∀ fn, source = .compute fn → c.projection.Computes c.key fn.symbol) :
    Brings replies (Accounted replies among) (sourceEntries apply inv c source) := by
  cases source with
  | project q =>
    exact Run.Satisfies.bind (below _ _ (family.named here (project q rfl))) fun _ accounted => accounted
  | inline p =>
    exact Run.Satisfies.bind (below _ _ (family.nested here (inline p rfl))) fun _ accounted => accounted
  | compute fn => exact functionEntriesBring family here below (compute fn rfl)

end Directives

section Record
variable {apply : Apply F} {inv : Invocation F} {base : Context F}
  {fields : Entries (Spec F)} {directives : List (Directive F)}
  (family : Family replies among) (shown : base.projection = .object fields directives)
  (here : among base.projection)
  (below : ∀ child data, among child.projection →
    Brings replies (AccountedOutput replies among) (apply child data))
include family shown here below

theorem directiveEntriesBring {d : Directive F} (declared : d ∈ directives) :
    Brings replies (Accounted replies among) (directiveEntries apply inv base d) := by
  cases d with
  | array => exact accountedNone
  | combine suffix fn =>
    refine functionEntriesBring (c := base.atKey _) family here below ?_
    rw [Context.atKey, shown]
    exact .combine declared
  | conditions items =>
    have each : ∀ item ∈ items, Brings replies (Accounted replies among)
        (conditionEntries apply inv (base.atKey (.field conditionsKey)) item) := by
      rintro ⟨predicate, source⟩ stands
      refine Run.Satisfies.behind _ fun holds => ?_
      split
      · refine sourceEntriesBring (c := base.atKey _) family here below ?_ ?_ ?_
        · rintro p rfl
          rw [Context.atKey, shown]
          exact .inline declared stands
        · rintro q rfl
          rw [Context.atKey, shown]
          exact .condition declared stands
        · rintro fn rfl
          rw [Context.atKey, shown]
          exact .condition declared stands
      · exact accountedNone
    exact Run.Satisfies.bind (Run.Satisfies.gatheredMap each) fun results all => accountedJoined all

theorem recordBrings (ts : List (Transformer F)) :
    Brings replies (fun v => ∃ es, v = .projected es ∧ Accounted replies among es)
      (record apply ts inv base fields directives) := by
  obtain ⟨built⟩ := shown ▸ family.built here
  have parts : ∀ part ∈ fields.map (fieldEntries apply ts inv base) ++
      directives.map (directiveEntries apply inv base),
      Brings replies (Accounted replies among) part := by
    intro part member
    rcases List.mem_append.mp member with member | member
    · obtain ⟨f, inside, rfl⟩ := List.mem_map.mp member
      exact fieldEntriesBring ts base (built.fields f inside).1
    · obtain ⟨d, declared, rfl⟩ := List.mem_map.mp member
      exact directiveEntriesBring family shown here below declared
  refine Run.Satisfies.bind (Run.Satisfies.gathered parts) fun results all => ⟨_, rfl, ?_⟩
  exact fun e member => accountedJoined all e (Entries.memberOfList member)

end Record

section Level
variable {engine : Engine F} {apply : Apply F} {inv : Invocation F} {base : Context F}
  (family : Family replies among)
  (below : ∀ child data, among child.projection →
    Brings replies (AccountedOutput replies among) (apply child data))
include family below

theorem levelBrings (here : among inv.projection) (shown : base.projection = inv.projection)
    (data : Value) :
    Brings replies (fun v => AccountedOutput replies among (some v))
      (level engine apply inv base data) := by
  have list : ∀ {α : Type} (r : Run F α) (f : α → List Value),
      Brings replies (fun v => AccountedOutput replies among (some v))
        (r >>= fun a => pure (.array (f a))) := fun r f =>
    Run.Satisfies.behind r fun _ => accountedNone
  unfold level
  split
  · unfold items
    split
    · split
      · exact Run.Satisfies.behind _ fun _ => list _ _
      · exact list _ _
    · exact list _ _
  · split
    · rename_i fields directives object
      refine (recordBrings family (shown.trans object) (shown ▸ here) below _).weaken ?_
      rintro v ⟨es, rfl, accounted⟩
      exact accounted
    · exact list _ _

theorem stepBrings (here : among inv.projection) (data : Value) :
    Brings replies (AccountedOutput replies among) (step engine apply inv data) :=
  stepSatisfies accountedNone (fun _ read => levelBrings family below here rfl read) data

end Level

theorem withinBrings (family : Family replies among) (engines : Engines F) (room : Nat)
    (inv : Invocation F) (data : Value) (here : among inv.projection) :
    Brings replies (AccountedOutput replies among) (within engines room inv data) := by
  have nothing : ∀ (child : Invocation F) (data : Value), among child.projection →
      Brings replies (AccountedOutput replies among) (.pure none : Run F (Option Value)) :=
    fun _ _ _ => accountedNone
  induction room generalizing inv data with
  | zero => exact stepBrings family nothing here data
  | succ room ih => exact stepBrings family (fun child data inside => ih child data inside) here data

end Accounts

theorem strayEntriesBrought (engines : Engines F) {host : Host F σ} {among : Projection F → Prop}
    (family : Family host.replies among) (room : Nat) (transformers : List (Transformer F))
    {inv : Invocation F} (here : among inv.projection) {fields : Entries (Spec F)}
    {directives : List (Directive F)} (shown : inv.projection = .object fields directives)
    (global : Scope F) (data : Value) (session : Session F σ) {v : Value}
    (came : (((record (within engines room) transformers inv (baseContext inv global data) fields
      directives).exec engines host).run.run session).1 = .ok v) :
    ∃ entries, v = .projected entries ∧
      (∀ e ∈ entries, Clean e ∨ Brought host.replies among e) ∧
      ((∀ p, among p → ∀ key symbol, ¬ p.Computes key symbol) → ∀ e ∈ entries, Clean e) := by
  have below := fun child data => withinBrings family engines room child data
  have brings : Brings host.replies _ (record (within engines room) transformers inv
      (baseContext inv global data) fields directives) :=
    recordBrings family shown here below transformers
  have within : host.Within engines host.replies fun _ => True :=
    ⟨fun _ _ _ state _ given => ⟨state, given⟩, fun _ session keeps =>
      ⟨rfl, keeps, fun _ _ => trivial⟩⟩
  obtain ⟨entries, same, accounted⟩ := brings.exec within trivial came
  refine ⟨entries, same, accounted, fun silent e member => ?_⟩
  refine (accounted e member).resolve_right ?_
  rintro ⟨symbol, c, v, inside, computes, _⟩
  exact silent _ inside _ symbol computes

def merging : Projection Unit := .object [] [.combine none (.direct ())]

def stray : Entries Value := [("a", .ofNat 1), ("gone", .null), ("@if", .ofNat 2)]

def straying : Host Unit Unit where
  call _ _ state := (.ok (.value (.record stray)), state)
  supply _ state := (.ok [], state)

theorem mergingBuilt : merging.Built :=
  .object (.directive .empty (.combine none (.direct ())))

theorem strayingFamily : Family straying.replies (Projection.Built (F := Unit)) where
  built := id
  nested := Projection.Built.nested
  named := Projection.Built.named
  returned := fun ⟨_, given⟩ => nomatch given

theorem mergedStrayBrought :
    ∃ entries, Value.projected stray = .projected entries ∧
      ∀ e ∈ entries, Clean e ∨ Brought straying.replies Projection.Built e := by
  have came : (((record (within (.single {}) 0) [] ⟨0, merging, none, none, none, 0⟩
      (baseContext ⟨0, merging, none, none, none, 0⟩ [] (.record [])) [] [.combine none (.direct ())]).exec
      (.single {}) straying).run.run { state := () }).1 = .ok (.projected stray) := rfl
  obtain ⟨entries, same, accounted, _⟩ := strayEntriesBrought (.single {}) strayingFamily 0 []
    mergingBuilt rfl [] (.record []) { state := () } came
  exact ⟨entries, same, accounted⟩

def strayAnswers : Answers Unit where
  call _ _ := .ok (.value (.record stray))
  global _ := .ok []

theorem recordsNotAlwaysClean :
    ¬ ∀ (p : Projection Unit) (answers : Answers Unit) (data : Value) (entries : Entries Value),
      p.Built → ((Projector.mk p none 0).project (.single {}) data none).eval answers =
        .ok (some (.projected entries)) → ∀ e ∈ entries, Clean e := by
  intro clean
  have all := clean merging strayAnswers (.record []) stray mergingBuilt rfl
  obtain ⟨_, null⟩ := all ("gone", .null) (by simp [stray])
  cases null

end Evaluate
end Reshape
