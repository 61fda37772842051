import Reshape.Proofs.Evaluate.Recursion
import Reshape.Proofs.Projection.Compile
import Reshape.Proofs.Run.Matches
/-! Compiled nesting against plain nesting. A run of the compiled projection asks what the run of the
plain one asks, with contexts that differ in the projections only, their own and those of the levels
above. Callbacks that do not look at projections therefore cannot tell the two apart, and both runs
end the same way. -/
namespace Reshape
variable {F σ : Type}

def Context.blind : Context F → Context F
  | ⟨scope, data, key, _, projectionScope, instanceScope, none, params, depth⟩ =>
    ⟨scope, data, key, default, projectionScope, instanceScope, none, params, depth⟩
  | ⟨scope, data, key, _, projectionScope, instanceScope, some parent, params, depth⟩ =>
    ⟨scope, data, key, default, projectionScope, instanceScope, some parent.blind, params, depth⟩

namespace Context

theorem blindFields (c : Context F) :
    c.blind = { c with projection := default, parent := c.parent.map blind } := by
  obtain ⟨_, _, _, _, _, _, _ | parent, _, _⟩ := c <;> rfl

theorem layerBlind : ∀ c : Context F, layer c.blind = layer c
  | ⟨_, _, _, _, _, _, none, _, _⟩ => rfl
  | ⟨_, _, _, _, _, _, some parent, _, _⟩ => by
    simp only [blind, layer, layerBlind parent]

end Context

def Answers.Blind (answers : Answers F) : Prop :=
  ∀ symbol (c c' : Context F), c'.blind = c.blind → answers.call symbol c' = answers.call symbol c

def Host.Blind (host : Host F σ) : Prop :=
  ∀ symbol (c c' : Context F), c'.blind = c.blind →
    ∀ state, host.call symbol c' state = host.call symbol c state

namespace Evaluate

def AskAlike {α : Type} (r r' : Run F α) : Prop :=
  r.Matches .any (fun _ _ c c' => c'.blind = c.blind) (fun _ => True) r'

/- What may stand for a projection in the compiled run: the same, or the compiled form of what is
nested in a projector of this engine and scope. -/
inductive StandsFor (context : Option (Scope F)) (id : Nat) (inv : Invocation F) (p : Projection F) :
    Projection F → Prop where
  | same : StandsFor context id inv p p
  | compiled (engine : inv.engine = id) (scope : inv.projectionScope = context) :
      StandsFor context id inv p (p.compile context id)

structure Paired (context : Option (Scope F)) (id : Nat) (inv inv' : Invocation F) : Prop where
  engine : inv'.engine = inv.engine
  scope : inv'.projectionScope = inv.projectionScope
  inst : inv'.instanceScope = inv.instanceScope
  parent : inv'.parent.map Context.blind = inv.parent.map Context.blind
  depth : inv'.depth = inv.depth
  projection : StandsFor context id inv inv.projection inv'.projection

section Step
variable {context : Option (Scope F)} {id : Nat} {inv inv' : Invocation F}

theorem Paired.base (paired : Paired context id inv inv') (global : Scope F) (data : Value) :
    baseContext inv' global data = (baseContext inv global data).under inv' := by
  have layers : inv'.parent.map Context.layer = inv.parent.map Context.layer := by
    have same := congrArg (Option.map Context.layer) paired.parent
    simpa only [Option.map_map, Function.comp_def, Context.layerBlind] using same
  simp only [baseContext, Context.under, Context.merge, paired.scope, paired.inst, paired.depth,
    layers]

theorem Paired.blindUnder (paired : Paired context id inv inv') {global : Scope F} {data : Value}
    {c : Context F} (here : (baseContext inv global data).SameLevel c) :
    (c.under inv').blind = c.blind := by
  obtain ⟨key, data, params, rfl⟩ := here
  rw [Context.blindFields, Context.blindFields]
  simp only [Context.under, baseContext, paired.parent]

theorem Paired.invoked (paired : Paired context id inv inv') {global : Scope F} {data : Value}
    {c : Context F} (here : (baseContext inv global data).SameLevel c) (q : Projector F) :
    Paired context id (q.invocation inv.instanceScope (some c))
      (q.invocation inv.instanceScope (some (c.under inv'))) where
  engine := rfl
  scope := rfl
  inst := rfl
  parent := congrArg some (paired.blindUnder here)
  depth := rfl
  projection := .same

theorem Paired.nested (paired : Paired context id inv inv') {global : Scope F} {data : Value}
    (key : Key) {p p' : Projection F} (stands : StandsFor context id inv p p') :
    Paired context id (inv.nested p ((baseContext inv global data).atKey key))
      (inv'.nested p' (((baseContext inv global data).atKey key).under inv')) where
  engine := paired.engine
  scope := paired.scope
  inst := paired.inst
  parent := congrArg some (paired.blindUnder (.atKey _ key))
  depth := rfl
  projection := by
    cases stands with
    | same => exact .same
    | compiled engine scope => exact .compiled engine scope

theorem Paired.compiled (paired : Paired context id inv inv') {global : Scope F} {data : Value}
    (key : Key) (p : Projection F) (engine : inv.engine = id) (scope : inv.projectionScope = context) :
    Paired context id (inv.nested p ((baseContext inv global data).atKey key))
      (Projector.invocation ⟨p.compile context id, context, id⟩ inv.instanceScope
        (some (((baseContext inv global data).atKey key).under inv'))) where
  engine := engine.symm
  scope := scope.symm
  inst := rfl
  parent := congrArg some (paired.blindUnder (.atKey _ key))
  depth := rfl
  projection := .compiled engine scope

theorem askAlikeCongruence : Run.Congruence fun (α : Type) (r r' : Run F α) => AskAlike r r' :=
  Run.matchesCongruence

def standingParts (context : Option (Scope F)) (id : Nat) (inv : Invocation F) : Parts F where
  nested _ p p' := StandsFor context id inv p p'
  compiled _ p q := inv.engine = id ∧ inv.projectionScope = context ∧
    q = ⟨p.compile context id, context, id⟩
  standing _ _ := True

theorem StandsFor.beside {p p' : Projection F} (stands : StandsFor context id inv p p') :
    p.Beside (standingParts context id inv) p' := by
  cases stands with
  | same => exact Projection.besideItself (fun _ _ _ => .same) fun _ _ _ => trivial
  | compiled engine scope =>
    have nested : ∀ key r, (standingParts context id inv).nested key r (r.compile context id) :=
      fun _ _ => .compiled engine scope
    have compiled : ∀ key r,
        (standingParts context id inv).compiled key r ⟨r.compile context id, context, id⟩ :=
      fun _ _ => ⟨engine, scope, rfl⟩
    exact p.compileBeside context id nested compiled fun _ _ => trivial

theorem Paired.opened (paired : Paired context id inv inv') {global : Scope F} {read data : Value}
    {returned : Context F → Projector F → Prop} {child child' : Invocation F}
    (opened : Opened (standingParts context id inv) returned inv inv' (baseContext inv global read)
      child child' data) : Paired context id child child' := by
  cases opened with
  | @nested key p p' data stands _ => exact paired.nested key stands
  | @compiled key p q data stands _ =>
    obtain ⟨engine, scope, rfl⟩ := stands
    exact paired.compiled key p engine scope
  | standing _ _ => exact paired.invoked (.atKey _ _) _
  | returned _ here _ _ => exact paired.invoked here _

theorem stepAskAlike {engine : Engine F} {apply apply' : Apply F}
    (paired : Paired context id inv inv')
    (falsy : ∀ child data, data.isTruthy = false → apply' child data = pure none)
    (below : ∀ child child' data, Paired context id child child' →
      AskAlike (apply child data) (apply' child' data)) (data : Value) :
    AskAlike (step engine apply inv data) (step engine apply' inv' data) := by
  refine @stepLinked F _ engine apply apply' inv askAlikeCongruence inv'
    (standingParts context id inv) (fun _ _ _ => True) (fun _ => True) paired.engine paired.depth
    paired.projection.beside paired.base (fun each => .global _ fun scope _ => each scope trivial)
    (fun _ => .fail _) data ?_
  rintro _ global _ read _
  exact {
    askAlikeCongruence with
    scope := rfl
    sameScope := paired.inst
    asked := fun asked each => .call (paired.blindUnder asked.level) fun r _ =>
      each r fun _ _ => trivial
    below := fun opened => below _ _ _ (paired.opened opened)
    nothing := fun _ missing => falsy _ _ missing }

end Step

theorem withinAskAlike (engines : Engines F) {context : Option (Scope F)} {id : Nat} (room : Nat)
    {inv inv' : Invocation F} (paired : Paired context id inv inv') (data : Value) :
    AskAlike (within engines room inv data) (within engines room inv' data) := by
  induction room generalizing inv inv' data with
  | zero =>
    change AskAlike (step _ _ inv data) (step (engines.get inv'.engine) _ inv' data)
    rw [paired.engine]
    exact stepAskAlike paired (fun _ _ _ => rfl) (fun _ _ _ _ => .pure trivial) data
  | succ room ih =>
    change AskAlike (step _ _ inv data) (step (engines.get inv'.engine) _ inv' data)
    rw [paired.engine]
    exact stepAskAlike paired (fun child data => withinFalsy engines room child)
      (fun child child' data paired => ih paired data) data

theorem projectAskAlike (engines : Engines F) (id : Nat) (context : Option (Scope F))
    (p : Projection F) (data : Value) (inst : Option (Scope F)) :
    AskAlike ((Projector.mk p context id).project engines data inst)
      ((Projector.mk (p.compile context id) context id).project engines data inst) := by
  have top : Paired context id (Projector.invocation ⟨p, context, id⟩ inst none)
      (Projector.invocation ⟨p.compile context id, context, id⟩ inst none) :=
    ⟨rfl, rfl, rfl, rfl, rfl, .compiled rfl rfl⟩
  exact withinAskAlike engines _ top data

theorem compilingChangesNothing (engines : Engines F) (id : Nat) (context : Option (Scope F))
    (p : Projection F) (data : Value) (inst : Option (Scope F)) :
    (∀ answers : Answers F, answers.Blind →
      ((Projector.mk (p.compile context id) context id).project engines data inst).eval answers =
        ((Projector.mk p context id).project engines data inst).eval answers) ∧
    ∀ host : Host F σ, host.Blind → ∀ session,
      (((Projector.mk (p.compile context id) context id).project engines data inst).exec engines
          host).run.run session =
        (((Projector.mk p context id).project engines data inst).exec engines host).run.run session := by
  have pair := projectAskAlike engines id context p data inst
  constructor
  · intro answers blind
    rw [Run.evalAnswered, Run.evalAnswered]
    exact (pair.answered answers.informed.withinAny (fun _ symbol c c' => blind symbol c c') rfl).1
  · intro host blind session
    have alike := pair.exec (host.withinAny engines) (fun _ symbol c c' => blind symbol c c') rfl
    exact (alike session trivial).1

def depths : Projection Unit :=
  let own : Projection Unit := .object [("n", .function (.direct ()))] []
  .object [("inner", .nested own), ("items", .nested (.list [own]))]
    [.conditions [⟨.always true, .inline own⟩]]

def depthsData : Value :=
  .record [("inner", .record []), ("items", .array [.record []])]

def telling : Answers Unit where
  call _ c := .ok (.value (.ofNat c.depth))
  global _ := .ok []

theorem tellingBlind : telling.Blind := by
  intro _ c c' same
  have depth : c'.depth = c.depth := by
    simpa only [Context.blindFields] using congrArg Context.depth same
  simp only [telling, depth]

def counting : Host Unit Nat where
  call _ _ calls := (.ok (.value (.ofNat (calls + 1))), calls + 1)
  supply _ calls := (.ok [], calls)

theorem depthsCompiled :
    ((Projector.mk (depths.compile none 0) none 0).project (.single {}) depthsData none).eval
        telling = .ok (some (.projected [("inner", .projected [("n", .ofNat 1)]),
          ("items", .array [.projected [("n", .ofNat 2)]]), ("n", .ofNat 1)])) ∧
    ((((Projector.mk (depths.compile none 0) none 0).project (.single {}) depthsData none).exec
        (.single {}) counting).run.run { state := 0 }).1 =
      .ok (some (.projected [("inner", .projected [("n", .ofNat 1)]),
        ("items", .array [.projected [("n", .ofNat 2)]]), ("n", .ofNat 3)])) := by
  obtain ⟨answered, acted⟩ :=
    @compilingChangesNothing Unit Nat (.single {}) 0 none depths depthsData none
  refine ⟨(answered telling tellingBlind).trans rfl, ?_⟩
  rw [acted counting (fun _ _ _ _ _ => rfl) { state := 0 }]
  rfl

end Evaluate
end Reshape
