import Reshape.Proofs.Run.Resolved
import Reshape.Proofs.Run.Waiting
/-! The global scope of a lazy engine, over all interleavings of projections and of calls for the
scope itself. -/
namespace Reshape
variable {F σ : Type}

namespace Evaluate

inductive Refused (engine : Engine F) (inv : Invocation F) (data : Value) : Prop where
  | falsy (falsy : data.isTruthy = false)
  | beyond (beyond : engine.limit < inv.depth)
  | malformed {e : Error} (unread : readData engine.config data = .error e)
  | nothing {read : Value} (found : readData engine.config data = .ok read)
      (falsy : read.isTruthy = false)

theorem stepRefused {engine : Engine F} {inv : Invocation F} {data : Value}
    (refused : Refused engine inv data) (apply : Apply F) :
    ∃ answer, step engine apply inv data = .ofExcept answer := by
  cases truthy : data.isTruthy with
  | false => exact ⟨.ok none, stepFalsy truthy engine apply inv⟩
  | true =>
    rcases Nat.lt_or_ge engine.limit inv.depth with beyond | allowed
    · rw [stepBeyond beyond, if_pos truthy]
      exact ⟨.error _, rfl⟩
    · rw [stepAllowed allowed, if_pos truthy]
      cases refused with
      | falsy falsy => cases truthy.symm.trans falsy
      | beyond beyond => exact absurd beyond (Nat.not_lt.mpr allowed)
      | malformed unread =>
        rw [unread]
        exact ⟨.error _, rfl⟩
      | nothing found falsy =>
        rw [found]
        refine ⟨.ok none, ?_⟩
        show readLevel engine apply inv _ = _
        rw [readLevel, falsy]
        rfl

theorem stepAsks {engine : Engine F} {inv : Invocation F} {data : Value}
    (taken : ¬ Refused engine inv data) (apply : Apply F) :
    ∃ next, step engine apply inv data = .global inv.engine next := by
  have truthy : data.isTruthy = true := by
    by_contra falsy
    exact taken (.falsy (eq_false_of_ne_true falsy))
  have allowed : inv.depth ≤ engine.limit := Nat.not_lt.mp fun beyond => taken (.beyond beyond)
  rw [stepAllowed allowed, if_pos truthy]
  cases found : readData engine.config data with
  | error e => exact absurd (.malformed found) taken
  | ok read =>
    have readTruthy : read.isTruthy = true := by
      by_contra falsy
      exact taken (.nothing found (eq_false_of_ne_true falsy))
    have asks : readLevel engine apply inv read = .global inv.engine fun global =>
        (do return some (← level engine apply inv (baseContext inv global read) read)) := by
      rw [readLevel, if_pos readTruthy]
      rfl
    exact ⟨_, asks⟩

theorem stepAnswers (engine : Engine F) (apply : Apply F) (inv : Invocation F) (data : Value) :
    (∃ answer, step engine apply inv data = .ofExcept answer) ↔ Refused engine inv data := by
  constructor
  · rintro ⟨answer, answers⟩
    by_contra taken
    obtain ⟨next, asks⟩ := stepAsks taken apply
    cases answer <;> cases answers.symm.trans asks
  · exact fun refused => stepRefused refused apply

theorem withinAnswers (engines : Engines F) (room : Nat) (inv : Invocation F) (data : Value) :
    (∃ answer, within engines room inv data = .ofExcept answer) ↔
      Refused (engines.get inv.engine) inv data := by
  cases room with
  | zero => exact stepAnswers _ _ inv data
  | succ room => exact stepAnswers _ _ inv data

theorem answeredStays {engines : Engines F} {host : Host F σ} {α β : Type}
    {answer : Except Error α} {node node' : Run F β} {path : List Nat} {r' : Run F α}
    (inside : Swapped node node' path (.ofExcept answer) r') {here : Place}
    {stage stage' : Stage F σ} {event : Event F} :
    ¬ Act engines host here stage node event stage' node' := by
  intro act
  cases answer <;> cases inside <;> cases act

/- A run has failed: it was this caller's, who goes on with its error, and nothing else changes. -/
structure Failure (engines : Engines F) (host : Host F σ) (engine : Nat) (events : List (Event F))
    (s : System F σ) (caller : Place) (e : Error) (t : System F σ) : Prop where
  started : ∃ after before, events = after ++ .started engine caller :: before ∧
    ∀ event ∈ after, event.engine? ≠ some engine
  answered : ∃ symbol, (engines.get engine).source = .lazy symbol ∧
    (host.supply symbol s.stage.session.state).1 = .error e
  empty : t.stage.session.supplied? engine = none
  idle : t.stage.running engine = none
  exchanged : ∃ (α β : Type) (r r' : Run F α) (next : Scope F → Run F β),
    s.tasks[caller.task]? = some ⟨α, r⟩ ∧
    Swapped (.global engine next) (.fail e) caller.path r r' ∧
    t.tasks = s.tasks.set caller.task ⟨α, r'⟩

theorem failureOf {engines : Engines F} {host : Host F σ} {engine : Nat} {events : List (Event F)}
    {s t : System F σ} (known : Known engine s.stage events) {caller : Place} {e : Error}
    (step : System.Step engines host s (.failed engine caller e) t) :
    Failure engines host engine events s caller e t := by
  cases step with
  | acted place there inside act =>
    cases act with
    | @failed _ _ symbol _ state lazy own answered =>
      obtain ⟨missing, unsupplied⟩ := known.ofRunning own
      refine ⟨unsupplied.startedBy, ⟨symbol, lazy, by rw [answered]⟩, missing, ?_, ?_⟩
      · rw [Stage.finishRunning, if_pos rfl]
      · exact ⟨_, _, _, _, _, there, inside, rfl⟩

structure Materialized (engines : Engines F) (host : Host F σ) (engine : Nat)
    (events : List (Event F)) (s : System F σ) : Prop where
  /-- behind the run that succeeds others only pass, with its scope; before it nobody does -/
  once : ∀ {after before : List (Event F)} {caller : Place} {scope : Scope F},
    events = after ++ .supplied engine caller scope :: before →
      (∀ event ∈ after, event.engine? = some engine → ∃ c, event = .passed engine c scope) ∧
      ∀ event ∈ before, ∀ c other,
        event ≠ .passed engine c other ∧ event ≠ .supplied engine c other
  seen : ∀ {caller : Place} {scope : Scope F}, .passed engine caller scope ∈ events →
    ∃ c, .supplied engine c scope ∈ events
  ready : s.stage.session.isReady engines engine = true ↔
    ∃ caller scope, .supplied engine caller scope ∈ events
  waits : ∀ caller, s.stage.running engine = some caller → s.WaitsAt engine caller
  notStuck : ∀ {caller : Place}, s.WaitsAt engine caller →
    ∃ event t, event.engine? = some engine ∧ System.Step engines host s event t
  failure : ∀ {caller : Place} {e : Error} {t : System F σ},
    System.Step engines host s (.failed engine caller e) t →
      Failure engines host engine events s caller e t
  refused : ∀ {room : Nat} {inv : Invocation F} {data : Value},
    Refused (engines.get inv.engine) inv data →
    ∀ {β : Type} {node node' : Run F β} {path : List Nat} {r' : Run F (Option Value)},
      Swapped node node' path (within engines room inv data) r' →
    ∀ {here : Place} {stage stage' : Stage F σ} {event : Event F},
      ¬ Act engines host here stage node event stage' node'
  onward : ∀ {caller : Place} {scope : Scope F}, .supplied engine caller scope ∈ events →
    ∀ {future : List (Event F)} {t : System F σ},
      System.Goes engines host s future t ↔ System.Goes (engines.having engine scope) host s future t
  /-- what is left of a task ends as it evaluates, in whatever way it was come to -/
  result : ∀ {answers : Answers F}, host.Pure answers → Resolved engines answers s.stage →
    ∀ {i : Nat} {α : Type} {r : Run F α}, s.tasks[i]? = some ⟨α, r⟩ →
    ∀ {future : List (Event F)} {t : System F σ}, System.Goes engines host s future t →
      (∀ a, t.tasks[i]? = some ⟨α, .pure a⟩ → r.eval answers = .ok a) ∧
      ∀ e, t.tasks[i]? = some ⟨α, .fail e⟩ → ∃ e', r.eval answers = .error e'

theorem globalScopeSuppliedOnce {engines : Engines F} {host : Host F σ} {engine : Nat} {symbol : F}
    (lazy : (engines.get engine).source = .lazy symbol) {state : σ} {events : List (Event F)}
    {s : System F σ} (goes : System.Goes engines host (.fresh state) events s) :
    Materialized engines host engine events s := by
  have known := goes.known lazy
  refine ⟨?_, known.passedAfter, known.isReady lazy, goes.waits lazy, goes.notStuck lazy,
    failureOf known, ?_, ?_, ?_⟩
  · intro after before caller scope split
    have member : .supplied engine caller scope ∈ events :=
      split ▸ List.mem_append_right _ List.mem_cons_self
    obtain ⟨_, unsupplied, others⟩ := (known.succeeded member).2.2.once split
    exact ⟨others, fun event inside => unsupplied.nothing inside⟩
  · intro room inv data refused β node node' path r' inside
    obtain ⟨answer, same⟩ := (withinAnswers engines room inv data).mpr refused
    rw [same] at inside
    exact answeredStays inside
  · intro caller scope member future t
    obtain ⟨there, idle, _⟩ := known.succeeded member
    exact System.Goes.having lazy ⟨there, idle⟩
  · intro answers pure settled i α r there future t goes
    obtain ⟨r', there', agree⟩ := goes.agrees pure settled there
    constructor
    · intro a ended
      cases there'.symm.trans ended
      exact (agree a).mp rfl
    · intro e ended
      cases there'.symm.trans ended
      exact agree.failed rfl

def titled : Engines Unit := .ofList [{ source := .lazy () }]

def title : Scope Unit := [("title", .value (.string "x"))]

def flaky : Host Unit Nat where
  call _ _ runs := (.error (.callback "called"), runs)
  supply _ runs := (if runs = 0 then .error (.callback "not yet") else .ok title, runs + 1)

def titles : Projector Unit := ⟨.object [("title", .literal (.string "{{title}}"))] [], none, 0⟩

def titleAnswers : Answers Unit where
  call _ _ := .error (.callback "called")
  global engine := .ok (if engine = 0 then title else [])

theorem titledSource {engine : Nat} (different : engine ≠ 0) :
    (titled.get engine).source = .ready [] := by
  obtain ⟨k, rfl⟩ := Nat.exists_eq_succ_of_ne_zero different
  rfl

theorem titleResolved {stage : Stage Unit Nat} (held : Held 0 title stage) :
    Resolved titled titleAnswers stage where
  ready {engine scope} ready := by
    rcases eq_or_ne engine 0 with rfl | different
    · cases ready
    · cases (titledSource different).symm.trans ready
      exact congrArg Except.ok (if_neg different)
  lazy {engine symbol} lazy := by
    rcases eq_or_ne engine 0 with rfl | different
    · exact ⟨title, held, rfl⟩
    · cases (titledSource different).symm.trans lazy

theorem titleSupplied :
    ∃ s : System Unit Nat, System.Goes titled flaky (.fresh 0)
      [.supplied 0 ⟨1, []⟩ title, .started 0 ⟨1, []⟩, .failed 0 ⟨0, []⟩ (.callback "not yet"),
        .started 0 ⟨0, []⟩, .other, .other] s ∧
      s.stage.session.isReady titled 0 = true ∧
      ∀ future t result, System.Goes titled flaky s future t →
        t.tasks[1]? = some ⟨_, .pure result⟩ →
        result = some (Value.projected [("title", .string "x")]) := by
  have source : (titled.get 0).source = .lazy () := rfl
  obtain ⟨next, asks⟩ : ∃ next, titles.project titled (.record []) none = .global 0 next := ⟨_, rfl⟩
  have arrived : System.Goes titled flaky (.fresh 0) [.other, .other]
      ⟨⟨{ state := 0 }, fun _ => none⟩, [⟨_, .globalScope 0⟩, ⟨_, .global 0 next⟩]⟩ := by
    rw [← asks]
    exact (System.Goes.nowhere.further (.arrived (.globalContext 0))).further
      (.arrived (.projection titles (.record []) none))
  have goes := (((arrived.further (.acted ⟨0, []⟩ rfl .here (.started source rfl rfl))).further
    (.acted ⟨0, []⟩ rfl .here (.failed source rfl rfl))).further
    (.acted ⟨1, []⟩ rfl .here (.started source rfl rfl))).further
    (.acted ⟨1, []⟩ rfl .here (.supplied source rfl rfl))
  have materialized := globalScopeSuppliedOnce source goes
  refine ⟨_, goes, materialized.ready.mpr ⟨_, _, List.mem_cons_self⟩, ?_⟩
  intro future t result onward ended
  have evaluated : (titles.project titled (.record []) none).eval titleAnswers =
      .ok (some (.projected [("title", .string "x")])) := rfl
  rw [asks] at evaluated
  have same := (materialized.result (fun _ _ _ => rfl)
    (titleResolved ⟨rfl, rfl⟩) rfl onward).1 result ended
  cases evaluated.symm.trans same
  rfl

end Evaluate
end Reshape
