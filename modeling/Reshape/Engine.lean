import Reshape.Context.Describe
/-! Engines: settings, transformers and the source of the global scope. Values of settings are never
refused; questionable ones are warned about. Projectors name their engine by number, so several
engines may be in use in one run. -/
namespace Reshape

structure Config where
  /-- the deepest level that is evaluated; the top level has depth 0 -/
  maxDepth : Nat := 256
  parseStrings : Bool := true
  warnOnLengths : Bool := true
  deriving DecidableEq, Repr

namespace Config

def strict : Config :=
  { maxDepth := 64, parseStrings := false, warnOnLengths := true }

def lenient : Config :=
  { maxDepth := 1024, parseStrings := true, warnOnLengths := false }

def warnings (c : Config) : List String :=
  if c.maxDepth = 0 then
    ["max_recursion_depth is 0 - only the top level is projected, any nested projection fails"]
  else if 4096 < c.maxDepth then
    ["max_recursion_depth is very high (>4096) - deep data may overflow the stack"]
  else []

def describe (c : Config) : String :=
  Describe.shape "EngineConfig"
    [("max_recursion_depth", toString c.maxDepth),
     ("parse_string_input", Describe.flag c.parseStrings),
     ("warn_on_length_mismatch", Describe.flag c.warnOnLengths)] false

end Config

structure Transformer (F : Type) where
  name : String
  predicate : Predicate F
  action : ContextFn F

inductive GlobalSource (F : Type) where
  | ready (scope : Scope F)
  | lazy (symbol : F)

structure Engine (F : Type) where
  config : Config := {}
  transformers : List (Transformer F) := []
  source : GlobalSource F := .ready []

namespace Engine
variable {F : Type}

instance : Inhabited (Engine F) := ⟨{}⟩

def limit (e : Engine F) : Nat :=
  e.config.maxDepth

def describe (e : Engine F) (globalReady : Bool) : String :=
  Describe.shape "ProjectionEngine"
    [("config", e.config.describe), ("transformers", toString e.transformers.length),
     ("global_ready", Describe.flag globalReady)] false

end Engine

/-- The engines of a run. No limit is above the ceiling, so no level below it is ever evaluated. -/
structure Engines (F : Type) where
  get : Nat → Engine F
  ceiling : Nat
  limit_le : ∀ id, (get id).limit ≤ ceiling

namespace Engines
variable {F : Type}

def single (e : Engine F) : Engines F :=
  ⟨fun _ => e, e.limit, fun _ => Nat.le_refl _⟩

def highest (es : List (Engine F)) : Nat :=
  es.foldr (fun e n => max e.limit n) (default : Engine F).limit

theorem limitBelowHighest (es : List (Engine F)) (id : Nat) :
    (es[id]?.getD default).limit ≤ highest es := by
  induction es generalizing id with
  | nil => simp [highest]
  | cons e rest ih =>
    cases id with
    | zero => exact Nat.le_max_left _ _
    | succ id =>
      have h := ih id
      simp only [highest] at h
      simp only [List.getElem?_cons_succ, highest, List.foldr_cons]
      exact Nat.le_trans h (Nat.le_max_right _ _)

/-- Engines by position; numbers past the end name the default engine. -/
def ofList (es : List (Engine F)) : Engines F :=
  ⟨fun id => es[id]?.getD default, highest es, limitBelowHighest es⟩

end Engines

end Reshape
