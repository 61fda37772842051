import Reshape.Proofs.Evaluate.Recursion
import Reshape.Proofs.Value.Textual
/-! Data that is given as JSON text. An engine that reads strings sees the value that the text keeps,
and from then on the run is the run on that value: not only its answer, also all it asks on the way. -/
namespace Reshape.Evaluate
variable {F : Type}

theorem textTruthy {levels : Nat} {v : Value} (textual : v.Textual levels) :
    (Value.string v.toJson.compact).isTruthy = true := by
  obtain ⟨c, rest, shown, _, _⟩ := Json.renderStarts textual.exact
  have notEmpty : v.toJson.compact ≠ "" := by
    intro empty
    have letters := congrArg String.toList empty
    rw [Json.compact, String.toList_ofList, shown] at letters
    cases letters
  simp [Value.isTruthy, notEmpty]

theorem jsonTextReadAsValue {v : Value} (textual : v.Textual 127) :
    Value.parse v.toJson.compact = .ok v ∧
    ∀ (engines : Engines F) (p : Projector F) (inst : Option (Scope F)),
      (engines.get p.engine).config.parseStrings = true → (∀ s, v ≠ .string s) →
      p.project engines (.string v.toJson.compact) inst = p.project engines v inst := by
  have parsed : Value.parse v.toJson.compact = .ok v := textual.parsed
  refine ⟨parsed, fun engines p inst parses noString => ?_⟩
  have top : (p.invocation inst none).depth ≤ (engines.get p.engine).limit := Nat.zero_le _
  have text : readData (engines.get p.engine).config (.string v.toJson.compact) = .ok v := by
    rw [readData, if_pos parses, parsed]
  have itself : readData (engines.get p.engine).config v = .ok v := by
    cases v with
    | string s => exact absurd rfl (noString s)
    | _ => rfl
  have read := stepReads top text (textTruthy textual) (evaluate engines)
  rw [projectEvaluates, projectEvaluates, evaluateRecursive, evaluateRecursive]
  refine read.trans ?_
  cases truthy : v.isTruthy with
  | true => exact (stepReads top itself truthy (evaluate engines)).symm
  | false =>
    rw [stepFalsy truthy, readLevel, truthy]
    rfl

def letter : Value :=
  .record [("to\n", .array [.string "\"Ann\" \\ é", .null]), ("no", .ofInt (-9223372036854775808)),
    ("", .ofInt 18446744073709551615), ("open", .record [])]

def copied : Projector Unit := ⟨.object [("no", .passthrough), ("to\n", .passthrough)] [], none, 0⟩

theorem letterReadAsValue :
    letter.Textual 127 ∧ Value.parse letter.toJson.compact = .ok letter ∧
    copied.project (.single {}) (.string letter.toJson.compact) none =
      copied.project (.single {}) letter none := by
  have textual : letter.Textual 127 := by
    refine .record (by simp [Entries.Distinct, Entries.keys]) fun f member => ?_
    simp only [List.mem_cons, List.not_mem_nil, or_false] at member
    rcases member with rfl | rfl | rfl | rfl
    · refine .array (List.forall_mem_cons.mpr ⟨.string _, ?_⟩)
      exact List.forall_mem_cons.mpr ⟨.null, List.forall_mem_nil _⟩
    · exact .integer (by decide)
    · exact .integer (by decide)
    · exact .record List.nodup_nil (List.forall_mem_nil _)
  obtain ⟨parsed, same⟩ := jsonTextReadAsValue (F := Unit) textual
  have noString : ∀ s, letter ≠ .string s := by
    intro s given
    cases given
  exact ⟨textual, parsed, same (.single {}) copied none rfl noString⟩

end Reshape.Evaluate
