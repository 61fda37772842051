import Reshape.Text.Basic
/-! The decimal digits of a number, as readers of digits see them. -/
namespace Reshape.Text

theorem digitsAreDigits {n : Nat} {c : Char} (member : c ∈ Nat.toDigits 10 n) : isDigit c = true :=
  Nat.isDigit_of_mem_toDigits (by decide) (by decide) member

theorem digitsNotEmpty (n : Nat) : Nat.toDigits 10 n ≠ [] :=
  List.ne_nil_of_length_pos Nat.length_toDigits_pos

theorem naturalOfFrom (ds : List Char) (start : Nat) :
    ds.foldl (fun n c => n * 10 + digitValue c) start = Nat.ofDigitChars 10 ds start := by
  induction ds generalizing start with
  | nil => rw [List.foldl_nil, Nat.ofDigitChars_nil]
  | cons d rest ih => rw [List.foldl_cons, ih, Nat.ofDigitChars_cons, digitValue, Nat.mul_comm]

theorem naturalOfDigits (n : Nat) : naturalOf (Nat.toDigits 10 n) = n := by
  rw [naturalOf, naturalOfFrom, Nat.ofDigitChars_ten_toDigits]

theorem digitNotBlank {c : Char} (digit : isDigit c = true) : isBlank c = false := by
  have low : 48 ≤ c.toNat ∧ c.toNat ≤ 57 := by
    simpa [isDigit, Char.le_def, UInt32.le_iff_toNat_le] using digit
  simp only [isBlank, Bool.or_eq_false_iff, Bool.and_eq_false_iff, decide_eq_false_iff_not,
    beq_eq_false_iff_ne]
  omega

theorem digitsLead {n : Nat} (positive : 0 < n) : (Nat.toDigits 10 n).head? ≠ some '0' := by
  induction n using Nat.strongRecOn with
  | ind n ih =>
    rw [Nat.toDigits_eq_if (by decide)]
    split
    · intro zero
      have same := Nat.digitChar_eq_zero.mp (Option.some.inj zero)
      omega
    · rename_i large
      rw [List.head?_append, Option.or_of_isSome (by simp)]
      exact ih (n / 10) (Nat.div_lt_self positive (by decide)) (by omega)

end Reshape.Text
