import Reshape.Proofs.Text.Digits
import Reshape.Proofs.Text.Padding
import Reshape.Json.NumberReader
import Reshape.Json.Printer
/-! Integers of 64 bits, read back from their text. What stands behind a number must not continue it;
in documents a comma, a closing bracket or nothing stands there. -/
namespace Reshape.Json

def Ends (tail : List Char) : Prop :=
  ∀ c ∈ tail.head?, Text.isDigit c = false ∧ c ≠ '.' ∧ isExponentLetter c = false

theorem endsNothing : Ends [] :=
  fun _ => (nomatch ·)

theorem Ends.noDigit {tail : List Char} (ends : Ends tail) : tail.head?.any Text.isDigit = false := by
  cases tail with
  | nil => rfl
  | cons c rest => exact (ends c rfl).1

theorem accumulateAll {limit start : Nat} {ds : List Char}
    (fits : Nat.ofDigitChars 10 ds start ≤ limit) :
    accumulate limit start ds = (Nat.ofDigitChars 10 ds start, ds.length) := by
  induction ds generalizing start with
  | nil => rw [accumulate, Nat.ofDigitChars_nil]; rfl
  | cons d rest ih =>
    have next : start * 10 + Text.digitValue d = 10 * start + (d.toNat - '0'.toNat) := by
      rw [Text.digitValue, Nat.mul_comm]
    rw [Nat.ofDigitChars_cons, ← next] at fits ⊢
    have grows : start * 10 + Text.digitValue d ≤
        Nat.ofDigitChars 10 rest (start * 10 + Text.digitValue d) := by
      rw [Nat.ofDigitChars_eq_ofDigitChars_zero]
      have least := Nat.mul_le_mul_right (start * 10 + Text.digitValue d)
        (Nat.one_le_pow rest.length 10 (by decide))
      omega
    rw [accumulate, if_pos (Nat.le_trans grows fits), ih fits]
    rfl

theorem readTailEnds {tail : List Char} (ends : Ends tail) (negative : Bool) (significand : Nat) :
    readTail negative significand 0 tail = integerNumber negative significand tail := by
  have noExponent : tail.head?.any isExponentLetter = false := by
    cases tail with
    | nil => rfl
    | cons c rest => exact (ends c rfl).2.2
  unfold readTail
  split
  · exact absurd rfl (ends '.' rfl).2.1
  · rw [noExponent, if_neg (by decide), if_pos rfl]

theorem readDigits (negative : Bool) {n : Nat} (fits : n ≤ greatestWord) {tail : List Char}
    (ends : Ends tail) :
    readNumber negative (Nat.toDigits 10 n ++ tail) = integerNumber negative n tail := by
  rcases Nat.eq_zero_or_pos n with rfl | positive
  · change readNumber negative ('0' :: tail) = _
    rw [readNumber, if_neg (by decide), if_pos rfl, ends.noDigit, if_neg (by decide)]
    exact readTailEnds ends negative 0
  · have digits : ∀ c ∈ Nat.toDigits 10 n, Text.isDigit c = true := fun c member =>
      Text.digitsAreDigits member
    obtain ⟨taken, left⟩ := Text.frontTaken digits fun c member => (ends c member).1
    have counted : accumulate greatestWord 0 (Nat.toDigits 10 n) = (n, (Nat.toDigits 10 n).length) := by
      rw [accumulateAll (by rwa [Nat.ofDigitChars_ten_toDigits]), Nat.ofDigitChars_ten_toDigits]
    have lead := Text.digitsLead positive
    cases shown : Nat.toDigits 10 n with
    | nil => exact absurd shown (Text.digitsNotEmpty n)
    | cons c rest =>
      rw [shown] at digits taken left counted lead
      rw [List.cons_append] at taken left ⊢
      have digit := digits c List.mem_cons_self
      have notZero : c ≠ '0' := fun same => lead (by rw [same]; rfl)
      rw [readNumber, digit, if_neg (by decide), if_neg notZero, taken, left]
      simp only [counted, Nat.sub_self]
      exact readTailEnds ends negative n

theorem digitsStart (n : Nat) :
    ∃ c rest, Nat.toDigits 10 n = c :: rest ∧ Text.isDigit c = true := by
  cases shown : Nat.toDigits 10 n with
  | nil => exact absurd shown (Text.digitsNotEmpty n)
  | cons c rest => exact ⟨c, rest, rfl, Text.digitsAreDigits (shown ▸ List.mem_cons_self)⟩

theorem renderNegative {i : Int} (below : i < 0) :
    render (.ofInt i) = '-' :: Nat.toDigits 10 i.natAbs := by
  rw [ofInt, render, Number.text, String.toList_ofList, Number.intText, if_pos below]
  rfl

theorem renderNatural {i : Int} (above : 0 ≤ i) : render (.ofInt i) = Nat.toDigits 10 i.natAbs := by
  rw [ofInt, render, Number.text, String.toList_ofList, Number.intText, if_neg (by omega)]
  rfl

def IsWord (i : Int) : Prop :=
  Number.least64 ≤ i ∧ i ≤ greatestWord

instance (i : Int) : Decidable (IsWord i) :=
  inferInstanceAs (Decidable (_ ∧ _))

theorem readNatural {n : Nat} (word : IsWord n) {tail : List Char} (ends : Ends tail) :
    readNumber false (Nat.toDigits 10 n ++ tail) = .ok (.int n, tail) := by
  rw [readDigits false (Int.ofNat_le.mp word.2) ends]
  rfl

theorem readNegative {i : Int} (below : i < 0) (word : IsWord i) {tail : List Char}
    (ends : Ends tail) :
    readNumber true (Nat.toDigits 10 i.natAbs ++ tail) = .ok (.int i, tail) := by
  have least : i.natAbs ≤ 2 ^ 63 := by
    have bound : -2 ^ 63 ≤ i := word.1
    omega
  have fits : i.natAbs ≤ greatestWord := by
    have larger : 2 ^ 63 ≤ greatestWord := by decide
    omega
  have negated : -(i.natAbs : Int) = i := by omega
  rw [readDigits true fits ends, integerNumber, Bool.not_true, if_neg (by decide),
    if_pos ⟨by omega, least⟩, negated]

end Reshape.Json
