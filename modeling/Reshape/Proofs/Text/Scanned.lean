import Reshape.Proofs.Text.Digits
import Reshape.Proofs.Text.Padding
import Reshape.Text.Scan
/-! Scans that take a known piece off the front of a text, whatever the text goes on with. -/
namespace Reshape.Text

structure Numeral (width n : Nat) (cs : List Char) : Prop where
  wide : cs.length = width
  digits : ∀ c ∈ cs, isDigit c = true
  counts : naturalOf cs = n

namespace Scan
variable {α β : Type} {scan : Scan α} {next : α → Scan β} {piece others : List Char} {a : α} {b : β}

def Takes (scan : Scan α) (piece : List Char) (a : α) : Prop :=
  ∀ rest, scan.run (piece ++ rest) = some (a, rest)

theorem Takes.whole (takes : Takes scan piece a) : scan.all piece = some a := by
  have nothingLeft := takes []
  rw [List.append_nil] at nothingLeft
  rw [all, nothingLeft]

theorem takesNothing (a : α) : Takes (pure a) [] a :=
  fun _ => rfl

theorem takesBefore
    (first : ∀ rest, scan.run (piece ++ (others ++ rest)) = some (a, others ++ rest))
    (second : Takes (next a) others b) : Takes (scan >>= next) (piece ++ others) b := by
  intro rest
  rw [List.append_assoc, StateT.run_bind, first]
  exact second rest

theorem Takes.andThen (first : Takes scan piece a) (second : Takes (next a) others b) :
    Takes (scan >>= next) (piece ++ others) b :=
  takesBefore (fun rest => first (others ++ rest)) second

theorem takesOne {ok : Char → Bool} {c : Char} (fits : ok c = true) : Takes (one ok) [c] c := by
  intro rest
  exact if_pos fits

theorem takesExact (c : Char) : Takes (exact c) [c] () := by
  have same : decide (c = c) = true := decide_eq_true rfl
  exact (takesOne same).andThen (takesNothing ())

theorem takesRequired {ok : Bool} (met : ok = true) : Takes (require ok) [] () := by
  rw [require, if_pos met]
  exact takesNothing ()

theorem takesNumber {width n : Nat} (numeral : Numeral width n piece) :
    Takes (number width width) piece n := by
  have taken : Takes (digitsUpTo width) piece piece := by
    intro rest
    have most : (piece ++ rest).take width = piece := by
      rw [← numeral.wide, List.take_left]
    have digits : ((piece ++ rest).take width).takeWhile isDigit = piece := by
      rw [most]
      exact List.takeWhile_eq_self_iff.mpr numeral.digits
    change some _ = _
    rw [digits, List.drop_left]
  have long : decide (width ≤ piece.length) = true :=
    decide_eq_true (Nat.le_of_eq numeral.wide.symm)
  have read : Takes (require (width ≤ piece.length) >>= fun _ => pure (naturalOf piece)) [] n := by
    rw [numeral.counts]
    exact (takesRequired long).andThen (takesNothing n)
  have whole : Takes (number width width) (piece ++ []) n := taken.andThen read
  rw [List.append_nil] at whole
  exact whole

theorem digitsBefore {rest : List Char} (digits : ∀ c ∈ piece, isDigit c = true)
    (stop : ∀ c ∈ rest.head?, isDigit c = false) :
    allDigits.run (piece ++ rest) = some (piece, rest) := by
  obtain ⟨taken, left⟩ := frontTaken digits stop
  change some _ = _
  rw [taken, left]

end Scan
end Reshape.Text
