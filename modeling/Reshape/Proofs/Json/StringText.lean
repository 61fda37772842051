import Reshape.Proofs.Fallible
import Reshape.Json.Printer
import Reshape.Json.TextReader
/-! Strings, read back from their text. Every character is read back from what is written for it: as
itself, as the letter of its escape, or as the four digits of a control character. -/
namespace Reshape.Json
open Fallible

def ReadsTo (c : Char) (written : List Char) : Prop :=
  ∀ cs text rest, readCharacters 0 cs = .ok (text, rest) →
    readCharacters 0 (written ++ cs) = .ok (c :: text, rest)

theorem readsPlain {c : Char} (noQuote : c ≠ '"') (noSlash : c ≠ '\\') (visible : ¬ c.toNat < 0x20) :
    ReadsTo c [c] := by
  intro cs text rest ok
  rw [List.singleton_append, readCharacters, if_neg noQuote, if_neg noSlash, if_neg visible, ok]
  rfl

theorem readsLetter {c letter : Char} (escape : simpleEscape? letter = some c)
    (notHex : letter ≠ 'u') : ReadsTo c ['\\', letter] := by
  intro cs text rest ok
  have read : readEscape (letter :: cs) = .ok (c, 1) := by
    simp only [readEscape, if_neg notHex, escape]
  change readCharacters 0 ('\\' :: letter :: cs) = _
  rw [readCharacters, if_neg (by decide), if_pos rfl, read, okThen]
  simp only [readCharacters, ok]
  rfl

theorem readsHex {c a b : Char} (word : hexWord? ['0', '0', a, b] = some c.toNat)
    (width : byteLength ['0', '0', a, b] = 4) (low : c.toNat < 0x20) :
    ReadsTo c ['\\', 'u', '0', '0', a, b] := by
  intro cs text rest ok
  have hex : readHex ('0' :: '0' :: a :: b :: cs) = .ok (c.toNat, cs) := by
    simp only [readHex, List.take_succ_cons, List.take_zero, width, word]
    rfl
  have ordinary : isLowSurrogate c.toNat = false ∧ isHighSurrogate c.toNat = false := by
    simp only [isLowSurrogate, isHighSurrogate, Bool.and_eq_false_iff, decide_eq_false_iff_not]
    omega
  have point : readCodePoint ('0' :: '0' :: a :: b :: cs) = .ok (c, 4) := by
    rw [readCodePoint, hex, okThen]
    simp only [ordinary.1, ordinary.2, Bool.false_eq_true, if_false, Char.ofNat_toNat]
  have read : readEscape ('u' :: '0' :: '0' :: a :: b :: cs) = .ok (c, 5) := by
    simp only [readEscape, if_true, point, Except.map]
  change readCharacters 0 ('\\' :: 'u' :: '0' :: '0' :: a :: b :: cs) = _
  rw [readCharacters, if_neg (by decide), if_pos rfl, read, okThen]
  simp only [readCharacters, ok]
  rfl

def lettered : List Char :=
  ['"', '\\', '\n', '\r', '\t', '\x08', '\x0c']

theorem letteredEscape : ∀ c ∈ lettered, ∃ letter ∈ ['"', '\\', 'n', 'r', 't', 'b', 'f'],
    escapeChar c = ['\\', letter] ∧ simpleEscape? letter = some c ∧ letter ≠ 'u' := by
  have each : ∀ c ∈ lettered, escapeChar c = ['\\', (escapeChar c).getD 1 c] ∧
      (escapeChar c).getD 1 c ∈ ['"', '\\', 'n', 'r', 't', 'b', 'f'] ∧
      simpleEscape? ((escapeChar c).getD 1 c) = some c ∧ (escapeChar c).getD 1 c ≠ 'u' := by
    simp only [lettered, List.forall_mem_cons, List.not_mem_nil, false_implies, implies_true]
    decide
  intro c member
  obtain ⟨escape, letter, read, plain⟩ := each c member
  exact ⟨_, letter, escape, read, plain⟩

def controlEscape (n : Nat) : List Char :=
  if n < 0x10 then ['\\', 'u', '0', '0', '0'] ++ Text.hexDigits n
  else ['\\', 'u', '0', '0'] ++ Text.hexDigits n

theorem controlEscapeDigits : ∀ n < 0x20, ∃ a ∈ ['0', '1'], ∃ b ∈ (List.range 16).map Nat.digitChar,
    controlEscape n = ['\\', 'u', '0', '0', a, b] ∧ hexWord? ['0', '0', a, b] = some n ∧
      byteLength ['0', '0', a, b] = 4 := by
  have each : ∀ n < 0x20, ((controlEscape n).getD 4 '-' ∈ ['0', '1'] ∧
      (controlEscape n).getD 5 '-' ∈ (List.range 16).map Nat.digitChar) ∧
      controlEscape n =
        ['\\', 'u', '0', '0', (controlEscape n).getD 4 '-', (controlEscape n).getD 5 '-'] ∧
      hexWord? ['0', '0', (controlEscape n).getD 4 '-', (controlEscape n).getD 5 '-'] = some n ∧
      byteLength ['0', '0', (controlEscape n).getD 4 '-', (controlEscape n).getD 5 '-'] = 4 := by
    decide
  intro n small
  obtain ⟨⟨tens, ones⟩, escape⟩ := each n small
  exact ⟨_, tens, _, ones, escape⟩

theorem unletteredEscape {c : Char} (other : c ∉ lettered) :
    escapeChar c = if c.toNat < 0x20 then controlEscape c.toNat else [c] := by
  simp only [lettered, List.mem_cons, List.not_mem_nil, or_false, not_or] at other
  obtain ⟨quote, slash, feed, back, tab, bell, page⟩ := other
  rw [escapeChar, if_neg quote, if_neg slash, if_neg feed, if_neg back, if_neg tab, if_neg bell,
    if_neg page, controlEscape]
  split
  · rw [if_pos (by omega)]
  · rfl

theorem readsEscaped (c : Char) : ReadsTo c (escapeChar c) := by
  by_cases short : c ∈ lettered
  · obtain ⟨letter, _, written, escape, notHex⟩ := letteredEscape c short
    rw [written]
    exact readsLetter escape notHex
  · rw [unletteredEscape short]
    split
    · rename_i low
      obtain ⟨a, _, b, _, written, word, width⟩ := controlEscapeDigits c.toNat low
      rw [written]
      exact readsHex word width low
    · rename_i visible
      have noQuote : c ≠ '"' := fun same => short (same ▸ by decide)
      have noSlash : c ≠ '\\' := fun same => short (same ▸ by decide)
      exact readsPlain noQuote noSlash visible

theorem readEscapedText (text cs : List Char) :
    readCharacters 0 (text.flatMap escapeChar ++ '"' :: cs) = .ok (text, cs) := by
  induction text with
  | nil => rfl
  | cons c rest ih =>
    rw [List.flatMap_cons, List.append_assoc]
    exact readsEscaped c _ rest cs ih

theorem readRenderedString (s : String) (cs : List Char) :
    readString (s.toList.flatMap escapeChar ++ '"' :: cs) = .ok (s, cs) := by
  rw [readString, readEscapedText, okThen]
  simp only [String.ofList_toList]

end Reshape.Json
