import Mathlib.Data.List.TakeWhile
import Mathlib.Tactic.ByContra
import Mathlib.Tactic.MkIffOfInductiveProp
import SmallLisp.Symbol
import SmallLisp.Token.Stream

/-!
Runs of characters, which spell the numbers and the symbols. A run that is a numeral spells a
number, and every other run spells a symbol.
-/

namespace SmallLisp

namespace Number

/-- A numeral is a non-empty sequence of decimal digits, with or without a minus sign in front. -/
def IsNumeral (run : List Char) : Prop :=
  ∃ digits, (run = digits ∨ run = '-' :: digits) ∧ digits ≠ [] ∧ ∀ c ∈ digits, c.isDigit

theorem isNumeral_cons_minus_iff {digits : List Char} :
    IsNumeral ('-' :: digits) ↔ digits ≠ [] ∧ ∀ c ∈ digits, c.isDigit := by
  constructor
  · rintro ⟨found, hsame | hsame, hnonempty, hdigits⟩
    · have hminus : '-'.isDigit := hdigits '-' (by simp [← hsame])
      contradiction
    · cases hsame
      exact ⟨hnonempty, hdigits⟩
  · intro h
    exact ⟨digits, .inr rfl, h⟩

theorem isNumeral_iff_of_no_minus {run : List Char} (h : ∀ digits, run ≠ '-' :: digits) :
    IsNumeral run ↔ run ≠ [] ∧ ∀ c ∈ run, c.isDigit := by
  constructor
  · rintro ⟨found, rfl | hsame, hdigits⟩
    · exact hdigits
    · exact absurd hsame (h found)
  · intro hdigits
    exact ⟨run, .inl rfl, hdigits⟩

theorem ofDigits?_eq_none_iff {digits : List Char} :
    ofDigits? digits = none ↔ ¬ (digits ≠ [] ∧ ∀ c ∈ digits, c.isDigit) := by
  simp only [ofDigits?, ite_eq_right_iff, List.all_eq_true, reduceCtorEq, imp_false]

theorem ofNumeral?_eq_none_iff {run : List Char} : ofNumeral? run = none ↔ ¬ IsNumeral run := by
  fun_cases ofNumeral? run with
  | case1 digits =>
    rw [isNumeral_cons_minus_iff, ← ofDigits?_eq_none_iff]
    cases ofDigits? digits <;> simp
  | case2 run hsign =>
    rw [isNumeral_iff_of_no_minus hsign, ← ofDigits?_eq_none_iff]
    cases ofDigits? run <;> simp

theorem isNumeral_repr (i : Int) : IsNumeral i.repr.toList := by
  by_contra hnumeral
  rw [← ofNumeral?_eq_none_iff, ofNumeral?_repr] at hnumeral
  cases hnumeral

end Number

/-- A run is a non-empty text that no character breaks off and that no shorthand starts. -/
@[mk_iff]
structure Lexeme.IsRun (run : List Char) : Prop where
  nonempty : run ≠ []
  unbroken : ∀ c ∈ run, endsRun c = false
  unmarked : ∀ c ∈ run.head?, c ≠ '~' ∧ c ≠ '@' ∧ c ≠ '^'

/-- The symbols that can be written. Their names are runs, and no numerals. -/
@[mk_iff]
structure Symbol.IsReadable (symbol : Symbol) : Prop where
  isRun : Lexeme.IsRun symbol.name.toList
  notNumeral : ¬ Number.IsNumeral symbol.name.toList

instance (run : List Char) : Decidable (Number.IsNumeral run) :=
  decidable_of_iff (¬ Number.ofNumeral? run = none)
    (by rw [Number.ofNumeral?_eq_none_iff, Classical.not_not])

instance (run : List Char) : Decidable (Lexeme.IsRun run) :=
  decidable_of_iff
    (run ≠ [] ∧ run.all (!Lexeme.endsRun ·) ∧
      run.head?.all fun c => c ≠ '~' && c ≠ '@' && c ≠ '^')
    (by simp [Lexeme.isRun_iff, Option.all_eq_true, and_assoc])

instance (symbol : Symbol) : Decidable symbol.IsReadable :=
  decidable_of_iff _ (Symbol.isReadable_iff symbol).symm

namespace Lexeme

/-- A text into which no run goes on. -/
def IsBoundary (text : List Char) : Prop :=
  ∀ c ∈ text.head?, endsRun c

theorem isBoundary_nil : IsBoundary [] := by
  intro c hc
  cases hc

theorem isBoundary_cons {c : Char} (h : endsRun c) (text : List Char) : IsBoundary (c :: text) := by
  intro d hd
  cases hd
  exact h

theorem endsRun_of_isDigit {c : Char} (h : c.isDigit) : endsRun c = false := by
  rw [Bool.eq_false_iff]
  intro hends
  simp only [endsRun, Bool.or_eq_true, List.contains_iff_mem] at hends
  rcases hends with hblank | hmem
  · have hcode : 48 ≤ c.toNat ∧ c.toNat ≤ 57 := by
      simpa [Char.isDigit, UInt32.le_iff_toNat_le] using h
    simp [Text.isBlank, Text.inRanges, Text.whiteSpace] at hblank
    omega
  · simp only [List.mem_cons, List.not_mem_nil, or_false] at hmem
    rcases hmem with rfl | rfl | rfl | rfl | rfl | rfl | rfl | rfl | rfl | rfl | rfl <;>
      contradiction

theorem ne_of_isDigit {c d : Char} (h : c.isDigit) (hd : d.isDigit = false) : c ≠ d := by
  rintro rfl
  rw [h] at hd
  cases hd

theorem isRun_of_isNumeral {run : List Char} (h : Number.IsNumeral run) : IsRun run := by
  obtain ⟨digits, rfl | rfl, hnonempty, hdigits⟩ := h
  · refine ⟨hnonempty, fun c hc => endsRun_of_isDigit (hdigits c hc), fun c hc => ?_⟩
    have hdigit := hdigits c (List.mem_of_head? hc)
    exact ⟨ne_of_isDigit hdigit rfl, ne_of_isDigit hdigit rfl, ne_of_isDigit hdigit rfl⟩
  · refine ⟨by simp, fun c hc => ?_, fun c hc => ?_⟩
    · rcases List.mem_cons.1 hc with rfl | hc
      · rfl
      · exact endsRun_of_isDigit (hdigits c hc)
    · cases hc
      decide

theorem ofBracket?_eq_none_iff {c : Char} {rest : List Char} :
    ofBracket? c rest = none ↔ c ∉ ['(', ')', '\x7b', '\x7d', '[', ']'] := by
  simp only [ofBracket?, Delimiter.all, List.findSome?_cons, Delimiter.opening, Delimiter.closing]
  grind

theorem ofShorthand?_eq_none_iff {c : Char} {rest : List Char} :
    ofShorthand? (c :: rest) = none ↔ c ∉ ['~', '\'', '\x60', '@', '^'] := by
  rw [ofShorthand?, Option.map_eq_none_iff]
  unfold Shorthand.split?
  split
  all_goals simp_all

theorem next?_eq_none_iff {c : Char} :
    Trivia.next? false c = none ↔ Text.isBlank c = false ∧ c ≠ ',' ∧ c ≠ ';' := by
  simp only [Trivia.next?]
  grind

/-- A character that breaks off no run and starts no shorthand. -/
def StartsRun (c : Char) : Prop :=
  endsRun c = false ∧ c ≠ '~' ∧ c ≠ '@' ∧ c ≠ '^'

theorem IsRun.startsRun {c : Char} {run : List Char} (h : IsRun (c :: run)) : StartsRun c :=
  ⟨h.unbroken c List.mem_cons_self, h.unmarked c rfl⟩

/-- A run starts where no other token does. -/
theorem startsRun_iff {c : Char} (rest : List Char) :
    StartsRun c ↔ Trivia.next? false c = none ∧ ofBracket? c rest = none ∧
      ofShorthand? (c :: rest) = none ∧ c ≠ '"' := by
  rw [next?_eq_none_iff, ofBracket?_eq_none_iff, ofShorthand?_eq_none_iff]
  simp only [StartsRun, endsRun, Bool.or_eq_false_iff, List.contains_eq_mem,
    decide_eq_false_iff_not, List.mem_cons, not_or]
  grind

theorem first_quote (rest : List Char) : first '"' rest = ofString rest := rfl

theorem first_eq_ofRun {c : Char} (h : StartsRun c) (rest : List Char) :
    first c rest = ofRun (c :: rest.takeWhile (!endsRun ·)) (rest.dropWhile (!endsRun ·)) := by
  obtain ⟨-, hbracket, hshorthand, hquote⟩ := (startsRun_iff rest).1 h
  simp [first, hbracket, hshorthand, hquote, h.1]

/-- What a text can start with behind the trivia in front of it. Brackets, shorthands, quotes and
runs take up all characters, so that none is left over as unexpected. -/
theorem first_cases {c : Char} (hseparator : Trivia.next? false c = none) (rest : List Char) :
    (∃ lexeme, ofBracket? c rest = some lexeme ∧ first c rest = .ok lexeme) ∨
    (∃ lexeme, ofShorthand? (c :: rest) = some lexeme ∧ first c rest = .ok lexeme) ∨
    (c = '"' ∧ first c rest = ofString rest) ∨
    (StartsRun c ∧ first c rest =
      ofRun (c :: rest.takeWhile (!endsRun ·)) (rest.dropWhile (!endsRun ·))) := by
  cases hbracket : ofBracket? c rest with
  | some lexeme => exact .inl ⟨lexeme, rfl, by rw [first, hbracket]⟩
  | none =>
    cases hshorthand : ofShorthand? (c :: rest) with
    | some lexeme => exact .inr (.inl ⟨lexeme, rfl, by rw [first, hbracket, hshorthand]⟩)
    | none =>
      by_cases hquote : c = '"'
      · subst hquote
        exact .inr (.inr (.inl ⟨rfl, first_quote rest⟩))
      · have hstart := (startsRun_iff rest).2 ⟨hseparator, hbracket, hshorthand, hquote⟩
        exact .inr (.inr (.inr ⟨hstart, first_eq_ofRun hstart rest⟩))

theorem ofRun_symbol {run rest : List Char} (h : ¬ Number.IsNumeral run) :
    ofRun run rest = .ok ⟨.symbol (String.ofList run), run, rest⟩ := by
  rw [ofRun, Number.ofNumeral?_eq_none_iff.2 h]

theorem ofRun_number (n : Int64) (rest : List Char) :
    ofRun n.toInt.repr.toList rest = .ok ⟨.number n, n.toInt.repr.toList, rest⟩ := by
  rw [ofRun, Number.ofNumeral?_repr]
  simp [Number.ofInt?_eq_some_iff.2 rfl]

theorem first_of_isRun {c : Char} {run : List Char} (h : IsRun (c :: run)) {rest : List Char}
    (hrest : IsBoundary rest) : first c (run ++ rest) = ofRun (c :: run) rest := by
  have hrun : ∀ d ∈ run, (!endsRun d) = true := by
    intro d hd
    simp [h.unbroken d (List.mem_cons_of_mem _ hd)]
  have htake : (run ++ rest).takeWhile (!endsRun ·) = run := by
    rw [List.takeWhile_append_of_pos hrun]
    cases rest with
    | nil => simp
    | cons d rest => simp [hrest d rfl]
  have hdrop : (run ++ rest).dropWhile (!endsRun ·) = rest := by
    rw [List.dropWhile_append_of_pos hrun]
    cases rest with
    | nil => rfl
    | cons d rest => simp [hrest d rfl]
  rw [first_eq_ofRun h.startsRun, htake, hdrop]

theorem isRun_takeWhile {c : Char} (h : StartsRun c) (rest : List Char) :
    IsRun (c :: rest.takeWhile (!endsRun ·)) := by
  refine ⟨by simp, fun d hd => ?_, fun d hd => ?_⟩
  · rcases List.mem_cons.1 hd with rfl | hd
    · exact h.1
    · simpa using List.mem_takeWhile_imp hd
  · cases hd
    exact h.2

end Lexeme

end SmallLisp
