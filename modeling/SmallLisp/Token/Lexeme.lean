import SmallLisp.Number
import SmallLisp.StringLiteral
import SmallLisp.Text.Blank
import SmallLisp.Token.Basic

/-!
Lexemes: the first token of a text with the characters that spell it. Its spelling is never empty,
and the spelling and the rest make up the text again.
-/

namespace SmallLisp

structure Lexeme where
  kind : Token.Kind
  spelling : List Char
  rest : List Char

namespace Lexeme

/-- Why a text has no first token. -/
inductive Flaw where
  | unterminatedString
  | numberOutOfRange (numeral : List Char)
  /-- A character that starts no token. Every character starts one or separates them, so no text has
  this flaw. -/
  | unexpectedCharacter (c : Char)

/-- Numbers and symbols are runs of characters, which these characters end. -/
def endsRun (c : Char) : Bool :=
  Text.isBlank c || ['[', ']', '\x7b', '\x7d', '(', ')', '\'', '"', '\x60', ',', ';'].contains c

def ofBracket? (c : Char) (rest : List Char) : Option Lexeme :=
  Delimiter.all.findSome? fun delimiter =>
    if c = delimiter.opening then some ⟨.opening delimiter, [c], rest⟩
    else if c = delimiter.closing then some ⟨.closing delimiter, [c], rest⟩
    else none

def ofShorthand? (text : List Char) : Option Lexeme :=
  (Shorthand.split? text).map fun (shorthand, after) =>
    ⟨.shorthand shorthand, shorthand.spelling, after⟩

/-- The text after an opening quote as the rest of a string literal. -/
def ofString (text : List Char) : Except Flaw Lexeme :=
  match StringLiteral.splitAtClose? text with
  | none => .error .unterminatedString
  | some (body, after) =>
    .ok ⟨.string (String.ofList (StringLiteral.decode body)), '"' :: body ++ ['"'], after⟩

/-- A run that is spelled like a numeral is a number or nothing; every other run is a symbol. -/
def ofRun (run rest : List Char) : Except Flaw Lexeme :=
  match Number.ofNumeral? run with
  | none => .ok ⟨.symbol (String.ofList run), run, rest⟩
  | some value =>
    match Number.ofInt? value with
    | none => .error (.numberOutOfRange run)
    | some n => .ok ⟨.number n, run, rest⟩

/-- The first token of a text that starts with the character `c`, which separates no tokens. -/
def first (c : Char) (rest : List Char) : Except Flaw Lexeme :=
  match ofBracket? c rest with
  | some lexeme => .ok lexeme
  | none =>
    match ofShorthand? (c :: rest) with
    | some lexeme => .ok lexeme
    | none =>
      if c = '"' then ofString rest
      else if endsRun c then .error (.unexpectedCharacter c)
      else ofRun (c :: rest.takeWhile (!endsRun ·)) (rest.dropWhile (!endsRun ·))

theorem spelling_of_ofBracket? {c : Char} {rest : List Char} {lexeme : Lexeme}
    (h : ofBracket? c rest = some lexeme) : lexeme.spelling = [c] ∧ lexeme.rest = rest := by
  obtain ⟨delimiter, -, hfound⟩ := List.exists_of_findSome?_eq_some h
  split at hfound
  · cases hfound; simp
  · split at hfound
    · cases hfound; simp
    · cases hfound

theorem spelling_append_of_ofShorthand? {text : List Char} {lexeme : Lexeme}
    (h : ofShorthand? text = some lexeme) :
    lexeme.spelling ≠ [] ∧ lexeme.spelling ++ lexeme.rest = text := by
  obtain ⟨⟨shorthand, after⟩, hfound, rfl⟩ := Option.map_eq_some_iff.1 h
  refine ⟨?_, Shorthand.spelling_append_of_split? hfound⟩
  cases shorthand <;> simp [Shorthand.spelling]

theorem spelling_append_of_ofString {text : List Char} {lexeme : Lexeme}
    (h : ofString text = .ok lexeme) :
    lexeme.spelling ≠ [] ∧ lexeme.spelling ++ lexeme.rest = '"' :: text := by
  unfold ofString at h
  split at h
  · cases h
  · next hclose =>
    cases h
    simp [← StringLiteral.append_of_splitAtClose? hclose]

theorem spelling_of_ofRun {run rest : List Char} {lexeme : Lexeme}
    (h : ofRun run rest = .ok lexeme) : lexeme.spelling = run ∧ lexeme.rest = rest := by
  unfold ofRun at h
  split at h
  · cases h; simp
  · split at h <;> cases h
    simp

/-- The first token takes characters from the text's start, and at least one. -/
theorem spelling_append_rest {c : Char} {rest : List Char} {lexeme : Lexeme}
    (h : first c rest = .ok lexeme) :
    lexeme.spelling ≠ [] ∧ lexeme.spelling ++ lexeme.rest = c :: rest := by
  unfold first at h
  split at h
  · next hbracket =>
    cases h
    simp [spelling_of_ofBracket? hbracket]
  · split at h
    · next hshorthand =>
      cases h
      exact spelling_append_of_ofShorthand? hshorthand
    · split at h
      · next hquote =>
        subst hquote
        exact spelling_append_of_ofString h
      · split at h
        · cases h
        · simp [spelling_of_ofRun h]

theorem length_rest_le {c : Char} {rest : List Char} {lexeme : Lexeme}
    (h : first c rest = .ok lexeme) : lexeme.rest.length ≤ rest.length := by
  obtain ⟨hspelled, hsplit⟩ := spelling_append_rest h
  have htotal := congrArg List.length hsplit
  have hpositive := List.length_pos_iff.2 hspelled
  simp only [List.length_append, List.length_cons] at htotal
  omega

end Lexeme

end SmallLisp
