import SmallLisp.Error
import SmallLisp.Text.CodePoint
import SmallLisp.Token.Lexeme

/-!
The tokens of a text, with what lies between them left out: blanks, commas, and comments from a
semicolon to the end of the line. A text has its tokens up to its end, or up to a first place where
none can be recognized.
-/

namespace SmallLisp

namespace Trivia

/-- The state behind a character that separates tokens, which is whether a comment is open there.
No state lies behind any other character. -/
def next? (inComment : Bool) (c : Char) : Option Bool :=
  if inComment then some (c ≠ '\n')
  else if Text.isBlank c || c = ',' then some false
  else if c = ';' then some true
  else none

/-- Splits a text where its first token begins. -/
def split (inComment : Bool) : List Char → List Char × List Char
  | [] => ([], [])
  | c :: rest =>
    match next? inComment c with
    | none => ([], c :: rest)
    | some inComment =>
      let (trivia, text) := split inComment rest
      (c :: trivia, text)

theorem split_append (inComment : Bool) (text : List Char) :
    (split inComment text).1 ++ (split inComment text).2 = text := by
  fun_induction split inComment text <;> simp_all

end Trivia

/-- What a text consists of: its tokens in order, and how they end. They end at the end of the
text, which has a position like a token, or with an error. -/
structure TokenStream where
  tokens : List Token
  ending : Except ReadError Nat

def ReadError.ofFlaw (position : Nat) : Lexeme.Flaw → ReadError
  | .unterminatedString =>
    ⟨.incomplete, "unterminated string, expected '\"', got end of input", position⟩
  | .numberOutOfRange numeral =>
    ⟨.invalidNumber, "invalid number " ++ String.ofList numeral, position⟩
  | .unexpectedCharacter c =>
    ⟨.invalidSyntax, s!"unexpected character Some({Text.quotedAlone c})", position⟩

/-- The tokens of a text that starts at a byte offset in some larger text. -/
def TokenStream.scan (offset : Nat) (text : List Char) : TokenStream :=
  match _hsplit : Trivia.split false text with
  | (trivia, []) => ⟨[], .ok (offset + (String.ofList trivia).utf8ByteSize)⟩
  | (trivia, c :: rest) =>
    let position := offset + (String.ofList trivia).utf8ByteSize
    match _hfirst : Lexeme.first c rest with
    | .error flaw => ⟨[], .error (.ofFlaw position flaw)⟩
    | .ok lexeme =>
      let later :=
        TokenStream.scan (position + (String.ofList lexeme.spelling).utf8ByteSize) lexeme.rest
      ⟨⟨lexeme.kind, position⟩ :: later.tokens, later.ending⟩
termination_by text.length
decreasing_by
  have htext := congrArg List.length (Trivia.split_append false text)
  have hrest := Lexeme.length_rest_le _hfirst
  simp only [_hsplit, List.length_append, List.length_cons] at htext
  omega

def tokenize (text : String) : TokenStream :=
  TokenStream.scan 0 text.toList

end SmallLisp
