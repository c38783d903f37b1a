import SmallLisp.Proofs.Token.Runs
import SmallLisp.Proofs.Token.StringLiteral

/-!
How tokens are spelled. A relation between a token, its lexeme and the text behind it says for each
kind of token what its lexemes are, without saying how they are found; the first token of a text is
the one so related. The same is done for what may stand between tokens, and for the places where no
token can be recognized.
-/

namespace SmallLisp

namespace Trivia

/-- Blanks, commas, and comments with the newline that ends them. At the end of a text a comment may
stand without one. -/
inductive IsTrivia (atEnd : Bool) : List Char → Prop
  | nil : IsTrivia atEnd []
  | separator {c : Char} {rest : List Char} (hc : Text.isBlank c ∨ c = ',')
      (h : IsTrivia atEnd rest) : IsTrivia atEnd (c :: rest)
  | comment {body rest : List Char} (hbody : '\n' ∉ body) (h : IsTrivia atEnd rest) :
      IsTrivia atEnd (';' :: (body ++ '\n' :: rest))
  | openComment {body : List Char} (hend : atEnd) (hbody : '\n' ∉ body) :
      IsTrivia atEnd (';' :: body)

theorem IsTrivia.atEnd {atEnd : Bool} {trivia : List Char} (h : IsTrivia atEnd trivia) :
    IsTrivia true trivia := by
  induction h with
  | nil => exact .nil
  | separator hc h ih => exact .separator hc ih
  | comment hbody h ih => exact .comment hbody ih
  | openComment hend hbody => exact .openComment rfl hbody

/-- One more character in front. A text that is read inside of a comment counts as trivia when it is
so behind a semicolon. -/
theorem IsTrivia.cons {atEnd inComment inComment' : Bool} {c : Char} {trivia : List Char}
    (hnext : next? inComment c = some inComment')
    (h : IsTrivia atEnd (if inComment' then ';' :: trivia else trivia)) :
    IsTrivia atEnd (if inComment then ';' :: c :: trivia else c :: trivia) := by
  cases inComment with
  | false =>
    simp only [next?, Bool.false_eq_true, if_false] at hnext ⊢
    split at hnext
    · next hseparator =>
      cases hnext
      exact .separator (by simpa using hseparator) h
    · split at hnext
      · next hcomment =>
        cases hnext
        cases hcomment
        exact h
      · cases hnext
  | true =>
    simp only [next?, if_true, Option.some.injEq] at hnext ⊢
    by_cases hnewline : c = '\n'
    · subst hnewline
      cases hnext
      exact .comment List.not_mem_nil h
    · simp only [← hnext, hnewline, ne_eq, not_false_eq_true, decide_true, if_true] at h
      cases h with
      | separator hblank =>
        rcases hblank with hblank | hcomma
        · exact absurd hblank (by decide)
        · exact absurd hcomma (by decide)
      | @comment body rest hbody h =>
        rw [← List.cons_append]
        exact .comment (by simp [Ne.symm hnewline, hbody]) h
      | openComment hend hbody => exact .openComment hend (by simp [Ne.symm hnewline, hbody])

theorem isTrivia_split (inComment : Bool) (text : List Char) :
    IsTrivia (split inComment text).2.isEmpty
      (if inComment then ';' :: (split inComment text).1 else (split inComment text).1) := by
  fun_induction split inComment text with
  | case1 inComment =>
    cases inComment with
    | false => exact .nil
    | true => exact .openComment rfl List.not_mem_nil
  | case2 inComment c rest hnone =>
    cases inComment with
    | false => exact .nil
    | true => simp [next?] at hnone
  | case3 inComment c rest inComment' hsome trivia later hsplit ih =>
    rw [hsplit] at ih
    exact .cons hsome ih

theorem split_comment {body : List Char} (h : '\n' ∉ body) : split true body = (body, []) := by
  induction body with
  | nil => rfl
  | cons c body ih =>
    obtain ⟨hc, hbody⟩ := not_or.1 fun hmem => h (List.mem_cons.2 hmem)
    simp [split, next?, Ne.symm hc, ih hbody]

/-- Behind a newline no comment is open, whether or not one was open in front of it. -/
theorem split_append_newline {inComment : Bool} {text trivia : List Char}
    (h : split inComment text = (trivia, [])) (more : List Char) :
    split inComment (text ++ '\n' :: more) =
      (trivia ++ '\n' :: (split false more).1, (split false more).2) := by
  fun_induction split inComment text generalizing trivia with
  | case1 inComment =>
    cases h
    have hnewline : next? inComment '\n' = some false := by
      cases inComment <;> rfl
    simp [split, hnewline]
  | case2 inComment d rest hnone => cases h
  | case3 inComment d rest inComment' hsome between later hsplit ih =>
    cases h
    simp [split, hsome, ih hsplit]

/-- Trivia is split off as a whole, if it is not at the end or nothing comes behind it. -/
theorem IsTrivia.split_append {atEnd : Bool} {trivia : List Char} (h : IsTrivia atEnd trivia)
    {text : List Char} (htext : atEnd → text = []) :
    split false (trivia ++ text) = (trivia ++ (split false text).1, (split false text).2) := by
  induction h with
  | nil => rfl
  | @separator c rest hc h ih =>
    have hnext : next? false c = some false := by
      simp [next?, hc]
    simp [split, hnext, ih]
  | @comment body rest hbody h ih =>
    have hclosed := split_append_newline (split_comment hbody) (rest ++ text)
    simp [split, next?, hclosed, ih, show Text.isBlank ';' = false by decide]
  | @openComment body hend hbody =>
    rw [htext hend, List.append_nil]
    simp [split, next?, split_comment hbody, show Text.isBlank ';' = false by decide]

theorem split_of_next? {c : Char} (h : next? false c = none) (rest : List Char) :
    split false (c :: rest) = ([], c :: rest) := by
  simp [split, h]

end Trivia

namespace Number

/-- The numeral and its value: decimal digits, or a minus sign and decimal digits. -/
def Denotes (run : List Char) (value : Int) : Prop :=
  ∃ digits, digits ≠ [] ∧ (∀ c ∈ digits, c.isDigit) ∧
    (run = digits ∧ value = digitsValue digits ∨ run = '-' :: digits ∧ value = -digitsValue digits)

theorem Denotes.isNumeral {run : List Char} {value : Int} (h : Denotes run value) :
    IsNumeral run := by
  obtain ⟨digits, hnonempty, hdigits, ⟨hrun, -⟩ | ⟨hrun, -⟩⟩ := h
  · exact ⟨digits, .inl hrun, hnonempty, hdigits⟩
  · exact ⟨digits, .inr hrun, hnonempty, hdigits⟩

theorem ofDigits?_eq_some_iff {digits : List Char} {value : Nat} :
    ofDigits? digits = some value ↔
      (digits ≠ [] ∧ ∀ c ∈ digits, c.isDigit) ∧ value = digitsValue digits := by
  simp only [ofDigits?, Option.ite_none_right_eq_some, List.all_eq_true, Option.some.injEq,
    eq_comm (a := value)]

theorem denotes_of_ofNumeral? {run : List Char} {value : Int} (h : ofNumeral? run = some value) :
    Denotes run value := by
  unfold ofNumeral? at h
  split at h
  · next digits =>
    cases hnumber : ofDigits? digits with
    | none => simp [hnumber] at h
    | some number =>
      obtain ⟨⟨hnonempty, hdigits⟩, rfl⟩ := ofDigits?_eq_some_iff.1 hnumber
      exact ⟨digits, hnonempty, hdigits, .inr ⟨rfl, by simpa [hnumber, eq_comm] using h⟩⟩
  · next digits hsign =>
    cases hnumber : ofDigits? run with
    | none => simp [hnumber] at h
    | some number =>
      obtain ⟨⟨hnonempty, hdigits⟩, rfl⟩ := ofDigits?_eq_some_iff.1 hnumber
      exact ⟨run, hnonempty, hdigits, .inl ⟨rfl, by simpa [hnumber, eq_comm] using h⟩⟩

theorem ofNumeral?_of_denotes {run : List Char} {value : Int} (h : Denotes run value) :
    ofNumeral? run = some value := by
  obtain ⟨digits, hnonempty, hdigits, ⟨rfl, rfl⟩ | ⟨rfl, rfl⟩⟩ := h
  · have hfound : ofDigits? run = some (digitsValue run) :=
      ofDigits?_eq_some_iff.2 ⟨⟨hnonempty, hdigits⟩, rfl⟩
    unfold ofNumeral?
    split
    · exact absurd (hdigits '-' List.mem_cons_self) (by decide)
    · rw [hfound]
      rfl
  · rw [ofNumeral?, ofDigits?_eq_some_iff.2 ⟨⟨hnonempty, hdigits⟩, rfl⟩]
    rfl

theorem ofNumeral?_eq_some_iff {run : List Char} {value : Int} :
    ofNumeral? run = some value ↔ Denotes run value :=
  ⟨denotes_of_ofNumeral?, ofNumeral?_of_denotes⟩

theorem ofInt?_eq_none_iff {i : Int} :
    ofInt? i = none ↔ i < Int64.minValue.toInt ∨ Int64.maxValue.toInt < i := by
  simp only [ofInt?, ite_eq_right_iff, reduceCtorEq, imp_false]
  omega

end Number

namespace Lexeme

/-- In front of the text behind it, the lexeme is that of a token of this kind. -/
def Spells : Token.Kind → (lexeme behind : List Char) → Prop
  | .opening delimiter, lexeme, _ => lexeme = [delimiter.opening]
  | .closing delimiter, lexeme, _ => lexeme = [delimiter.closing]
  | .shorthand shorthand, lexeme, behind =>
    lexeme = shorthand.spelling ∧ (shorthand = .unquote → behind.head? ≠ some '@')
  | .string text, lexeme, _ => ∃ body, StringLiteral.IsBody body ∧
    lexeme = '"' :: body ++ ['"'] ∧ text = String.ofList (StringLiteral.decode body)
  | .number n, lexeme, behind => Number.Denotes lexeme n.toInt ∧ IsBoundary behind
  | .symbol name, lexeme, behind => IsRun lexeme ∧ ¬ Number.IsNumeral lexeme ∧
    name = String.ofList lexeme ∧ IsBoundary behind

/-- At the start of the text no token can be recognized, and this is why. There is no text whose
first character is unexpected. -/
def Flaw.Begins : Flaw → (text : List Char) → Prop
  | .unterminatedString, text => ∃ rest, text = '"' :: rest ∧ StringLiteral.IsUnclosed rest
  | .numberOutOfRange numeral, text => ∃ value behind, text = numeral ++ behind ∧
    IsBoundary behind ∧ Number.Denotes numeral value ∧
      (value < Int64.minValue.toInt ∨ Int64.maxValue.toInt < value)
  | .unexpectedCharacter _, _ => False

theorem spells_of_ofBracket? {c : Char} {rest : List Char} {lexeme : Lexeme}
    (h : ofBracket? c rest = some lexeme) : Spells lexeme.kind lexeme.spelling lexeme.rest := by
  obtain ⟨delimiter, -, hfound⟩ := List.exists_of_findSome?_eq_some h
  split at hfound
  · next hopening =>
    cases hfound
    exact congrArg ([·]) hopening
  · split at hfound
    · next hclosing =>
      cases hfound
      exact congrArg ([·]) hclosing
    · cases hfound

theorem spells_of_ofShorthand? {text : List Char} {lexeme : Lexeme}
    (h : ofShorthand? text = some lexeme) : Spells lexeme.kind lexeme.spelling lexeme.rest := by
  obtain ⟨⟨shorthand, after⟩, hfound, rfl⟩ := Option.map_eq_some_iff.1 h
  refine ⟨rfl, ?_⟩
  rintro rfl
  unfold Shorthand.split? at hfound
  split at hfound
  case h_2 later hsplice =>
    cases hfound
    intro hat
    cases after with
    | nil => cases hat
    | cons c after =>
      cases hat
      exact hsplice after rfl
  all_goals cases hfound

theorem spells_of_ofString {text : List Char} {lexeme : Lexeme} (h : ofString text = .ok lexeme) :
    Spells lexeme.kind lexeme.spelling lexeme.rest := by
  obtain ⟨body, after, hbody, -, rfl⟩ := ofString_eq_ok_iff.1 h
  exact ⟨body, hbody, rfl, rfl⟩

theorem spells_of_ofRun {run rest : List Char} {lexeme : Lexeme} (hrun : IsRun run)
    (hrest : IsBoundary rest) (h : ofRun run rest = .ok lexeme) :
    Spells lexeme.kind lexeme.spelling lexeme.rest := by
  unfold ofRun at h
  split at h
  · next hnone =>
    cases h
    exact ⟨hrun, Number.ofNumeral?_eq_none_iff.1 hnone, rfl, hrest⟩
  · next value hvalue =>
    split at h
    · cases h
    · next n hn =>
      cases h
      obtain rfl := Number.ofInt?_eq_some_iff.1 hn
      exact ⟨Number.ofNumeral?_eq_some_iff.1 hvalue, hrest⟩

theorem isBoundary_dropWhile (text : List Char) : IsBoundary (text.dropWhile (!endsRun ·)) := by
  intro c hc
  have hdropped := List.head?_dropWhile_not (!endsRun ·) text
  rw [Option.mem_def.1 hc] at hdropped
  simpa using hdropped

/-- The first token of a text is one that the text's start spells. -/
theorem spells_of_first {c : Char} {rest : List Char} {lexeme : Lexeme}
    (hseparator : Trivia.next? false c = none) (h : first c rest = .ok lexeme) :
    Spells lexeme.kind lexeme.spelling lexeme.rest := by
  rcases first_cases hseparator rest with ⟨found, hbracket, hfirst⟩ | ⟨found, hshorthand, hfirst⟩ |
    ⟨-, hfirst⟩ | ⟨hstart, hfirst⟩
  · cases hfirst.symm.trans h
    exact spells_of_ofBracket? hbracket
  · cases hfirst.symm.trans h
    exact spells_of_ofShorthand? hshorthand
  · exact spells_of_ofString (hfirst.symm.trans h)
  · exact spells_of_ofRun (isRun_takeWhile hstart rest) (isBoundary_dropWhile rest)
      (hfirst.symm.trans h)

theorem first_unquote {behind : List Char} (h : behind.head? ≠ some '@') :
    first '~' behind = .ok ⟨.shorthand .unquote, ['~'], behind⟩ := by
  have hsplit : Shorthand.split? ('~' :: behind) = some (.unquote, behind) := by
    rw [Shorthand.split?]
    rintro after rfl
    exact h rfl
  have hbracket : ofBracket? '~' behind = none := rfl
  rw [first, hbracket, ofShorthand?, hsplit]
  rfl

theorem ofRun_of_denotes {run : List Char} {n : Int64} (h : Number.Denotes run n.toInt)
    (rest : List Char) : ofRun run rest = .ok ⟨.number n, run, rest⟩ := by
  rw [ofRun, Number.ofNumeral?_eq_some_iff.2 h]
  simp only [Number.ofInt?_eq_some_iff.2 rfl]

theorem exists_first_of_isRun {run behind : List Char} (hrun : IsRun run)
    (hbehind : IsBoundary behind) : ∃ c rest, run ++ behind = c :: rest ∧
      Trivia.next? false c = none ∧ first c rest = ofRun run behind := by
  cases run with
  | nil => exact absurd rfl hrun.nonempty
  | cons c run =>
    obtain ⟨hseparator, -⟩ := (startsRun_iff run).1 hrun.startsRun
    exact ⟨c, run ++ behind, rfl, hseparator, first_of_isRun hrun hbehind⟩

/-- The token that the start of a text spells is its first token. -/
theorem exists_first_of_spells {kind : Token.Kind} {lexeme behind : List Char}
    (h : Spells kind lexeme behind) : ∃ c rest, lexeme ++ behind = c :: rest ∧
      Trivia.next? false c = none ∧ first c rest = .ok ⟨kind, lexeme, behind⟩ := by
  cases kind with
  | opening delimiter =>
    obtain rfl := h
    refine ⟨delimiter.opening, behind, rfl, ?_⟩
    cases delimiter <;> exact ⟨rfl, rfl⟩
  | closing delimiter =>
    obtain rfl := h
    refine ⟨delimiter.closing, behind, rfl, ?_⟩
    cases delimiter <;> exact ⟨rfl, rfl⟩
  | shorthand shorthand =>
    obtain ⟨rfl, hunquote⟩ := h
    cases shorthand with
    | unquote => exact ⟨'~', behind, rfl, rfl, first_unquote (hunquote rfl)⟩
    | _ => exact ⟨_, _, rfl, rfl, rfl⟩
  | string text =>
    obtain ⟨body, hbody, rfl, rfl⟩ := h
    refine ⟨'"', body ++ '"' :: behind, by simp, rfl, ?_⟩
    rw [first_quote]
    exact ofString_eq_ok_iff.2 ⟨body, behind, hbody, rfl, rfl⟩
  | number n =>
    obtain ⟨hdenotes, hbehind⟩ := h
    have hrun := isRun_of_isNumeral hdenotes.isNumeral
    obtain ⟨c, rest, htext, hseparator, hfirst⟩ := exists_first_of_isRun hrun hbehind
    exact ⟨c, rest, htext, hseparator, hfirst.trans (ofRun_of_denotes hdenotes behind)⟩
  | symbol name =>
    obtain ⟨hrun, hnumeral, rfl, hbehind⟩ := h
    obtain ⟨c, rest, htext, hseparator, hfirst⟩ := exists_first_of_isRun hrun hbehind
    exact ⟨c, rest, htext, hseparator, hfirst.trans (ofRun_symbol hnumeral)⟩

theorem begins_of_ofRun {run rest : List Char} {flaw : Flaw} (hrest : IsBoundary rest)
    (h : ofRun run rest = .error flaw) : flaw.Begins (run ++ rest) := by
  unfold ofRun at h
  split at h
  · cases h
  · next value hvalue =>
    split at h
    · next hnone =>
      cases h
      exact ⟨value, rest, rfl, hrest, Number.ofNumeral?_eq_some_iff.1 hvalue,
        Number.ofInt?_eq_none_iff.1 hnone⟩
    · cases h

theorem begins_of_first {c : Char} {rest : List Char} {flaw : Flaw}
    (hseparator : Trivia.next? false c = none) (h : first c rest = .error flaw) :
    flaw.Begins (c :: rest) := by
  rcases first_cases hseparator rest with ⟨found, -, hfirst⟩ | ⟨found, -, hfirst⟩ |
    ⟨rfl, hfirst⟩ | ⟨-, hfirst⟩
  · cases hfirst.symm.trans h
  · cases hfirst.symm.trans h
  · obtain ⟨rfl, hunclosed⟩ := ofString_eq_error_iff.1 (hfirst.symm.trans h)
    exact ⟨rest, rfl, hunclosed⟩
  · have hbegins := begins_of_ofRun (isBoundary_dropWhile rest) (hfirst.symm.trans h)
    rwa [List.cons_append, List.takeWhile_append_dropWhile] at hbegins

/-- Where a token is looked for, no character is unexpected. -/
theorem first_ne_unexpectedCharacter {c : Char} (hseparator : Trivia.next? false c = none)
    (rest : List Char) (d : Char) : first c rest ≠ .error (.unexpectedCharacter d) :=
  fun hfirst => begins_of_first hseparator hfirst

/-- Where a flaw begins, no first token is found because of it. -/
theorem exists_first_of_begins {text : List Char} {flaw : Flaw} (h : flaw.Begins text) :
    ∃ c rest, text = c :: rest ∧ Trivia.next? false c = none ∧ first c rest = .error flaw := by
  cases flaw with
  | unterminatedString =>
    obtain ⟨rest, rfl, hunclosed⟩ := h
    refine ⟨'"', rest, rfl, rfl, ?_⟩
    rw [first_quote]
    exact ofString_eq_error_iff.2 ⟨rfl, hunclosed⟩
  | numberOutOfRange numeral =>
    obtain ⟨value, behind, rfl, hbehind, hdenotes, hrange⟩ := h
    have hrun := isRun_of_isNumeral hdenotes.isNumeral
    obtain ⟨c, rest, htext, hseparator, hfirst⟩ := exists_first_of_isRun hrun hbehind
    refine ⟨c, rest, htext, hseparator, ?_⟩
    rw [hfirst, ofRun, Number.ofNumeral?_eq_some_iff.2 hdenotes]
    simp only [Number.ofInt?_eq_none_iff.2 hrange]
  | unexpectedCharacter c => exact h.elim

/-- No run goes on into a text that is empty, or starts as one into which none goes on, or starts
with what ends runs. -/
theorem IsBoundary.of_head? {behind other : List Char} (h : IsBoundary behind)
    (hother : ∀ c ∈ other.head?, c ∈ behind.head? ∨ endsRun c) : IsBoundary other := by
  intro c hc
  rcases hother c hc with hsame | hends
  · exact h c hsame
  · exact hends

/-- Of the text behind a lexeme no more than the first character matters. The end of the text is as
good as any, and so is whatever ends a run. -/
theorem Spells.of_head? {kind : Token.Kind} {lexeme behind other : List Char}
    (h : Spells kind lexeme behind)
    (hother : ∀ c ∈ other.head?, c ∈ behind.head? ∨ endsRun c) : Spells kind lexeme other := by
  cases kind with
  | opening delimiter => exact h
  | closing delimiter => exact h
  | string text => exact h
  | shorthand shorthand =>
    refine ⟨h.1, fun hunquote hat => ?_⟩
    rcases hother '@' hat with hsame | hends
    · exact h.2 hunquote hsame
    · exact absurd hends (by decide)
  | number n => exact ⟨h.1, h.2.of_head? hother⟩
  | symbol name => exact ⟨h.1, h.2.1, h.2.2.1, h.2.2.2.of_head? hother⟩

theorem head?_append_newline {behind more : List Char} {c : Char}
    (h : c ∈ (behind ++ '\n' :: more).head?) : c ∈ behind.head? ∨ endsRun c := by
  cases behind with
  | nil =>
    cases h
    exact .inr rfl
  | cons d behind => exact .inl h

theorem IsBoundary.append_newline {behind : List Char} (h : IsBoundary behind) (more : List Char) :
    IsBoundary (behind ++ '\n' :: more) :=
  h.of_head? fun _ hc => head?_append_newline hc

/-- A lexeme in front of a further line is what it is in front of the end. -/
theorem Spells.append_newline {kind : Token.Kind} {lexeme behind : List Char}
    (h : Spells kind lexeme behind) (more : List Char) :
    Spells kind lexeme (behind ++ '\n' :: more) :=
  h.of_head? fun _ hc => head?_append_newline hc

/-- A number that is out of range stays so. -/
theorem Flaw.Begins.append_newline {numeral text : List Char}
    (h : (Flaw.numberOutOfRange numeral).Begins text) (more : List Char) :
    (Flaw.numberOutOfRange numeral).Begins (text ++ '\n' :: more) := by
  obtain ⟨value, behind, rfl, hbehind, hdenotes, hrange⟩ := h
  exact ⟨value, _, List.append_assoc .., hbehind.append_newline more, hdenotes, hrange⟩

/-- A lexeme belongs to one token only, whatever stands behind it. -/
theorem Spells.kind_eq {kind kind' : Token.Kind} {lexeme behind behind' : List Char}
    (h : Spells kind lexeme behind) (h' : Spells kind' lexeme behind') : kind = kind' := by
  have halone : Spells kind lexeme [] := h.of_head? (by simp)
  have halone' : Spells kind' lexeme [] := h'.of_head? (by simp)
  obtain ⟨c, rest, htext, -, hfirst⟩ := exists_first_of_spells halone
  obtain ⟨c', rest', htext', -, hfirst'⟩ := exists_first_of_spells halone'
  obtain ⟨rfl, rfl⟩ := List.cons_eq_cons.1 (htext.symm.trans htext')
  have hsame := hfirst.symm.trans hfirst'
  cases hsame
  rfl

/-- The symbols that tokens stand for can be written. -/
theorem Spells.isReadable {name : String} {lexeme behind : List Char}
    (h : Spells (.symbol name) lexeme behind) : Symbol.IsReadable ⟨name⟩ := by
  obtain ⟨hrun, hnumeral, rfl, -⟩ := h
  constructor
  · rwa [String.toList_ofList]
  · rwa [String.toList_ofList]

theorem Spells.ne_nil {kind : Token.Kind} {lexeme behind : List Char}
    (h : Spells kind lexeme behind) : lexeme ≠ [] := by
  obtain ⟨c, rest, htext, -, hfirst⟩ := exists_first_of_spells h
  exact (spelling_append_rest hfirst).1

end Lexeme

end SmallLisp
