import SmallLisp.Proofs.Token.Spelling
import SmallLisp.Proofs.Token.Yields

/-!
The tokens tile their text. A text is trivia, a lexeme, trivia, a lexeme and so on, and last the end
or a place where no token can be recognized; there is one way to see it so, and its tokens are those
that the text has. They can be asked for one by one, and after the end there is nothing more.
-/

namespace SmallLisp

namespace TokenStream

/-- The text, which starts at a byte offset, is trivia and lexemes in turn, which spell the tokens,
and ends in the way the tokens end. -/
inductive Tiles : (offset : Nat) → (text : List Char) → TokenStream → Prop
  | ended (offset : Nat) {trivia : List Char} (htrivia : Trivia.IsTrivia true trivia) :
      Tiles offset trivia ⟨[], .ok (offset + (String.ofList trivia).utf8ByteSize)⟩
  | failed (offset : Nat) {trivia text : List Char} {flaw : Lexeme.Flaw}
      (htrivia : Trivia.IsTrivia false trivia) (hflaw : flaw.Begins text) :
      Tiles offset (trivia ++ text)
        ⟨[], .error (.ofFlaw (offset + (String.ofList trivia).utf8ByteSize) flaw)⟩
  | token {offset : Nat} {trivia lexeme behind : List Char} {kind : Token.Kind}
      {later : TokenStream} (htrivia : Trivia.IsTrivia false trivia)
      (hspells : Lexeme.Spells kind lexeme behind)
      (hlater : Tiles (offset + (String.ofList trivia).utf8ByteSize +
        (String.ofList lexeme).utf8ByteSize) behind later) :
      Tiles offset (trivia ++ lexeme ++ behind)
        ⟨⟨kind, offset + (String.ofList trivia).utf8ByteSize⟩ :: later.tokens, later.ending⟩

theorem tiles_scan (offset : Nat) (text : List Char) : Tiles offset text (scan offset text) := by
  fun_induction scan offset text with
  | case1 offset text trivia hsplit =>
    have htrivia := Trivia.isTrivia_split false text
    have htext := Trivia.split_append false text
    rw [hsplit] at htrivia htext
    obtain rfl : trivia = text := by simpa using htext
    exact .ended offset htrivia
  | case2 offset text trivia c rest hsplit position flaw hfirst =>
    have htrivia := Trivia.isTrivia_split false text
    have htext := Trivia.split_append false text
    rw [hsplit] at htrivia htext
    obtain rfl := htext
    have hseparator := Trivia.next?_of_split hsplit
    exact .failed offset htrivia (Lexeme.begins_of_first hseparator hfirst)
  | case3 offset text trivia c rest hsplit position lexeme hfirst later ih =>
    have htrivia := Trivia.isTrivia_split false text
    have htext := Trivia.split_append false text
    rw [hsplit] at htrivia htext
    obtain rfl := htext
    obtain ⟨-, hspelled⟩ := Lexeme.spelling_append_rest hfirst
    have hspells := Lexeme.spells_of_first (Trivia.next?_of_split hsplit) hfirst
    have htiles := Tiles.token htrivia hspells ih
    rwa [List.append_assoc, hspelled] at htiles

namespace Tiles

variable {offset : Nat} {text : List Char} {stream : TokenStream}

theorem split_trivia {trivia : List Char} (htrivia : Trivia.IsTrivia false trivia) {c : Char}
    (hseparator : Trivia.next? false c = none) (rest : List Char) :
    Trivia.split false (trivia ++ c :: rest) = (trivia, c :: rest) := by
  rw [htrivia.split_append (by simp), Trivia.split_of_next? hseparator, List.append_nil]

/-- There is no other way to tile a text than the one by its tokens. -/
theorem scan_eq (h : Tiles offset text stream) : scan offset text = stream := by
  induction h with
  | @ended offset trivia htrivia =>
    have hsplit : Trivia.split false (trivia ++ []) = (trivia ++ [], []) :=
      htrivia.split_append fun _ => rfl
    rw [List.append_nil] at hsplit
    rw [TokenStream.scan_eq, hsplit]
  | failed offset htrivia hflaw =>
    obtain ⟨c, rest, rfl, hseparator, hfirst⟩ := Lexeme.exists_first_of_begins hflaw
    rw [TokenStream.scan_eq, split_trivia htrivia hseparator]
    simp only [hfirst]
  | token htrivia hspells hlater ih =>
    obtain ⟨c, rest, htext, hseparator, hfirst⟩ := Lexeme.exists_first_of_spells hspells
    rw [List.append_assoc, htext, TokenStream.scan_eq, split_trivia htrivia hseparator]
    simp only [hfirst, ih]

end Tiles

theorem tiles_iff {offset : Nat} {text : List Char} {stream : TokenStream} :
    Tiles offset text stream ↔ scan offset text = stream := by
  constructor
  · exact Tiles.scan_eq
  · rintro rfl
    exact tiles_scan offset text

/-- The positions of the tokens, and behind them that of the end or of the error. -/
def positions (stream : TokenStream) : List Nat :=
  stream.tokens.map Token.position ++
    [match stream.ending with
      | .ok position => position
      | .error e => e.position]

theorem positions_cons (token : Token) (later : TokenStream) :
    positions ⟨token :: later.tokens, later.ending⟩ = token.position :: later.positions := rfl

theorem position_ofFlaw (position : Nat) (flaw : Lexeme.Flaw) :
    (ReadError.ofFlaw position flaw).position = position := by
  cases flaw <;> rfl

namespace Tiles

variable {offset : Nat} {text : List Char} {stream : TokenStream}

theorem le_of_mem_positions (h : Tiles offset text stream) {position : Nat}
    (hposition : position ∈ stream.positions) : offset ≤ position := by
  induction h with
  | ended offset htrivia =>
    obtain rfl := List.mem_singleton.1 hposition
    exact Nat.le_add_right ..
  | failed offset htrivia hflaw =>
    obtain rfl := List.mem_singleton.1 hposition
    dsimp only
    rw [position_ofFlaw]
    exact Nat.le_add_right ..
  | token htrivia hspells hlater ih =>
    rw [positions_cons] at hposition
    rcases List.mem_cons.1 hposition with rfl | hposition
    · exact Nat.le_add_right ..
    · have hle := ih hposition
      omega

/-- Lexemes are not empty, so what comes later stands further behind. -/
theorem pairwise_positions (h : Tiles offset text stream) : stream.positions.Pairwise (· < ·) := by
  induction h with
  | ended offset htrivia => exact List.pairwise_singleton ..
  | failed offset htrivia hflaw => exact List.pairwise_singleton ..
  | @token offset trivia lexeme behind kind later htrivia hspells hlater ih =>
    rw [positions_cons]
    refine List.pairwise_cons.2 ⟨fun position hposition => ?_, ih⟩
    have hle := hlater.le_of_mem_positions hposition
    have hpositive : (String.ofList lexeme).utf8ByteSize ≠ 0 := by
      simpa using hspells.ne_nil
    dsimp only
    omega

/-- Each token stands where its lexeme begins. -/
theorem exists_lexeme (h : Tiles offset text stream) {token : Token}
    (htoken : token ∈ stream.tokens) : ∃ before lexeme behind,
      text = before ++ lexeme ++ behind ∧
        token.position = offset + (String.ofList before).utf8ByteSize ∧
        Lexeme.Spells token.kind lexeme behind := by
  induction h with
  | ended offset htrivia => cases htoken
  | failed offset htrivia hflaw => cases htoken
  | @token offset trivia lexeme behind kind later htrivia hspells hlater ih =>
    rcases List.mem_cons.1 htoken with rfl | hmem
    · exact ⟨trivia, lexeme, behind, rfl, rfl, hspells⟩
    · obtain ⟨before, lexeme', behind', rfl, hposition, hspells'⟩ := ih hmem
      refine ⟨trivia ++ lexeme ++ before, lexeme', behind', by simp, ?_, hspells'⟩
      simp only [hposition, String.ofList_append, String.utf8ByteSize_append]
      omega

theorem position_of_ending (h : Tiles offset text stream) {position : Nat}
    (hending : stream.ending = .ok position) :
    position = offset + (String.ofList text).utf8ByteSize := by
  induction h with
  | ended offset htrivia =>
    cases hending
    rfl
  | failed offset htrivia hflaw => cases hending
  | token htrivia hspells hlater ih =>
    simp only [ih hending, String.ofList_append, String.utf8ByteSize_append]
    omega

/-- An error stands where the flaw begins that it reports. -/
theorem exists_flaw (h : Tiles offset text stream) {e : ReadError}
    (hending : stream.ending = .error e) : ∃ before behind flaw,
      text = before ++ behind ∧ Lexeme.Flaw.Begins flaw behind ∧
        e = .ofFlaw (offset + (String.ofList before).utf8ByteSize) flaw := by
  induction h with
  | ended offset htrivia => cases hending
  | @failed offset trivia text flaw htrivia hflaw =>
    cases hending
    exact ⟨trivia, text, flaw, rfl, hflaw, rfl⟩
  | @token offset trivia lexeme behind kind later htrivia hspells hlater ih =>
    obtain ⟨before, behind', flaw, rfl, hflaw, rfl⟩ := ih hending
    refine ⟨trivia ++ lexeme ++ before, behind', flaw, by simp, hflaw, ?_⟩
    simp only [String.ofList_append, String.utf8ByteSize_append]
    congr 1
    omega

/-- The text in front of a token has the tokens before it, up to its end. -/
theorem exists_before (h : Tiles offset text stream) {before later : List Token} {token : Token}
    (htokens : stream.tokens = before ++ token :: later) : ∃ front behind,
      text = front ++ behind ∧ token.position = offset + (String.ofList front).utf8ByteSize ∧
        Tiles offset front ⟨before, .ok token.position⟩ := by
  induction h generalizing before with
  | ended offset htrivia => simp at htokens
  | failed offset htrivia hflaw => simp at htokens
  | @token offset trivia lexeme behind kind stream htrivia hspells hlater ih =>
    cases before with
    | nil =>
      obtain ⟨rfl, -⟩ := List.cons_eq_cons.1 htokens
      exact ⟨trivia, lexeme ++ behind, List.append_assoc .., rfl, .ended offset htrivia.atEnd⟩
    | cons first before =>
      obtain ⟨rfl, hrest⟩ := List.cons_eq_cons.1 htokens
      obtain ⟨front, rest, rfl, hposition, hfront⟩ := ih hrest
      have hspells' : Lexeme.Spells kind lexeme front := by
        apply hspells.of_head?
        intro c hc
        cases front with
        | nil => cases hc
        | cons d front => exact .inl hc
      refine ⟨trivia ++ lexeme ++ front, rest, by simp, ?_, .token htrivia hspells' hfront⟩
      simp only [hposition, String.ofList_append, String.utf8ByteSize_append]
      omega

end Tiles

theorem isReadable_of_mem_tokens {offset : Nat} {text : List Char} {token : Token} {name : String}
    (hmem : token ∈ (scan offset text).tokens) (hkind : token.kind = .symbol name) :
    Symbol.IsReadable ⟨name⟩ := by
  obtain ⟨-, lexeme, behind, -, -, hspells⟩ := (tiles_scan offset text).exists_lexeme hmem
  rw [hkind] at hspells
  exact hspells.isReadable

/-- What a text gives one after the other when it is asked for its tokens: the tokens, and one item
more, which is the end or an error. -/
inductive Item where
  | token (token : Token)
  | ending (ending : Except ReadError Nat)

def items (stream : TokenStream) : List Item :=
  stream.tokens.map .token ++ [.ending stream.ending]

end TokenStream

open TokenStream (Item)

/-- A text in the course of being asked for its tokens: what is left of it and where that starts,
and whether its end or an error has been given. -/
structure Tokenizer where
  offset : Nat
  rest : List Char
  isFinished : Bool

namespace Tokenizer

def ofText (text : String) : Tokenizer := ⟨0, text.toList, false⟩

/-- One request. Behind the end or an error there are no more items. -/
def next (tokenizer : Tokenizer) : Option Item × Tokenizer :=
  if tokenizer.isFinished then (none, tokenizer)
  else
    match Trivia.split false tokenizer.rest with
    | (trivia, []) =>
      (some (.ending (.ok (tokenizer.offset + (String.ofList trivia).utf8ByteSize))),
        ⟨tokenizer.offset + (String.ofList trivia).utf8ByteSize, [], true⟩)
    | (trivia, c :: rest) =>
      let position := tokenizer.offset + (String.ofList trivia).utf8ByteSize
      match Lexeme.first c rest with
      | .error flaw =>
        (some (.ending (.error (.ofFlaw position flaw))), ⟨position, c :: rest, true⟩)
      | .ok lexeme =>
        (some (.token ⟨lexeme.kind, position⟩),
          ⟨position + (String.ofList lexeme.spelling).utf8ByteSize, lexeme.rest, false⟩)

/-- The item that the request of this number gives, counted from zero. -/
def request? (tokenizer : Tokenizer) : (number : Nat) → Option Item
  | 0 => tokenizer.next.1
  | number + 1 => tokenizer.next.2.request? number

theorem request?_of_isFinished {tokenizer : Tokenizer} (h : tokenizer.isFinished) (number : Nat) :
    tokenizer.request? number = none := by
  have hnext : tokenizer.next = (none, tokenizer) := if_pos h
  induction number with
  | zero => rw [request?, hnext]
  | succ number ih => rw [request?, hnext, ih]

theorem next_of_ending {tokenizer : Tokenizer} (h : tokenizer.isFinished = false)
    {ending : Except ReadError Nat}
    (hstream : TokenStream.scan tokenizer.offset tokenizer.rest = ⟨[], ending⟩) :
    tokenizer.next.1 = some (.ending ending) := by
  rw [TokenStream.scan_eq] at hstream
  rw [next, if_neg (by simp [h])]
  revert hstream
  rcases Trivia.split false tokenizer.rest with ⟨trivia, _ | ⟨c, rest⟩⟩
  · rintro ⟨⟩
    rfl
  · dsimp only
    cases Lexeme.first c rest with
    | error flaw =>
      rintro ⟨⟩
      rfl
    | ok lexeme => rintro ⟨⟩

theorem next_of_token {tokenizer : Tokenizer} (h : tokenizer.isFinished = false) {token : Token}
    {tokens : List Token} {ending : Except ReadError Nat}
    (hstream : TokenStream.scan tokenizer.offset tokenizer.rest = ⟨token :: tokens, ending⟩) :
    ∃ later : Tokenizer, tokenizer.next = (some (.token token), later) ∧
      later.isFinished = false ∧ TokenStream.scan later.offset later.rest = ⟨tokens, ending⟩ := by
  rw [TokenStream.scan_eq] at hstream
  rw [next, if_neg (by simp [h])]
  revert hstream
  rcases Trivia.split false tokenizer.rest with ⟨trivia, _ | ⟨c, rest⟩⟩
  · rintro ⟨⟩
  · dsimp only
    cases Lexeme.first c rest with
    | error flaw => rintro ⟨⟩
    | ok lexeme =>
      rintro ⟨⟩
      exact ⟨_, rfl, rfl, rfl⟩

/-- The requests give the items of the tokens, and then nothing. -/
theorem request?_eq (offset : Nat) (text : List Char) (number : Nat) :
    (Tokenizer.mk offset text false).request? number =
      (TokenStream.scan offset text).items[number]? := by
  fun_induction TokenStream.scan offset text generalizing number with
  | case1 offset text trivia hsplit =>
    cases number with
    | zero => simp [request?, next, hsplit, TokenStream.items]
    | succ number =>
      rw [request?, request?_of_isFinished (by simp [next, hsplit])]
      simp [TokenStream.items]
  | case2 offset text trivia c rest hsplit position flaw hfirst =>
    cases number with
    | zero => simp [request?, next, hsplit, hfirst, TokenStream.items, position]
    | succ number =>
      rw [request?, request?_of_isFinished (by simp [next, hsplit, hfirst])]
      simp [TokenStream.items]
  | case3 offset text trivia c rest hsplit position lexeme hfirst later ih =>
    have hnext : (Tokenizer.mk offset text false).next =
        (some (.token ⟨lexeme.kind, position⟩),
          ⟨position + (String.ofList lexeme.spelling).utf8ByteSize, lexeme.rest, false⟩) := by
      simp [next, hsplit, hfirst, position]
    cases number with
    | zero =>
      rw [request?, hnext]
      rfl
    | succ number =>
      rw [request?, hnext, ih]
      rfl

end Tokenizer

/-- The tokens are those of the text. Positions count the bytes in front of them. -/
structure TokenStream.IsTilingOf (stream : TokenStream) (text : String) : Prop where
  tiles_iff : ∀ other, TokenStream.Tiles 0 text.toList other ↔ other = stream
  requests : ∀ number, (Tokenizer.ofText text).request? number = stream.items[number]?
  ascending : stream.positions.Pairwise (· < ·)
  /-- The lexeme alone says which token it is. -/
  lexeme_of_token : ∀ token ∈ stream.tokens, ∃ before lexeme behind : String,
    text = before ++ lexeme ++ behind ∧ lexeme ≠ "" ∧ token.position = before.utf8ByteSize ∧
      Lexeme.Spells token.kind lexeme.toList behind.toList ∧
        ∀ kind other, Lexeme.Spells kind lexeme.toList other → kind = token.kind
  position_of_end : ∀ position, stream.ending = .ok position → position = text.utf8ByteSize
  position_of_error : ∀ e, stream.ending = .error e → ∃ before behind : String,
    text = before ++ behind ∧ e.position = before.utf8ByteSize ∧
      (e.kind = .incomplete ∧ Lexeme.Flaw.unterminatedString.Begins behind.toList ∨
        e.kind = .invalidNumber ∧
          ∃ numeral, (Lexeme.Flaw.numberOutOfRange numeral).Begins behind.toList)

/-- Every text is tiled by its tokens: it is trivia and lexemes in turn, in one way only, up to its
end, to a literal that is not closed, or to a number that is out of range. -/
theorem tokens_tile_text (text : String) : (tokenize text).IsTilingOf text where
  tiles_iff other := by
    rw [TokenStream.tiles_iff, tokenize, eq_comm]
  requests number := Tokenizer.request?_eq 0 text.toList number
  ascending := (TokenStream.tiles_scan 0 text.toList).pairwise_positions
  lexeme_of_token token htoken := by
    obtain ⟨before, lexeme, behind, htext, hposition, hspells⟩ :=
      (TokenStream.tiles_scan 0 text.toList).exists_lexeme htoken
    refine ⟨.ofList before, .ofList lexeme, .ofList behind, ?_, ?_, ?_, ?_, ?_⟩
    · rw [← String.ofList_append, ← String.ofList_append, ← htext, String.ofList_toList]
    · intro hempty
      exact hspells.ne_nil (by simpa using congrArg String.toList hempty)
    · rw [hposition, Nat.zero_add]
    · rwa [String.toList_ofList, String.toList_ofList]
    · intro kind other hother
      rw [String.toList_ofList] at hother
      exact hother.kind_eq hspells
  position_of_end position hending := by
    rw [(TokenStream.tiles_scan 0 text.toList).position_of_ending hending, Nat.zero_add,
      String.ofList_toList]
  position_of_error e hending := by
    obtain ⟨before, behind, flaw, htext, hflaw, rfl⟩ :=
      (TokenStream.tiles_scan 0 text.toList).exists_flaw hending
    refine ⟨.ofList before, .ofList behind, ?_, ?_, ?_⟩
    · rw [← String.ofList_append, ← htext, String.ofList_toList]
    · rw [TokenStream.position_ofFlaw, Nat.zero_add]
    · rw [String.toList_ofList]
      cases flaw with
      | unterminatedString => exact .inl ⟨rfl, hflaw⟩
      | numberOutOfRange numeral => exact .inr ⟨rfl, numeral, hflaw⟩
      | unexpectedCharacter c => exact hflaw.elim

end SmallLisp
