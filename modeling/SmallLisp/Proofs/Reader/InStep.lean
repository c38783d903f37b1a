import SmallLisp.Proofs.Reader.Descent

/-!
Errors of reading and errors of tokens. A text is read as far as its tokens go, so it fails with the
error that ends them unless one of the tokens is out of place.
-/

namespace SmallLisp

/-- A token is refused for its kind, for its depth, or because there should be no more tokens. -/
theorem Reader.Refusal.kind_eq {state : Reader.State} {kind : ReadError.Kind}
    (h : Reader.Refusal state kind) :
    kind = .invalidSyntax ∨ kind = .trailingContent ∨ kind = .tooDeeplyNested := by
  cases h with
  | tooDeep => exact .inr (.inr rfl)
  | trailing => exact .inr (.inl rfl)
  | noOperand => exact .inl rfl
  | unbalanced => exact .inl rfl

/-- The error of a refused token stands where that token does. -/
theorem Reader.exists_token_of_foldlM {state : Reader.State} {tokens : List Token} {e : ReadError}
    (h : tokens.foldlM Reader.next state = .error e) :
    ∃ token ∈ tokens, e.position = token.position ∧
      (e.kind = .invalidSyntax ∨ e.kind = .trailingContent ∨ e.kind = .tooDeeplyNested) := by
  obtain ⟨before, token, later, middle, rfl, -, hrefused⟩ := Reader.exists_next_of_foldlM h
  obtain ⟨hposition, hrefusal⟩ := Reader.refusal_of_next hrefused
  exact ⟨token, by simp, hposition, hrefusal.kind_eq⟩

theorem Reader.position_of_finish {position : Nat} {state : Reader.State} {e : ReadError}
    (h : Reader.finish position state = .error e) : e.position = position := by
  rcases state with (_ | ⟨⟨delimiter, items⟩ | ⟨shorthand, operands⟩, outer⟩) | value
  · cases h
    rfl
  · cases h
    rfl
  · simp only [Reader.finish] at h
    split at h <;> cases h <;> rfl
  · cases h

/-- Tokens stand in front of the place where no token can be recognized. -/
theorem position_lt_of_mem_tokens {text : String} {e : ReadError}
    (h : (tokenize text).ending = .error e) {token : Token}
    (htoken : token ∈ (tokenize text).tokens) :
    token.position < e.position := by
  have hpositions := (TokenStream.tiles_scan 0 text.toList).pairwise_positions
  change (tokenize text).positions.Pairwise (· < ·) at hpositions
  rw [TokenStream.positions, h, List.pairwise_append] at hpositions
  exact hpositions.2.2 _ (List.mem_map_of_mem htoken) _ (List.mem_singleton.2 rfl)

/-- How a text is read, compared with its tokens. -/
structure ReadsInStep (text : String) : Prop where
  /-- Where no token can be recognized, this is the error, or an earlier token is out of place. -/
  of_error : ∀ e, (tokenize text).ending = .error e → ∃ found, read text = .error found ∧
    (found = e ∨ (found.kind = .invalidSyntax ∨ found.kind = .trailingContent ∨
      found.kind = .tooDeeplyNested) ∧ found.position < e.position)
  /-- Otherwise an error stands at a token, or at the end where text is missing. -/
  of_end : ∀ position, (tokenize text).ending = .ok position → ∀ e, read text = .error e →
    e.position ∈ (tokenize text).positions ∧
      (e.kind = .incomplete → e.position = text.utf8ByteSize)
  /-- What the descent asks for are the first items of the stream, of which the end or the error is
  the last. No request is left without an answer. -/
  requests : ∃ last : Descent, Descent.readText (.ofText text) = some (read text, last) ∧
    last.answers <+: (tokenize text).items.map some ∧ none ∉ last.answers

/-- Reading a text token by token and taking it apart into tokens first come to the same. A text
whose tokens end in an error fails with this error or with one at an earlier token. If all tokens
can be recognized, it fails at one of them or at the end. The reader that asks for the tokens one by
one fails in the same way, and never asks for anything behind the end or the error. -/
theorem read_in_step_with_tokens (text : String) : ReadsInStep text where
  of_error e hending := by
    cases htokens : (tokenize text).tokens.foldlM Reader.next Reader.start with
    | error found =>
      obtain ⟨token, htoken, hposition, hkind⟩ := Reader.exists_token_of_foldlM htokens
      refine ⟨found, read_of_foldlM_error htokens, .inr ⟨hkind, ?_⟩⟩
      rw [hposition]
      exact position_lt_of_mem_tokens hending htoken
    | ok state =>
      refine ⟨e, ?_, .inl rfl⟩
      simp only [read, htokens, hending]
      rfl
  of_end position hending e hread := by
    cases htokens : (tokenize text).tokens.foldlM Reader.next Reader.start with
    | error found =>
      rw [read_of_foldlM_error htokens] at hread
      cases hread
      obtain ⟨token, htoken, hposition, -⟩ := Reader.exists_token_of_foldlM htokens
      refine ⟨?_, fun hkind => absurd hkind (Reader.kind_ne_incomplete_of_foldlM htokens)⟩
      rw [hposition]
      exact List.mem_append_left _ (List.mem_map_of_mem htoken)
    | ok state =>
      rw [read_eq_finish hending htokens] at hread
      rw [Reader.position_of_finish hread]
      refine ⟨?_, fun _ => ?_⟩
      · simp [TokenStream.positions, hending]
      · rw [(TokenStream.tiles_scan 0 text.toList).position_of_ending hending, Nat.zero_add,
          String.ofList_toList]
  requests := by
    obtain ⟨last, hlast, hanswers⟩ := Descent.readText_ofText text
    refine ⟨last, hlast, hanswers, fun hnone => ?_⟩
    obtain ⟨item, -, hitem⟩ := List.mem_map.1 (hanswers.subset hnone)
    cases hitem

/-- In `[1 ) "x` a string is not closed, but the bracket in front of it is of the wrong kind. That
is the error. -/
theorem read_in_step_with_tokens_unbalanced :
    let text := "[1 ) \"x"
    let e : ReadError := ⟨.incomplete, "unterminated string, expected '\"', got end of input", 5⟩
    let found : ReadError := ⟨.invalidSyntax, "unbalanced '[': expected ']', got ')'", 3⟩
    (tokenize text).ending = .error e ∧ read text = .error found ∧ found.position < e.position ∧
      ∃ last : Descent, Descent.readText (.ofText text) = some (.error found, last) ∧
        last.answers <+: (tokenize text).items.map some := by
  intro text e found
  have hending : (tokenize text).ending = .error e := by cbv
  have hread : read text = .error found := by cbv
  have hstep := read_in_step_with_tokens text
  obtain ⟨other, hother, hfound⟩ := hstep.of_error e hending
  obtain rfl : found = other := Except.error.inj (hread.symm.trans hother)
  obtain ⟨last, hlast, hanswers, -⟩ := hstep.requests
  rw [hread] at hlast
  refine ⟨hending, hread, ?_, last, hlast, hanswers⟩
  exact (hfound.resolve_left (by decide)).2

end SmallLisp
