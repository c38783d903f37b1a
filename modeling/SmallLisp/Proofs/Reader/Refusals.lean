import Mathlib
import SmallLisp.Proofs.Reader.Incomplete

/-!
Texts that are refused. An error of the reader that is no matter of missing text or of depth is
final: nothing behind a newline changes it. It stands at the first token that is out of place, since
what stands in front of that token can be completed.
-/

namespace SmallLisp

namespace Reader

/-- Where a token is refused for what it is and not for its depth, other tokens can go on. -/
theorem completable_of_refusal {state : State} {kinds : List Token.Kind}
    (hstate : state.Spelled kinds) {kind : ReadError.Kind} (h : Refusal state kind)
    (hkind : kind ≠ .tooDeeplyNested) : Completable state := by
  cases h with
  | tooDeep hdepth => exact absurd rfl hkind
  | trailing value => exact completable_complete value
  | noOperand hdepth => exact completable_of_lt hstate hdepth
  | unbalanced delimiter items outer => exact completable_of_collection hstate

theorem kind_of_finish {position : Nat} {state : State} {e : ReadError}
    (h : finish position state = .error e) : e.kind = .incomplete ∨ e.kind = .tooDeeplyNested := by
  rcases state with (_ | ⟨⟨delimiter, items⟩ | ⟨shorthand, operands⟩, outer⟩) | value
  · cases h
    exact .inl rfl
  · cases h
    exact .inl rfl
  · simp only [finish] at h
    split at h <;> cases h
    · exact .inl rfl
    · exact .inr rfl
  · cases h

end Reader

/-- Where a text fails to be read: at one of its tokens, or where its tokens end. -/
theorem failure_of_read {text : String} {e : ReadError} (h : read text = .error e) :
    (tokenize text).tokens.foldlM Reader.next Reader.start = .error e ∨
      (tokenize text).ending = .error e ∨ e.kind = .incomplete ∨ e.kind = .tooDeeplyNested := by
  cases htokens : (tokenize text).tokens.foldlM Reader.next Reader.start with
  | error found =>
    rw [read_of_foldlM_error htokens] at h
    cases h
    exact .inl rfl
  | ok state =>
    cases hending : (tokenize text).ending with
    | error found =>
      simp only [read, htokens, hending] at h
      cases h
      exact .inr (.inl rfl)
    | ok position =>
      rw [read_eq_finish hending htokens] at h
      exact .inr (.inr (Reader.kind_of_finish h))

theorem kind_of_ending {text : String} {e : ReadError} (h : (tokenize text).ending = .error e) :
    e.kind = .incomplete ∨ e.kind = .invalidNumber := by
  obtain ⟨before, behind, flaw, -, hflaw, rfl⟩ :=
    (TokenStream.tiles_scan 0 text.toList).exists_flaw h
  cases flaw with
  | unterminatedString => exact .inl rfl
  | numberOutOfRange numeral => exact .inr rfl
  | unexpectedCharacter c => exact hflaw.elim

/-- No further line makes up for a token that is refused. -/
theorem read_append_newline_of_foldlM_error {text : String} {e : ReadError}
    (h : (tokenize text).tokens.foldlM Reader.next Reader.start = .error e) (more : String) :
    read (text ++ "\n" ++ more) = .error e := by
  apply read_of_foldlM_error
  obtain ⟨later, hlater⟩ :=
    (TokenStream.tiles_scan 0 text.toList).prefix_append_newline more.toList
  rw [tokenize, toList_append_newline, ← hlater]
  exact Reader.foldlM_append_of_error h

/-- No further line brings a number into range. -/
theorem tokenize_append_newline_of_invalidNumber {text : String} {e : ReadError}
    (h : (tokenize text).ending = .error e) (hkind : e.kind = .invalidNumber) (more : String) :
    tokenize (text ++ "\n" ++ more) = tokenize text := by
  have htiles := (TokenStream.tiles_scan 0 text.toList).append_newline h hkind more.toList
  rw [tokenize, toList_append_newline, htiles.scan_eq, tokenize]

/-- What stands in front of a refused token can be completed, if it is not the depth for which the
token is refused. -/
theorem exists_read_of_foldlM_error {text : String} {e : ReadError}
    (h : (tokenize text).tokens.foldlM Reader.next Reader.start = .error e)
    (hkind : e.kind ≠ .tooDeeplyNested) : ∃ before behind : String, text = before ++ behind ∧
      before.utf8ByteSize = e.position ∧
        ∃ (more : String) (value : Value), read (before ++ "\n" ++ more) = .ok value := by
  obtain ⟨first, token, later, state, htokens, hfirst, hrefused⟩ := Reader.exists_next_of_foldlM h
  obtain ⟨hposition, hrefusal⟩ := Reader.refusal_of_next hrefused
  have hstart : Reader.start.Spelled [] := Reader.Spelled.nil
  have hcompletable := Reader.completable_of_refusal (Reader.spelled_foldlM hstart hfirst) hrefusal
    hkind
  obtain ⟨front, behind, htext, hoffset, hfront⟩ :=
    (TokenStream.tiles_scan 0 text.toList).exists_before htokens
  have hscan : tokenize (.ofList front) = ⟨first, .ok token.position⟩ := by
    rw [tokenize, String.toList_ofList, hfront.scan_eq]
  refine ⟨.ofList front, .ofList behind, ?_, ?_, ?_⟩
  · rw [← String.ofList_append, ← htext, String.ofList_toList]
  · rw [hposition, hoffset, Nat.zero_add]
  · have hending : (tokenize (.ofList front)).ending = .ok token.position := by rw [hscan]
    refine exists_read_append_newline hending ?_ hcompletable
    rw [hscan]
    exact hfirst

/-- Errors other than those of missing text and of depth are final, and stand at the first token
that is out of place: no further line changes them, and the text in front of the token, unless it is
a number out of range, can be completed in a further line. -/
theorem read_error_is_final {text : String} {e : ReadError} (h : read text = .error e)
    (hkind : e.kind = .invalidSyntax ∨ e.kind = .trailingContent ∨ e.kind = .invalidNumber) :
    (∀ more : String, read (text ++ "\n" ++ more) = .error e) ∧
      (e.kind ≠ .invalidNumber → ∃ before behind : String, text = before ++ behind ∧
        before.utf8ByteSize = e.position ∧
          ∃ (more : String) (value : Value), read (before ++ "\n" ++ more) = .ok value) := by
  have hshallow : e.kind ≠ .tooDeeplyNested := by
    rcases hkind with hkind | hkind | hkind <;> simp [hkind]
  have hmissing : e.kind ≠ .incomplete := by
    rcases hkind with hkind | hkind | hkind <;> simp [hkind]
  rcases failure_of_read h with hrefused | hending | hincomplete | hdeep
  · exact ⟨read_append_newline_of_foldlM_error hrefused,
      fun _ => exists_read_of_foldlM_error hrefused hshallow⟩
  · have hnumber : e.kind = .invalidNumber := (kind_of_ending hending).resolve_left hmissing
    refine ⟨fun more => ?_, fun hother => absurd hnumber hother⟩
    rw [read, tokenize_append_newline_of_invalidNumber hending hnumber]
    exact h
  · exact absurd hincomplete hmissing
  · exact absurd hdeep hshallow

/-- A bracket of the wrong kind stays wrong, and the vector in front of it can be closed. -/
theorem read_error_is_final_unbalanced :
    let e : ReadError := ⟨.invalidSyntax, "unbalanced '[': expected ']', got ')'", 3⟩
    read "[1 )" = .error e ∧ e.kind ≠ .invalidNumber ∧
      (∀ more : String, read ("[1 )" ++ "\n" ++ more) = .error e) ∧
        ∃ before behind : String, "[1 )" = before ++ behind ∧ before.utf8ByteSize = e.position ∧
          ∃ (more : String) (value : Value), read (before ++ "\n" ++ more) = .ok value := by
  intro e
  have hread : read "[1 )" = .error e := by cbv
  have hkind : e.kind ≠ .invalidNumber := by decide
  obtain ⟨hfinal, hviable⟩ := read_error_is_final hread (.inl rfl)
  exact ⟨hread, hkind, hfinal, hviable hkind⟩

end SmallLisp
