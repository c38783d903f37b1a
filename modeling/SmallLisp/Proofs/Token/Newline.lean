import SmallLisp.Proofs.Token.Tiling

/-!
A text that goes on in a further line. A newline ends whatever stands in front of it, a comment and
a run of characters alike, so a text that has tokens up to its end keeps them at their places, and
the tokens of the further line follow. A text that fails keeps the tokens in front of the failure.
-/

namespace SmallLisp

namespace Trivia

theorem IsTrivia.append {atEnd : Bool} {trivia trivia' : List Char} (h : IsTrivia false trivia)
    (h' : IsTrivia atEnd trivia') : IsTrivia atEnd (trivia ++ trivia') := by
  induction h with
  | nil => exact h'
  | separator hc h ih => exact .separator hc ih
  | comment hbody h ih =>
    rw [List.cons_append, List.append_assoc, List.cons_append]
    exact .comment hbody ih
  | openComment hend hbody => cases hend

/-- A newline ends the comment that is open at the end. -/
theorem IsTrivia.append_newline {atEnd : Bool} {trivia : List Char} (h : IsTrivia atEnd trivia) :
    IsTrivia false (trivia ++ ['\n']) := by
  induction h with
  | nil => exact .separator (.inl rfl) .nil
  | separator hc h ih => exact .separator hc ih
  | comment hbody h ih =>
    rw [List.cons_append, List.append_assoc, List.cons_append]
    exact .comment hbody ih
  | openComment hend hbody => exact .comment hbody .nil

end Trivia

namespace TokenStream

namespace Tiles

variable {offset : Nat} {text : List Char} {stream : TokenStream}

theorem of_trivia {trivia : List Char} (htrivia : Trivia.IsTrivia false trivia)
    (h : Tiles (offset + (String.ofList trivia).utf8ByteSize) text stream) :
    Tiles offset (trivia ++ text) stream := by
  cases h with
  | ended _ hmore =>
    rw [Nat.add_assoc, ← String.utf8ByteSize_append, ← String.ofList_append]
    exact .ended offset (htrivia.append hmore)
  | failed _ hmore hflaw =>
    rw [Nat.add_assoc, ← String.utf8ByteSize_append, ← String.ofList_append, ← List.append_assoc]
    exact .failed offset (htrivia.append hmore) hflaw
  | token hmore hspells hlater =>
    rw [Nat.add_assoc offset, ← String.utf8ByteSize_append, ← String.ofList_append] at hlater ⊢
    rw [← List.append_assoc, ← List.append_assoc]
    exact .token (htrivia.append hmore) hspells hlater

/-- The tokens of a further line come behind those of the text, if these go up to its end. -/
theorem append_line (h : Tiles offset text stream) {position : Nat}
    (hending : stream.ending = .ok position) {more : List Char} {line : TokenStream}
    (hline : Tiles (offset + (String.ofList text).utf8ByteSize + 1) more line) :
    Tiles offset (text ++ '\n' :: more) ⟨stream.tokens ++ line.tokens, line.ending⟩ := by
  induction h with
  | @ended offset trivia htrivia =>
    rw [List.append_cons]
    apply of_trivia htrivia.append_newline
    rwa [String.ofList_append, String.utf8ByteSize_append, ← Nat.add_assoc]
  | failed offset htrivia hflaw => cases hending
  | token htrivia hspells hlater ih =>
    simp only [String.ofList_append, String.utf8ByteSize_append, ← Nat.add_assoc] at hline
    rw [List.append_assoc]
    exact .token htrivia (hspells.append_newline more) (ih hending hline)

/-- A further line does not change the tokens so far. -/
theorem prefix_append_newline (h : Tiles offset text stream) (more : List Char) :
    stream.tokens <+: (scan offset (text ++ '\n' :: more)).tokens := by
  induction h with
  | ended offset htrivia => exact List.nil_prefix
  | failed offset htrivia hflaw => exact List.nil_prefix
  | @token offset trivia lexeme behind kind later htrivia hspells hlater ih =>
    have hmore := Tiles.token htrivia (hspells.append_newline more)
      (tiles_scan
        (offset + (String.ofList trivia).utf8ByteSize + (String.ofList lexeme).utf8ByteSize) _)
    rw [List.append_assoc, hmore.scan_eq]
    exact List.cons_prefix_cons.2 ⟨rfl, ih⟩

/-- Nor does it change a number that is out of range. -/
theorem append_newline (h : Tiles offset text stream) {e : ReadError}
    (hending : stream.ending = .error e) (hkind : e.kind = .invalidNumber) (more : List Char) :
    Tiles offset (text ++ '\n' :: more) stream := by
  induction h with
  | ended offset htrivia => cases hending
  | @failed offset trivia text flaw htrivia hflaw =>
    cases flaw with
    | unterminatedString =>
      cases hending
      cases hkind
    | numberOutOfRange numeral =>
      rw [List.append_assoc]
      exact .failed offset htrivia (hflaw.append_newline more)
    | unexpectedCharacter c => exact hflaw.elim
  | token htrivia hspells hlater ih =>
    rw [List.append_assoc]
    exact .token htrivia (hspells.append_newline more) (ih hending)

end Tiles

/-- A text that has tokens up to its end keeps them in front of a further line, whose tokens come
behind them at their own places. -/
theorem scan_append_newline {offset position : Nat} {text : List Char}
    (h : (scan offset text).ending = .ok position) (more : List Char) :
    scan offset (text ++ '\n' :: more) =
      ⟨(scan offset text).tokens ++
          (scan (offset + (String.ofList text).utf8ByteSize + 1) more).tokens,
        (scan (offset + (String.ofList text).utf8ByteSize + 1) more).ending⟩ :=
  ((tiles_scan offset text).append_line h (tiles_scan _ more)).scan_eq

end TokenStream

theorem toList_append_newline (text more : String) :
    (text ++ "\n" ++ more).toList = text.toList ++ '\n' :: more.toList := by
  simp

theorem tokenize_append_newline {text : String} {position : Nat}
    (h : (tokenize text).ending = .ok position) (more : String) :
    tokenize (text ++ "\n" ++ more) =
      ⟨(tokenize text).tokens ++ (TokenStream.scan (text.utf8ByteSize + 1) more.toList).tokens,
        (TokenStream.scan (text.utf8ByteSize + 1) more.toList).ending⟩ := by
  rw [tokenize, toList_append_newline, TokenStream.scan_append_newline h, Nat.zero_add,
    String.ofList_toList]
  rfl

end SmallLisp
