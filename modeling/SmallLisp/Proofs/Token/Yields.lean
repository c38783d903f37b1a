import SmallLisp.Proofs.Token.Runs

/-!
The tokens of a text that is put together from parts. The tokens of a part do not depend on what
comes behind it, as long as no run of characters goes on there.
-/

namespace SmallLisp

theorem Trivia.next?_of_split {inComment : Bool} {text trivia rest : List Char} {c : Char}
    (h : split inComment text = (trivia, c :: rest)) : next? false c = none := by
  fun_induction split inComment text generalizing trivia with
  | case1 => cases h
  | case2 inComment d rest hnone =>
    cases h
    cases inComment with
    | false => exact hnone
    | true => simp [next?] at hnone
  | case3 inComment d rest inComment' hsome between later hsplit ih =>
    cases h
    exact ih hsplit

namespace TokenStream

def kinds (stream : TokenStream) : List Token.Kind :=
  stream.tokens.map Token.kind

theorem scan_eq (offset : Nat) (text : List Char) :
    scan offset text =
      match Trivia.split false text with
      | (trivia, []) => ⟨[], .ok (offset + (String.ofList trivia).utf8ByteSize)⟩
      | (trivia, c :: rest) =>
        let position := offset + (String.ofList trivia).utf8ByteSize
        match Lexeme.first c rest with
        | .error flaw => ⟨[], .error (.ofFlaw position flaw)⟩
        | .ok lexeme =>
          let later := scan (position + (String.ofList lexeme.spelling).utf8ByteSize) lexeme.rest
          ⟨⟨lexeme.kind, position⟩ :: later.tokens, later.ending⟩ := by
  rw [scan]
  split
  · next hsplit => rw [hsplit]
  · next hsplit =>
    rw [hsplit]
    split
    · next hfirst => simp only [hfirst]
    · next hfirst => simp only [hfirst]

theorem scan_nil (offset : Nat) : scan offset [] = ⟨[], .ok offset⟩ := by
  rw [scan_eq]
  simp [Trivia.split]

theorem scan_separator (offset : Nat) {c : Char} (rest : List Char)
    (h : Trivia.next? false c = some false) :
    scan offset (c :: rest) = scan (offset + c.utf8Size) rest := by
  have hsplit : Trivia.split false (c :: rest) =
      (c :: (Trivia.split false rest).1, (Trivia.split false rest).2) := by
    simp [Trivia.split, h]
  rw [scan_eq, scan_eq _ rest, hsplit]
  obtain ⟨trivia, _ | ⟨first, later⟩⟩ := Trivia.split false rest
  · simp [Nat.add_assoc]
  · simp [Nat.add_assoc]

theorem scan_of_first (offset : Nat) {c : Char} {rest : List Char} {lexeme : Lexeme}
    (hseparator : Trivia.next? false c = none) (hfirst : Lexeme.first c rest = .ok lexeme) :
    (scan offset (c :: rest)).kinds =
        lexeme.kind ::
          (scan (offset + (String.ofList lexeme.spelling).utf8ByteSize) lexeme.rest).kinds ∧
      (scan offset (c :: rest)).ending =
        (scan (offset + (String.ofList lexeme.spelling).utf8ByteSize) lexeme.rest).ending := by
  have hsplit : Trivia.split false (c :: rest) = ([], c :: rest) := by
    simp [Trivia.split, hseparator]
  rw [scan_eq, hsplit]
  simp [hfirst, kinds]

/-- In front of any text into which no run goes on, a text has the given tokens, and then come those
of that other text. -/
def Yields (text : List Char) (kinds : List Token.Kind) : Prop :=
  ∀ (offset : Nat) (rest : List Char), Lexeme.IsBoundary rest →
    (scan offset (text ++ rest)).kinds =
        kinds ++ (scan (offset + (String.ofList text).utf8ByteSize) rest).kinds ∧
      (scan offset (text ++ rest)).ending =
        (scan (offset + (String.ofList text).utf8ByteSize) rest).ending

namespace Yields

theorem nil : Yields [] [] := by
  intro offset rest hrest
  exact ⟨rfl, rfl⟩

theorem append {first second : List Char} {kinds kinds' : List Token.Kind}
    (hfirst : Yields first kinds) (hsecond : Yields second kinds')
    (hboundary : ∀ rest, Lexeme.IsBoundary rest → Lexeme.IsBoundary (second ++ rest)) :
    Yields (first ++ second) (kinds ++ kinds') := by
  intro offset rest hrest
  obtain ⟨htokens, hending⟩ := hfirst offset (second ++ rest) (hboundary rest hrest)
  obtain ⟨htokens', hending'⟩ := hsecond (offset + (String.ofList first).utf8ByteSize) rest hrest
  rw [List.append_assoc, String.ofList_append, String.utf8ByteSize_append, ← Nat.add_assoc,
    htokens, htokens', hending, hending', List.append_assoc]
  exact ⟨rfl, rfl⟩

theorem cons_space {text : List Char} {kinds : List Token.Kind} (h : Yields text kinds) :
    Yields (' ' :: text) kinds := by
  intro offset rest hrest
  have hspace : scan offset (' ' :: (text ++ rest)) = scan (offset + 1) (text ++ rest) :=
    scan_separator offset (text ++ rest) rfl
  obtain ⟨htokens, hending⟩ := h (offset + 1) rest hrest
  rw [List.cons_append, hspace, String.ofList_cons, String.utf8ByteSize_append, ← Nat.add_assoc]
  exact ⟨htokens, hending⟩

theorem of_first {c : Char} {text : List Char} {kind : Token.Kind}
    (hseparator : Trivia.next? false c = none)
    (hfirst : ∀ rest, Lexeme.IsBoundary rest →
      Lexeme.first c (text ++ rest) = .ok ⟨kind, c :: text, rest⟩) :
    Yields (c :: text) [kind] := by
  intro offset rest hrest
  exact scan_of_first offset hseparator (hfirst rest hrest)

theorem run {run : List Char} {kind : Token.Kind} (hrun : Lexeme.IsRun run)
    (hkind : ∀ rest, Lexeme.ofRun run rest = .ok ⟨kind, run, rest⟩) : Yields run [kind] := by
  cases run with
  | nil => exact absurd rfl hrun.nonempty
  | cons c run =>
    obtain ⟨hseparator, -⟩ := (Lexeme.startsRun_iff run).1 hrun.startsRun
    apply of_first hseparator
    intro rest hrest
    rw [Lexeme.first_of_isRun hrun hrest, hkind]

theorem number (n : Int64) : Yields n.toInt.repr.toList [.number n] :=
  run (Lexeme.isRun_of_isNumeral (Number.isNumeral_repr n.toInt)) (Lexeme.ofRun_number n)

theorem symbol {symbol : Symbol} (h : symbol.IsReadable) :
    Yields symbol.name.toList [.symbol symbol.name] := by
  apply run h.isRun
  intro rest
  rw [Lexeme.ofRun_symbol h.notNumeral, String.ofList_toList]

theorem string (text : String) : Yields (StringLiteral.write text).toList [.string text] := by
  have hwrite : (StringLiteral.write text).toList =
      '"' :: (StringLiteral.encode text.toList ++ ['"']) := by
    simp [StringLiteral.write]
  rw [hwrite]
  apply of_first rfl
  intro rest hrest
  have hclose : StringLiteral.splitAtClose? (StringLiteral.encode text.toList ++ ['"'] ++ rest) =
      some (StringLiteral.encode text.toList, rest) := by
    simp [StringLiteral.splitAtClose?_encode]
  rw [Lexeme.first_quote, Lexeme.ofString, hclose]
  simp [StringLiteral.decode_encode]

theorem closing (delimiter : Delimiter) : Yields [delimiter.closing] [.closing delimiter] := by
  cases delimiter
  all_goals exact of_first rfl fun rest hrest => rfl

/-- An opening bracket is a token on its own, whatever follows it. -/
theorem cons_opening {text : List Char} {kinds : List Token.Kind} (h : Yields text kinds)
    (delimiter : Delimiter) : Yields (delimiter.opening :: text) (.opening delimiter :: kinds) := by
  intro offset rest hrest
  have hseparator : Trivia.next? false delimiter.opening = none := by
    cases delimiter <;> rfl
  have hfirst : Lexeme.first delimiter.opening (text ++ rest) =
      .ok ⟨.opening delimiter, [delimiter.opening], text ++ rest⟩ := by
    cases delimiter <;> rfl
  obtain ⟨hkinds, hending⟩ := scan_of_first offset hseparator hfirst
  obtain ⟨hkinds', hending'⟩ :=
    h (offset + (String.ofList [delimiter.opening]).utf8ByteSize) rest hrest
  have hsize : offset + (String.ofList (delimiter.opening :: text)).utf8ByteSize =
      offset + (String.ofList [delimiter.opening]).utf8ByteSize +
        (String.ofList text).utf8ByteSize := by
    simp [String.ofList_cons, Nat.add_assoc]
  rw [List.cons_append, hkinds, hending, hsize]
  exact ⟨congrArg (List.cons _) hkinds', hending'⟩

theorem bracketed {text : List Char} {kinds : List Token.Kind} (h : Yields text kinds)
    (delimiter : Delimiter) :
    Yields (delimiter.opening :: (text ++ [delimiter.closing]))
      (.opening delimiter :: (kinds ++ [.closing delimiter])) := by
  have hends : Lexeme.endsRun delimiter.closing := by
    cases delimiter <;> rfl
  -- The closing bracket is the boundary that the inner text asks for.
  have hinner := h.append (closing delimiter) fun rest hrest => Lexeme.isBoundary_cons hends _
  exact hinner.cons_opening delimiter

/-- Texts with blanks between them have the tokens of the first, those of the second and so on. -/
theorem intercalate {α : Type} {write : α → String} {kinds : α → List Token.Kind} {items : List α}
    (h : ∀ item ∈ items, Yields (write item).toList (kinds item)) :
    Yields (" ".intercalate (items.map write)).toList (items.flatMap kinds) := by
  induction items with
  | nil => exact nil
  | cons item items ih =>
    have hitem := h item List.mem_cons_self
    have hitems := ih fun other hmem => h other (List.mem_cons_of_mem _ hmem)
    cases items with
    | nil => simpa using hitem
    | cons other items =>
      have hboth := hitem.append hitems.cons_space
        fun rest hrest => Lexeme.isBoundary_cons rfl _
      simpa [String.intercalate_cons_cons] using hboth

end Yields

end TokenStream

end SmallLisp
