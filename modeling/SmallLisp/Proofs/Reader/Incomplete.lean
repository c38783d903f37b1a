import Mathlib
import SmallLisp.Proofs.Reader.Grammar
import SmallLisp.Proofs.Token.Newline

/-!
Texts that break off. The reader calls a text incomplete exactly if a further line can complete it.
What completes it can be read off the pending expressions, from the innermost outwards: an operand
where one is missing, and a closing bracket for every open collection.
-/

namespace SmallLisp

namespace Reader

/-- The pieces of which a completion is made. -/
inductive Filler where
  | operand
  | closing (delimiter : Delimiter)

namespace Filler

def text : Filler → List Char
  | operand => [' ', 'x']
  | closing delimiter => [delimiter.closing]

def kind : Filler → Token.Kind
  | operand => .symbol "x"
  | closing delimiter => .closing delimiter

theorem yields (filler : Filler) : TokenStream.Yields filler.text [filler.kind] := by
  cases filler with
  | operand =>
    have hname : Symbol.IsReadable ⟨"x"⟩ := by decide
    exact (TokenStream.Yields.symbol hname).cons_space
  | closing delimiter => exact .closing delimiter

/-- No run of characters goes on into a piece. -/
theorem isBoundary_text_append (filler : Filler) (rest : List Char) :
    Lexeme.IsBoundary (filler.text ++ rest) := by
  cases filler with
  | operand => exact Lexeme.isBoundary_cons rfl _
  | closing delimiter =>
    have hends : Lexeme.endsRun delimiter.closing := by
      cases delimiter <;> rfl
    exact Lexeme.isBoundary_cons hends rest

theorem yields_flatMap (fillers : List Filler) :
    TokenStream.Yields (fillers.flatMap text) (fillers.map kind) := by
  induction fillers with
  | nil => exact .nil
  | cons filler fillers ih =>
    rw [List.flatMap_cons]
    refine filler.yields.append ih fun rest hrest => ?_
    cases fillers with
    | nil => exact hrest
    | cons other fillers =>
      rw [List.flatMap_cons, List.append_assoc]
      exact other.isBoundary_text_append _

end Filler

/-- From a completable state some pieces lead to a complete expression. -/
def Completable (state : State) : Prop :=
  ∃ fillers : List Filler, ∀ tokens : List Token,
    tokens.map Token.kind = fillers.map Filler.kind →
      ∃ value, tokens.foldlM next state = .ok (.complete value)

theorem completable_complete (value : Value) : Completable (.complete value) := by
  refine ⟨[], fun tokens htokens => ?_⟩
  obtain rfl := List.map_eq_nil_iff.1 htokens
  exact ⟨value, rfl⟩

theorem Completable.of_next {state state' : State} (h : Completable state') (filler : Filler)
    (hnext : ∀ token : Token, token.kind = filler.kind → next state token = .ok state') :
    Completable state := by
  obtain ⟨fillers, hfillers⟩ := h
  refine ⟨filler :: fillers, fun tokens htokens => ?_⟩
  obtain ⟨token, rest, rfl, hkind, hrest⟩ := List.map_eq_cons_iff.1 htokens
  rw [foldlM_cons_of_ok (hnext token hkind)]
  exact hfillers rest hrest

theorem next_operand {token : Token} {pending : List Pending}
    (hkind : token.kind = Filler.operand.kind) (hdepth : pending.length < maxDepth) :
    next (.inside pending) token = .ok (supply (.symbol ⟨"x"⟩) pending) := by
  have hsymbol : token.kind = .symbol "x" := hkind
  rw [next_of_not_closing (by simp [hsymbol])]
  simp [begin, hdepth, hsymbol]

/-- An expression that stands where the reader accepts one leaves a completable state. What is
pending around it stands less deep, so no completion is refused for its depth. -/
theorem completable_supply {pending : List Pending} {kinds : List Token.Kind}
    (h : Spelled pending kinds) (hdepth : pending.length < maxDepth) (value : Value) :
    Completable (supply value pending) := by
  induction h generalizing value with
  | nil => exact completable_complete value
  | collection delimiter items houter houterDepth hfits ih =>
    have hclosed := ih houterDepth
      (collect (value :: (Form.valuesOfAll items).reverse).reverse delimiter)
    rw [supply_collection]
    exact hclosed.of_next (.closing delimiter) fun token hkind => next_closing _ _ hkind
  | shorthand shorthand houter houterDepth ih =>
    rcases Shorthand.eq_withMeta_or_mark shorthand with rfl | ⟨mark, rfl⟩
    · have hsecond := ih houterDepth
        (.list [.symbol ⟨Shorthand.withMeta.head⟩, .symbol ⟨"x"⟩, value])
      rw [supply_withMeta]
      exact hsecond.of_next .operand fun token hkind => next_operand hkind hdepth
    · rw [supply_marked]
      exact ih houterDepth _
  | withMeta first houter houterDepth hfits ih =>
    rw [supply_withMeta_second]
    exact ih houterDepth _

/-- Where an expression may begin, one can be put. -/
theorem completable_of_lt {pending : List Pending} {kinds : List Token.Kind}
    (h : Spelled pending kinds) (hdepth : pending.length < maxDepth) :
    Completable (.inside pending) :=
  (completable_supply h hdepth (.symbol ⟨"x"⟩)).of_next .operand
    fun _ hkind => next_operand hkind hdepth

/-- An open collection can be closed, even where nothing more may begin. -/
theorem completable_of_collection {delimiter : Delimiter} {items : List Value}
    {outer : List Pending} {kinds : List Token.Kind}
    (h : Spelled (.collection delimiter items :: outer) kinds) :
    Completable (.inside (.collection delimiter items :: outer)) := by
  cases h with
  | collection delimiter items houter houterDepth hfits =>
    have hclosed := completable_supply houter houterDepth
      (collect (Form.valuesOfAll items).reverse.reverse delimiter)
    exact hclosed.of_next (.closing delimiter) fun token hkind => next_closing _ _ hkind

/-- What is incomplete can be completed. -/
theorem completable_of_finish {position : Nat} {state : State} {kinds : List Token.Kind}
    (hstate : state.Spelled kinds) {e : ReadError} (h : finish position state = .error e)
    (hkind : e.kind = .incomplete) : Completable state := by
  rcases state with (_ | ⟨⟨delimiter, items⟩ | ⟨shorthand, operands⟩, outer⟩) | value
  · exact completable_of_lt hstate (by simp [maxDepth])
  · exact completable_of_collection hstate
  · by_cases hdepth : (Pending.shorthand shorthand operands :: outer).length < maxDepth
    · exact completable_of_lt hstate hdepth
    · simp only [finish, if_neg hdepth] at h
      cases h
      cases hkind
  · exact completable_complete value

/-- Why a state refuses a token, by the kind of the error. -/
inductive Refusal : State → ReadError.Kind → Prop
  | tooDeep {pending : List Pending} (hdepth : ¬ pending.length < maxDepth) :
      Refusal (.inside pending) .tooDeeplyNested
  | trailing (value : Value) : Refusal (.complete value) .trailingContent
  /-- A closing bracket where an expression is awaited. -/
  | noOperand {pending : List Pending} (hdepth : pending.length < maxDepth) :
      Refusal (.inside pending) .invalidSyntax
  /-- A closing bracket of another kind than the one that is open. -/
  | unbalanced (delimiter : Delimiter) (items : List Value) (outer : List Pending) :
      Refusal (.inside (.collection delimiter items :: outer)) .invalidSyntax

theorem refusal_of_begin {pending : List Pending} {token : Token} {e : ReadError}
    (h : begin pending token = .error e) :
    e.position = token.position ∧ Refusal (.inside pending) e.kind := by
  rw [begin] at h
  split at h
  · next hdepth =>
    split at h <;> cases h
    exact ⟨rfl, .noOperand hdepth⟩
  · next hdepth =>
    cases h
    exact ⟨rfl, .tooDeep hdepth⟩

/-- A token is refused where it stands, and the state does not allow for it. -/
theorem refusal_of_next {state : State} {token : Token} {e : ReadError}
    (h : next state token = .error e) : e.position = token.position ∧ Refusal state e.kind := by
  cases state with
  | complete value =>
    cases h
    exact ⟨rfl, .trailing value⟩
  | inside pending =>
    rcases pending with _ | ⟨⟨delimiter, items⟩ | ⟨shorthand, operands⟩, outer⟩
    · exact refusal_of_begin h
    · by_cases hclosing : ∃ closing, token.kind = .closing closing
      · obtain ⟨closing, hkind⟩ := hclosing
        simp only [next, hkind] at h
        split at h <;> cases h
        exact ⟨rfl, .unbalanced delimiter items outer⟩
      · rw [next_of_not_closing (not_exists.1 hclosing)] at h
        exact refusal_of_begin h
    · exact refusal_of_begin h

/-- A run over tokens fails at the first one that is refused. -/
theorem exists_next_of_foldlM {state : State} {tokens : List Token} {e : ReadError}
    (h : tokens.foldlM next state = .error e) : ∃ before token later middle,
      tokens = before ++ token :: later ∧ before.foldlM next state = .ok middle ∧
        next middle token = .error e := by
  induction tokens generalizing state with
  | nil => cases h
  | cons token tokens ih =>
    cases hnext : next state token with
    | error found =>
      rw [foldlM_cons_of_error hnext] at h
      cases h
      exact ⟨[], token, tokens, state, rfl, rfl, hnext⟩
    | ok middle =>
      rw [foldlM_cons_of_ok hnext] at h
      obtain ⟨before, refused, later, last, rfl, hbefore, hrefused⟩ := ih h
      refine ⟨token :: before, refused, later, last, rfl, ?_, hrefused⟩
      rw [foldlM_cons_of_ok hnext, hbefore]

/-- A token that cannot stand where it stands is no matter of missing text. -/
theorem kind_ne_incomplete_of_foldlM {state : State} {tokens : List Token} {e : ReadError}
    (h : tokens.foldlM next state = .error e) : e.kind ≠ .incomplete := by
  obtain ⟨before, token, later, middle, -, -, hrefused⟩ := exists_next_of_foldlM h
  obtain ⟨-, hrefusal⟩ := refusal_of_next hrefused
  intro hkind
  rw [hkind] at hrefusal
  cases hrefusal

/-- Where the end of the text is no matter of missing text, no text helps: the last expression is a
mark that stands so deep that nothing may begin behind it. -/
theorem foldlM_ne_complete_of_finish {position : Nat} {state : State} {e : ReadError}
    (h : finish position state = .error e) (hkind : e.kind ≠ .incomplete) (tokens : List Token)
    (value : Value) : tokens.foldlM next state ≠ .ok (.complete value) := by
  have hdeep : ∃ pending, state = .inside pending ∧ ¬ pending.length < maxDepth ∧
      ∀ token, next state token = begin pending token := by
    rcases state with (_ | ⟨⟨delimiter, items⟩ | ⟨shorthand, operands⟩, outer⟩) | found
    · cases h
      exact absurd rfl hkind
    · cases h
      exact absurd rfl hkind
    · refine ⟨_, rfl, fun hdepth => ?_, fun token => rfl⟩
      simp only [finish, if_pos hdepth] at h
      cases h
      exact hkind rfl
    · cases h
  obtain ⟨pending, rfl, hdepth, hnext⟩ := hdeep
  cases tokens with
  | nil =>
    intro hcomplete
    cases hcomplete
  | cons token tokens =>
    have herror : next (.inside pending) token = .error (tooDeep token.position) := by
      rw [hnext, begin, if_neg hdepth]
    rw [foldlM_cons_of_error herror]
    intro hcomplete
    cases hcomplete

end Reader

theorem read_eq_finish {text : String} {position : Nat}
    (hending : (tokenize text).ending = .ok position) {state : Reader.State}
    (htokens : (tokenize text).tokens.foldlM Reader.next Reader.start = .ok state) :
    read text = Reader.finish position state := by
  simp only [read, htokens, hending]
  rfl

theorem read_of_foldlM_error {text : String} {e : ReadError}
    (htokens : (tokenize text).tokens.foldlM Reader.next Reader.start = .error e) :
    read text = .error e := by
  simp only [read, htokens]
  rfl

/-- What a further line makes of a text whose tokens the reader has taken. -/
theorem read_append_newline_eq_ok_iff {text : String} {position : Nat}
    (hending : (tokenize text).ending = .ok position) {state : Reader.State}
    (htokens : (tokenize text).tokens.foldlM Reader.next Reader.start = .ok state) (more : String)
    (value : Value) :
    let line := TokenStream.scan (text.utf8ByteSize + 1) more.toList
    read (text ++ "\n" ++ more) = .ok value ↔
      (∃ position, line.ending = .ok position) ∧
        line.tokens.foldlM Reader.next state = .ok (.complete value) := by
  intro line
  rw [read_eq_ok_iff_complete, tokenize_append_newline hending,
    Reader.foldlM_append_of_ok htokens]

theorem exists_read_append_newline {text : String} {position : Nat}
    (hending : (tokenize text).ending = .ok position) {state : Reader.State}
    (htokens : (tokenize text).tokens.foldlM Reader.next Reader.start = .ok state)
    (hstate : Reader.Completable state) :
    ∃ (more : String) (value : Value), read (text ++ "\n" ++ more) = .ok value := by
  obtain ⟨fillers, hfillers⟩ := hstate
  let more := String.ofList (fillers.flatMap Reader.Filler.text)
  have hline := Reader.Filler.yields_flatMap fillers (text.utf8ByteSize + 1) []
    Lexeme.isBoundary_nil
  rw [List.append_nil, TokenStream.scan_nil] at hline
  obtain ⟨hkinds, hend⟩ := hline
  obtain ⟨value, hvalue⟩ := hfillers _ (hkinds.trans (List.append_nil _))
  refine ⟨more, value, ?_⟩
  apply (read_append_newline_eq_ok_iff hending htokens more value).2
  rw [String.toList_ofList]
  exact ⟨⟨_, hend⟩, hvalue⟩

/-- A text with tokens up to its end is called incomplete exactly if it cannot be read and some
further text behind a newline makes it readable. So whatever is open when a text breaks off can be
completed, and every other failure is final for every continuation. -/
theorem incomplete_iff_completable {text : String}
    (h : ∃ position, (tokenize text).ending = .ok position) :
    (∃ e, read text = .error e ∧ e.kind = .incomplete) ↔
      (∃ e, read text = .error e) ∧
        ∃ (more : String) (value : Value), read (text ++ "\n" ++ more) = .ok value := by
  obtain ⟨position, hending⟩ := h
  cases htokens : (tokenize text).tokens.foldlM Reader.next Reader.start with
  | error e =>
    -- Some token of the text cannot stand where it stands, whatever follows.
    constructor
    · rintro ⟨found, hread, hkind⟩
      rw [read_of_foldlM_error htokens] at hread
      cases hread
      exact absurd hkind (Reader.kind_ne_incomplete_of_foldlM htokens)
    · rintro ⟨-, more, value, hmore⟩
      have hmore' := (read_eq_ok_iff_complete.1 hmore).2
      rw [tokenize_append_newline hending, Reader.foldlM_append_of_error htokens] at hmore'
      cases hmore'
  | ok state =>
    have hread := read_eq_finish hending htokens
    constructor
    · rintro ⟨e, herror, hkind⟩
      have hstart : Reader.start.Spelled [] := Reader.Spelled.nil
      have hstate := Reader.spelled_foldlM hstart htokens
      have hcompletable := Reader.completable_of_finish hstate (hread.symm.trans herror) hkind
      exact ⟨⟨e, herror⟩, exists_read_append_newline hending htokens hcompletable⟩
    · rintro ⟨⟨e, herror⟩, more, value, hmore⟩
      refine ⟨e, herror, ?_⟩
      by_contra hkind
      have hcomplete := (read_append_newline_eq_ok_iff hending htokens more value).1 hmore
      exact Reader.foldlM_ne_complete_of_finish (hread.symm.trans herror) hkind _ value
        hcomplete.2

/-- A vector that is open inside two marks can be completed. Where a bracket closes what another
kind of bracket has opened, no further line helps. -/
theorem incomplete_iff_completable_brackets :
    let openText := "(^ [1 '"
    let wrongText := "(^ [1 ')"
    (∃ position, (tokenize openText).ending = .ok position) ∧
      (∃ (more : String) (value : Value), read (openText ++ "\n" ++ more) = .ok value) ∧
      (∃ position, (tokenize wrongText).ending = .ok position) ∧
        ¬ ∃ (more : String) (value : Value), read (wrongText ++ "\n" ++ more) = .ok value := by
  intro openText wrongText
  have hopen : (tokenize openText).ending = .ok 7 := by cbv
  have hincomplete : read openText = .error ⟨.incomplete, "unexpected end of input", 7⟩ := by cbv
  have hwrong : (tokenize wrongText).ending = .ok 8 := by cbv
  have hinvalid : read wrongText = .error ⟨.invalidSyntax, "unexpected token ')'", 7⟩ := by cbv
  have hmore := ((incomplete_iff_completable ⟨7, hopen⟩).1 ⟨_, hincomplete, rfl⟩).2
  refine ⟨⟨7, hopen⟩, hmore, ⟨8, hwrong⟩, fun hmore => ?_⟩
  obtain ⟨e, hread, hkind⟩ := (incomplete_iff_completable ⟨8, hwrong⟩).2 ⟨⟨_, hinvalid⟩, hmore⟩
  rw [hinvalid] at hread
  cases hread
  cases hkind

end SmallLisp
