import SmallLisp.Proofs.Reader.Refusals

/-!
Reading by descent. A reader that asks for one token after the other, and reads the parts of an
expression by calling itself, gives what the reader over all tokens gives. It stops at the first
error on either side and asks for nothing behind the end of the text or behind a place where no
token can be recognized, although it is prepared to be given nothing.
-/

namespace SmallLisp

open TokenStream (Item)

/-- What a reader saw last. -/
inductive Sight where
  | token (token : Token)
  | ended (position : Nat)

def Sight.position : Sight → Nat
  | .token found => found.position
  | .ended position => position

/-- A reader in the course of its descent: the text that it asks for tokens, what it saw last, and
the answers to all its requests. -/
structure Descent where
  tokenizer : Tokenizer
  sight : Sight
  answers : List (Option Item)

/-- Reading that may fail with an error, or may come to nothing where a limit is exceeded. The
requests made before an error have been made. -/
abbrev Descending := ExceptT ReadError (StateT Descent Option)

namespace Descent

/-- Asks for the next token. If there is no answer, an end is made up where the reader stands. -/
def advance : Descending Sight := fun descent =>
  let (answer, tokenizer) := descent.tokenizer.next
  let seeing sight := Descent.mk tokenizer sight (descent.answers ++ [answer])
  match answer with
  | some (.token token) => some (.ok (.token token), seeing (.token token))
  | some (.ending (.ok position)) => some (.ok (.ended position), seeing (.ended position))
  | some (.ending (.error e)) => some (.error e, seeing descent.sight)
  | none =>
    let position := descent.sight.position
    some (.ok (.ended position), seeing (.ended position))

/-- Reads the items of a collection up to its closing bracket. There may be as many of them as the
limit says. -/
def readItems (readItem : Descending Value) (delimiter : Delimiter) :
    (limit : Nat) → List Value → Descending (List Value)
  | 0, _ => fun _ => none
  | limit + 1, items => do
    match ← advance with
    | .ended position =>
      throw ⟨.incomplete, s!"expected '{delimiter.closing}', got end of input", position⟩
    | .token token =>
      match token.kind with
      | .closing closing =>
        if closing = delimiter then
          return items.reverse
        else
          throw ⟨.invalidSyntax,
            s!"unbalanced '{delimiter.opening}': expected '{delimiter.closing}', " ++
              s!"got {token.description}", token.position⟩
      | _ => do
        let item ← readItem
        readItems readItem delimiter limit (item :: items)

/-- Reads a number of operands behind those that have been read. -/
def readOperands (readOperand : Descending Value) : Nat → List Value → Descending (List Value)
  | 0, operands => return operands.reverse
  | count + 1, operands => do
    let _ ← advance
    let operand ← readOperand
    readOperands readOperand count (operand :: operands)

/-- Reads the expression that begins with the token in sight. There is room for so many expressions
inside one another. -/
def readForm : (room : Nat) → Descending Value
  | 0 => do throw (Reader.tooDeep (← get).sight.position)
  | room + 1 => do
    let descent ← get
    match descent.sight with
    | .ended position => throw ⟨.incomplete, "unexpected end of input", position⟩
    | .token token =>
      match token.kind with
      | .number n => return .number n
      | .string text => return .string text
      | .symbol name => return .symbol ⟨name⟩
      | .shorthand shorthand => do
        let operands ← readOperands (readForm room) shorthand.operandCount []
        return Reader.expand operands shorthand
      | .opening delimiter => do
        -- An item takes one character at least, so there are no more items than characters.
        let limit := descent.tokenizer.rest.length + 1
        return Reader.collect (← readItems (readForm room) delimiter limit []) delimiter
      | .closing _ =>
        throw ⟨.invalidSyntax, s!"unexpected token {token.description}", token.position⟩

def readText : Descending Value := do
  let _ ← advance
  let value ← readForm Reader.maxDepth
  match ← advance with
  | .ended _ => return value
  | .token token =>
    throw ⟨.trailingContent, s!"expected end of input, got {token.description}", token.position⟩

/-- The reader in front of a text. An end that it made up here would stand behind the text. -/
def ofText (text : String) : Descent := ⟨.ofText text, .ended text.utf8ByteSize, []⟩

end Descent

theorem TokenStream.Tiles.length_tokens_le {offset : Nat} {text : List Char} {stream : TokenStream}
    (h : Tiles offset text stream) : stream.tokens.length ≤ text.length := by
  induction h with
  | ended offset htrivia => exact Nat.zero_le _
  | failed offset htrivia hflaw => exact Nat.zero_le _
  | token htrivia hspells hlater ih =>
    have hpositive := List.length_pos_iff.2 hspells.ne_nil
    simp only [List.length_append, List.length_cons]
    omega

theorem Shorthand.exists_operandCount_eq (shorthand : Shorthand) :
    ∃ count, shorthand.operandCount = count + 1 := by
  cases shorthand <;> exact ⟨_, rfl⟩

namespace Reader

/-- What becomes of a state over the rest of the tokens. -/
def resume (later : TokenStream) (state : State) : Except ReadError Value := do
  let state ← later.tokens.foldlM next state
  finish (← later.ending) state

theorem read_eq_resume (text : String) : read text = resume (tokenize text) start := rfl

theorem resume_cons (token : Token) (tokens : List Token) (ending : Except ReadError Nat)
    (state : State) :
    resume ⟨token :: tokens, ending⟩ state = next state token >>= resume ⟨tokens, ending⟩ := by
  simp only [resume, List.foldlM_cons, bind_assoc]
  rfl

end Reader

namespace Descent

open Reader hiding start next

/-- A reader in front of the rest of a stream, which has been given the items before. -/
structure Awaits (items : List Item) (later : TokenStream) (descent : Descent) : Prop where
  unfinished : descent.tokenizer.isFinished = false
  stream : TokenStream.scan descent.tokenizer.offset descent.tokenizer.rest = later
  answers : descent.answers ++ later.items.map some = items.map some

variable {items : List Item} {descent : Descent}

theorem awaits_ofText (text : String) :
    (ofText text).Awaits (tokenize text).items (tokenize text) :=
  ⟨rfl, rfl, rfl⟩

theorem advance_token {token : Token} {tokens : List Token} {ending : Except ReadError Nat}
    (h : descent.Awaits items ⟨token :: tokens, ending⟩) : ∃ after : Descent,
      advance descent = some (.ok (.token token), after) ∧ after.sight = .token token ∧
        after.Awaits items ⟨tokens, ending⟩ := by
  obtain ⟨later, hnext, hunfinished, hstream⟩ := Tokenizer.next_of_token h.unfinished h.stream
  refine ⟨⟨later, .token token, descent.answers ++ [some (.token token)]⟩, ?_, rfl, hunfinished,
    hstream, ?_⟩
  · rw [advance, hnext]
  · rw [← h.answers, List.append_assoc]
    rfl

theorem advance_ended {position : Nat} (h : descent.Awaits items ⟨[], .ok position⟩) :
    ∃ after : Descent, advance descent = some (.ok (.ended position), after) ∧
      after.sight = .ended position ∧ after.answers <+: items.map some := by
  have hnext := Tokenizer.next_of_ending h.unfinished h.stream
  refine ⟨⟨descent.tokenizer.next.2, .ended position,
    descent.answers ++ [some (.ending (.ok position))]⟩, ?_, rfl, ?_⟩
  · simp only [advance, hnext]
  · rw [← h.answers]
    exact List.prefix_rfl

theorem advance_error {e : ReadError} (h : descent.Awaits items ⟨[], .error e⟩) :
    ∃ after : Descent, advance descent = some (.error e, after) ∧
      after.answers <+: items.map some := by
  have hnext := Tokenizer.next_of_ending h.unfinished h.stream
  refine ⟨⟨descent.tokenizer.next.2, descent.sight,
    descent.answers ++ [some (.ending (.error e))]⟩, ?_, ?_⟩
  · simp only [advance, hnext]
  · rw [← h.answers]
    exact List.prefix_rfl

theorem Awaits.isPrefix {later : TokenStream} (h : descent.Awaits items later) :
    descent.answers <+: items.map some :=
  ⟨_, h.answers⟩

/-- There are no more tokens to come than characters. -/
theorem Awaits.length_lt {later : TokenStream} (h : descent.Awaits items later) :
    later.tokens.length < descent.tokenizer.rest.length + 1 := by
  rw [← h.stream]
  exact Nat.lt_succ_of_le (TokenStream.tiles_scan _ _).length_tokens_le

/-- A part of the descent has ended as the outcome has it that the reader over all tokens comes to.
It has failed with the error that is the outcome; or it has a result, and the reader over all tokens
comes to the outcome from the state that goes with this result, over a rest of the stream that is no
longer than the bound. All requests have been answered by the stream. -/
inductive Follows {α : Type} (items : List Item) (bound : Nat) (outcome : Except ReadError Value)
    (state : α → State) : Option (Except ReadError α × Descent) → Prop
  | ok {value : α} {descent : Descent} {later : TokenStream} (hawaits : descent.Awaits items later)
      (hbound : later.tokens.length ≤ bound) (h : outcome = resume later (state value)) :
      Follows items bound outcome state (some (.ok value, descent))
  | error {e : ReadError} {descent : Descent} (hanswers : descent.answers <+: items.map some)
      (h : outcome = .error e) : Follows items bound outcome state (some (.error e, descent))

section

variable {α β : Type} {action : Descending α} {next : α → Descending β}

theorem bind_of_ok {value : α} {after : Descent} (h : action descent = some (.ok value, after)) :
    (action >>= next) descent = next value after := by
  change Option.bind (action descent) _ = _
  rw [h]
  rfl

theorem bind_of_error {e : ReadError} {after : Descent}
    (h : action descent = some (.error e, after)) :
    (action >>= next) descent = some (.error e, after) := by
  change Option.bind (action descent) _ = _
  rw [h]
  rfl

theorem Follows.bind {bound bound' : Nat} {outcome : Except ReadError Value} {state : α → State}
    {state' : β → State} (h : Follows items bound outcome state (action descent))
    (hnext : ∀ value later after, Awaits items later after → later.tokens.length ≤ bound →
      Follows items bound' (resume later (state value)) state' (next value after)) :
    Follows items bound' outcome state' ((action >>= next) descent) := by
  generalize hrun : action descent = run at h
  cases h with
  | ok hawaits hbound hvalue =>
    rw [bind_of_ok hrun, hvalue]
    exact hnext _ _ _ hawaits hbound
  | error hanswers hfailure =>
    rw [bind_of_error hrun]
    exact .error hanswers hfailure

end

theorem Follows.mono {α : Type} {bound bound' : Nat} {outcome : Except ReadError Value}
    {state : α → State} {run : Option (Except ReadError α × Descent)}
    (h : Follows items bound outcome state run) (hle : bound ≤ bound') :
    Follows items bound' outcome state run := by
  cases h with
  | ok hawaits hbound hvalue => exact .ok hawaits (Nat.le_trans hbound hle) hvalue
  | error hanswers hfailure => exact .error hanswers hfailure

/-- One request, in step with one move of the reader over all tokens. -/
theorem Awaits.follows_advance {β : Type} {later : TokenStream} (h : descent.Awaits items later)
    {bound : Nat} {state : State} {state' : β → State} {next : Sight → Descending β}
    (hended : ∀ {position after}, after.sight = .ended position →
      after.answers <+: items.map some →
        Follows items bound (finish position state) state' (next (.ended position) after))
    (htoken : ∀ {token tokens after}, later.tokens = token :: tokens →
      after.sight = .token token → after.Awaits items ⟨tokens, later.ending⟩ →
        Follows items bound (Reader.next state token >>= resume ⟨tokens, later.ending⟩) state'
          (next (.token token) after)) :
    Follows items bound (resume later state) state' ((advance >>= next) descent) := by
  obtain ⟨tokens, ending⟩ := later
  cases tokens with
  | nil =>
    cases ending with
    | ok position =>
      obtain ⟨after, hadvance, hsight, hanswers⟩ := advance_ended h
      rw [bind_of_ok hadvance]
      exact hended hsight hanswers
    | error e =>
      obtain ⟨after, hadvance, hanswers⟩ := advance_error h
      rw [bind_of_error hadvance]
      exact .error hanswers rfl
  | cons token tokens =>
    obtain ⟨after, hadvance, hsight, hafter⟩ := advance_token h
    rw [bind_of_ok hadvance, resume_cons]
    exact htoken rfl hsight hafter

/-- What is missing where an expression should begin and the text ends. -/
def missing (position : Nat) : (room : Nat) → ReadError
  | 0 => tooDeep position
  | _ + 1 => ⟨.incomplete, "unexpected end of input", position⟩

/-- An action reads one expression from its first token on, with room for so many inside one
another. -/
structure ReadsForm (room : Nat) (action : Descending Value) : Prop where
  token : ∀ pending, pending.length + room = maxDepth → ∀ {items descent token later},
    descent.sight = .token token → descent.Awaits items later →
      Follows items later.tokens.length (begin pending token >>= resume later) (supply · pending)
        (action descent)
  ended : ∀ {descent position}, descent.sight = .ended position →
    action descent = some (.error (missing position room), descent)

section

variable {room : Nat} {action : Descending Value} {later : TokenStream}

theorem finish_of_not_collection {pending : List Pending} (hroom : pending.length + room = maxDepth)
    (hpending : ∀ delimiter values outer, pending ≠ .collection delimiter values :: outer)
    (position : Nat) : finish position (.inside pending) = .error (missing position room) := by
  have hfinish : finish position (.inside pending) =
      if pending.length < maxDepth then .error ⟨.incomplete, "unexpected end of input", position⟩
      else .error (tooDeep position) := by
    rcases pending with _ | ⟨⟨delimiter, values⟩ | ⟨shorthand, operands⟩, outer⟩
    · rfl
    · exact absurd rfl (hpending delimiter values outer)
    · rfl
  rw [hfinish]
  cases room with
  | zero => rw [if_neg (by omega)]; rfl
  | succ room => rw [if_pos (by omega)]; rfl

theorem next_of_not_collection {pending : List Pending}
    (hpending : ∀ delimiter values outer, pending ≠ .collection delimiter values :: outer)
    (token : Token) : Reader.next (.inside pending) token = begin pending token := by
  rcases pending with _ | ⟨⟨delimiter, values⟩ | ⟨shorthand, operands⟩, outer⟩
  · rfl
  · exact absurd rfl (hpending delimiter values outer)
  · rfl

/-- The next expression, where no closing bracket could come instead. -/
theorem ReadsForm.behind (h : ReadsForm room action) (pending : List Pending)
    (hroom : pending.length + room = maxDepth)
    (hpending : ∀ delimiter values outer, pending ≠ .collection delimiter values :: outer)
    (hawaits : descent.Awaits items later) :
    Follows items later.tokens.length (resume later (.inside pending)) (supply · pending)
      ((advance >>= fun _ => action) descent) := by
  refine hawaits.follows_advance (fun hsight hanswers => ?_) (fun htokens hsight hafter => ?_)
  · rw [h.ended hsight, finish_of_not_collection hroom hpending]
    exact .error hanswers rfl
  · rw [next_of_not_collection hpending, htokens]
    exact (h.token pending hroom hsight hafter).mono (Nat.le_succ _)

theorem ReadsForm.readOperands (h : ReadsForm room action) {shorthand : Shorthand}
    {outer : List Pending} (hroom : outer.length + 1 + room = maxDepth) {count : Nat}
    {operands : List Value} (hcount : operands.length + (count + 1) = shorthand.operandCount)
    (hawaits : descent.Awaits items later) :
    Follows items later.tokens.length
      (resume later (.inside (.shorthand shorthand operands :: outer)))
      (fun values => supply (expand values shorthand) outer)
      (readOperands action (count + 1) operands descent) := by
  have hsplit : ∀ operands, Descent.readOperands action (count + 1) operands =
      (advance >>= fun _ => action) >>= fun operand =>
        Descent.readOperands action count (operand :: operands) := by
    intro operands
    rw [Descent.readOperands, bind_assoc]
  induction count generalizing operands descent later with
  | zero =>
    rw [hsplit]
    have hbehind := h.behind (.shorthand shorthand operands :: outer) hroom (by simp) hawaits
    refine hbehind.bind fun operand rest after hafter hrest => ?_
    rw [supply, if_neg (by omega)]
    exact .ok hafter hrest rfl
  | succ count ih =>
    rw [hsplit]
    have hbehind := h.behind (.shorthand shorthand operands :: outer) hroom (by simp) hawaits
    refine hbehind.bind fun operand rest after hafter hrest => ?_
    rw [supply, if_pos (by omega)]
    refine (ih ?_ hafter ?_).mono hrest
    · rw [List.length_cons]
      omega
    · intro operands
      rw [Descent.readOperands, bind_assoc]

theorem ReadsForm.readItems (h : ReadsForm room action) (delimiter : Delimiter)
    (values : List Value) {outer : List Pending} (hroom : outer.length + 1 + room = maxDepth)
    {limit : Nat} (hawaits : descent.Awaits items later)
    (hlimit : later.tokens.length < limit) :
    Follows items later.tokens.length
      (resume later (.inside (.collection delimiter values :: outer)))
      (fun values => supply (collect values delimiter) outer)
      (readItems action delimiter limit values descent) := by
  induction limit generalizing later values descent with
  | zero => exact absurd hlimit (Nat.not_lt_zero _)
  | succ limit ih =>
    rw [Descent.readItems]
    refine hawaits.follows_advance (fun _ hanswers => .error hanswers rfl)
      (fun {token tokens after} htokens hsight hafter => ?_)
    rw [htokens, List.length_cons] at hlimit ⊢
    by_cases hclosing : ∃ closing, token.kind = .closing closing
    · obtain ⟨closing, hkind⟩ := hclosing
      simp only [hkind, Reader.next]
      by_cases hsame : closing = delimiter
      · rw [if_pos hsame, if_pos hsame]
        exact .ok hafter (Nat.le_succ _) rfl
      · rw [if_neg hsame, if_neg hsame]
        exact .error hafter.isPrefix rfl
    · have hkind := not_exists.1 hclosing
      have hpart := h.token (.collection delimiter values :: outer) hroom hsight hafter
      have hitem : Follows items (tokens.length + 1)
          (begin (.collection delimiter values :: outer) token >>= resume ⟨tokens, later.ending⟩)
          (fun values => supply (collect values delimiter) outer)
          ((action >>= fun item => Descent.readItems action delimiter limit (item :: values))
            after) := by
        refine hpart.bind fun item rest after hafter hrest => ?_
        have hfewer : rest.tokens.length < limit :=
          Nat.lt_of_le_of_lt hrest (Nat.succ_lt_succ_iff.1 hlimit)
        exact (ih (item :: values) hafter hfewer).mono (Nat.le_succ_of_le hrest)
      rw [next_of_not_closing hkind]
      obtain ⟨kind, position⟩ := token
      cases kind with
      | closing closing => exact absurd rfl (hkind closing)
      | _ => exact hitem

theorem get_apply (descent : Descent) :
    (get : Descending Descent) descent = some (.ok descent, descent) := rfl

theorem readForm_of_ended {position : Nat} (hsight : descent.sight = .ended position) (room : Nat) :
    readForm room descent = some (.error (missing position room), descent) := by
  cases room with
  | zero =>
    rw [readForm, bind_of_ok (get_apply descent), hsight]
    rfl
  | succ room =>
    rw [readForm, bind_of_ok (get_apply descent), hsight]
    rfl

theorem readForm_zero {token : Token} (hsight : descent.sight = .token token) :
    readForm 0 descent = some (.error (tooDeep token.position), descent) := by
  rw [readForm, bind_of_ok (get_apply descent), hsight]
  rfl

end

/-- The descent reads forms, however much room there is. -/
theorem readsForm_readForm (room : Nat) : ReadsForm room (readForm room) := by
  induction room with
  | zero =>
    refine ⟨fun pending hroom {items descent token later} hsight hawaits => ?_,
      fun hsight => readForm_of_ended hsight 0⟩
    rw [readForm_zero hsight, begin, if_neg (by omega)]
    exact .error hawaits.isPrefix rfl
  | succ room ih =>
    refine ⟨fun pending hroom {items descent token later} hsight hawaits => ?_,
      fun hsight => readForm_of_ended hsight (room + 1)⟩
    have hinner : pending.length + 1 + room = maxDepth := by omega
    rw [readForm, bind_of_ok (get_apply descent), hsight, begin, if_pos (by omega)]
    obtain ⟨kind, position⟩ := token
    cases kind with
    | number n => exact .ok hawaits (Nat.le_refl _) rfl
    | string text => exact .ok hawaits (Nat.le_refl _) rfl
    | symbol name => exact .ok hawaits (Nat.le_refl _) rfl
    | shorthand shorthand =>
      obtain ⟨count, hcount⟩ := shorthand.exists_operandCount_eq
      have hlength : ([] : List Value).length + (count + 1) = shorthand.operandCount := by
        rw [hcount]
        exact Nat.zero_add _
      have hoperands := ih.readOperands hinner hlength hawaits
      rw [← hcount] at hoperands
      refine Follows.bind hoperands fun values rest after hafter hrest => ?_
      exact .ok hafter hrest rfl
    | opening delimiter =>
      have hitems := ih.readItems delimiter [] hinner hawaits hawaits.length_lt
      refine Follows.bind hitems fun values rest after hafter hrest => ?_
      exact .ok hafter hrest rfl
    | closing delimiter => exact .error hawaits.isPrefix rfl

/-- Behind a complete expression only the end may come. -/
theorem advance_behind (value : Value) {later : TokenStream}
    (hawaits : descent.Awaits items later) : ∃ last : Descent,
      (advance >>= fun sight =>
        match sight with
        | .ended _ => pure value
        | .token token =>
          throw ⟨.trailingContent, s!"expected end of input, got {token.description}",
            token.position⟩ : Descending Value) descent =
          some (resume later (.complete value), last) ∧
        last.answers <+: items.map some := by
  obtain ⟨tokens, ending⟩ := later
  cases tokens with
  | nil =>
    cases ending with
    | ok position =>
      obtain ⟨after, hadvance, -, hanswers⟩ := advance_ended hawaits
      rw [bind_of_ok hadvance]
      exact ⟨after, rfl, hanswers⟩
    | error e =>
      obtain ⟨after, hadvance, hanswers⟩ := advance_error hawaits
      rw [bind_of_error hadvance]
      exact ⟨after, rfl, hanswers⟩
  | cons token tokens =>
    obtain ⟨after, hadvance, -, hafter⟩ := advance_token hawaits
    rw [bind_of_ok hadvance]
    exact ⟨after, rfl, hafter.isPrefix⟩

/-- The descent through a text ends as the text is read, and all that it asks for is there. -/
theorem readText_ofText (text : String) : ∃ last : Descent,
    readText (ofText text) = some (read text, last) ∧
      last.answers <+: (tokenize text).items.map some := by
  have hform := (readsForm_readForm maxDepth).behind [] (Nat.zero_add _) (by simp)
    (awaits_ofText text)
  rw [readText, ← bind_assoc]
  generalize hrun : (advance >>= fun _ => readForm maxDepth) (ofText text) = run at hform
  cases hform with
  | @ok value after later hawaits hbound houtcome =>
    obtain ⟨last, hlast, hanswers⟩ := advance_behind value hawaits
    refine ⟨last, ?_, hanswers⟩
    rw [bind_of_ok hrun, read_eq_resume]
    exact hlast.trans (congrArg (fun outcome => some (outcome, last)) houtcome.symm)
  | @error e after hanswers houtcome =>
    refine ⟨after, ?_, hanswers⟩
    rw [bind_of_error hrun, read_eq_resume]
    exact congrArg (fun outcome => some (outcome, after)) houtcome.symm

end Descent

end SmallLisp
