import SmallLisp.Token.Stream
import SmallLisp.Value.Map

/-!
Reading a value from a text. The reader takes one token after the other and keeps a stack of the
expressions that are still open, so its state says what a text that breaks off here lacks.
-/

namespace SmallLisp

/-- An expression that has begun and is not complete. Its parts so far are listed latest first. -/
inductive Pending where
  | collection (delimiter : Delimiter) (items : List Value)
  | shorthand (shorthand : Shorthand) (operands : List Value)

namespace Reader

/-- How many expressions may stand inside one another. The next one is refused. -/
def maxDepth : Nat := 512

inductive State where
  /-- An expression is awaited inside the pending ones, the innermost of which comes first. -/
  | inside (pending : List Pending)
  /-- The text so far is a complete expression. -/
  | complete (value : Value)

def start : State := .inside []

def collect (items : List Value) : Delimiter → Value
  | .parenthesis => .list items
  | .bracket => .vector items
  | .brace => .mapOfItems items

def expand (operands : List Value) (shorthand : Shorthand) : Value :=
  .list (.symbol ⟨shorthand.head⟩ ::
    if shorthand.reversesOperands then operands.reverse else operands)

/-- Hands a finished value to the expression that it belongs to. This may finish that expression
too: a shorthand is complete with its last operand. -/
def supply (value : Value) : List Pending → State
  | [] => .complete value
  | .collection delimiter items :: outer =>
    .inside (.collection delimiter (value :: items) :: outer)
  | .shorthand shorthand operands :: outer =>
    if operands.length + 1 < shorthand.operandCount then
      .inside (.shorthand shorthand (value :: operands) :: outer)
    else
      supply (expand (value :: operands).reverse shorthand) outer

def tooDeep (position : Nat) : ReadError :=
  ⟨.tooDeeplyNested, s!"expression too deeply nested (max depth: {maxDepth})", position⟩

/-- Begins an expression with its first token. -/
def begin (pending : List Pending) (token : Token) : Except ReadError State :=
  if pending.length < maxDepth then
    match token.kind with
    | .number n => .ok (supply (.number n) pending)
    | .string text => .ok (supply (.string text) pending)
    | .symbol name => .ok (supply (.symbol ⟨name⟩) pending)
    | .shorthand shorthand => .ok (.inside (.shorthand shorthand [] :: pending))
    | .opening delimiter => .ok (.inside (.collection delimiter [] :: pending))
    | .closing _ =>
      .error ⟨.invalidSyntax, s!"unexpected token {token.description}", token.position⟩
  else
    .error (tooDeep token.position)

/-- Takes one more token. A closing bracket ends a collection at any depth; all other tokens inside
an expression begin a further one. -/
def next (state : State) (token : Token) : Except ReadError State :=
  match state with
  | .complete _ =>
    .error ⟨.trailingContent, s!"expected end of input, got {token.description}", token.position⟩
  | .inside (.collection delimiter items :: outer) =>
    match token.kind with
    | .closing closing =>
      if closing = delimiter then
        .ok (supply (collect items.reverse delimiter) outer)
      else
        .error ⟨.invalidSyntax,
          s!"unbalanced '{delimiter.opening}': expected '{delimiter.closing}', " ++
            s!"got {token.description}", token.position⟩
    | _ => begin (.collection delimiter items :: outer) token
  | .inside pending => begin pending token

/-- Takes the end of the text, which stands at a position like a token. -/
def finish (position : Nat) : State → Except ReadError Value
  | .complete value => .ok value
  | .inside (.collection delimiter _ :: _) =>
    .error ⟨.incomplete, s!"expected '{delimiter.closing}', got end of input", position⟩
  | .inside pending =>
    if pending.length < maxDepth then
      .error ⟨.incomplete, "unexpected end of input", position⟩
    else
      .error (tooDeep position)

end Reader

/-- Reads the one expression that a text holds. The tokens in front of a place where no token can be
recognized are read first, so an error among them is the one reported. -/
def read (text : String) : Except ReadError Value := do
  let stream := tokenize text
  let state ← stream.tokens.foldlM Reader.next Reader.start
  Reader.finish (← stream.ending) state

end SmallLisp
