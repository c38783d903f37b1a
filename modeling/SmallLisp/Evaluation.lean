import SmallLisp.Builtin.Call
import SmallLisp.Parameters
import SmallLisp.Value.Map

/-!
Evaluation. An expression is evaluated in a frame. Its last subexpression, where its value is the
value of the whole, is not evaluated inside it but handed back as the next thing to evaluate, so a
program that calls itself in this position needs no stack.

Programs may run forever. Evaluation therefore takes fuel, which bounds how many expressions are
handed back and how deep they are nested. It says so when the fuel does not suffice.
-/

namespace SmallLisp

/-- A value, or an expression that has the same value. -/
inductive Step where
  | done (value : Value)
  | continue (expression : Value) (frame : FrameId)

abbrev Evaluator := Value → FrameId → Action Value

namespace Evaluation

variable (evaluate : Evaluator)

def evaluateAll (frame : FrameId) (expressions : List Value) : Action (List Value) :=
  expressions.mapM fun expression => evaluate expression frame

def evaluateEntries (frame : FrameId) (entries : List (Value × Value)) :
    Action (List (Value × Value)) :=
  entries.mapM fun (key, value) => do
    let key ← evaluate key frame
    let value ← evaluate value frame
    return (key, value)

/-- Evaluates all but the last expression, and hands back the last one. -/
def runBody (frame : FrameId) : List Value → Action Step
  | [] => return .done .nil
  | [last] => return .continue last frame
  | expression :: rest => do
    let _ ← evaluate expression frame
    runBody frame rest

/-- Binds names to values pair by pair, so that each value may use the names before it. The result
is the last value. -/
def bindPairs (frame : FrameId) (bind : Symbol → Value → Store → Store)
    (nameExpected : String) (last : Value) : List Value → Action Value
  | .symbol name :: expression :: rest => do
    let value ← evaluate expression frame
    modify (bind name value)
    bindPairs frame bind nameExpected value rest
  | target :: _ :: _ => Action.fail (.type s!"{nameExpected}, got {target.print .readable}")
  | _ => return last

/-- Hands back the branch behind the first condition that holds, or the branch left over at the
end. -/
def chooseBranch (frame : FrameId) : List Value → Action Step
  | condition :: branch :: rest => do
    if (← evaluate condition frame).isTruthy then
      return .continue branch frame
    else
      chooseBranch frame rest
  | [otherwise] => return .continue otherwise frame
  | [] => return .done .nil

def makeClosure (frame : FrameId) (parameters : List Value) (body : List Value) :
    Action Value := do
  let parameters ← Action.ofExcept (Parameters.ofItems parameters)
  let identity ← Action.newIdentity
  return .closure identity parameters body frame

/-- Evaluates a special form with its arguments. -/
def applyForm (form : SpecialForm) (frame : FrameId) (arguments : List Value) : Action Step :=
  match form, arguments with
  | .define, arguments =>
    if arguments.isEmpty || arguments.length % 2 ≠ 0 then
      Action.fail (.malformed form)
    else do
      let bind name value store := store.define (store.definitionFrame frame) name value
      return .done (← bindPairs evaluate frame bind "def! requires a symbol" .nil arguments)
  | .bindLocally, bindings :: body =>
    match bindings.items? with
    | none => Action.fail (.malformed form)
    | some pairs =>
      if pairs.length % 2 ≠ 0 || body.isEmpty then
        Action.fail (.malformed form)
      else do
        let inner ← Action.newFrame frame true []
        let bind name value store := store.define inner name value
        let _ ← bindPairs evaluate inner bind "let* binding name must be a symbol" .nil pairs
        runBody evaluate inner body
  | .sequence, arguments => runBody evaluate frame arguments
  | .choose, arguments =>
    if arguments.length < 2 then
      Action.fail (.malformed form)
    else
      chooseBranch evaluate frame arguments
  | .function, parameters :: body =>
    match parameters.items? with
    | none => Action.fail (.malformed form)
    | some parameters => return .done (← makeClosure frame parameters body)
  | _, [] => Action.fail (.malformed form)

/-- Calls a value. The body of a closure runs in a new frame below the one it was made in. -/
def apply (callee : Value) (arguments : List Value) : Action Step :=
  match callee with
  | .builtin operation => return .done (← operation.call arguments)
  | .closure _ parameters body scope =>
    if parameters.arity.accepts arguments.length then do
      let frame ← Action.newFrame scope false (parameters.bindings arguments)
      runBody evaluate frame body
    else
      Action.fail (.arity parameters.arity arguments.length (some SpecialForm.function.name))
  | value => Action.fail (.notCallable (value.print .readable))

def formOfHead? : Value → Option SpecialForm
  | .symbol symbol => SpecialForm.ofSymbol? symbol
  | _ => none

/-- Evaluates an expression up to the one that takes its place. -/
def step (expression : Value) (frame : FrameId) : Action Step :=
  match expression with
  | .map entries => do
    return .done (.map (Entries.insertAll (← evaluateEntries evaluate frame entries) []))
  | .vector items => return .done (.vector (← evaluateAll evaluate frame items))
  | .list (head :: arguments) =>
    match formOfHead? head with
    | some form => applyForm evaluate form frame arguments
    | none => do
      let callee ← evaluate head frame
      let arguments ← evaluateAll evaluate frame arguments
      apply evaluate callee arguments
  | .symbol symbol =>
    if symbol.isConstant then
      return .done expression
    else
      return .done (← Action.lookup frame symbol)
  | _ => return .done expression

end Evaluation

/-- Evaluates an expression with a given amount of fuel. -/
def evaluateWithin : Nat → Evaluator
  | 0, _, _ => throw .outOfFuel
  | fuel + 1, expression, frame => do
    match ← Evaluation.step (evaluateWithin fuel) expression frame with
    | .done value => return value
    | .continue expression frame => evaluateWithin fuel expression frame

/-- More steps than a machine can take. -/
def ampleFuel : Nat := 1 <<< 62

def evaluate : Evaluator :=
  evaluateWithin ampleFuel

end SmallLisp
