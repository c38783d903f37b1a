import SmallLisp.Proofs.Action.Ends
import SmallLisp.Proofs.Evaluation.Finish

/-!
The meaning of programs as rules. An expression has an outcome when its parts have theirs, the last
expression of a body or of a branch like any other: nothing is handed back here, and there is no
fuel. A program that runs forever has no outcome.
-/

namespace SmallLisp

/-- Expressions that stand for themselves. -/
def Value.isSelfEvaluating : Value → Bool
  | .number _ | .string _ | .list [] | .closure .. | .builtin _ => true
  | .symbol s => s.isConstant
  | _ => false

def Value.isCallable : Value → Bool
  | .closure .. | .builtin _ => true
  | _ => false

mutual

/-- `Evaluates expression frame before outcome after` says that the expression, evaluated in a frame
of the store `before`, ends with the outcome and leaves the store `after`. -/
inductive Evaluates : Value → FrameId → Store → Except Error Value → Store → Prop
  | self {expression frame store} (hself : expression.isSelfEvaluating) :
      Evaluates expression frame store (.ok expression) store
  | bound {symbol frame store value} (hsymbol : symbol.isConstant = false)
      (hvalue : store.get? frame symbol = some value) :
      Evaluates (.symbol symbol) frame store (.ok value) store
  | unbound {symbol frame store} (hsymbol : symbol.isConstant = false)
      (hvalue : store.get? frame symbol = none) :
      Evaluates (.symbol symbol) frame store (.error (.unbound symbol.name)) store
  | vector {items frame before values after}
      (hitems : EvaluatesAll items frame before (.ok values) after) :
      Evaluates (.vector items) frame before (.ok (.vector values)) after
  | vectorFails {items frame before e after}
      (hitems : EvaluatesAll items frame before (.error e) after) :
      Evaluates (.vector items) frame before (.error e) after
  | map {entries frame before values after}
      (hentries : EvaluatesEntries entries frame before (.ok values) after) :
      Evaluates (.map entries) frame before (.ok (.map (Entries.insertAll values []))) after
  | mapFails {entries frame before e after}
      (hentries : EvaluatesEntries entries frame before (.error e) after) :
      Evaluates (.map entries) frame before (.error e) after
  | form {head arguments frame before outcome after form}
      (hform : Evaluation.formOfHead? head = some form)
      (harguments : EvaluatesForm form frame arguments before outcome after) :
      Evaluates (.list (head :: arguments)) frame before outcome after
  | headFails {head arguments frame before e after}
      (hform : Evaluation.formOfHead? head = none)
      (hhead : Evaluates head frame before (.error e) after) :
      Evaluates (.list (head :: arguments)) frame before (.error e) after
  | argumentsFail {head arguments frame before callee middle e after}
      (hform : Evaluation.formOfHead? head = none)
      (hhead : Evaluates head frame before (.ok callee) middle)
      (harguments : EvaluatesAll arguments frame middle (.error e) after) :
      Evaluates (.list (head :: arguments)) frame before (.error e) after
  | call {head arguments frame before callee middle values called outcome after}
      (hform : Evaluation.formOfHead? head = none)
      (hhead : Evaluates head frame before (.ok callee) middle)
      (harguments : EvaluatesAll arguments frame middle (.ok values) called)
      (hcall : Applies callee values called outcome after) :
      Evaluates (.list (head :: arguments)) frame before outcome after

/-- Expressions one after the other, for all their values. -/
inductive EvaluatesAll :
    List Value → FrameId → Store → Except Error (List Value) → Store → Prop
  | nil {frame store} : EvaluatesAll [] frame store (.ok []) store
  | headFails {expression rest frame before e after}
      (hhead : Evaluates expression frame before (.error e) after) :
      EvaluatesAll (expression :: rest) frame before (.error e) after
  | tailFails {expression rest frame before value middle e after}
      (hhead : Evaluates expression frame before (.ok value) middle)
      (htail : EvaluatesAll rest frame middle (.error e) after) :
      EvaluatesAll (expression :: rest) frame before (.error e) after
  | cons {expression rest frame before value middle values after}
      (hhead : Evaluates expression frame before (.ok value) middle)
      (htail : EvaluatesAll rest frame middle (.ok values) after) :
      EvaluatesAll (expression :: rest) frame before (.ok (value :: values)) after

/-- The entries of a map, each key before its value. -/
inductive EvaluatesEntries :
    List (Value × Value) → FrameId → Store → Except Error (List (Value × Value)) → Store → Prop
  | nil {frame store} : EvaluatesEntries [] frame store (.ok []) store
  | keyFails {key value rest frame before e after}
      (hkey : Evaluates key frame before (.error e) after) :
      EvaluatesEntries ((key, value) :: rest) frame before (.error e) after
  | valueFails {key value rest frame before newKey middle e after}
      (hkey : Evaluates key frame before (.ok newKey) middle)
      (hvalue : Evaluates value frame middle (.error e) after) :
      EvaluatesEntries ((key, value) :: rest) frame before (.error e) after
  | tailFails {key value rest frame before newKey middle newValue entered e after}
      (hkey : Evaluates key frame before (.ok newKey) middle)
      (hvalue : Evaluates value frame middle (.ok newValue) entered)
      (htail : EvaluatesEntries rest frame entered (.error e) after) :
      EvaluatesEntries ((key, value) :: rest) frame before (.error e) after
  | cons {key value rest frame before newKey middle newValue entered entries after}
      (hkey : Evaluates key frame before (.ok newKey) middle)
      (hvalue : Evaluates value frame middle (.ok newValue) entered)
      (htail : EvaluatesEntries rest frame entered (.ok entries) after) :
      EvaluatesEntries ((key, value) :: rest) frame before (.ok ((newKey, newValue) :: entries))
        after

/-- A body, for the value of its last expression. -/
inductive EvaluatesBody : List Value → FrameId → Store → Except Error Value → Store → Prop
  | nil {frame store} : EvaluatesBody [] frame store (.ok .nil) store
  | last {expression frame before outcome after}
      (hlast : Evaluates expression frame before outcome after) :
      EvaluatesBody [expression] frame before outcome after
  | headFails {expression next rest frame before e after}
      (hhead : Evaluates expression frame before (.error e) after) :
      EvaluatesBody (expression :: next :: rest) frame before (.error e) after
  | cons {expression next rest frame before value middle outcome after}
      (hhead : Evaluates expression frame before (.ok value) middle)
      (htail : EvaluatesBody (next :: rest) frame middle outcome after) :
      EvaluatesBody (expression :: next :: rest) frame before outcome after

/-- Branches, for the value of the first whose condition holds. -/
inductive EvaluatesBranches : List Value → FrameId → Store → Except Error Value → Store → Prop
  | nil {frame store} : EvaluatesBranches [] frame store (.ok .nil) store
  | otherwise {expression frame before outcome after}
      (hlast : Evaluates expression frame before outcome after) :
      EvaluatesBranches [expression] frame before outcome after
  | conditionFails {condition branch rest frame before e after}
      (hcondition : Evaluates condition frame before (.error e) after) :
      EvaluatesBranches (condition :: branch :: rest) frame before (.error e) after
  | holds {condition branch rest frame before value middle outcome after}
      (hcondition : Evaluates condition frame before (.ok value) middle)
      (htrue : value.isTruthy) (hbranch : Evaluates branch frame middle outcome after) :
      EvaluatesBranches (condition :: branch :: rest) frame before outcome after
  | fails {condition branch rest frame before value middle outcome after}
      (hcondition : Evaluates condition frame before (.ok value) middle)
      (hfalse : value.isTruthy = false)
      (hrest : EvaluatesBranches rest frame middle outcome after) :
      EvaluatesBranches (condition :: branch :: rest) frame before outcome after

/-- Names and expressions in turn, each name bound before the next expression is evaluated. The
result is the last value, which is given for the case that there are no more pairs. -/
inductive EvaluatesPairs : FrameId → (Symbol → Value → Store → Store) → String → Value →
    List Value → Store → Except Error Value → Store → Prop
  | done {frame bind nameExpected last pairs store} (hpairs : pairs.length < 2) :
      EvaluatesPairs frame bind nameExpected last pairs store (.ok last) store
  | noName {frame bind nameExpected last target expression rest store}
      (htarget : ∀ name, target ≠ .symbol name) :
      EvaluatesPairs frame bind nameExpected last (target :: expression :: rest) store
        (.error (.type s!"{nameExpected}, got {target.print .readable}")) store
  | valueFails {frame bind nameExpected last name expression rest before e after}
      (hvalue : Evaluates expression frame before (.error e) after) :
      EvaluatesPairs frame bind nameExpected last (.symbol name :: expression :: rest) before
        (.error e) after
  | bind {frame bind nameExpected last name expression rest before value middle outcome after}
      (hvalue : Evaluates expression frame before (.ok value) middle)
      (hrest : EvaluatesPairs frame bind nameExpected value rest (bind name value middle) outcome
        after) :
      EvaluatesPairs frame bind nameExpected last (.symbol name :: expression :: rest) before
        outcome after

/-- A call of a value. The body of a closure runs in a new frame below the one of the closure. -/
inductive Applies : Value → List Value → Store → Except Error Value → Store → Prop
  | builtin {operation arguments before outcome after}
      (hcall : (operation.call arguments).Ends before outcome after) :
      Applies (.builtin operation) arguments before outcome after
  | closure {identity parameters body scope arguments before outcome after}
      (harity : parameters.arity.accepts arguments.length)
      (hbody : EvaluatesBody body before.frames.size
        (before.push ⟨parameters.bindings arguments, some scope, false⟩) outcome after) :
      Applies (.closure identity parameters body scope) arguments before outcome after
  | wrongArity {identity parameters body scope arguments store}
      (harity : parameters.arity.accepts arguments.length = false) :
      Applies (.closure identity parameters body scope) arguments store
        (.error (.arity parameters.arity arguments.length (some SpecialForm.function.name))) store
  | notCallable {callee arguments store} (hcallee : callee.isCallable = false) :
      Applies callee arguments store (.error (.notCallable (callee.print .readable))) store

/-- A special form with its arguments. -/
inductive EvaluatesForm :
    SpecialForm → FrameId → List Value → Store → Except Error Value → Store → Prop
  | malformed {form frame arguments store} (hform : form.isWellFormed arguments = false) :
      EvaluatesForm form frame arguments store (.error (.malformed form)) store
  | define {frame arguments before outcome after}
      (hform : SpecialForm.define.isWellFormed arguments)
      (hpairs : EvaluatesPairs frame
        (fun name value store => store.define (store.definitionFrame frame) name value)
        "def! requires a symbol" .nil arguments before outcome after) :
      EvaluatesForm .define frame arguments before outcome after
  | bindingFails {frame bindings pairs body before e after}
      (hform : SpecialForm.bindLocally.isWellFormed (bindings :: body))
      (hbindings : bindings.items? = some pairs)
      (hpairs : EvaluatesPairs before.frames.size
        (fun name value store => store.define before.frames.size name value)
        "let* binding name must be a symbol" .nil pairs (before.push ⟨[], some frame, true⟩)
        (.error e) after) :
      EvaluatesForm .bindLocally frame (bindings :: body) before (.error e) after
  | bindLocally {frame bindings pairs body before value middle outcome after}
      (hform : SpecialForm.bindLocally.isWellFormed (bindings :: body))
      (hbindings : bindings.items? = some pairs)
      (hpairs : EvaluatesPairs before.frames.size
        (fun name value store => store.define before.frames.size name value)
        "let* binding name must be a symbol" .nil pairs (before.push ⟨[], some frame, true⟩)
        (.ok value) middle)
      (hbody : EvaluatesBody body before.frames.size middle outcome after) :
      EvaluatesForm .bindLocally frame (bindings :: body) before outcome after
  | sequence {frame arguments before outcome after}
      (hbody : EvaluatesBody arguments frame before outcome after) :
      EvaluatesForm .sequence frame arguments before outcome after
  | choose {frame arguments before outcome after}
      (hform : SpecialForm.choose.isWellFormed arguments)
      (hbranches : EvaluatesBranches arguments frame before outcome after) :
      EvaluatesForm .choose frame arguments before outcome after
  | noParameters {frame parameters items body store e}
      (hitems : parameters.items? = some items)
      (hparameters : Parameters.ofItems items = .error e) :
      EvaluatesForm .function frame (parameters :: body) store (.error e) store
  | function {frame parameters items body store accepted}
      (hitems : parameters.items? = some items)
      (hparameters : Parameters.ofItems items = .ok accepted) :
      EvaluatesForm .function frame (parameters :: body) store
        (.ok (.closure store.closureCount accepted body frame))
        { store with closureCount := store.closureCount + 1 }

end

end SmallLisp
