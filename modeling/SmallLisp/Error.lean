import SmallLisp.Arity
import SmallLisp.SpecialForm

/-!
What can go wrong, and the text that reports it.
-/

namespace SmallLisp

namespace ReadError

/-- The kinds of failures of the reader. -/
inductive Kind where
  /-- A token that cannot stand where it stands. -/
  | invalidSyntax
  /-- The text ended too early, and more text could complete it. -/
  | incomplete
  /-- A numeral outside the range of numbers. -/
  | invalidNumber
  /-- Something follows a complete expression. -/
  | trailingContent
  /-- Nesting deeper than the reader accepts. -/
  | tooDeeplyNested
  deriving DecidableEq, Repr

end ReadError

/-- A text that cannot be read, with the byte offset at which this shows. -/
structure ReadError where
  kind : ReadError.Kind
  message : String
  position : Nat
  deriving DecidableEq, Repr

def ReadError.description (e : ReadError) : String :=
  s!"{e.message} at position {e.position}"

inductive Error where
  | read (e : ReadError)
  | evaluation (message : String)
  | type (message : String)
  | unbound (name : String)
  | arity (expected : Arity) (got : Nat) (callee : Option String)
  /-- The head of a list evaluated to a value that cannot be called, given by its readable text. -/
  | notCallable (value : String)
  | malformed (form : SpecialForm)
  deriving DecidableEq, Repr

namespace Error

def message : Error → String
  | read e => e.description
  | evaluation message => message
  | type message => s!"type error: {message}"
  | unbound name => s!"'{name}' not found"
  | arity expected got callee =>
    let complaint := s!"expected {expected.description} arguments, got {got}"
    match callee with
    | none => complaint
    | some name => s!"{name}: {complaint}"
  | notCallable value => s!"{value} is not callable"
  | malformed form => s!"malformed {form.name}, expected {form.shape}"

/-- Of an error report's two parts the first tells which half of the job failed. -/
def boundary : Error → String
  | read _ => "ReadError"
  | _ => "EvalError"

def report (e : Error) : String :=
  s!"{e.boundary} : {e.message}"

end Error

end SmallLisp
