import SmallLisp.Evaluation
import SmallLisp.Reader
import SmallLisp.Text.Blank
import SmallLisp.Text.Lines

/-!
A session reads, evaluates and prints one line after the other. The frames of all lines are the
same: a line that fails leaves what earlier lines defined, and what it defined itself before the
failure.
-/

namespace SmallLisp

/-- The store at the start, with one frame that binds the builtins. -/
def Store.initial : Store :=
  let bindings := Builtin.all.map fun operation => (⟨operation.name⟩, .builtin operation)
  Store.empty.push ⟨bindings, none, false⟩

def evaluateText (frame : FrameId) (text : String) : Action Value := do
  let expression ← Action.ofExcept ((read text).mapError .read)
  evaluate expression frame

/-- Reads and evaluates a line. The result is the readable text of its value. -/
def respond (frame : FrameId) (line : String) : Action String := do
  return (← evaluateText frame line).print .readable

/-- A running session: what its lines have done to the store, and the errors that they ended in, the
earliest first. -/
structure Session where
  store : Store
  frame : FrameId
  errors : List Error

namespace Session

/-- A session starts in an empty frame below the builtins. -/
def start : Session :=
  ⟨Store.initial.push ⟨[], some 0, false⟩, 1, []⟩

/-- Takes one line. A blank line does nothing. The text of a value is written after what the
evaluation wrote, and an error is kept apart from it. A line that runs out of fuel ends without
either. Writing never fails here, so a session does not end before its lines do. -/
def feed : Session → String → Session
  | ⟨store, frame, errors⟩, line =>
    if line.toList.all Text.isBlank then
      ⟨store, frame, errors⟩
    else
      match respond frame line store with
      | .ok text store => ⟨store.write (text ++ "\n"), frame, errors⟩
      | .error (.failure e) store => ⟨store, frame, errors ++ [e]⟩
      | .error .outOfFuel store => ⟨store, frame, errors⟩

/-- The report of the errors, one line for each. -/
def errorOutput (session : Session) : String :=
  String.join (session.errors.map fun e => e.report ++ "\n")

/-- The session with nothing left to pass on. -/
def flush (session : Session) : Session :=
  { session with store := { session.store with output := "" }, errors := [] }

def feedAll (session : Session) (lines : List String) : Session :=
  lines.foldl feed session

def feedText (session : Session) (text : String) : Session :=
  session.feedAll ((Text.lines text.toList).map String.ofList)

end Session

end SmallLisp
