import SmallLisp.Session

/-!
The command line: a session over the lines of the standard input.
-/

namespace SmallLisp

/-- Runs the lines that are still to come, and passes on what each of them writes and reports. -/
partial def serve (input output errors : IO.FS.Stream) (session : Session) : IO Unit := do
  let line ← input.getLine
  unless line.isEmpty do
    let session := session.feedText line
    output.putStr session.store.output
    output.flush
    errors.putStr session.errorOutput
    serve input output errors session.flush

end SmallLisp

def main : IO Unit := do
  SmallLisp.serve (← IO.getStdin) (← IO.getStdout) (← IO.getStderr) SmallLisp.Session.start
