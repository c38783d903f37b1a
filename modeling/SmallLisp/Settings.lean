import SmallLisp.Number
import SmallLisp.Text.Blank

/-!
The settings of an interactive session: its prompt, and the file and the length of its line
history.
-/

namespace SmallLisp

structure Settings where
  prompt : String
  historyFile : String
  historySize : Nat
  deriving DecidableEq, Repr

namespace Settings

def default : Settings := ⟨"user> ", ".mal-history", 100⟩

/-- The history size that a text gives: a positive number of at most 64 bits in decimal digits, with
or without a plus sign and surrounding blanks. -/
def historySize? (text : String) : Option Nat :=
  let digits :=
    match Text.trim text.toList with
    | '+' :: digits => digits
    | digits => digits
  (Number.ofDigits? digits).filter fun size => 0 < size && size < UInt64.size

/-- The default settings with the given ones in place of theirs. An empty file name and a text that
gives no history size are passed over. -/
def configure (file? size? : Option String) : Settings :=
  { default with
    historyFile := (file?.filter (· ≠ "")).getD default.historyFile
    historySize := (size?.bind historySize?).getD default.historySize }

end Settings

end SmallLisp
