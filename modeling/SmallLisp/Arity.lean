/-!
Arities: how many arguments a callable takes.
-/

namespace SmallLisp

inductive Arity where
  | exactly (count : Nat)
  | atLeast (count : Nat)
  | any
  deriving DecidableEq, Repr

namespace Arity

def accepts : Arity → Nat → Bool
  | exactly expected, count => count == expected
  | atLeast least, count => least ≤ count
  | any, _ => true

/-- The words for an arity in front of the noun "arguments". -/
def description : Arity → String
  | exactly count => s!"exactly {count}"
  | atLeast count => s!"at least {count}"
  | any => "any number of"

end Arity

end SmallLisp
