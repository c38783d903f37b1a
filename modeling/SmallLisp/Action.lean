import SmallLisp.Error
import SmallLisp.Store

/-!
Actions: what evaluation does. An action changes the store and ends with a result or without one.
The changes made before a failure stay.
-/

namespace SmallLisp

/-- Why an action ends without a result. Running out of fuel is no error of the program: with more
fuel the same action may go on. -/
inductive Halt where
  | failure (e : Error)
  | outOfFuel
  deriving DecidableEq, Repr

abbrev Action := EStateM Halt Store

namespace Action

def fail {α : Type} (e : Error) : Action α :=
  throw (.failure e)

def ofExcept {α : Type} : Except Error α → Action α
  | .ok result => pure result
  | .error e => fail e

/-- Adds a frame below a given one. -/
def newFrame (parent : FrameId) (isLocal : Bool) (bindings : List (Symbol × Value)) :
    Action FrameId :=
  modifyGet fun store => (store.frames.size, store.push ⟨bindings, some parent, isLocal⟩)

def newIdentity : Action Nat :=
  modifyGet fun store => (store.closureCount, { store with closureCount := store.closureCount + 1 })

/-- The value that a symbol has in a frame. -/
def lookup (frame : FrameId) (symbol : Symbol) : Action Value := do
  match (← get).get? frame symbol with
  | some value => return value
  | none => fail (.unbound symbol.name)

end Action

end SmallLisp
