import Mathlib.Data.Set.Defs
import SmallLisp.Value.Basic

/-!
The symbols in a value. What is in a closure is code, whatever the value is used for; the symbols of
the rest count only where the value itself is an expression.
-/

namespace SmallLisp.Value

mutual

/-- The symbols that are code in a value, which is itself code or not. -/
def symbolsIn (isCode : Bool) : Value → List Symbol
  | .symbol s => if isCode then [s] else []
  | .list items | .vector items => symbolsInAll isCode items
  | .map entries => symbolsInEntries isCode entries
  | .closure _ parameters body _ =>
    parameters.fixed ++ parameters.rest.toList ++ symbolsInAll true body
  | .number _ | .string _ | .builtin _ => []

def symbolsInAll (isCode : Bool) : List Value → List Symbol
  | [] => []
  | item :: items => item.symbolsIn isCode ++ symbolsInAll isCode items

def symbolsInEntries (isCode : Bool) : List (Value × Value) → List Symbol
  | [] => []
  | (key, value) :: entries =>
    key.symbolsIn isCode ++ value.symbolsIn isCode ++ symbolsInEntries isCode entries

end

/-- The symbols anywhere in an expression, those in its closures included. -/
def symbols : Value → List Symbol := symbolsIn true

/-- The symbols in the closures of a value, in their parameters and in their bodies. -/
def closureSymbols : Value → List Symbol := symbolsIn false

theorem symbolsInAll_eq (isCode : Bool) (items : List Value) :
    symbolsInAll isCode items = items.flatMap (symbolsIn isCode) := by
  induction items with
  | nil => rfl
  | cons item items ih => rw [symbolsInAll, ih, List.flatMap_cons]

theorem symbolsInEntries_eq (isCode : Bool) (entries : List (Value × Value)) :
    symbolsInEntries isCode entries =
      entries.flatMap fun entry => entry.1.symbolsIn isCode ++ entry.2.symbolsIn isCode := by
  induction entries with
  | nil => rfl
  | cons entry entries ih => rw [symbolsInEntries, ih, List.flatMap_cons]

/-- In the code of a value, which is itself code or not, the names of the set are constants. -/
def CodeAvoids (X : Set Symbol) (isCode : Bool) (value : Value) : Prop :=
  ∀ name ∈ value.symbolsIn isCode, name ∈ X → name.isConstant

section

variable {P : Symbol → Prop} {isCode : Bool}

theorem forall_symbolsInAll_iff {items : List Value} :
    (∀ name ∈ symbolsInAll isCode items, P name) ↔
      ∀ item ∈ items, ∀ name ∈ item.symbolsIn isCode, P name := by
  rw [symbolsInAll_eq, List.forall_mem_flatMap]

theorem forall_symbolsInEntries_iff {entries : List (Value × Value)} :
    (∀ name ∈ symbolsInEntries isCode entries, P name) ↔
      ∀ entry ∈ entries, (∀ name ∈ entry.1.symbolsIn isCode, P name) ∧
        ∀ name ∈ entry.2.symbolsIn isCode, P name := by
  simp only [symbolsInEntries_eq, List.forall_mem_flatMap, List.forall_mem_append]

theorem forall_symbolsIn_closure_iff {identity : Nat} {parameters : Parameters} {body : List Value}
    {scope : FrameId} :
    (∀ name ∈ (Value.closure identity parameters body scope).symbolsIn isCode, P name) ↔
      (∀ name ∈ parameters.fixed ++ parameters.rest.toList, P name) ∧
        ∀ part ∈ body, ∀ name ∈ part.symbols, P name := by
  rw [symbolsIn, List.forall_mem_append, forall_symbolsInAll_iff]
  rfl

end

mutual

/-- Symbols in closures are symbols of the value. -/
theorem mem_symbols_of_closure {name : Symbol} :
    ∀ {value : Value}, name ∈ value.symbolsIn false → name ∈ value.symbolsIn true
  | .list _, h | .vector _, h => mem_symbolsInAll_of_closure h
  | .map _, h => mem_symbolsInEntries_of_closure h
  | .closure .., h => h

theorem mem_symbolsInAll_of_closure {name : Symbol} :
    ∀ {items : List Value}, name ∈ symbolsInAll false items → name ∈ symbolsInAll true items
  | item :: items, h => by
    rw [symbolsInAll, List.mem_append] at h ⊢
    exact h.imp mem_symbols_of_closure mem_symbolsInAll_of_closure

theorem mem_symbolsInEntries_of_closure {name : Symbol} :
    ∀ {entries : List (Value × Value)}, name ∈ symbolsInEntries false entries →
      name ∈ symbolsInEntries true entries
  | (key, value) :: entries, h => by
    rw [symbolsInEntries, List.mem_append, List.mem_append] at h ⊢
    exact h.imp (.imp mem_symbols_of_closure mem_symbols_of_closure) mem_symbolsInEntries_of_closure

end

end SmallLisp.Value
