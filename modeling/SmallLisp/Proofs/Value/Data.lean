import SmallLisp.Proofs.Evaluation.BigStep
import SmallLisp.Proofs.Value.Settled

/-!
Data: the values in which there is nothing to look up and nothing to call. They are made of numbers,
strings, constants and empty lists by vectors and maps. The settled values that hold no callable and
no list with items are data.
-/

namespace SmallLisp.Value

open Entries (flatten DistinctKeys)

inductive IsDatum : Value → Prop where
  | number (n : Int64) : IsDatum (.number n)
  | string (text : String) : IsDatum (.string text)
  | symbol {symbol : Symbol} (hconstant : symbol.isConstant) : IsDatum (.symbol symbol)
  | emptyList : IsDatum (.list [])
  | vector {items : List Value} (hitems : ∀ item ∈ items, IsDatum item) : IsDatum (.vector items)
  | map {entries : List (Value × Value)} (hdistinct : DistinctKeys entries)
      (hparts : ∀ part ∈ flatten entries, IsDatum part) : IsDatum (.map entries)

/-- A value holds itself and what its items, keys and values hold. The body of a closure does not
count. -/
inductive Holds : Value → Value → Prop where
  | self (value : Value) : Holds value value
  | list {items : List Value} {item part : Value} (hitem : item ∈ items) (hpart : Holds item part) :
      Holds (.list items) part
  | vector {items : List Value} {item part : Value} (hitem : item ∈ items)
      (hpart : Holds item part) : Holds (.vector items) part
  | map {entries : List (Value × Value)} {item part : Value} (hitem : item ∈ flatten entries)
      (hpart : Holds item part) : Holds (.map entries) part

theorem isToken_of_isConstant {symbol : Symbol} (h : symbol.isConstant)
    (hkeyword : symbol.isKeyword → symbol.IsToken) : symbol.IsToken := by
  simp only [Symbol.isConstant, Bool.or_eq_true, decide_eq_true_eq] at h
  rcases h with ((rfl | rfl) | rfl) | h
  · exact Symbol.isToken_iff_isReadable.2 (by decide)
  · exact Symbol.isToken_iff_isReadable.2 (by decide)
  · exact Symbol.isToken_iff_isReadable.2 (by decide)
  · exact hkeyword h

theorem IsDatum.isData {value : Value} (h : value.IsDatum) : value.isData := by
  induction h with
  | number | string | symbol | emptyList => rfl
  | vector hitems ih =>
    rw [Value.isData, allData_iff]
    exact ih
  | map hdistinct hparts ih =>
    rw [Value.isData, allEntriesData_eq, allData_iff]
    exact ih

theorem IsDatum.isSettled {value : Value} (h : value.IsDatum)
    (hnames : ∀ name, value.Holds (.symbol name) → name.isKeyword → name.IsToken) :
    value.IsSettled := by
  induction h with
  | number n => exact .number n
  | string text => exact .string text
  | symbol hconstant =>
    exact .symbol hconstant (isToken_of_isConstant hconstant (hnames _ (.self _)))
  | emptyList => exact .list (List.forall_mem_nil _)
  | vector hitems ih =>
    refine .vector fun item hitem => ih item hitem fun name hname => ?_
    exact hnames name (.vector hitem hname)
  | map hdistinct hparts ih =>
    exact .map hdistinct fun part hpart =>
      ih part hpart fun name hname => hnames name (.map hpart hname)

/-- The value holds nothing that can be called, and no list that would call something. -/
def HoldsNoCall (value : Value) : Prop :=
  ∀ part, value.Holds part → part.isCallable = false ∧ ∀ head rest, part ≠ .list (head :: rest)

theorem IsSettled.isDatum {value : Value} (h : value.IsSettled) (hnoCall : value.HoldsNoCall) :
    value.IsDatum := by
  induction h with
  | number n => exact .number n
  | string text => exact .string text
  | symbol hconstant hname => exact .symbol hconstant
  | builtin operation => cases (hnoCall _ (.self _)).1
  | closure => cases (hnoCall _ (.self _)).1
  | @list items hitems ih =>
    cases items with
    | nil => exact .emptyList
    | cons head rest => exact absurd rfl ((hnoCall _ (.self _)).2 head rest)
  | vector hitems ih =>
    refine .vector fun item hitem => ih item hitem fun part hpart => ?_
    exact hnoCall part (.vector hitem hpart)
  | map hdistinct hparts ih =>
    exact .map hdistinct fun part hmem =>
      ih part hmem fun inner hinner => hnoCall inner (.map hmem hinner)

end SmallLisp.Value
