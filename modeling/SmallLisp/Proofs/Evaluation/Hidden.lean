import Mathlib
import SmallLisp.Proofs.Evaluation.Outcomes
import SmallLisp.Proofs.Evaluation.Settled
import SmallLisp.Proofs.Store.Agreement

/-!
Bindings that no program looks up. Two stores that differ in the bindings of such names only are the
same to a program: it ends in both or in none, in the same way, and the stores that it leaves still
differ in these bindings only. Constants are never looked up, and other names are not where they are
no part of the program or of the closures that it can come by.
-/

namespace SmallLisp

/-- The code in which no name of the set is looked up. -/
def Vocabulary.avoiding (X : Set Symbol) : Vocabulary where
  IsName name := name ∈ X → name.isConstant
  IsExpression := Value.CodeAvoids X true
  IsValue := Value.CodeAvoids X false
  name_of_expression h := h _ (List.mem_singleton.2 rfl)
  items_of_expression {expression items} hitems h := by
    cases expression <;> cases hitems
    all_goals exact Value.forall_symbolsInAll_iff.1 h
  entries_of_expression h := Value.forall_symbolsInEntries_iff.1 h
  value_of_expression _ h name hname := h name (Value.mem_symbols_of_closure hname)
  number _ := List.forall_mem_nil _
  string _ := List.forall_mem_nil _
  nil := List.forall_mem_nil _
  ofBool _ := List.forall_mem_nil _
  list h := Value.forall_symbolsInAll_iff.2 h
  vector h := Value.forall_symbolsInAll_iff.2 h
  map {entries} h := by
    have hentries := Entries.forall_insertAll (P := Value.CodeAvoids X false)
      (Q := Value.CodeAvoids X false) h (List.forall_mem_nil _)
    exact Value.forall_symbolsInEntries_iff.2 hentries
  closure hitems hparameters hbody identity scope := by
    refine Value.forall_symbolsIn_closure_iff.2 ⟨fun name hname => ?_, hbody⟩
    obtain ⟨hmem, -⟩ := Parameters.names_of_ofItems hparameters name hname
    exact hitems _ hmem name (List.mem_singleton.2 rfl)
  names_of_closure h := (Value.forall_symbolsIn_closure_iff.1 h).1
  body_of_closure h := (Value.forall_symbolsIn_closure_iff.1 h).2

theorem not_mem_of_isConstant_eq_false {X : Set Symbol} {name : Symbol}
    (hname : name ∈ X → name.isConstant) (hvariable : name.isConstant = false) : name ∉ X := by
  intro hmem
  rw [hname hmem] at hvariable
  cases hvariable

/-- Two runs of one program that avoids the names in which their stores differ. -/
def Correspondence.avoiding (X : Set Symbol) : Correspondence (.avoiding X) .id where
  Stores s t := s.AgreesOutside X t ∧ s.ClosuresAvoid X
  size h := h.1.size
  definitionFrame h := h.1.definitionFrame
  closureCount h := h.1.closureCount
  value_of_get? := by
    rintro s t ⟨-, hcode⟩ frame name value hname hvariable hvalue
    exact hcode.get? (not_mem_of_isConstant_eq_false hname hvariable) hvalue
  get? := by
    rintro s t ⟨hagrees, -⟩ frame name hname hvariable
    rw [Value.rename_id_eq, Option.map_id]
    exact hagrees.get? frame (not_mem_of_isConstant_eq_false hname hvariable)
  push {s t} h {bindings} hbindings parent isLocal := by
    rw [prodMap_rename_id, List.map_id]
    exact ⟨h.1.push _, h.2.push fun binding hbinding => (hbindings binding hbinding).2⟩
  define {s t} h {name value} hname hvalue frame := by
    rw [Value.rename_id]
    exact ⟨h.1.define frame name value, h.2.define frame name hvalue⟩
  count h := ⟨h.1.count, h.2⟩
  write h text := ⟨h.1.write text, h.2⟩
  print _ mode := by rw [Value.rename_id]

/-- What ends in one store ends in every store that differs in other names only. -/
theorem EvaluatesTo.of_agreesOutside {X : Set Symbol} {s t : Store} (hagrees : s.AgreesOutside X t)
    (hstore : s.ClosuresAvoid X) {expression : Value} (hexpression : expression.CodeAvoids X true)
    {frame : FrameId} {outcome : Except Error Value} {after : Store}
    (h : EvaluatesTo expression frame s outcome after) :
    ∃ after', EvaluatesTo expression frame t outcome after' ∧ after.AgreesOutside X after' := by
  obtain ⟨fuel, hends⟩ := h
  have hrelated :=
    (Correspondence.avoiding X).evaluateWithin_inStep fuel frame hexpression s t ⟨hagrees, hstore⟩
  rw [Value.rename_id, hends] at hrelated
  generalize hsecond : evaluateWithin fuel expression frame t = second at hrelated
  cases outcome with
  | ok value =>
    cases hrelated with
    | ok hvalue hstores =>
      obtain ⟨-, rfl⟩ := hvalue
      rw [Value.rename_id] at hsecond
      exact ⟨_, ⟨fuel, hsecond⟩, hstores.1⟩
  | error e =>
    cases hrelated with
    | failure herror hstores =>
      obtain rfl := Error.eq_of_renamed_id herror
      exact ⟨_, ⟨fuel, hsecond⟩, hstores.1⟩

/-- The name is accepted wherever a program can bind names: in a definition, in a local binding form
and as a parameter. -/
structure Symbol.IsBindable (name : Symbol) : Prop where
  define : ∀ {expression frame before value after},
    EvaluatesTo expression frame before (.ok value) after →
      EvaluatesTo (.list [.symbol ⟨SpecialForm.define.name⟩, .symbol name, expression]) frame before
        (.ok value) (after.define (after.definitionFrame frame) name value)
  bindLocally : ∀ {expression body frame before value middle outcome after},
    EvaluatesTo expression before.frames.size (before.push ⟨[], some frame, true⟩) (.ok value)
      middle →
    EvaluatesTo body before.frames.size (middle.define before.frames.size name value) outcome
      after →
    EvaluatesTo (.list [.symbol ⟨SpecialForm.bindLocally.name⟩,
      .vector [.symbol name, expression], body]) frame before outcome after
  parameter : ∀ {argument body frame before value middle outcome after},
    EvaluatesTo argument frame { before with closureCount := before.closureCount + 1 } (.ok value)
      middle →
    EvaluatesTo body middle.frames.size (middle.push ⟨[(name, value)], some frame, false⟩) outcome
      after →
    EvaluatesTo (.list [.list [.symbol ⟨SpecialForm.function.name⟩, .vector [.symbol name], body],
      argument]) frame before outcome after

/-- A pair of a name and an expression is bound as soon as the expression has a value. -/
theorem EvaluatesPairs.one {name : Symbol} {expression : Value} {frame : FrameId}
    {bind : Symbol → Value → Store → Store} {nameExpected : String} {last value : Value}
    {before after : Store} (h : Evaluates expression frame before (.ok value) after) :
    EvaluatesPairs frame bind nameExpected last [.symbol name, expression] before (.ok value)
      (bind name value after) :=
  .bind h (.done Nat.zero_lt_two)

theorem Applies.one {identity : Nat} {name : Symbol} {body : Value} {scope : FrameId}
    {argument : Value} {before after : Store} {outcome : Except Error Value}
    (h : Evaluates body before.frames.size (before.push ⟨[(name, argument)], some scope, false⟩)
      outcome after) :
    Applies (.closure identity ⟨[name], none⟩ [body] scope) [argument] before outcome after := by
  have hbindings : Parameters.bindings ⟨[name], none⟩ [argument] = [(name, argument)] := rfl
  refine .closure rfl ?_
  rw [hbindings]
  exact .last h

theorem Parameters.ofItems_singleton {name : Symbol} (h : name ≠ .ampersand) :
    ofItems [.symbol name] = .ok ⟨[name], none⟩ := by
  have hsymbols : symbols [.symbol name] = .ok [name] := rfl
  have hofSymbols : ofSymbols [name] = .ok ⟨[name], none⟩ := by
    simp [ofSymbols, h]
  rw [ofItems, hsymbols]
  exact hofSymbols

theorem Symbol.isBindable_of_isConstant {name : Symbol} (h : name.isConstant) :
    name.IsBindable where
  define := by
    rintro expression frame before value after ⟨_, hvalue⟩
    have hformed : SpecialForm.define.isWellFormed [.symbol name, expression] := by
      simp [SpecialForm.isWellFormed]
    have hform := EvaluatesForm.define hformed (.one (.of_ends hvalue))
    exact (Evaluates.form rfl hform).eventually.exists
  bindLocally := by
    rintro expression body frame before value middle outcome after ⟨_, hvalue⟩ ⟨_, hbody⟩
    have hformed : SpecialForm.bindLocally.isWellFormed
        [.vector [.symbol name, expression], body] := by
      simp [SpecialForm.isWellFormed, Value.items?]
    have hform := EvaluatesForm.bindLocally hformed rfl (.one (.of_ends hvalue))
      (.last (.of_ends hbody))
    exact (Evaluates.form rfl hform).eventually.exists
  parameter := by
    rintro argument body frame before value middle outcome after ⟨_, hargument⟩ ⟨_, hbody⟩
    have hampersand : name ≠ .ampersand := by
      rintro rfl
      exact absurd h (by decide)
    have hform : EvaluatesForm .function frame [.vector [.symbol name], body] before _ _ :=
      .function rfl (Parameters.ofItems_singleton hampersand)
    have hclosure :
        Evaluates (.list [.symbol ⟨SpecialForm.function.name⟩, .vector [.symbol name], body])
          frame before _ _ := .form rfl hform
    exact (Evaluates.call rfl hclosure (.cons (.of_ends hargument) .nil)
      (.one (.of_ends hbody))).eventually.exists

/-- Bindings that cannot be looked up do not matter. In stores that differ only in what the names of
a set stand for, an expression ends in the one exactly if it ends in the other, with the same
outcome, and the stores that it leaves differ in these names only: provided that each name of the
set is a constant, or is no part of the expression or of a closure that some other name stands for.
That constants can be bound in every way has therefore no consequences. -/
theorem hidden_bindings_do_not_matter {X : Set Symbol} {s t : Store} (hagrees : s.AgreesOutside X t)
    {expression : Value}
    (hhidden : ∀ name ∈ X, name.isConstant ∨ name ∉ expression.symbols ∧
      ∀ frame, ∀ other ∉ X, ∀ value, Entries.get? other (s.bindings frame) = some value →
        name ∉ value.closureSymbols) (frame : FrameId) :
    (∀ outcome after, EvaluatesTo expression frame s outcome after →
        ∃ after', EvaluatesTo expression frame t outcome after' ∧ after.AgreesOutside X after') ∧
      (∀ outcome after', EvaluatesTo expression frame t outcome after' →
        ∃ after, EvaluatesTo expression frame s outcome after ∧ after.AgreesOutside X after') ∧
          ∀ name : Symbol, name.isConstant → name.IsBindable := by
  have hexpression : expression.CodeAvoids X true := by
    intro name hname hmem
    exact (hhidden name hmem).resolve_right fun hfree => hfree.1 hname
  have hstore : s.ClosuresAvoid X := by
    intro frame other hother value hvalue name hname hmem
    refine (hhidden name hmem).resolve_right fun hfree => ?_
    exact hfree.2 frame other hother value hvalue hname
  refine ⟨fun outcome after hends => hends.of_agreesOutside hagrees hstore hexpression, ?_,
    fun name hconstant => name.isBindable_of_isConstant hconstant⟩
  intro outcome after' hends
  obtain ⟨after, hends', hagrees'⟩ :=
    hends.of_agreesOutside hagrees.symm (hstore.of_agreesOutside hagrees) hexpression
  exact ⟨after, hends', hagrees'.symm⟩

/-- A function that asks whether its argument is true finds `nil` to be false also where `nil` is
bound to a number. A name that it does not mention is bound there too. -/
theorem hidden_bindings_do_not_matter_nil :
    let X : Set Symbol := {.nil, ⟨"unused"⟩}
    let f : Value := .closure 0 ⟨[⟨"x"⟩], none⟩
      [.list [.symbol ⟨"if"⟩, .symbol ⟨"x"⟩, .number 1, .number 2]] 0
    let s : Store := ⟨#[⟨[(⟨"f"⟩, f)], none, false⟩], 1, ""⟩
    let t : Store := ⟨#[⟨[(⟨"f"⟩, f), (.nil, .number 3), (⟨"unused"⟩, f)], none, false⟩], 1, ""⟩
    let expression : Value := .list [.symbol ⟨"f"⟩, .nil]
    s.AgreesOutside X t ∧
      (∀ name ∈ X, name.isConstant ∨ name ∉ expression.symbols ∧
        ∀ frame, ∀ other ∉ X, ∀ value, Entries.get? other (s.bindings frame) = some value →
          name ∉ value.closureSymbols) ∧
        ∃ after, EvaluatesTo expression 0 t (.ok (.number 2)) after := by
  intro X f s t expression
  have hagrees : s.AgreesOutside X t := by
    refine ⟨rfl, fun frame => ?_, fun frame => ?_, fun frame name hname => ?_, rfl, rfl⟩
    · cases frame <;> rfl
    · cases frame <;> rfl
    · obtain ⟨hnil, hunused⟩ : name ≠ .nil ∧ name ≠ ⟨"unused"⟩ := by simpa [X] using hname
      cases frame with
      | zero =>
        change Entries.get? name [(⟨"f"⟩, f), (.nil, .number 3), (⟨"unused"⟩, f)] =
          Entries.get? name [(⟨"f"⟩, f)]
        simp [Entries.get?_cons, hnil.symm, hunused.symm]
      | succ frame => rfl
  have hbound : ∀ frame other value, Entries.get? other (s.bindings frame) = some value →
      value = f := by
    intro frame other value hvalue
    cases frame with
    | zero =>
      change Entries.get? other [(⟨"f"⟩, f)] = some value at hvalue
      rw [Entries.get?_cons] at hvalue
      split at hvalue <;> cases hvalue
      rfl
    | succ frame => cases hvalue
  have hhidden : ∀ name ∈ X, name.isConstant ∨ name ∉ expression.symbols ∧
      ∀ frame, ∀ other ∉ X, ∀ value, Entries.get? other (s.bindings frame) = some value →
        name ∉ value.closureSymbols := by
    rintro name (rfl | rfl)
    · exact .inl rfl
    · refine .inr ⟨by decide, fun frame other _ value hvalue => ?_⟩
      rw [hbound frame other value hvalue]
      decide
  have hresult : Action.result? (evaluateWithin 9 expression 0 s) = some (.number 2) := by cbv
  obtain ⟨after, hends⟩ := Action.exists_of_result?_eq_some hresult
  obtain ⟨after', hends', -⟩ :=
    (hidden_bindings_do_not_matter hagrees hhidden 0).1 (.ok (.number 2)) after ⟨9, hends⟩
  exact ⟨hagrees, hhidden, after', hends'⟩

end SmallLisp
