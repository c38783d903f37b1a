import SmallLisp.Proofs.Evaluation.Outcomes

/-!
Calls of operations on numbers. All the arguments are looked at before anything is computed from
them, so the first one that is no number is what the call fails at, whatever the others are.
-/

namespace SmallLisp.Builtin

/-- In every store a call of the operation comes to this outcome, and it changes nothing there. -/
def Gives (operation : Builtin) (arguments : List Value) (outcome : Except Error Value) : Prop :=
  ∀ before found after,
    CallsTo (.builtin operation) arguments before found after ↔ found = outcome ∧ after = before

theorem Gives.unique {operation : Builtin} {arguments : List Value}
    {first second : Except Error Value}
    (h : operation.Gives arguments first) (h' : operation.Gives arguments second) :
    first = second := by
  have hcalls := (h Store.empty first Store.empty).2 ⟨rfl, rfl⟩
  exact ((h' Store.empty first Store.empty).1 hcalls).1

/-- An operation that writes nothing gives its value, or fails as its value does. -/
theorem gives_value {operation : Builtin} {arguments : List Value}
    (haccepts : operation.arity.accepts arguments.length)
    (hwritten : operation.written arguments = "") :
    operation.Gives arguments (operation.value arguments) := by
  intro before found after
  cases hvalue : operation.value arguments with
  | ok value => rw [callsTo_builtin_iff haccepts hvalue, hwritten, Store.write_empty]
  | error e =>
    simp only [CallsTo, Evaluation.finish_apply_builtin, exists_const]
    rw [call, if_pos haccepts, hvalue]
    exact Action.ends_fail_iff

/-- The argument at this place, counted from one, is no number, and all before it are numbers. -/
def IsFirstStray (arguments : List Value) (place : Nat) (stray : Value) : Prop :=
  ∃ (numbers : List Int64) (rest : List Value),
    arguments = numbers.map .number ++ stray :: rest ∧ place = numbers.length + 1 ∧
      ∀ n, stray ≠ .number n

/-- The error about an argument that is no number. -/
def strayError (operation : Builtin) (place : Nat) (stray : Value) : Error :=
  .type s!"{operation.name}: argument {place} must be a number, got {stray.typeName}"

/-- Either all arguments are numbers, or one of them is the first that is none. -/
theorem eq_map_number_or_isFirstStray (arguments : List Value) :
    (∃ numbers : List Int64, arguments = numbers.map .number) ∨
      ∃ place stray, IsFirstStray arguments place stray := by
  induction arguments with
  | nil => exact .inl ⟨[], rfl⟩
  | cons first rest ih =>
    by_cases hfirst : ∃ n, first = .number n
    · obtain ⟨n, rfl⟩ := hfirst
      rcases ih with ⟨numbers, rfl⟩ | ⟨_, stray, numbers, others, rfl, rfl, hstray⟩
      · exact .inl ⟨n :: numbers, rfl⟩
      · exact .inr ⟨_, stray, n :: numbers, others, rfl, rfl, hstray⟩
    · exact .inr ⟨_, first, [], rest, rfl, rfl, not_exists.1 hfirst⟩

theorem numbers_map_number (operation : Builtin) (place : Nat) (ns : List Int64) :
    numbers operation place (ns.map .number) = .ok ns := by
  induction ns generalizing place with
  | nil => rfl
  | cons n ns ih =>
    rw [List.map_cons, numbers, ih]
    rfl

theorem numbers_append_stray (operation : Builtin) (place : Nat) (ns : List Int64) {stray : Value}
    (hstray : ∀ n, stray ≠ .number n) (rest : List Value) :
    numbers operation place (ns.map .number ++ stray :: rest) =
      .error (operation.strayError (place + ns.length) stray) := by
  induction ns generalizing place with
  | nil =>
    cases stray with
    | number n => exact absurd rfl (hstray n)
    | _ => rfl
  | cons n ns ih =>
    rw [List.map_cons, List.cons_append, numbers, ih, List.length_cons, Nat.add_right_comm,
      Nat.add_assoc]
    rfl

/-- Whether an operation takes numbers only. -/
def isNumeric : Builtin → Bool
  | add | subtract | multiply | divide => true
  | less | lessOrEqual | greater | greaterOrEqual => true
  | _ => false

theorem gives_of_isFirstStray {operation : Builtin} (hnumeric : operation.isNumeric)
    {arguments : List Value} (haccepts : operation.arity.accepts arguments.length) {place : Nat}
    {stray : Value} (h : IsFirstStray arguments place stray) :
    operation.Gives arguments (.error (operation.strayError place stray)) := by
  obtain ⟨ns, rest, rfl, rfl, hstray⟩ := h
  have hnumbers := numbers_append_stray operation 1 ns hstray rest
  rw [Nat.add_comm] at hnumbers
  have hvalue : operation.value (ns.map .number ++ stray :: rest) =
      .error (operation.strayError (ns.length + 1) stray) := by
    cases operation with
    | add | subtract | multiply | divide =>
      rw [value, calculate, hnumbers]
      rfl
    | less | lessOrEqual | greater | greaterOrEqual =>
      rw [value, compare, hnumbers]
      rfl
    | _ => cases hnumeric
  have hwritten : operation.written (ns.map .number ++ stray :: rest) = "" := by
    cases operation with
    | printLine | displayLine => cases hnumeric
    | _ => rfl
  rw [← hvalue]
  exact gives_value haccepts hwritten

/-- Where some argument is no number, the call fails at the first that is none. -/
theorem exists_gives_strayError {operation : Builtin} (hnumeric : operation.isNumeric)
    {arguments : List Value} (haccepts : operation.arity.accepts arguments.length)
    (h : ∃ argument ∈ arguments, ∀ n, argument ≠ .number n) :
    ∃ place stray, IsFirstStray arguments place stray ∧
      operation.Gives arguments (.error (operation.strayError place stray)) := by
  rcases eq_map_number_or_isFirstStray arguments with ⟨numbers, rfl⟩ | ⟨place, stray, hstray⟩
  · obtain ⟨_, hmem, hother⟩ := h
    obtain ⟨n, -, rfl⟩ := List.mem_map.1 hmem
    exact absurd rfl (hother n)
  · exact ⟨place, stray, hstray, gives_of_isFirstStray hnumeric haccepts hstray⟩

end SmallLisp.Builtin
