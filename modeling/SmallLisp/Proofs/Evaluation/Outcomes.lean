import SmallLisp.Proofs.Evaluation.FrameEffect
import SmallLisp.Proofs.Evaluation.TailCalls

/-!
What programs come to, however much fuel that takes. Fuel beyond what is enough changes nothing, so
two programs that run alike for different amounts of fuel come to the same.
-/

namespace SmallLisp

open Evaluation

/-- With some amount of fuel the evaluation of an expression ends with the outcome and leaves the
second store. -/
def EvaluatesTo (expression : Value) (frame : FrameId) (before : Store)
    (outcome : Except Error Value) (after : Store) : Prop :=
  ∃ fuel, (evaluateWithin fuel expression frame).Ends before outcome after

/-- With some amount of fuel the call of a value ends with the outcome and leaves the second
store. -/
def CallsTo (callee : Value) (arguments : List Value) (before : Store)
    (outcome : Except Error Value) (after : Store) : Prop :=
  ∃ fuel, (finish (evaluateWithin fuel) (apply (evaluateWithin fuel) callee arguments)).Ends before
    outcome after

variable {expression callee : Value} {arguments : List Value} {frame : FrameId}
  {before after : Store} {outcome : Except Error Value}

/-- Without fuel nothing is evaluated. -/
theorem evaluatesTo_iff_succ : EvaluatesTo expression frame before outcome after ↔
    ∃ fuel, (evaluateWithin (fuel + 1) expression frame).Ends before outcome after := by
  constructor
  · rintro ⟨_ | fuel, h⟩
    · cases outcome <;> cases h
    · exact ⟨fuel, h⟩
  · rintro ⟨fuel, h⟩
    exact ⟨fuel + 1, h⟩

theorem EvaluatesTo.evaluates (h : EvaluatesTo expression frame before outcome after) :
    Evaluates expression frame before outcome after := by
  obtain ⟨fuel, hends⟩ := h
  exact .of_ends hends

theorem Evaluates.evaluatesTo (h : Evaluates expression frame before outcome after) :
    EvaluatesTo expression frame before outcome after :=
  h.eventually.exists

theorem evaluatesTo_iff_evaluates : EvaluatesTo expression frame before outcome after ↔
    Evaluates expression frame before outcome after :=
  ⟨EvaluatesTo.evaluates, Evaluates.evaluatesTo⟩

theorem EvaluatesTo.eventually (h : EvaluatesTo expression frame before outcome after) :
    ∀ᶠ fuel in Filter.atTop, (evaluateWithin fuel expression frame).Ends before outcome after :=
  h.evaluates.eventually

theorem CallsTo.applies (h : CallsTo callee arguments before outcome after) :
    Applies callee arguments before outcome after := by
  obtain ⟨fuel, hends⟩ := h
  exact .of_ends .of_ends hends

theorem Applies.callsTo (h : Applies callee arguments before outcome after) :
    CallsTo callee arguments before outcome after :=
  h.eventually.exists

theorem callsTo_iff_applies : CallsTo callee arguments before outcome after ↔
    Applies callee arguments before outcome after :=
  ⟨CallsTo.applies, Applies.callsTo⟩

/-- An expression comes to one thing at most. -/
theorem EvaluatesTo.unique {other : Except Error Value} {store : Store}
    (h : EvaluatesTo expression frame before outcome after)
    (h' : EvaluatesTo expression frame before other store) : outcome = other ∧ after = store := by
  obtain ⟨fuel, hfirst, hsecond⟩ := (h.eventually.and h'.eventually).exists
  exact hfirst.unique hsecond

/-- An expression comes to what another one comes to with some fuel less. -/
theorem EvaluatesTo.of_eq {other : Value} {less more : Nat}
    (heq : ∀ fuel,
      evaluateWithin (fuel + less) expression frame = evaluateWithin (fuel + more) other frame)
    (h : EvaluatesTo expression frame before outcome after) :
    EvaluatesTo other frame before outcome after := by
  obtain ⟨enough, hends⟩ := Filter.eventually_atTop.1 h.eventually
  refine ⟨enough + more, ?_⟩
  rw [← heq enough]
  exact hends (enough + less) (Nat.le_add_right ..)

/-- Two expressions that run alike, but for a difference in fuel, come to the same. -/
theorem evaluatesTo_iff_of_eq {other : Value} {less more : Nat}
    (heq : ∀ fuel,
      evaluateWithin (fuel + less) expression frame = evaluateWithin (fuel + more) other frame) :
    EvaluatesTo expression frame before outcome after ↔
      EvaluatesTo other frame before outcome after :=
  ⟨.of_eq heq, .of_eq fun fuel => (heq fuel).symm⟩

theorem EvaluatesTo.writesOnly
    (h : EvaluatesTo expression frame before outcome after) {bound : FrameId}
    (hbound : bound ≤ before.frames.size) (hframe : frame < before.frames.size) :
    before.WritesOnly bound (before.definitionFrame frame) expression.definedNames after := by
  obtain ⟨fuel, hends⟩ := h
  have hwrites := evaluateWithin_writes fuel bound frame expression before hbound hframe
  rwa [hends.after_eq] at hwrites

theorem Store.write_empty (store : Store) : store.write "" = store := by
  rw [write, String.append_empty]

theorem callsTo_builtin_iff {operation : Builtin} {value : Value}
    (haccepts : operation.arity.accepts arguments.length)
    (hvalue : operation.value arguments = .ok value) :
    CallsTo (.builtin operation) arguments before outcome after ↔
      outcome = .ok value ∧ after = before.write (operation.written arguments) := by
  simp only [CallsTo, finish_apply_builtin, exists_const]
  rw [Builtin.call, if_pos haccepts, hvalue]
  exact Action.ends_pure_iff

theorem evaluates_use_iff {form : SpecialForm} :
    Evaluates (form.use arguments) frame before outcome after ↔
      EvaluatesForm form frame arguments before outcome after := by
  have hhead := formOfHead?_name form
  constructor
  · intro h
    cases h with
    | self hself => cases hself
    | form hform harguments =>
      rw [hhead] at hform
      cases hform
      exact harguments
    | headFails hform | argumentsFail hform | call hform =>
      rw [hhead] at hform
      cases hform
  · intro h
    exact .form hhead h

theorem evaluates_sequence_iff {body : List Value} :
    Evaluates (SpecialForm.sequence.use body) frame before outcome after ↔
      EvaluatesBody body frame before outcome after := by
  rw [evaluates_use_iff]
  constructor
  · intro h
    cases h with
    | malformed hform => cases hform
    | sequence hbody => exact hbody
  · exact .sequence

end SmallLisp
