import Mathlib.Order.Filter.AtTopBot.Basic
import SmallLisp.Proofs.Evaluation.BigStep

/-!
Handing back the last expression keeps the meaning of programs. What the evaluator returns, given
enough fuel, is what the rules say, and it returns whatever the rules say.
-/

namespace SmallLisp

open SmallLisp.Action Evaluation

section

variable {evaluate : Evaluator}
  (hevaluate : ∀ {expression frame before outcome after},
    (evaluate expression frame).Ends before outcome after →
      Evaluates expression frame before outcome after)

include hevaluate

theorem EvaluatesAll.of_ends {frame : FrameId} {expressions : List Value} {before after : Store}
    {outcome : Except Error (List Value)}
    (h : (evaluateAll evaluate frame expressions).Ends before outcome after) :
    EvaluatesAll expressions frame before outcome after := by
  induction expressions generalizing before outcome with
  | nil =>
    obtain ⟨rfl, rfl⟩ := ends_pure_iff.1 h
    exact .nil
  | cons expression rest ih =>
    rw [evaluateAll, List.mapM_cons] at h
    rcases ends_bind_iff.1 h with ⟨e, hhead, rfl⟩ | ⟨value, middle, hhead, hrest⟩
    · exact .headFails (hevaluate hhead)
    · rcases ends_bind_iff.1 hrest with ⟨e, htail, rfl⟩ | ⟨values, final, htail, hpure⟩
      · exact .tailFails (hevaluate hhead) (ih htail)
      · obtain ⟨rfl, rfl⟩ := ends_pure_iff.1 hpure
        exact .cons (hevaluate hhead) (ih htail)

theorem EvaluatesEntries.of_ends {frame : FrameId} {entries : List (Value × Value)}
    {before after : Store} {outcome : Except Error (List (Value × Value))}
    (h : (evaluateEntries evaluate frame entries).Ends before outcome after) :
    EvaluatesEntries entries frame before outcome after := by
  induction entries generalizing before outcome with
  | nil =>
    obtain ⟨rfl, rfl⟩ := ends_pure_iff.1 h
    exact .nil
  | cons entry rest ih =>
    obtain ⟨key, value⟩ := entry
    simp only [evaluateEntries, List.mapM_cons, bind_assoc, pure_bind] at h
    rcases ends_bind_iff.1 h with ⟨e, hkey, rfl⟩ | ⟨newKey, middle, hkey, hentry⟩
    · exact .keyFails (hevaluate hkey)
    rcases ends_bind_iff.1 hentry with ⟨e, hvalue, rfl⟩ | ⟨newValue, entered, hvalue, hrest⟩
    · exact .valueFails (hevaluate hkey) (hevaluate hvalue)
    rcases ends_bind_iff.1 hrest with ⟨e, htail, rfl⟩ | ⟨newEntries, final, htail, hpure⟩
    · exact .tailFails (hevaluate hkey) (hevaluate hvalue) (ih htail)
    · obtain ⟨rfl, rfl⟩ := ends_pure_iff.1 hpure
      exact .cons (hevaluate hkey) (hevaluate hvalue) (ih htail)

theorem EvaluatesBody.of_ends {frame : FrameId} {body : List Value} {before after : Store}
    {outcome : Except Error Value}
    (h : (finish evaluate (runBody evaluate frame body)).Ends before outcome after) :
    EvaluatesBody body frame before outcome after := by
  induction body generalizing before with
  | nil =>
    obtain ⟨rfl, rfl⟩ := ends_pure_iff.1 h
    exact .nil
  | cons expression rest ih =>
    cases rest with
    | nil => exact .last (hevaluate h)
    | cons next rest =>
      rw [finish_runBody_cons] at h
      rcases ends_bind_iff.1 h with ⟨e, hhead, rfl⟩ | ⟨value, middle, hhead, htail⟩
      · exact .headFails (hevaluate hhead)
      · exact .cons (hevaluate hhead) (ih htail)

theorem EvaluatesBranches.of_ends {frame : FrameId} {branches : List Value} {before after : Store}
    {outcome : Except Error Value}
    (h : (finish evaluate (chooseBranch evaluate frame branches)).Ends before outcome after) :
    EvaluatesBranches branches frame before outcome after := by
  fun_induction chooseBranch evaluate frame branches generalizing before with
  | case1 condition branch rest ih =>
    rw [← chooseBranch, finish_chooseBranch_cons] at h
    rcases ends_bind_iff.1 h with ⟨e, hcondition, rfl⟩ | ⟨value, middle, hcondition, hchosen⟩
    · exact .conditionFails (hevaluate hcondition)
    cases htrue : value.isTruthy with
    | true =>
      rw [if_pos htrue] at hchosen
      exact .holds (hevaluate hcondition) htrue (hevaluate hchosen)
    | false =>
      rw [if_neg (by simp [htrue])] at hchosen
      exact .fails (hevaluate hcondition) htrue (ih hchosen)
  | case2 final => exact .otherwise (hevaluate h)
  | case3 =>
    obtain ⟨rfl, rfl⟩ := ends_pure_iff.1 h
    exact .nil

theorem EvaluatesPairs.of_ends {frame : FrameId} {bind : Symbol → Value → Store → Store}
    {nameExpected : String} {last : Value} {pairs : List Value} {before after : Store}
    {outcome : Except Error Value}
    (h : (bindPairs evaluate frame bind nameExpected last pairs).Ends before outcome after) :
    EvaluatesPairs frame bind nameExpected last pairs before outcome after := by
  fun_induction bindPairs evaluate frame bind nameExpected last pairs generalizing before with
  | case1 last name expression rest ih =>
    rcases ends_bind_iff.1 h with ⟨e, hvalue, rfl⟩ | ⟨value, middle, hvalue, hbind⟩
    · exact .valueFails (hevaluate hvalue)
    · exact .bind (hevaluate hvalue) (ih value (ends_modify_bind_iff.1 hbind))
  | case2 last target expression rest hname =>
    obtain ⟨rfl, rfl⟩ := ends_fail_iff.1 h
    exact .noName hname
  | case3 pairs last hname hpair =>
    obtain ⟨rfl, rfl⟩ := ends_pure_iff.1 h
    apply EvaluatesPairs.done
    rcases pairs with _ | ⟨target, _ | ⟨expression, rest⟩⟩
    · simp
    · simp
    · exact absurd rfl (hpair target expression rest)

theorem Applies.of_ends {callee : Value} {arguments : List Value} {before after : Store}
    {outcome : Except Error Value}
    (h : (finish evaluate (apply evaluate callee arguments)).Ends before outcome after) :
    Applies callee arguments before outcome after := by
  cases callee with
  | builtin operation =>
    rw [finish_apply_builtin] at h
    exact .builtin h
  | closure identity parameters body scope =>
    rw [finish_apply_closure] at h
    cases harity : parameters.arity.accepts arguments.length with
    | true =>
      rw [if_pos harity] at h
      exact .closure harity (.of_ends hevaluate (ends_newFrame_bind_iff.1 h))
    | false =>
      rw [if_neg (by simp [harity])] at h
      obtain ⟨rfl, rfl⟩ := ends_fail_iff.1 h
      exact .wrongArity harity
  | _ =>
    obtain ⟨rfl, rfl⟩ := ends_fail_iff.1 h
    exact .notCallable rfl

theorem EvaluatesForm.of_ends {form : SpecialForm} {frame : FrameId} {arguments : List Value}
    {before after : Store} {outcome : Except Error Value}
    (h : (finish evaluate (applyForm evaluate form frame arguments)).Ends before outcome after) :
    EvaluatesForm form frame arguments before outcome after := by
  cases hwell : form.isWellFormed arguments with
  | false =>
    rw [finish_applyForm_malformed evaluate frame hwell] at h
    obtain ⟨rfl, rfl⟩ := ends_fail_iff.1 h
    exact .malformed hwell
  | true =>
    cases form with
    | define =>
      rw [finish_applyForm_define evaluate frame hwell] at h
      exact .define hwell (.of_ends hevaluate h)
    | bindLocally =>
      obtain ⟨bindings, body, pairs, rfl, hpairs⟩ := SpecialForm.bindings_of_isWellFormed hwell
      rw [finish_applyForm_bindLocally evaluate frame hwell hpairs, ends_newFrame_bind_iff] at h
      rcases ends_bind_iff.1 h with ⟨e, hbind, rfl⟩ | ⟨value, middle, hbind, hbody⟩
      · exact .bindingFails hwell hpairs (.of_ends hevaluate hbind)
      · exact .bindLocally hwell hpairs (.of_ends hevaluate hbind) (.of_ends hevaluate hbody)
    | sequence =>
      rw [finish_applyForm_sequence] at h
      exact .sequence (.of_ends hevaluate h)
    | choose =>
      rw [finish_applyForm_choose evaluate frame hwell] at h
      exact .choose hwell (.of_ends hevaluate h)
    | function =>
      obtain ⟨parameters, body, items, rfl, hitems⟩ := SpecialForm.items_of_isWellFormed hwell
      rw [finish_applyForm_function evaluate frame hitems, makeClosure] at h
      rcases ends_bind_iff.1 h with ⟨e, hparameters, rfl⟩ | ⟨accepted, middle, hparameters, hrest⟩
      · obtain ⟨herror, rfl⟩ := ends_ofExcept_iff.1 hparameters
        exact .noParameters hitems herror.symm
      · obtain ⟨hok, rfl⟩ := ends_ofExcept_iff.1 hparameters
        rw [ends_newIdentity_bind_iff] at hrest
        obtain ⟨rfl, rfl⟩ := ends_pure_iff.1 hrest
        exact .function hitems hok.symm

/-- One expression means what the rules say, when its subexpressions do. -/
theorem Evaluates.of_ends_step {expression : Value} {frame : FrameId} {before after : Store}
    {outcome : Except Error Value}
    (h : (finish evaluate (step evaluate expression frame)).Ends before outcome after) :
    Evaluates expression frame before outcome after := by
  cases expression with
  | map entries =>
    rw [step, finish_bind] at h
    rcases ends_bind_iff.1 h with ⟨e, hentries, rfl⟩ | ⟨values, middle, hentries, hdone⟩
    · exact .mapFails (.of_ends hevaluate hentries)
    · obtain ⟨rfl, rfl⟩ := ends_pure_iff.1 hdone
      exact .map (.of_ends hevaluate hentries)
  | vector items =>
    rw [step, finish_bind] at h
    rcases ends_bind_iff.1 h with ⟨e, hitems, rfl⟩ | ⟨values, middle, hitems, hdone⟩
    · exact .vectorFails (.of_ends hevaluate hitems)
    · obtain ⟨rfl, rfl⟩ := ends_pure_iff.1 hdone
      exact .vector (.of_ends hevaluate hitems)
  | list items =>
    cases items with
    | nil =>
      obtain ⟨rfl, rfl⟩ := ends_pure_iff.1 h
      exact .self rfl
    | cons head arguments =>
      rw [step] at h
      split at h
      · next form hform => exact .form hform (.of_ends hevaluate h)
      · next hform =>
        rw [finish_bind] at h
        rcases ends_bind_iff.1 h with ⟨e, hhead, rfl⟩ | ⟨callee, middle, hhead, hcall⟩
        · exact .headFails hform (hevaluate hhead)
        rw [finish_bind] at hcall
        rcases ends_bind_iff.1 hcall with ⟨e, harguments, rfl⟩ | ⟨values, called, harguments, hcall⟩
        · exact .argumentsFail hform (hevaluate hhead) (.of_ends hevaluate harguments)
        · exact .call hform (hevaluate hhead) (.of_ends hevaluate harguments)
            (.of_ends hevaluate hcall)
  | symbol symbol =>
    rw [step] at h
    cases hconstant : symbol.isConstant with
    | true =>
      rw [if_pos hconstant] at h
      obtain ⟨rfl, rfl⟩ := ends_pure_iff.1 h
      exact .self hconstant
    | false =>
      rw [if_neg (by simp [hconstant]), finish_bind_done, ends_lookup_iff] at h
      obtain ⟨rfl, rfl⟩ := h
      cases hvalue : after.get? frame symbol with
      | none => exact .unbound hconstant hvalue
      | some value => exact .bound hconstant hvalue
  | _ =>
    obtain ⟨rfl, rfl⟩ := ends_pure_iff.1 h
    exact .self rfl

end

theorem Evaluates.of_ends {fuel : Nat} {expression : Value} {frame : FrameId}
    {before after : Store} {outcome : Except Error Value}
    (h : (evaluateWithin fuel expression frame).Ends before outcome after) :
    Evaluates expression frame before outcome after := by
  induction fuel generalizing expression frame before outcome after with
  | zero => cases outcome <;> cases h
  | succ fuel ih =>
    rw [evaluateWithin_succ] at h
    exact .of_ends_step ih h

theorem eventually_of_step {expression : Value} {frame : FrameId} {before after : Store}
    {outcome : Except Error Value}
    (h : ∀ᶠ fuel in Filter.atTop, (finish (evaluateWithin fuel)
      (step (evaluateWithin fuel) expression frame)).Ends before outcome after) :
    ∀ᶠ fuel in Filter.atTop, (evaluateWithin fuel expression frame).Ends before outcome after := by
  obtain ⟨enough, henough⟩ := Filter.eventually_atTop.1 h
  apply Filter.eventually_atTop.2
  refine ⟨enough + 1, ?_⟩
  intro fuel hfuel
  obtain ⟨less, rfl⟩ := Nat.exists_eq_add_of_le' hfuel
  exact henough (less + enough) (Nat.le_add_left ..)

theorem step_of_isSelfEvaluating (evaluate : Evaluator) (frame : FrameId) {expression : Value}
    (h : expression.isSelfEvaluating) :
    step evaluate expression frame = pure (.done expression) := by
  cases expression with
  | symbol symbol =>
    have hconstant : symbol.isConstant := h
    rw [step, if_pos hconstant]
  | list items =>
    cases items with
    | nil => rfl
    | cons => cases h
  | vector | map => cases h
  | _ => rfl

theorem step_of_not_isConstant (evaluate : Evaluator) (frame : FrameId) {symbol : Symbol}
    (h : symbol.isConstant = false) :
    finish evaluate (step evaluate (.symbol symbol) frame) = lookup frame symbol := by
  rw [step, if_neg (by simp [h]), finish_bind_done]

mutual

/-- With enough fuel every outcome is reached. The induction follows the rules, and each case takes
fuel that is enough for all its premises. -/
theorem Evaluates.eventually {expression : Value} {frame : FrameId} {before after : Store}
    {outcome : Except Error Value} : Evaluates expression frame before outcome after →
      ∀ᶠ fuel in Filter.atTop, (evaluateWithin fuel expression frame).Ends before outcome after
  | .self hself => by
    apply eventually_of_step
    apply Filter.Eventually.of_forall
    intro fuel
    rw [step_of_isSelfEvaluating _ _ hself]
    rfl
  | .bound hsymbol hvalue => by
    apply eventually_of_step
    apply Filter.Eventually.of_forall
    intro fuel
    rw [step_of_not_isConstant _ _ hsymbol, ends_lookup_iff, hvalue]
    exact ⟨rfl, rfl⟩
  | .unbound hsymbol hvalue => by
    apply eventually_of_step
    apply Filter.Eventually.of_forall
    intro fuel
    rw [step_of_not_isConstant _ _ hsymbol, ends_lookup_iff, hvalue]
    exact ⟨rfl, rfl⟩
  | .vector hitems => by
    apply eventually_of_step
    filter_upwards [hitems.eventually] with fuel hitems
    rw [step, finish_bind]
    exact hitems.bind rfl
  | .vectorFails hitems => by
    apply eventually_of_step
    filter_upwards [hitems.eventually] with fuel hitems
    rw [step, finish_bind]
    exact hitems.bind_error
  | .map hentries => by
    apply eventually_of_step
    filter_upwards [hentries.eventually] with fuel hentries
    rw [step, finish_bind]
    exact hentries.bind rfl
  | .mapFails hentries => by
    apply eventually_of_step
    filter_upwards [hentries.eventually] with fuel hentries
    rw [step, finish_bind]
    exact hentries.bind_error
  | .form hform harguments => by
    apply eventually_of_step
    filter_upwards [harguments.eventually] with fuel harguments
    simp only [step, hform]
    exact harguments
  | .headFails hform hhead => by
    apply eventually_of_step
    filter_upwards [hhead.eventually] with fuel hhead
    simp only [step, hform, finish_bind]
    exact hhead.bind_error
  | .argumentsFail hform hhead harguments => by
    apply eventually_of_step
    filter_upwards [hhead.eventually, harguments.eventually] with fuel hhead harguments
    simp only [step, hform, finish_bind]
    exact hhead.bind harguments.bind_error
  | .call hform hhead harguments hcall => by
    apply eventually_of_step
    filter_upwards [hhead.eventually, harguments.eventually, hcall.eventually]
      with fuel hhead harguments hcall
    simp only [step, hform, finish_bind]
    exact hhead.bind (harguments.bind hcall)

theorem EvaluatesAll.eventually {expressions : List Value} {frame : FrameId} {before after : Store}
    {outcome : Except Error (List Value)} : EvaluatesAll expressions frame before outcome after →
      ∀ᶠ fuel in Filter.atTop,
        (evaluateAll (evaluateWithin fuel) frame expressions).Ends before outcome after
  | .nil => .of_forall fun _ => rfl
  | .headFails hhead => by
    filter_upwards [hhead.eventually] with fuel hhead
    rw [evaluateAll, List.mapM_cons]
    exact hhead.bind_error
  | .tailFails hhead htail => by
    filter_upwards [hhead.eventually, htail.eventually] with fuel hhead htail
    rw [evaluateAll, List.mapM_cons]
    exact hhead.bind htail.bind_error
  | .cons hhead htail => by
    filter_upwards [hhead.eventually, htail.eventually] with fuel hhead htail
    rw [evaluateAll, List.mapM_cons]
    exact hhead.bind (htail.bind rfl)

theorem EvaluatesEntries.eventually {entries : List (Value × Value)} {frame : FrameId}
    {before after : Store} {outcome : Except Error (List (Value × Value))} :
    EvaluatesEntries entries frame before outcome after →
      ∀ᶠ fuel in Filter.atTop,
        (evaluateEntries (evaluateWithin fuel) frame entries).Ends before outcome after
  | .nil => .of_forall fun _ => rfl
  | .keyFails hkey => by
    filter_upwards [hkey.eventually] with fuel hkey
    simp only [evaluateEntries, List.mapM_cons, bind_assoc, pure_bind]
    exact hkey.bind_error
  | .valueFails hkey hvalue => by
    filter_upwards [hkey.eventually, hvalue.eventually] with fuel hkey hvalue
    simp only [evaluateEntries, List.mapM_cons, bind_assoc, pure_bind]
    exact hkey.bind hvalue.bind_error
  | .tailFails hkey hvalue htail => by
    filter_upwards [hkey.eventually, hvalue.eventually, htail.eventually]
      with fuel hkey hvalue htail
    simp only [evaluateEntries, List.mapM_cons, bind_assoc, pure_bind]
    exact hkey.bind (hvalue.bind htail.bind_error)
  | .cons hkey hvalue htail => by
    filter_upwards [hkey.eventually, hvalue.eventually, htail.eventually]
      with fuel hkey hvalue htail
    simp only [evaluateEntries, List.mapM_cons, bind_assoc, pure_bind]
    exact hkey.bind (hvalue.bind (htail.bind rfl))

theorem EvaluatesBody.eventually {body : List Value} {frame : FrameId} {before after : Store}
    {outcome : Except Error Value} : EvaluatesBody body frame before outcome after →
      ∀ᶠ fuel in Filter.atTop, (finish (evaluateWithin fuel)
        (runBody (evaluateWithin fuel) frame body)).Ends before outcome after
  | .nil => .of_forall fun _ => rfl
  | .last hlast => by
    filter_upwards [hlast.eventually] with fuel hlast
    exact hlast
  | .headFails hhead => by
    filter_upwards [hhead.eventually] with fuel hhead
    rw [finish_runBody_cons]
    exact hhead.bind_error
  | .cons hhead htail => by
    filter_upwards [hhead.eventually, htail.eventually] with fuel hhead htail
    rw [finish_runBody_cons]
    exact hhead.bind htail

theorem EvaluatesBranches.eventually {branches : List Value} {frame : FrameId}
    {before after : Store} {outcome : Except Error Value} :
    EvaluatesBranches branches frame before outcome after →
      ∀ᶠ fuel in Filter.atTop, (finish (evaluateWithin fuel)
        (chooseBranch (evaluateWithin fuel) frame branches)).Ends before outcome after
  | .nil => .of_forall fun _ => rfl
  | .otherwise hlast => by
    filter_upwards [hlast.eventually] with fuel hlast
    exact hlast
  | .conditionFails hcondition => by
    filter_upwards [hcondition.eventually] with fuel hcondition
    rw [finish_chooseBranch_cons]
    exact hcondition.bind_error
  | .holds hcondition htrue hbranch => by
    filter_upwards [hcondition.eventually, hbranch.eventually] with fuel hcondition hbranch
    rw [finish_chooseBranch_cons]
    apply hcondition.bind
    rw [if_pos htrue]
    exact hbranch
  | .fails hcondition hfalse hrest => by
    filter_upwards [hcondition.eventually, hrest.eventually] with fuel hcondition hrest
    rw [finish_chooseBranch_cons]
    apply hcondition.bind
    rw [if_neg (by simp [hfalse])]
    exact hrest

theorem EvaluatesPairs.eventually {frame : FrameId} {bind : Symbol → Value → Store → Store}
    {nameExpected : String} {last : Value} {pairs : List Value} {before after : Store}
    {outcome : Except Error Value} :
    EvaluatesPairs frame bind nameExpected last pairs before outcome after →
      ∀ᶠ fuel in Filter.atTop, (bindPairs (evaluateWithin fuel) frame bind nameExpected last
        pairs).Ends before outcome after
  | .done hpairs => by
    apply Filter.Eventually.of_forall
    intro fuel
    rw [bindPairs_of_length_lt _ _ _ _ _ hpairs]
    rfl
  | .noName htarget => by
    apply Filter.Eventually.of_forall
    intro fuel
    rw [bindPairs]
    · rfl
    · exact htarget
  | .valueFails hvalue => by
    filter_upwards [hvalue.eventually] with fuel hvalue
    rw [bindPairs]
    exact hvalue.bind_error
  | .bind hvalue hrest => by
    filter_upwards [hvalue.eventually, hrest.eventually] with fuel hvalue hrest
    rw [bindPairs]
    exact hvalue.bind (ends_modify_bind_iff.2 hrest)

theorem Applies.eventually {callee : Value} {arguments : List Value} {before after : Store}
    {outcome : Except Error Value} : Applies callee arguments before outcome after →
      ∀ᶠ fuel in Filter.atTop, (finish (evaluateWithin fuel)
        (apply (evaluateWithin fuel) callee arguments)).Ends before outcome after
  | .builtin hcall => by
    apply Filter.Eventually.of_forall
    intro fuel
    rw [finish_apply_builtin]
    exact hcall
  | .closure harity hbody => by
    filter_upwards [hbody.eventually] with fuel hbody
    rw [finish_apply_closure, if_pos harity]
    exact ends_newFrame_bind_iff.2 hbody
  | .wrongArity harity => by
    apply Filter.Eventually.of_forall
    intro fuel
    rw [finish_apply_closure, if_neg (by simp [harity])]
    rfl
  | .notCallable hcallee => by
    apply Filter.Eventually.of_forall
    intro fuel
    cases callee <;> first | rfl | cases hcallee

theorem EvaluatesForm.eventually {form : SpecialForm} {frame : FrameId} {arguments : List Value}
    {before after : Store} {outcome : Except Error Value} :
    EvaluatesForm form frame arguments before outcome after →
      ∀ᶠ fuel in Filter.atTop, (finish (evaluateWithin fuel)
        (applyForm (evaluateWithin fuel) form frame arguments)).Ends before outcome after
  | .malformed hform => by
    apply Filter.Eventually.of_forall
    intro fuel
    rw [finish_applyForm_malformed _ _ hform]
    rfl
  | .define hform hpairs => by
    filter_upwards [hpairs.eventually] with fuel hpairs
    rw [finish_applyForm_define _ _ hform]
    exact hpairs
  | .bindingFails hform hbindings hpairs => by
    filter_upwards [hpairs.eventually] with fuel hpairs
    rw [finish_applyForm_bindLocally _ _ hform hbindings, ends_newFrame_bind_iff]
    exact hpairs.bind_error
  | .bindLocally hform hbindings hpairs hbody => by
    filter_upwards [hpairs.eventually, hbody.eventually] with fuel hpairs hbody
    rw [finish_applyForm_bindLocally _ _ hform hbindings, ends_newFrame_bind_iff]
    exact hpairs.bind hbody
  | .sequence hbody => by
    filter_upwards [hbody.eventually] with fuel hbody
    rw [finish_applyForm_sequence]
    exact hbody
  | .choose hform hbranches => by
    filter_upwards [hbranches.eventually] with fuel hbranches
    rw [finish_applyForm_choose _ _ hform]
    exact hbranches
  | .noParameters hitems hparameters => by
    apply Filter.Eventually.of_forall
    intro fuel
    rw [finish_applyForm_function _ _ hitems, makeClosure, hparameters]
    rfl
  | .function hitems hparameters => by
    apply Filter.Eventually.of_forall
    intro fuel
    rw [finish_applyForm_function _ _ hitems, makeClosure, hparameters]
    rfl

end

/-- The evaluator, which hands tail expressions back to its loop, ends with an outcome and a store
for some amount of fuel exactly when the rules, which evaluate them in place, derive these. What was
written is part of the store. -/
theorem ends_iff_evaluates (expression : Value) (frame : FrameId) (before : Store)
    (outcome : Except Error Value) (after : Store) :
    (∃ fuel, (evaluateWithin fuel expression frame).Ends before outcome after) ↔
      Evaluates expression frame before outcome after := by
  constructor
  · rintro ⟨fuel, h⟩
    exact .of_ends h
  · intro h
    exact h.eventually.exists

end SmallLisp
