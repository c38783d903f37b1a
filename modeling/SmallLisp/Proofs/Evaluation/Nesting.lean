import Mathlib
import SmallLisp.Proofs.Evaluation.Outcomes
import SmallLisp.Session

/-!
Special forms inside special forms. A choice with more than one condition is a choice with one,
whose last branch is the choice among the rest. A sequence that stands in a sequence is a part of
it. The body of a local binding form is a sequence. So programs with only one condition a choice and
one expression a body can say whatever other programs say.
-/

namespace SmallLisp

/-- In every frame of every store the two expressions end with the same outcomes and leave the same
stores. What they write is part of the stores. -/
def Interchangeable (first second : Value) : Prop :=
  ∀ frame before outcome after,
    EvaluatesTo first frame before outcome after ↔ EvaluatesTo second frame before outcome after

variable {frame : FrameId} {before after : Store} {outcome : Except Error Value}

theorem evaluatesBody_singleton_iff {expression : Value} :
    EvaluatesBody [expression] frame before outcome after ↔
      Evaluates expression frame before outcome after := by
  constructor
  · intro h
    cases h with
    | last hlast => exact hlast
  · exact .last

theorem evaluatesBody_cons_iff {expression : Value} {rest : List Value} (hrest : rest ≠ []) :
    EvaluatesBody (expression :: rest) frame before outcome after ↔
      (∃ e, outcome = .error e ∧ Evaluates expression frame before (.error e) after) ∨
        ∃ value middle, Evaluates expression frame before (.ok value) middle ∧
          EvaluatesBody rest frame middle outcome after := by
  obtain ⟨next, rest, rfl⟩ := List.exists_cons_of_ne_nil hrest
  constructor
  · intro h
    cases h with
    | headFails hhead => exact .inl ⟨_, rfl, hhead⟩
    | cons hhead htail => exact .inr ⟨_, _, hhead, htail⟩
  · rintro (⟨e, rfl, hhead⟩ | ⟨value, middle, hhead, htail⟩)
    · exact .headFails hhead
    · exact .cons hhead htail

/-- The front of a body is a body of its own, whose value is dropped. -/
theorem evaluatesBody_append_iff {front back : List Value} (hback : back ≠ []) :
    EvaluatesBody (front ++ back) frame before outcome after ↔
      (∃ e, outcome = .error e ∧ EvaluatesBody front frame before (.error e) after) ∨
        ∃ value middle, EvaluatesBody front frame before (.ok value) middle ∧
          EvaluatesBody back frame middle outcome after := by
  induction front generalizing before with
  | nil =>
    constructor
    · intro h
      exact .inr ⟨.nil, before, .nil, h⟩
    · rintro (⟨e, -, ⟨⟩⟩ | ⟨value, middle, ⟨⟩, h⟩)
      exact h
  | cons expression front ih =>
    rw [List.cons_append, evaluatesBody_cons_iff (List.append_ne_nil_of_right_ne_nil _ hback)]
    cases front with
    | nil => simp only [List.nil_append, evaluatesBody_singleton_iff]
    | cons next front =>
      simp only [ih, evaluatesBody_cons_iff (List.cons_ne_nil next front)]
      constructor
      · rintro (hhead | ⟨value, middle, hhead, ⟨e, rfl, hfront⟩ | ⟨last, final, hfront, h⟩⟩)
        · obtain ⟨e, rfl, hhead⟩ := hhead
          exact .inl ⟨e, rfl, .inl ⟨e, rfl, hhead⟩⟩
        · exact .inl ⟨e, rfl, .inr ⟨value, middle, hhead, hfront⟩⟩
        · exact .inr ⟨last, final, .inr ⟨value, middle, hhead, hfront⟩, h⟩
      · rintro (⟨e, rfl, ⟨_, ⟨⟩, hhead⟩ | ⟨value, middle, hhead, hfront⟩⟩ |
          ⟨last, final, ⟨_, ⟨⟩, -⟩ | ⟨value, middle, hhead, hfront⟩, h⟩)
        · exact .inl ⟨e, rfl, hhead⟩
        · exact .inr ⟨value, middle, hhead, .inl ⟨e, rfl, hfront⟩⟩
        · exact .inr ⟨value, middle, hhead, .inr ⟨last, final, hfront, h⟩⟩

/-- What stands at the end of a body can be replaced by another end that comes to the same. -/
theorem evaluatesBody_append_congr {front first second : List Value} (hfirst : first ≠ [])
    (hsecond : second ≠ [])
    (h : ∀ {before}, EvaluatesBody first frame before outcome after ↔
      EvaluatesBody second frame before outcome after) :
    EvaluatesBody (front ++ first) frame before outcome after ↔
      EvaluatesBody (front ++ second) frame before outcome after := by
  simp only [evaluatesBody_append_iff hfirst, evaluatesBody_append_iff hsecond, h]

/-- A sequence at the head of a body. Where nothing stands in it or behind it, it has a value that
the body without it would not have. -/
theorem evaluatesBody_sequence_cons_iff {inner back : List Value} (h : inner ++ back ≠ []) :
    EvaluatesBody (SpecialForm.sequence.use inner :: back) frame before outcome after ↔
      EvaluatesBody (inner ++ back) frame before outcome after := by
  cases back with
  | nil => rw [evaluatesBody_singleton_iff, evaluates_sequence_iff, List.append_nil]
  | cons next back =>
    have hback := List.cons_ne_nil next back
    simp only [evaluatesBody_cons_iff hback, evaluatesBody_append_iff hback, evaluates_sequence_iff]

theorem interchangeable_sequence {front inner back : List Value} (h : inner ++ back ≠ []) :
    Interchangeable (SpecialForm.sequence.use (front ++ SpecialForm.sequence.use inner :: back))
      (SpecialForm.sequence.use (front ++ inner ++ back)) := by
  intro frame before outcome after
  rw [evaluatesTo_iff_evaluates, evaluatesTo_iff_evaluates, evaluates_sequence_iff,
    evaluates_sequence_iff, List.append_assoc]
  exact evaluatesBody_append_congr (List.cons_ne_nil _ _) h (evaluatesBody_sequence_cons_iff h)

theorem evaluates_choose_iff {branches : List Value} (h : 2 ≤ branches.length) :
    Evaluates (SpecialForm.choose.use branches) frame before outcome after ↔
      EvaluatesBranches branches frame before outcome after := by
  have hwell : SpecialForm.choose.isWellFormed branches := decide_eq_true h
  rw [evaluates_use_iff]
  constructor
  · intro hform
    cases hform with
    | malformed hmalformed =>
      rw [hwell] at hmalformed
      cases hmalformed
    | choose _ hbranches => exact hbranches
  · exact .choose hwell

theorem evaluatesBranches_singleton_iff {expression : Value} :
    EvaluatesBranches [expression] frame before outcome after ↔
      Evaluates expression frame before outcome after := by
  constructor
  · intro h
    cases h with
    | otherwise hlast => exact hlast
  · exact .otherwise

theorem evaluatesBranches_cons_iff {condition branch : Value} {rest : List Value} :
    EvaluatesBranches (condition :: branch :: rest) frame before outcome after ↔
      (∃ e, outcome = .error e ∧ Evaluates condition frame before (.error e) after) ∨
        ∃ value middle, Evaluates condition frame before (.ok value) middle ∧
          if value.isTruthy then Evaluates branch frame middle outcome after
          else EvaluatesBranches rest frame middle outcome after := by
  constructor
  · intro h
    cases h with
    | conditionFails hcondition => exact .inl ⟨_, rfl, hcondition⟩
    | holds hcondition htrue hbranch =>
      refine .inr ⟨_, _, hcondition, ?_⟩
      rwa [if_pos htrue]
    | fails hcondition hfalse hrest =>
      refine .inr ⟨_, _, hcondition, ?_⟩
      rwa [if_neg (by simp [hfalse])]
  · rintro (⟨e, rfl, hcondition⟩ | ⟨value, middle, hcondition, hchosen⟩)
    · exact .conditionFails hcondition
    · split at hchosen
      · next htrue => exact .holds hcondition htrue hchosen
      · next hfalse => exact .fails hcondition (by simpa using hfalse) hchosen

theorem interchangeable_choose {condition branch : Value} {rest : List Value}
    (h : 2 ≤ rest.length) :
    Interchangeable (SpecialForm.choose.use (condition :: branch :: rest))
      (SpecialForm.choose.use [condition, branch, SpecialForm.choose.use rest]) := by
  intro frame before outcome after
  have hlong : 2 ≤ (condition :: branch :: rest).length := Nat.le_add_left ..
  have hnested : 2 ≤ [condition, branch, SpecialForm.choose.use rest].length := Nat.le_add_left ..
  rw [evaluatesTo_iff_evaluates, evaluatesTo_iff_evaluates, evaluates_choose_iff hlong,
    evaluates_choose_iff hnested]
  simp only [evaluatesBranches_cons_iff, evaluatesBranches_singleton_iff, evaluates_choose_iff h]

theorem EvaluatesForm.bindLocally_congr {bindings : Value} {body other : List Value}
    (hempty : body.isEmpty = other.isEmpty)
    (hbody : ∀ {frame before}, EvaluatesBody body frame before outcome after →
      EvaluatesBody other frame before outcome after)
    (h : EvaluatesForm .bindLocally frame (bindings :: body) before outcome after) :
    EvaluatesForm .bindLocally frame (bindings :: other) before outcome after := by
  have hwell : SpecialForm.bindLocally.isWellFormed (bindings :: other) =
      SpecialForm.bindLocally.isWellFormed (bindings :: body) := by
    simp only [SpecialForm.isWellFormed, hempty]
  cases h with
  | malformed hform => exact .malformed (hwell.trans hform)
  | bindingFails hform hbindings hpairs => exact .bindingFails (hwell.trans hform) hbindings hpairs
  | bindLocally hform hbindings hpairs hrest =>
    exact .bindLocally (hwell.trans hform) hbindings hpairs (hbody hrest)

theorem interchangeable_bindLocally {bindings : Value} {body : List Value} (h : body ≠ []) :
    Interchangeable (SpecialForm.bindLocally.use (bindings :: body))
      (SpecialForm.bindLocally.use [bindings, SpecialForm.sequence.use body]) := by
  intro frame before outcome after
  have hempty : body.isEmpty = [SpecialForm.sequence.use body].isEmpty := by simp [h]
  have hbody : ∀ {frame before}, EvaluatesBody body frame before outcome after ↔
      EvaluatesBody [SpecialForm.sequence.use body] frame before outcome after := by
    intro frame before
    rw [evaluatesBody_singleton_iff, evaluates_sequence_iff]
  rw [evaluatesTo_iff_evaluates, evaluatesTo_iff_evaluates, evaluates_use_iff, evaluates_use_iff]
  exact ⟨.bindLocally_congr hempty hbody.1, .bindLocally_congr hempty.symm hbody.2⟩

/-- Each special form that takes any number of expressions in a row can be written with fewer of
them, whatever the expressions do and however they end: a choice behind its first branch as a choice
of its own, a sequence in a sequence without its own brackets, and a body of local bindings,
whatever is bound, as one sequence. -/
theorem nested_forms_interchangeable :
    (∀ (condition branch : Value) (rest : List Value), 2 ≤ rest.length →
      Interchangeable (SpecialForm.choose.use (condition :: branch :: rest))
        (SpecialForm.choose.use [condition, branch, SpecialForm.choose.use rest])) ∧
    (∀ front inner back : List Value, inner ++ back ≠ [] →
      Interchangeable (SpecialForm.sequence.use (front ++ SpecialForm.sequence.use inner :: back))
        (SpecialForm.sequence.use (front ++ inner ++ back))) ∧
    ∀ (bindings : Value) (body : List Value), body ≠ [] →
      Interchangeable (SpecialForm.bindLocally.use (bindings :: body))
        (SpecialForm.bindLocally.use [bindings, SpecialForm.sequence.use body]) := by
  refine ⟨?_, ?_, ?_⟩
  · intro condition branch rest
    exact interchangeable_choose
  · intro front inner back
    exact interchangeable_sequence
  · intro bindings body
    exact interchangeable_bindLocally

/-- A choice prints in its second condition and goes on to the branch left over, a sequence prints
in the one inside it before it fails, and a local binding form has the value of its last
expression. -/
theorem nested_forms_interchangeable_printing :
    let start := Session.start.store
    let print : Value := .list [.symbol ⟨"prn"⟩, .number 2]
    let others : List Value := [print, .number 3, .number 4]
    let pairs : Value := .vector [.symbol ⟨"x"⟩, .number 5]
    let body : List Value := [.number 3, .symbol ⟨"x"⟩]
    EvaluatesTo (SpecialForm.choose.use (.nil :: .number 1 :: others)) 1 start
        (.ok (.number 4)) (start.write "2\n") ∧
      EvaluatesTo (SpecialForm.choose.use [.nil, .number 1, SpecialForm.choose.use others]) 1 start
        (.ok (.number 4)) (start.write "2\n") ∧
      EvaluatesTo (SpecialForm.sequence.use [SpecialForm.sequence.use [print], .list [.number 1]]) 1
        start (.error (.notCallable "1")) (start.write "2\n") ∧
      EvaluatesTo (SpecialForm.sequence.use [print, .list [.number 1]]) 1
        start (.error (.notCallable "1")) (start.write "2\n") ∧
      ∃ after,
        EvaluatesTo (SpecialForm.bindLocally.use (pairs :: body)) 1 start (.ok (.number 5)) after ∧
          EvaluatesTo (SpecialForm.bindLocally.use [pairs, SpecialForm.sequence.use body]) 1 start
            (.ok (.number 5)) after := by
  obtain ⟨hchoose, hsequence, hbindLocally⟩ := nested_forms_interchangeable
  have hbranches : EvaluatesTo (SpecialForm.choose.use
        [.nil, .number 1, .list [.symbol ⟨"prn"⟩, .number 2], .number 3, .number 4]) 1
      Session.start.store (.ok (.number 4)) (Session.start.store.write "2\n") := by
    refine ⟨9, ?_⟩
    cbv
  have hfails : EvaluatesTo (SpecialForm.sequence.use
        [SpecialForm.sequence.use [.list [.symbol ⟨"prn"⟩, .number 2]], .list [.number 1]]) 1
      Session.start.store (.error (.notCallable "1")) (Session.start.store.write "2\n") := by
    refine ⟨9, ?_⟩
    cbv
  have hlocal : EvaluatesTo (SpecialForm.bindLocally.use
        [.vector [.symbol ⟨"x"⟩, .number 5], .number 3, .symbol ⟨"x"⟩]) 1
      Session.start.store (.ok (.number 5))
      ((Session.start.store.push ⟨[], some 1, true⟩).define 2 ⟨"x"⟩ (.number 5)) := by
    refine ⟨9, ?_⟩
    cbv
  intro start print others pairs body
  refine ⟨hbranches, ?_, hfails, ?_, _, hlocal, ?_⟩
  · exact (hchoose .nil (.number 1) others (Nat.le_add_left 2 1) _ _ _ _).1 hbranches
  · exact (hsequence [] [print] _ (List.cons_ne_nil _ _) _ _ _ _).1 hfails
  · exact (hbindLocally pairs body (List.cons_ne_nil _ _) _ _ _ _).1 hlocal

end SmallLisp
