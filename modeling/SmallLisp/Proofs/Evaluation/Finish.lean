import SmallLisp.Evaluation

/-!
Evaluation without handing back. A step may leave an expression to be evaluated in its place.
`finish` evaluates it on the spot, and the equations below say what each part of the evaluator does
when it is carried through to its value in this way. The proofs about evaluation start from these
equations, so none of them has to follow the loop.
-/

namespace SmallLisp

/-- Whether a special form can be used with these arguments. -/
def SpecialForm.isWellFormed : SpecialForm → List Value → Bool
  | .define, arguments => !arguments.isEmpty && arguments.length % 2 == 0
  | .bindLocally, bindings :: body =>
    match bindings.items? with
    | none => false
    | some pairs => pairs.length % 2 == 0 && !body.isEmpty
  | .sequence, _ => true
  | .choose, arguments => 2 ≤ arguments.length
  | .function, parameters :: _ => parameters.items?.isSome
  | _, [] => false

theorem SpecialForm.bindings_of_isWellFormed {arguments : List Value}
    (h : bindLocally.isWellFormed arguments) :
    ∃ bindings body pairs, arguments = bindings :: body ∧ bindings.items? = some pairs := by
  cases arguments with
  | nil => cases h
  | cons bindings body =>
    cases hpairs : bindings.items? with
    | none => simp [isWellFormed, hpairs] at h
    | some pairs => exact ⟨bindings, body, pairs, rfl, hpairs⟩

theorem SpecialForm.items_of_isWellFormed {arguments : List Value}
    (h : function.isWellFormed arguments) :
    ∃ parameters body items, arguments = parameters :: body ∧
      parameters.items? = some items := by
  cases arguments with
  | nil => cases h
  | cons parameters body =>
    obtain ⟨items, hitems⟩ := Option.isSome_iff_exists.1 h
    exact ⟨parameters, body, items, rfl, hitems⟩

/-- The expression that uses a special form with the given arguments. -/
def SpecialForm.use (form : SpecialForm) (arguments : List Value) : Value :=
  .list (.symbol ⟨form.name⟩ :: arguments)

namespace Evaluation

/-- Carries a step through: an expression that it hands back is evaluated at once. -/
def finish (evaluate : Evaluator) (step : Action Step) : Action Value := do
  match ← step with
  | .done value => return value
  | .continue expression frame => evaluate expression frame

theorem evaluateWithin_succ (fuel : Nat) (expression : Value) (frame : FrameId) :
    evaluateWithin (fuel + 1) expression frame =
      finish (evaluateWithin fuel) (step (evaluateWithin fuel) expression frame) := rfl

section

variable (evaluate : Evaluator) (frame : FrameId)

@[simp] theorem finish_done (value : Value) :
    finish evaluate (pure (.done value)) = pure value := rfl

@[simp] theorem finish_fail (e : Error) :
    finish evaluate (Action.fail e) = Action.fail e := rfl

theorem finish_bind {α : Type} (action : Action α) (next : α → Action Step) :
    finish evaluate (action >>= next) = action >>= fun result => finish evaluate (next result) := by
  simp only [finish, bind_assoc]

@[simp] theorem finish_bind_done (action : Action Value) :
    finish evaluate (action >>= fun value => pure (.done value)) = action := by
  simp only [finish_bind, finish_done, bind_pure]

@[simp] theorem finish_runBody_cons (expression next : Value) (rest : List Value) :
    finish evaluate (runBody evaluate frame (expression :: next :: rest)) =
      evaluate expression frame >>= fun _ =>
        finish evaluate (runBody evaluate frame (next :: rest)) :=
  finish_bind ..

@[simp] theorem finish_chooseBranch_cons (condition branch : Value) (rest : List Value) :
    finish evaluate (chooseBranch evaluate frame (condition :: branch :: rest)) =
      evaluate condition frame >>= fun value =>
        if value.isTruthy then evaluate branch frame
        else finish evaluate (chooseBranch evaluate frame rest) := by
  rw [chooseBranch, finish_bind]
  congr 1
  funext value
  split <;> rfl

theorem bindPairs_of_length_lt (bind : Symbol → Value → Store → Store) (nameExpected : String)
    (last : Value) {pairs : List Value} (h : pairs.length < 2) :
    bindPairs evaluate frame bind nameExpected last pairs = pure last := by
  fun_induction bindPairs evaluate frame bind nameExpected last pairs with
  | case1 last name expression rest =>
    simp only [List.length_cons] at h
    omega
  | case2 last target expression rest htarget =>
    simp only [List.length_cons] at h
    omega
  | case3 => rfl

@[simp] theorem finish_apply_builtin (operation : Builtin) (arguments : List Value) :
    finish evaluate (apply evaluate (.builtin operation) arguments) = operation.call arguments :=
  finish_bind_done ..

theorem finish_apply_closure (identity : Nat) (parameters : Parameters) (body : List Value)
    (scope : FrameId) (arguments : List Value) :
    finish evaluate (apply evaluate (.closure identity parameters body scope) arguments) =
      if parameters.arity.accepts arguments.length then
        Action.newFrame scope false (parameters.bindings arguments) >>= fun inner =>
          finish evaluate (runBody evaluate inner body)
      else
        Action.fail
          (.arity parameters.arity arguments.length (some SpecialForm.function.name)) := by
  rw [apply]
  split
  · exact finish_bind ..
  · rfl

theorem formOfHead?_name (form : SpecialForm) : formOfHead? (.symbol ⟨form.name⟩) = some form :=
  SpecialForm.ofSymbol?_eq_some_iff.2 rfl

theorem evaluateWithin_use (fuel : Nat) (form : SpecialForm) (arguments : List Value) :
    evaluateWithin (fuel + 1) (form.use arguments) frame =
      finish (evaluateWithin fuel) (applyForm (evaluateWithin fuel) form frame arguments) := by
  rw [evaluateWithin_succ, SpecialForm.use, step, formOfHead?_name]

theorem finish_applyForm_malformed {form : SpecialForm} {arguments : List Value}
    (h : form.isWellFormed arguments = false) :
    finish evaluate (applyForm evaluate form frame arguments) =
      Action.fail (.malformed form) := by
  cases form with
  | define =>
    have hmalformed : arguments.isEmpty || arguments.length % 2 ≠ 0 := by
      simp only [SpecialForm.isWellFormed] at h
      grind
    rw [applyForm, if_pos hmalformed, finish_fail]
  | bindLocally =>
    cases arguments with
    | nil => rfl
    | cons bindings body =>
      simp only [SpecialForm.isWellFormed] at h
      rw [applyForm]
      cases hpairs : bindings.items? with
      | none => rfl
      | some pairs =>
        have hmalformed : pairs.length % 2 ≠ 0 || body.isEmpty := by
          simp only [hpairs] at h
          grind
        simp only [if_pos hmalformed, finish_fail]
  | sequence => cases h
  | choose =>
    have hshort : arguments.length < 2 := by
      simpa [SpecialForm.isWellFormed] using h
    rw [applyForm, if_pos hshort, finish_fail]
  | function =>
    cases arguments with
    | nil => rfl
    | cons parameters body =>
      have hitems : parameters.items? = none := by
        simpa [SpecialForm.isWellFormed] using h
      simp only [applyForm, hitems, finish_fail]

theorem finish_applyForm_define {arguments : List Value}
    (h : SpecialForm.define.isWellFormed arguments) :
    finish evaluate (applyForm evaluate .define frame arguments) =
      bindPairs evaluate frame
        (fun name value store => store.define (store.definitionFrame frame) name value)
        "def! requires a symbol" .nil arguments := by
  have hwell : ¬ (arguments.isEmpty || arguments.length % 2 ≠ 0) := by
    simp only [SpecialForm.isWellFormed] at h
    grind
  rw [applyForm, if_neg hwell, finish_bind_done]

theorem finish_applyForm_bindLocally {bindings : Value} {pairs body : List Value}
    (h : SpecialForm.bindLocally.isWellFormed (bindings :: body))
    (hpairs : bindings.items? = some pairs) :
    finish evaluate (applyForm evaluate .bindLocally frame (bindings :: body)) =
      Action.newFrame frame true [] >>= fun inner =>
        bindPairs evaluate inner (fun name value store => store.define inner name value)
          "let* binding name must be a symbol" .nil pairs >>= fun _ =>
            finish evaluate (runBody evaluate inner body) := by
  have hwell : ¬ (pairs.length % 2 ≠ 0 || body.isEmpty) := by
    simp only [SpecialForm.isWellFormed, hpairs] at h
    grind
  simp only [applyForm, hpairs, if_neg hwell, finish_bind]

theorem finish_applyForm_sequence (arguments : List Value) :
    finish evaluate (applyForm evaluate .sequence frame arguments) =
      finish evaluate (runBody evaluate frame arguments) := rfl

theorem finish_applyForm_choose {arguments : List Value}
    (h : SpecialForm.choose.isWellFormed arguments) :
    finish evaluate (applyForm evaluate .choose frame arguments) =
      finish evaluate (chooseBranch evaluate frame arguments) := by
  have hlong : 2 ≤ arguments.length := of_decide_eq_true h
  rw [applyForm, if_neg (Nat.not_lt.2 hlong)]

theorem finish_applyForm_function {parameters : Value} {items body : List Value}
    (hitems : parameters.items? = some items) :
    finish evaluate (applyForm evaluate .function frame (parameters :: body)) =
      makeClosure frame items body := by
  simp only [applyForm, hitems, finish_bind_done]

end

end Evaluation

end SmallLisp
