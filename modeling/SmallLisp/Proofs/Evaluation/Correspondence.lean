import Mathlib
import SmallLisp.Proofs.Evaluation.Vocabulary

/-!
Two runs of one program. The second run evaluates the renamed expressions in a store that
corresponds to the store of the first. Which stores correspond is left open here, up to the laws
that evaluation needs; from these follows that the runs stay in step, whatever the program does.
-/

namespace SmallLisp

/-- Stores of two runs that go together, where the second run is about renamed expressions. -/
structure Correspondence (V : Vocabulary) (ρ : Renaming) where
  Stores : Store → Store → Prop
  size : ∀ {s t}, Stores s t → t.frames.size = s.frames.size
  definitionFrame : ∀ {s t}, Stores s t → ∀ frame, t.definitionFrame frame = s.definitionFrame frame
  closureCount : ∀ {s t}, Stores s t → t.closureCount = s.closureCount
  value_of_get? : ∀ {s t}, Stores s t → ∀ {frame name value}, V.IsName name →
    name.isConstant = false → s.get? frame name = some value → V.IsValue value
  get? : ∀ {s t}, Stores s t → ∀ {frame name}, V.IsName name → name.isConstant = false →
    t.get? frame (ρ.apply name) = (s.get? frame name).map (Value.rename ρ)
  push : ∀ {s t}, Stores s t → ∀ {bindings : List (Symbol × Value)},
    (∀ binding ∈ bindings, V.IsName binding.1 ∧ V.IsValue binding.2) → ∀ parent isLocal,
    Stores (s.push ⟨bindings, some parent, isLocal⟩)
      (t.push ⟨bindings.map (Prod.map ρ.apply (Value.rename ρ)), some parent, isLocal⟩)
  define : ∀ {s t}, Stores s t → ∀ {name value}, V.IsName name → V.IsValue value → ∀ frame,
    Stores (s.define frame name value) (t.define frame (ρ.apply name) (value.rename ρ))
  count : ∀ {s t}, Stores s t →
    Stores { s with closureCount := s.closureCount + 1 }
      { t with closureCount := t.closureCount + 1 }
  write : ∀ {s t}, Stores s t → ∀ text, Stores (s.write text) (t.write text)
  print : ∀ {value}, V.IsValue value → ∀ mode, (value.rename ρ).print mode = value.print mode

namespace Correspondence

open Vocabulary

variable {V : Vocabulary} {ρ : Renaming} (C : Correspondence V ρ)

def relation : RunRelation := ⟨Error.Renamed ρ, C.Stores⟩

/-- Actions of the two runs that stay in step. -/
def InStep {α β : Type} (results : α → β → Prop) (first : Action α) (second : Action β) : Prop :=
  Action.Related C.relation results first second

theorem newFrame_inStep {bindings : List (Symbol × Value)}
    (h : ∀ binding ∈ bindings, V.IsName binding.1 ∧ V.IsValue binding.2) (parent : FrameId)
    (isLocal : Bool) :
    C.InStep Eq (Action.newFrame parent isLocal bindings)
      (Action.newFrame parent isLocal (bindings.map (Prod.map ρ.apply (Value.rename ρ)))) := by
  intro s t hstores
  exact .ok (C.size hstores).symm (C.push hstores h parent isLocal)

theorem newIdentity_inStep : C.InStep Eq Action.newIdentity Action.newIdentity := by
  intro s t hstores
  exact .ok (C.closureCount hstores).symm (C.count hstores)

theorem lookup_inStep {name : Symbol} (hname : V.IsName name) (hvariable : name.isConstant = false)
    (frame : FrameId) :
    C.InStep (V.Renamed ρ) (Action.lookup frame name) (Action.lookup frame (ρ.apply name)) := by
  intro s t hstores
  have hsecond : t.get? frame (ρ.apply name) = (s.get? frame name).map (Value.rename ρ) :=
    C.get? hstores hname hvariable
  rw [Action.lookup_apply, Action.lookup_apply, hsecond]
  cases hfound : s.get? frame name with
  | none => exact .failure (.unbound name) hstores
  | some value => exact .ok ⟨C.value_of_get? hstores hname hvariable hfound, rfl⟩ hstores

section

include C

theorem printJoined_rename {arguments : List Value} (h : ∀ argument ∈ arguments, V.IsValue argument)
    (mode : PrintMode) (separator : String) :
    Value.printJoined mode separator (arguments.map (Value.rename ρ)) =
      Value.printJoined mode separator arguments := by
  rw [Value.printJoined, Value.printJoined, List.map_map]
  congr 1
  apply List.map_congr_left
  intro argument hargument
  exact C.print (h argument hargument) mode

theorem written_rename (operation : Builtin) {arguments : List Value}
    (h : ∀ argument ∈ arguments, V.IsValue argument) :
    operation.written (arguments.map (Value.rename ρ)) = operation.written arguments := by
  cases operation <;> simp only [Builtin.written, C.printJoined_rename h]

/-- What a builtin computes from renamed arguments is the same but for the names. -/
theorem value_renamed (operation : Builtin) {arguments : List Value}
    (h : ∀ argument ∈ arguments, V.IsValue argument) :
    Action.OutcomesRelated (Error.Renamed ρ) (V.Renamed ρ) (operation.value arguments)
      (operation.value (arguments.map (Value.rename ρ))) := by
  have hwrongArity : Action.OutcomesRelated (Error.Renamed ρ) (V.Renamed ρ)
      (.error (operation.arityError arguments))
      (.error (operation.arityError (arguments.map (Value.rename ρ)))) := by
    rw [Builtin.arityError_rename]
    exact .error (.same _)
  cases operation with
  | add | subtract | multiply | divide =>
    simp only [Builtin.value, Builtin.calculate, Builtin.numbers_rename, ← bind_assoc]
    exact calculated_renamed _
  | less | lessOrEqual | greater | greaterOrEqual =>
    simp only [Builtin.value, Builtin.compare, Builtin.numbers_rename]
    exact compared_renamed _ _ arguments
  | equal =>
    rw [Builtin.value, Builtin.value, Builtin.neighbours_rename]
    exact .ok (ofBool_renamed _)
  | list => exact .ok ⟨V.list h, by rw [Value.rename, Value.renameAll_eq_map]⟩
  | isList | isEmpty | not =>
    rcases arguments with _ | ⟨argument, _ | ⟨second, rest⟩⟩
    · exact hwrongArity
    · simp only [Builtin.value, List.map_cons, List.map_nil, Value.isList_rename,
        Value.count_rename, Value.isTruthy_rename]
      exact .ok (ofBool_renamed _)
    · exact hwrongArity
  | count =>
    rcases arguments with _ | ⟨argument, _ | ⟨second, rest⟩⟩
    · exact hwrongArity
    · simp only [Builtin.value, List.map_cons, List.map_nil, Value.count_rename]
      exact calculated_renamed _
    · exact hwrongArity
  | printString | displayString =>
    simp only [Builtin.value, printJoined_rename C h]
    exact .ok ⟨V.string _, rfl⟩
  | printLine | displayLine => exact .ok ⟨V.nil, (Value.rename_nil ρ).symm⟩

theorem call_inStep (operation : Builtin) {arguments : List Value}
    (h : ∀ argument ∈ arguments, V.IsValue argument) :
    C.InStep (V.Renamed ρ) (operation.call arguments)
      (operation.call (arguments.map (Value.rename ρ))) := by
  rw [Builtin.call, Builtin.call, List.length_map]
  split
  · apply Action.Related.bind (Action.Related.ofExcept (C.value_renamed operation h))
    intro first second hresult
    refine Action.Related.bind (.modify fun s t hstores => ?_) fun _ _ _ => .pure hresult
    rw [C.written_rename operation h]
    exact C.write hstores _
  · rw [Builtin.arityError_rename]
    exact .fail (.same _)

end

section

variable {C} {evaluate : Evaluator}
  (hevaluate : ∀ frame expression, V.IsExpression expression →
    C.InStep (V.Renamed ρ) (evaluate expression frame) (evaluate (expression.rename ρ) frame))

include hevaluate

theorem evaluateAll_inStep (frame : FrameId) {expressions : List Value}
    (h : ∀ expression ∈ expressions, V.IsExpression expression) :
    C.InStep (V.RenamedAll ρ) (Evaluation.evaluateAll evaluate frame expressions)
      (Evaluation.evaluateAll evaluate frame (expressions.map (Value.rename ρ))) := by
  have heach : List.Forall₂ (fun expression other =>
        C.InStep (V.Renamed ρ) (evaluate expression frame) (evaluate other frame))
      expressions (expressions.map (Value.rename ρ)) := by
    rw [List.forall₂_map_right_iff, List.forall₂_same]
    intro expression hexpression
    exact hevaluate frame expression (h expression hexpression)
  apply (Action.Related.mapM heach).mono
  intro values others hvalues
  exact Action.forall_and_eq_map_of_forall₂ hvalues

theorem evaluateEntries_inStep (frame : FrameId) {entries : List (Value × Value)}
    (h : ∀ entry ∈ entries, V.IsExpression entry.1 ∧ V.IsExpression entry.2) :
    C.InStep (fun first second => (∀ entry ∈ first, V.IsValue entry.1 ∧ V.IsValue entry.2) ∧
        second = first.map (Prod.map (Value.rename ρ) (Value.rename ρ)))
      (Evaluation.evaluateEntries evaluate frame entries)
      (Evaluation.evaluateEntries evaluate frame
        (entries.map (Prod.map (Value.rename ρ) (Value.rename ρ)))) := by
  let evaluateEntry (entry : Value × Value) : Action (Value × Value) := do
    let key ← evaluate entry.1 frame
    let value ← evaluate entry.2 frame
    return (key, value)
  have heach : List.Forall₂ (fun entry other =>
        C.InStep (fun first second => (V.IsValue first.1 ∧ V.IsValue first.2) ∧
            second = Prod.map (Value.rename ρ) (Value.rename ρ) first)
          (evaluateEntry entry) (evaluateEntry other))
      entries (entries.map (Prod.map (Value.rename ρ) (Value.rename ρ))) := by
    rw [List.forall₂_map_right_iff, List.forall₂_same]
    rintro ⟨key, value⟩ hentry
    obtain ⟨hkey, hvalue⟩ := h _ hentry
    apply (hevaluate frame key hkey).bind
    rintro newKey _ ⟨hnewKey, rfl⟩
    apply (hevaluate frame value hvalue).bind
    rintro newValue _ ⟨hnewValue, rfl⟩
    exact .pure ⟨⟨hnewKey, hnewValue⟩, rfl⟩
  apply (Action.Related.mapM heach).mono
  intro values others hvalues
  exact Action.forall_and_eq_map_of_forall₂ hvalues

theorem runBody_inStep (frame : FrameId) {body : List Value}
    (h : ∀ part ∈ body, V.IsExpression part) :
    C.InStep (V.RenamedStep ρ) (Evaluation.runBody evaluate frame body)
      (Evaluation.runBody evaluate frame (body.map (Value.rename ρ))) := by
  induction body with
  | nil =>
    have hnil : V.RenamedStep ρ (.done .nil) (.done (Value.nil.rename ρ)) := .done V.nil
    rw [Value.rename_nil] at hnil
    exact .pure hnil
  | cons expression rest ih =>
    rw [List.forall_mem_cons] at h
    cases rest with
    | nil => exact .pure (.continue h.1)
    | cons next rest =>
      apply (hevaluate frame expression h.1).bind
      intro _ _ _
      exact ih h.2

theorem chooseBranch_inStep (frame : FrameId) {branches : List Value}
    (h : ∀ part ∈ branches, V.IsExpression part) :
    C.InStep (V.RenamedStep ρ) (Evaluation.chooseBranch evaluate frame branches)
      (Evaluation.chooseBranch evaluate frame (branches.map (Value.rename ρ))) := by
  fun_induction Evaluation.chooseBranch evaluate frame branches with
  | case1 condition branch rest ih =>
    simp only [List.forall_mem_cons] at h
    obtain ⟨hcondition, hbranch, hrest⟩ := h
    simp only [List.map_cons, Evaluation.chooseBranch]
    apply (hevaluate frame condition hcondition).bind
    rintro value _ ⟨-, rfl⟩
    rw [Value.isTruthy_rename]
    split
    · exact .pure (.continue hbranch)
    · exact ih hrest
  | case2 otherwise => exact .pure (.continue (h otherwise List.mem_cons_self))
  | case3 => exact runBody_inStep hevaluate frame (List.forall_mem_nil _)

/-- Bindings are made in step if a single one is made in step. -/
theorem bindPairs_inStep (frame : FrameId) (bind other : Symbol → Value → Store → Store)
    (hbind : ∀ {name value}, V.IsName name → V.IsValue value → ∀ s t, C.Stores s t →
      C.Stores (bind name value s) (other (ρ.apply name) (value.rename ρ) t))
    (nameExpected : String) {last : Value} (hlast : V.IsValue last) {pairs : List Value}
    (h : ∀ part ∈ pairs, V.IsExpression part) :
    C.InStep (V.Renamed ρ) (Evaluation.bindPairs evaluate frame bind nameExpected last pairs)
      (Evaluation.bindPairs evaluate frame other nameExpected (last.rename ρ)
        (pairs.map (Value.rename ρ))) := by
  fun_induction Evaluation.bindPairs evaluate frame bind nameExpected last pairs with
  | case1 last name expression rest ih =>
    simp only [List.forall_mem_cons] at h
    obtain ⟨hname, hexpression, hrest⟩ := h
    simp only [List.map_cons, Value.rename, Evaluation.bindPairs]
    apply (hevaluate frame expression hexpression).bind
    rintro value _ ⟨hvalue, rfl⟩
    have hmodify : C.InStep (fun _ _ => True) (modify (bind name value) : Action PUnit)
        (modify (other (ρ.apply name) (value.rename ρ)) : Action PUnit) :=
      .modify (hbind (V.name_of_expression hname) hvalue)
    apply hmodify.bind
    intro _ _ _
    exact ih value hvalue hrest
  | case2 last target expression rest htarget =>
    have hfails : Evaluation.bindPairs evaluate frame other nameExpected (last.rename ρ)
        ((target :: expression :: rest).map (Value.rename ρ)) =
        Action.fail (.type (nameExpected ++ ", got " ++ (target.rename ρ).print .readable)) := by
      cases target with
      | symbol s => exact absurd rfl (htarget s)
      | _ => rfl
    rw [hfails]
    exact .fail (.type _ target)
  | case3 pairs last hsymbol htwo =>
    have hshort : (pairs.map (Value.rename ρ)).length < 2 := by
      rcases pairs with _ | ⟨target, _ | ⟨expression, rest⟩⟩
      · simp
      · simp
      · exact absurd rfl (htwo target expression rest)
    rw [Evaluation.bindPairs_of_length_lt evaluate frame other nameExpected (last.rename ρ) hshort]
    exact .pure ⟨hlast, rfl⟩

omit hevaluate in
theorem makeClosure_inStep (frame : FrameId) {items body : List Value}
    (hitems : ∀ item ∈ items, V.IsExpression item) (hbody : ∀ part ∈ body, V.IsExpression part) :
    C.InStep (V.Renamed ρ) (Evaluation.makeClosure frame items body)
      (Evaluation.makeClosure frame (items.map (Value.rename ρ)) (body.map (Value.rename ρ))) := by
  apply Action.Related.bind (Action.Related.ofExcept (Parameters.ofItems_renamed ρ items))
  rintro parameters _ ⟨hparameters, rfl⟩
  apply C.newIdentity_inStep.bind
  rintro identity _ rfl
  refine .pure ⟨V.closure hitems hparameters hbody identity frame, ?_⟩
  rw [Value.rename, Value.renameAll_eq_map]

theorem apply_inStep {callee : Value} (hcallee : V.IsValue callee) {arguments : List Value}
    (harguments : ∀ argument ∈ arguments, V.IsValue argument) :
    C.InStep (V.RenamedStep ρ) (Evaluation.apply evaluate callee arguments)
      (Evaluation.apply evaluate (callee.rename ρ) (arguments.map (Value.rename ρ))) := by
  cases callee with
  | builtin operation =>
    apply (C.call_inStep operation harguments).bind
    rintro value _ ⟨hvalue, rfl⟩
    exact .pure (.done hvalue)
  | closure identity parameters body scope =>
    rw [Value.rename, Evaluation.apply, Evaluation.apply, Parameters.arity_rename, List.length_map,
      Parameters.bindings_rename, Value.renameAll_eq_map]
    split
    · apply (C.newFrame_inStep (bindings_of_closure hcallee harguments) scope false).bind
      rintro frame _ rfl
      exact runBody_inStep hevaluate frame (V.body_of_closure hcallee)
    · exact .fail (.same _)
  | _ =>
    have hprint := C.print hcallee .readable
    simp only [Value.rename] at hprint
    simp only [Value.rename, Evaluation.apply, hprint]
    exact .fail (.same _)

theorem applyForm_inStep (form : SpecialForm) (frame : FrameId) {arguments : List Value}
    (h : ∀ argument ∈ arguments, V.IsExpression argument) :
    C.InStep (V.RenamedStep ρ) (Evaluation.applyForm evaluate form frame arguments)
      (Evaluation.applyForm evaluate form frame (arguments.map (Value.rename ρ))) := by
  have hmalformed : C.InStep (V.RenamedStep ρ) (Action.fail (.malformed form))
      (Action.fail (.malformed form)) := .fail (.same _)
  cases form with
  | define =>
    simp only [Evaluation.applyForm, List.isEmpty_map, List.length_map]
    split
    · exact hmalformed
    · have hpairs := bindPairs_inStep hevaluate frame
        (fun name value store => store.define (store.definitionFrame frame) name value)
        (fun name value store => store.define (store.definitionFrame frame) name value)
        (fun hname hvalue s t hstores => by
          rw [C.definitionFrame hstores]
          exact C.define hstores hname hvalue _)
        "def! requires a symbol" V.nil h
      rw [Value.rename_nil] at hpairs
      apply hpairs.bind
      rintro value _ ⟨hvalue, rfl⟩
      exact .pure (.done hvalue)
  | bindLocally =>
    cases arguments with
    | nil => exact hmalformed
    | cons bindings body =>
      rw [List.forall_mem_cons] at h
      obtain ⟨hbindings, hbody⟩ := h
      simp only [List.map_cons, Evaluation.applyForm, Value.items?_rename]
      cases hpairs : bindings.items? with
      | none => exact hmalformed
      | some pairs =>
        simp only [Option.map_some, List.isEmpty_map, List.length_map]
        split
        · exact hmalformed
        · have hnew := C.newFrame_inStep (List.forall_mem_nil _) frame true
          apply hnew.bind
          rintro inner _ rfl
          have hpairs := bindPairs_inStep hevaluate inner
            (fun name value store => store.define inner name value)
            (fun name value store => store.define inner name value)
            (fun hname hvalue s t hstores => C.define hstores hname hvalue inner)
            "let* binding name must be a symbol" V.nil (V.items_of_expression hpairs hbindings)
          rw [Value.rename_nil] at hpairs
          apply hpairs.bind
          intro _ _ _
          exact runBody_inStep hevaluate inner hbody
  | sequence => exact runBody_inStep hevaluate frame h
  | choose =>
    simp only [Evaluation.applyForm, List.length_map]
    split
    · exact hmalformed
    · exact chooseBranch_inStep hevaluate frame h
  | function =>
    cases arguments with
    | nil => exact hmalformed
    | cons parameters body =>
      rw [List.forall_mem_cons] at h
      obtain ⟨hparameters, hbody⟩ := h
      simp only [List.map_cons, Evaluation.applyForm, Value.items?_rename]
      cases hitems : parameters.items? with
      | none => exact hmalformed
      | some items =>
        apply (makeClosure_inStep frame (V.items_of_expression hitems hparameters) hbody).bind
        rintro value _ ⟨hvalue, rfl⟩
        exact .pure (.done hvalue)

/-- One expression is evaluated in step when its subexpressions are. -/
theorem step_inStep (frame : FrameId) {expression : Value} (h : V.IsExpression expression) :
    C.InStep (V.RenamedStep ρ) (Evaluation.step evaluate expression frame)
      (Evaluation.step evaluate (expression.rename ρ) frame) := by
  cases expression with
  | map entries =>
    simp only [Value.rename, Value.renameEntries_eq_map, Evaluation.step]
    apply (evaluateEntries_inStep hevaluate frame (V.entries_of_expression h)).bind
    rintro values _ ⟨hvalues, rfl⟩
    have hdone : V.RenamedStep ρ _ _ := .done (V.map hvalues)
    rw [Value.rename_map_insertAll] at hdone
    exact .pure hdone
  | vector items =>
    simp only [Value.rename, Value.renameAll_eq_map, Evaluation.step]
    apply (evaluateAll_inStep hevaluate frame (V.items_of_expression rfl h)).bind
    rintro values _ ⟨hvalues, rfl⟩
    have hdone : V.RenamedStep ρ _ _ := .done (V.vector hvalues)
    rw [Value.rename, Value.renameAll_eq_map] at hdone
    exact .pure hdone
  | list items =>
    have hitems := V.items_of_expression rfl h
    cases items with
    | nil => exact .pure (.done (V.value_of_expression rfl h))
    | cons head arguments =>
      rw [List.forall_mem_cons] at hitems
      obtain ⟨hhead, harguments⟩ := hitems
      simp only [Value.rename, Value.renameAll_eq_map, List.map_cons, Evaluation.step,
        Evaluation.formOfHead?_rename]
      split
      · next form hform => exact applyForm_inStep hevaluate form frame harguments
      · apply (hevaluate frame head hhead).bind
        rintro callee _ ⟨hcallee, rfl⟩
        apply (evaluateAll_inStep hevaluate frame harguments).bind
        rintro values _ ⟨hvalues, rfl⟩
        exact apply_inStep hevaluate hcallee hvalues
  | symbol symbol =>
    simp only [Value.rename, Evaluation.step, ρ.isConstant_apply]
    split
    · next hconstant => exact .pure (.done (V.value_of_expression hconstant h))
    · next hvariable =>
      have hlookup := C.lookup_inStep (V.name_of_expression h) (Bool.eq_false_iff.2 hvariable) frame
      apply hlookup.bind
      rintro value _ ⟨hvalue, rfl⟩
      exact .pure (.done hvalue)
  | _ => exact .pure (.done (V.value_of_expression rfl h))

end

/-- Evaluation of a renamed expression from a corresponding store stays in step with the evaluation
of the expression. -/
theorem evaluateWithin_inStep (fuel : Nat) (frame : FrameId) {expression : Value}
    (h : V.IsExpression expression) :
    C.InStep (V.Renamed ρ) (evaluateWithin fuel expression frame)
      (evaluateWithin fuel (expression.rename ρ) frame) := by
  induction fuel generalizing frame expression with
  | zero => exact .outOfFuel
  | succ fuel ih =>
    have hstep : C.InStep (V.RenamedStep ρ) (Evaluation.step (evaluateWithin fuel) expression frame)
        (Evaluation.step (evaluateWithin fuel) (expression.rename ρ) frame) :=
      step_inStep (fun frame _ => ih frame) frame h
    apply hstep.bind
    intro first second hstep
    cases hstep with
    | done hvalue => exact .pure ⟨hvalue, rfl⟩
    | «continue» hexpression => exact ih _ hexpression

end Correspondence

end SmallLisp
