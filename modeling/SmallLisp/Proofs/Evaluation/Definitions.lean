import Mathlib
import SmallLisp.Proofs.Evaluation.FrameEffect
import SmallLisp.Proofs.Evaluation.Outcomes
import SmallLisp.Proofs.Value.Literal

/-!
Definitions of several names. A definition of pairs of names and expressions is the sequence of the
definitions of its pairs. It ends at the first pair that fails: what stands in front of that pair
has been defined and stays so, and what stands behind it has not been touched. A definition whose
arguments are no pairs does nothing at all.
-/

namespace SmallLisp

open SmallLisp.Action Evaluation

namespace Evaluation

section

variable (evaluate : Evaluator) (frame : FrameId) (bind : Symbol → Value → Store → Store)
  (nameExpected : String)

/-- The last value so far is the result only where there are no more pairs. -/
theorem bindPairs_of_pair (last other target expression : Value) (rest : List Value) :
    bindPairs evaluate frame bind nameExpected last (target :: expression :: rest) =
      bindPairs evaluate frame bind nameExpected other (target :: expression :: rest) := by
  cases target <;> rfl

/-- The first pair is bound before the others are. -/
theorem bindPairs_cons (last target expression : Value) (rest : List Value) :
    bindPairs evaluate frame bind nameExpected last (target :: expression :: rest) =
      bindPairs evaluate frame bind nameExpected last [target, expression] >>= fun value =>
        bindPairs evaluate frame bind nameExpected value rest := by
  cases target with
  | symbol name =>
    simp only [bindPairs, bind_assoc, pure_bind]
  | _ => rfl

end

end Evaluation

theorem Entries.length_flatten {κ : Type} (entries : List (κ × κ)) :
    (flatten entries).length = 2 * entries.length := by
  induction entries with
  | nil => rfl
  | cons entry entries ih =>
    simp only [flatten, List.length_cons, ih]
    omega

theorem SpecialForm.define_isWellFormed_flatten {pairs : List (Value × Value)} (h : pairs ≠ []) :
    define.isWellFormed (Entries.flatten pairs) := by
  rw [isWellFormed, Entries.length_flatten, Nat.mul_mod_right]
  cases pairs with
  | nil => exact absurd rfl h
  | cons pair pairs => rfl

/-- The definition of one pair. -/
def SpecialForm.defineOne : Value × Value → Value
  | (target, expression) => define.use [target, expression]

section

variable (fuel : Nat) (frame : FrameId)

theorem evaluateWithin_define {pairs : List (Value × Value)} (h : pairs ≠ []) :
    evaluateWithin (fuel + 1) (SpecialForm.define.use (Entries.flatten pairs)) frame =
      bindPairs (evaluateWithin fuel) frame
        (fun name value store => store.define (store.definitionFrame frame) name value)
        "def! requires a symbol" .nil (Entries.flatten pairs) := by
  rw [evaluateWithin_use,
    finish_applyForm_define _ _ (SpecialForm.define_isWellFormed_flatten h)]

theorem evaluateWithin_defineOne (pair : Value × Value) :
    evaluateWithin (fuel + 1) (SpecialForm.defineOne pair) frame =
      bindPairs (evaluateWithin fuel) frame
        (fun name value store => store.define (store.definitionFrame frame) name value)
        "def! requires a symbol" .nil [pair.1, pair.2] :=
  evaluateWithin_define fuel frame (List.cons_ne_nil pair [])

/-- Binding pairs is evaluating the sequence of their definitions. -/
theorem bindPairs_flatten (last : Value) {pairs : List (Value × Value)} (h : pairs ≠ []) :
    bindPairs (evaluateWithin fuel) frame
        (fun name value store => store.define (store.definitionFrame frame) name value)
        "def! requires a symbol" last (Entries.flatten pairs) =
      finish (evaluateWithin (fuel + 1))
        (runBody (evaluateWithin (fuel + 1)) frame (pairs.map SpecialForm.defineOne)) := by
  induction pairs generalizing last with
  | nil => exact absurd rfl h
  | cons pair rest ih =>
    obtain ⟨target, expression⟩ := pair
    rw [Entries.flatten, bindPairs_of_pair _ _ _ _ last .nil, bindPairs_cons]
    cases rest with
    | nil =>
      simp only [Entries.flatten, bindPairs, bind_pure]
      exact (evaluateWithin_defineOne fuel frame (target, expression)).symm
    | cons next rest =>
      rw [List.map_cons, List.map_cons, finish_runBody_cons, evaluateWithin_defineOne]
      congr 1
      funext value
      exact ih value (List.cons_ne_nil next rest)

theorem evaluateWithin_define_eq {pairs : List (Value × Value)} (h : pairs ≠ []) :
    evaluateWithin (fuel + 1) (SpecialForm.define.use (Entries.flatten pairs)) frame =
      evaluateWithin (fuel + 2) (SpecialForm.sequence.use (pairs.map SpecialForm.defineOne))
        frame := by
  rw [evaluateWithin_define fuel frame h, evaluateWithin_use, finish_applyForm_sequence,
    bindPairs_flatten fuel frame _ h]

end

/-- One after the other the expressions of the pairs have values, and each is defined before the
next is evaluated. -/
inductive Defines (frame : FrameId) : List (Value × Value) → Store → Store → Prop
  | nil {store} : Defines frame [] store store
  | cons {name expression rest before value middle after}
      (hvalue : EvaluatesTo expression frame before (.ok value) middle)
      (hrest : Defines frame rest (middle.define (middle.definitionFrame frame) name value) after) :
      Defines frame ((.symbol name, expression) :: rest) before after

/-- Why the definition of a pair fails, and the store that this leaves. Where there is no name, the
expression is not evaluated. -/
inductive DefinitionFails (frame : FrameId) (before : Store) :
    (target expression : Value) → Error → (after : Store) → Prop
  | noName {target expression} (htarget : ∀ name, target ≠ .symbol name) :
      DefinitionFails frame before target expression
        (.type s!"def! requires a symbol, got {target.print .readable}") before
  | noValue {name expression e after}
      (hvalue : EvaluatesTo expression frame before (.error e) after) :
      DefinitionFails frame before (.symbol name) expression e after

section

variable {frame : FrameId} {before after : Store} {outcome : Except Error Value} {e : Error}

theorem evaluatesTo_define_iff {pairs : List (Value × Value)} (h : pairs ≠ []) :
    EvaluatesTo (SpecialForm.define.use (Entries.flatten pairs)) frame before outcome after ↔
      EvaluatesPairs frame
        (fun name value store => store.define (store.definitionFrame frame) name value)
        "def! requires a symbol" .nil (Entries.flatten pairs) before outcome after := by
  constructor
  · intro hends
    obtain ⟨fuel, hpairs⟩ := evaluatesTo_iff_succ.1 hends
    rw [evaluateWithin_define fuel frame h] at hpairs
    exact .of_ends .of_ends hpairs
  · intro hpairs
    have hformed := SpecialForm.define_isWellFormed_flatten h
    exact (Evaluates.form (formOfHead?_name .define) (.define hformed hpairs)).evaluatesTo

/-- The pairs fail where the first of them fails that does. -/
theorem evaluatesPairs_error_iff {last : Value} {pairs : List (Value × Value)} :
    EvaluatesPairs frame
        (fun name value store => store.define (store.definitionFrame frame) name value)
        "def! requires a symbol" last (Entries.flatten pairs) before (.error e) after ↔
      ∃ earlier target expression later middle,
        pairs = earlier ++ (target, expression) :: later ∧ Defines frame earlier before middle ∧
          DefinitionFails frame middle target expression e after := by
  constructor
  · intro h
    induction pairs generalizing last before with
    | nil => cases h
    | cons pair rest ih =>
      obtain ⟨target, expression⟩ := pair
      cases h with
      | noName htarget => exact ⟨[], target, expression, rest, _, rfl, .nil, .noName htarget⟩
      | valueFails hvalue =>
        exact ⟨[], _, expression, rest, _, rfl, .nil, .noValue hvalue.evaluatesTo⟩
      | bind hvalue hrest =>
        obtain ⟨earlier, found, failed, later, middle, rfl, hearlier, hfails⟩ := ih hrest
        exact ⟨_ :: earlier, found, failed, later, middle, rfl, .cons hvalue.evaluatesTo hearlier,
          hfails⟩
  · rintro ⟨earlier, target, expression, later, middle, rfl, hearlier, hfails⟩
    induction hearlier generalizing last with
    | nil =>
      cases hfails with
      | noName htarget => exact .noName htarget
      | noValue hvalue => exact .valueFails hvalue.evaluates
    | cons hvalue hrest ih => exact .bind hvalue.evaluates (ih hfails)

end

namespace Store.WritesOnly

variable {bound target : FrameId} {names : List Symbol} {first second : Store}

theorem isSome_bindings (h : WritesOnly bound target names first second) {f : FrameId}
    (hf : f < bound) {name : Symbol} (hname : (Entries.get? name (first.bindings f)).isSome) :
    (Entries.get? name (second.bindings f)).isSome := by
  cases hold : first.frames[f]? with
  | none => simp [bindings, hold] at hname
  | some old =>
    obtain ⟨new, hnew, -, -, hwritten⟩ := h f old hold
    rw [bindings, hold] at hname
    rw [bindings, hnew]
    exact (hwritten hf).1.bound name hname

theorem get?_bindings_eq (h : WritesOnly bound target names first second) {f : FrameId}
    (hf : f < bound) (hsize : bound ≤ first.frames.size) {name : Symbol} (hname : name ∉ names) :
    Entries.get? name (second.bindings f) = Entries.get? name (first.bindings f) := by
  have hold := Array.getElem?_eq_getElem (Nat.lt_of_lt_of_le hf hsize)
  obtain ⟨new, hnew, -, -, hwritten⟩ := h f _ hold
  rw [bindings, bindings, hold, hnew]
  exact (hwritten hf).1.other name hname

end Store.WritesOnly

section

variable {frame : FrameId} {before after : Store} {outcome : Except Error Value}

theorem Value.definedNames_define (arguments : List Value) :
    (SpecialForm.define.use arguments).definedNames =
      pairNames arguments ++ definedNamesOfAll arguments := by
  rw [SpecialForm.use, definedNames, formOfHead?_name]

/-- The definition of pairs defines the first name, what the first expression defines, and what the
other pairs define. -/
theorem Value.definedNames_define_cons (name : Symbol) (expression : Value)
    (rest : List (Value × Value)) :
    let pairs := (.symbol name, expression) :: rest
    let names := (SpecialForm.define.use (Entries.flatten pairs)).definedNames
    [name] ⊆ names ∧ expression.definedNames ⊆ names ∧
      (SpecialForm.define.use (Entries.flatten rest)).definedNames ⊆ names := by
  simp only [definedNames_define, Entries.flatten, pairNames, definedNamesOfAll]
  refine ⟨by simp, ?_, ?_⟩
  · intro x hx
    simp [hx]
  · intro x hx
    rcases List.mem_append.1 hx with hx | hx <;> simp [hx]

/-- The definitions of pairs go to one frame, and there to the names that the pairs define. -/
theorem Defines.writesOnly {pairs : List (Value × Value)} (h : Defines frame pairs before after)
    {bound : FrameId} (hbound : bound ≤ before.frames.size) (hframe : frame < before.frames.size) :
    before.WritesOnly bound (before.definitionFrame frame)
      (SpecialForm.define.use (Entries.flatten pairs)).definedNames after := by
  induction h with
  | nil => exact .refl _
  | @cons name expression rest before value middle after hvalue hrest ih =>
    have hwrites := hvalue.writesOnly hbound hframe
    have hdefine : middle.WritesOnly bound (before.definitionFrame frame) [name]
        (middle.define (before.definitionFrame frame) name value) :=
      .define (List.mem_singleton.2 rfl) middle value
    rw [Store.size_define, Store.definitionFrame_define, hwrites.definitionFrame_eq hframe] at ih
    have hlater := ih (Nat.le_trans hbound hwrites.size_le)
      (Nat.lt_of_lt_of_le hframe hwrites.size_le)
    obtain ⟨hname, hexpression, hnames⟩ := Value.definedNames_define_cons name expression rest
    exact (hwrites.mono hexpression).trans ((hdefine.mono hname).trans (hlater.mono hnames))

theorem defines_append_iff {front back : List (Value × Value)} :
    Defines frame (front ++ back) before after ↔
      ∃ middle, Defines frame front before middle ∧ Defines frame back middle after := by
  constructor
  · intro h
    induction front generalizing before with
    | nil => exact ⟨before, .nil, h⟩
    | cons pair front ih =>
      cases h with
      | cons hvalue hrest =>
        obtain ⟨middle, hfront, hback⟩ := ih hrest
        exact ⟨middle, .cons hvalue hfront, hback⟩
  · rintro ⟨middle, hfront, hback⟩
    induction hfront with
    | nil => exact hback
    | cons hvalue hrest ih => exact .cons hvalue (ih hback)

/-- A failing pair writes at most what its expression defines. -/
theorem DefinitionFails.writesOnly {target expression : Value} {e : Error}
    (h : DefinitionFails frame before target expression e after) {bound : FrameId}
    (hbound : bound ≤ before.frames.size) (hframe : frame < before.frames.size) :
    before.WritesOnly bound (before.definitionFrame frame) expression.definedNames after := by
  cases h with
  | noName => exact .refl _
  | noValue hvalue => exact hvalue.writesOnly hbound hframe

/-- A pair has been defined behind some others, and its name is bound in a later store still. The
value is the one that it was given, but for names that have been given another one since. -/
def StaysDefined (frame : FrameId) (before : Store) (front : List (Value × Value))
    (target expression : Value) (since : List Symbol) (last : Store) : Prop :=
  ∃ name value start defined, target = .symbol name ∧ Defines frame front before start ∧
    EvaluatesTo expression frame start (.ok value) defined ∧
      (Entries.get? name (last.bindings (before.definitionFrame frame))).isSome ∧
        (name ∉ since →
          Entries.get? name (last.bindings (before.definitionFrame frame)) = some value)

theorem Defines.staysDefined {target expression : Value} {front back : List (Value × Value)}
    (h : Defines frame (front ++ (target, expression) :: back) before after)
    (hframe : frame < before.frames.size) {names : List Symbol} {last : Store}
    (hlast : after.WritesOnly after.frames.size (after.definitionFrame frame) names last) :
    StaysDefined frame before front target expression
      ((SpecialForm.define.use (Entries.flatten back)).definedNames ++ names) last := by
  obtain ⟨start, hfront, hpair⟩ := defines_append_iff.1 h
  cases hpair with
  | @cons name _ _ _ value defined _ hvalue hback =>
    have hbefore := hfront.writesOnly (Nat.le_refl _) hframe
    have hstart := Nat.lt_of_lt_of_le hframe hbefore.size_le
    have hexpression := hvalue.writesOnly (Nat.le_refl _) hstart
    have hdefined := Nat.lt_of_lt_of_le hstart hexpression.size_le
    have htarget : defined.definitionFrame frame = before.definitionFrame frame := by
      rw [hexpression.definitionFrame_eq hstart, hbefore.definitionFrame_eq hframe]
    have hlt : before.definitionFrame frame < defined.frames.size :=
      htarget ▸ Store.definitionFrame_lt hdefined
    rw [htarget] at hback
    have hbound : Entries.get? name ((defined.define (before.definitionFrame frame) name
        value).bindings (before.definitionFrame frame)) = some value := by
      rw [Store.get?_bindings_define_of_lt hlt, if_pos ⟨rfl, rfl⟩]
    rw [← Store.size_define defined (before.definitionFrame frame) name value] at hlt hdefined
    have hrest := hback.writesOnly (Nat.le_refl _) hdefined
    have hafter := Nat.lt_of_lt_of_le hlt hrest.size_le
    refine ⟨name, value, start, defined, rfl, hfront, hvalue, ?_, fun hsince => ?_⟩
    · apply hlast.isSome_bindings hafter
      apply hrest.isSome_bindings hlt
      rw [hbound]
      rfl
    · obtain ⟨hlater, hnames⟩ := not_or.1 (mt List.mem_append.2 hsince)
      rw [hlast.get?_bindings_eq hafter (Nat.le_refl _) hnames,
        hrest.get?_bindings_eq hlt (Nat.le_refl _) hlater, hbound]

end

theorem evaluateWithin_define_malformed {arguments : List Value}
    (h : arguments = [] ∨ arguments.length % 2 = 1) (fuel : Nat) (frame : FrameId) :
    evaluateWithin (fuel + 1) (SpecialForm.define.use arguments) frame =
      Action.fail (.malformed .define) := by
  have hmalformed : SpecialForm.define.isWellFormed arguments = false := by
    rcases h with rfl | hodd
    · rfl
    · simp [SpecialForm.isWellFormed, hodd]
  rw [evaluateWithin_use, finish_applyForm_malformed _ _ hmalformed]

/-- What comes of the definition of any number of names in a frame. -/
structure Store.DefinesInOrder (before : Store) (frame : FrameId) : Prop where
  /-- The definition of pairs is the sequence of the definitions of its pairs. -/
  sequence : ∀ {pairs : List (Value × Value)}, pairs ≠ [] → ∀ {outcome after},
    EvaluatesTo (SpecialForm.define.use (Entries.flatten pairs)) frame before outcome after ↔
      EvaluatesTo (SpecialForm.sequence.use (pairs.map SpecialForm.defineOne)) frame before outcome
        after
  /-- It fails at one of its pairs, behind those that have been defined. -/
  failure : ∀ {pairs : List (Value × Value)}, pairs ≠ [] → ∀ {e after},
    EvaluatesTo (SpecialForm.define.use (Entries.flatten pairs)) frame before (.error e) after ↔
      ∃ earlier target expression later middle,
        pairs = earlier ++ (target, expression) :: later ∧ Defines frame earlier before middle ∧
          DefinitionFails frame middle target expression e after
  /-- Behind the failure the earlier pairs are defined still. -/
  kept : frame < before.frames.size →
    ∀ {front target expression back middle failing source e after},
    Defines frame (front ++ (target, expression) :: back) before middle →
      DefinitionFails frame middle failing source e after →
        StaysDefined frame before front target expression
          ((SpecialForm.define.use (Entries.flatten back)).definedNames ++ source.definedNames)
          after
  /-- From the pair that fails on, nothing is defined but by the expression that fails. -/
  untouched : frame < before.frames.size → ∀ {earlier middle target expression e after},
    Defines frame earlier before middle → DefinitionFails frame middle target expression e after →
      ∀ f < middle.frames.size, ∀ name ∉ expression.definedNames,
        Entries.get? name (after.bindings f) = Entries.get? name (middle.bindings f)
  /-- Without pairs nothing is evaluated, so fuel for one expression is enough. -/
  malformed : ∀ {arguments : List Value}, arguments = [] ∨ arguments.length % 2 = 1 →
    ∀ fuel outcome after,
      (evaluateWithin (fuel + 1) (SpecialForm.define.use arguments) frame).Ends before outcome
          after ↔
        outcome = .error (.malformed .define) ∧ after = before

/-- Definitions take effect one by one. A definition of several names is the sequence of the
definitions of each, in every store and frame and however the expressions end. Where one of its
pairs fails the pairs before it stay defined, and neither that pair nor one behind it is. Where its
arguments are no pairs it fails before anything has been evaluated. -/
theorem definitions_in_order (before : Store) (frame : FrameId) :
    before.DefinesInOrder frame where
  sequence hpairs := evaluatesTo_iff_of_eq fun fuel => evaluateWithin_define_eq fuel frame hpairs
  failure hpairs := (evaluatesTo_define_iff hpairs).trans evaluatesPairs_error_iff
  kept hframe {_ _ _ _ _ _ _ _ _} hdefines hfails := by
    have hmiddle := (hdefines.writesOnly (Nat.le_refl _) hframe).size_le
    exact hdefines.staysDefined hframe
      (hfails.writesOnly (Nat.le_refl _) (Nat.lt_of_lt_of_le hframe hmiddle))
  untouched hframe {_ _ _ _ _ _} hdefines hfails f hf name hname := by
    have hmiddle := (hdefines.writesOnly (Nat.le_refl _) hframe).size_le
    have hwrites := hfails.writesOnly (Nat.le_refl _) (Nat.lt_of_lt_of_le hframe hmiddle)
    exact hwrites.get?_bindings_eq hf (Nat.le_refl _) hname
  malformed h fuel outcome after := by
    rw [evaluateWithin_define_malformed h fuel frame]
    exact ends_fail_iff

/-- In `(def! a 1 b missing c 3)` the first name stays defined, and the last one is not reached. -/
theorem definitions_in_order_until_unbound :
    let before := Session.start.store
    let pairs : List (Value × Value) :=
      [(.symbol ⟨"a"⟩, .number 1), (.symbol ⟨"b"⟩, .symbol ⟨"missing"⟩),
        (.symbol ⟨"c"⟩, .number 3)]
    1 < before.frames.size ∧ ∃ after,
      EvaluatesTo (SpecialForm.define.use (Entries.flatten pairs)) 1 before
          (.error (.unbound "missing")) after ∧
        EvaluatesTo (SpecialForm.sequence.use (pairs.map SpecialForm.defineOne)) 1 before
          (.error (.unbound "missing")) after ∧
        Entries.get? ⟨"a"⟩ (after.bindings 1) = some (.number 1) ∧
        Entries.get? ⟨"b"⟩ (after.bindings 1) = none ∧
        Entries.get? ⟨"c"⟩ (after.bindings 1) = none := by
  intro before pairs
  have hframe : 1 < before.frames.size := by decide
  have horder := definitions_in_order before 1
  let middle := before.define (before.definitionFrame 1) ⟨"a"⟩ (.number 1)
  have hdefines : Defines 1 [(.symbol ⟨"a"⟩, .number 1)] before middle := .cons ⟨1, rfl⟩ .nil
  have hmissing :
      EvaluatesTo (.symbol ⟨"missing"⟩) 1 middle (.error (.unbound "missing")) middle := by
    have hunbound : middle.get? 1 ⟨"missing"⟩ = none := by cbv
    exact (Evaluates.unbound rfl hunbound).evaluatesTo
  have hfails : DefinitionFails 1 middle (.symbol ⟨"b"⟩) (.symbol ⟨"missing"⟩) (.unbound "missing")
      middle := .noValue hmissing
  have hends := (horder.failure (List.cons_ne_nil _ _)).2
    ⟨_, _, _, [(.symbol ⟨"c"⟩, .number 3)], _, rfl, hdefines, hfails⟩
  refine ⟨hframe, middle, hends, (horder.sequence (List.cons_ne_nil _ _)).1 hends, ?_, ?_, ?_⟩
  all_goals cbv

end SmallLisp
