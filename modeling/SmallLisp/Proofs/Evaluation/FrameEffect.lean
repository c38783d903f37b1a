import SmallLisp.Proofs.Action.Writes
import SmallLisp.Proofs.Evaluation.Finish
import SmallLisp.Session

/-!
The frames that evaluation writes to. A run in a frame leaves every frame from before as it was,
but for the one that definitions go to, and there it touches no name that the expression does not
itself define. The frame of the builtins is out of reach for a whole session.
-/

namespace SmallLisp

namespace Value

/-- The names in a sequence of names and expressions. -/
def pairNames : List Value → List Symbol
  | .symbol name :: _ :: rest => name :: pairNames rest
  | _ :: _ :: rest => pairNames rest
  | _ => []

mutual

/-- The names that an expression defines outside its functions: the body of a function defines
names in the frames of its calls. The bindings of a local form are no form themselves, whatever
their first name is. -/
def definedNames : Value → List Symbol
  | .list (head :: arguments) =>
    match Evaluation.formOfHead? head with
    | some .function => []
    | some .define => pairNames arguments ++ definedNamesOfAll arguments
    | some .bindLocally => definedNamesOfLocal arguments
    | _ => head.definedNames ++ definedNamesOfAll arguments
  | .vector items => definedNamesOfAll items
  | .map entries => definedNamesOfEntries entries
  | _ => []

def definedNamesOfAll : List Value → List Symbol
  | [] => []
  | expression :: rest => expression.definedNames ++ definedNamesOfAll rest

def definedNamesOfLocal : List Value → List Symbol
  | .list bindings :: body => definedNamesOfAll bindings ++ definedNamesOfAll body
  | .vector bindings :: body => definedNamesOfAll bindings ++ definedNamesOfAll body
  | _ => []

def definedNamesOfEntries : List (Value × Value) → List Symbol
  | [] => []
  | (key, value) :: rest => key.definedNames ++ value.definedNames ++ definedNamesOfEntries rest

end

end Value

namespace Evaluation

open SmallLisp.Action (Keeps Writes)

section

variable {evaluate : Evaluator} {bound : FrameId}
  (hevaluate : ∀ frame expression,
    Writes bound frame expression.definedNames (evaluate expression frame))

include hevaluate

theorem evaluateAll_writes (frame : FrameId) (expressions : List Value) :
    Writes bound frame (Value.definedNamesOfAll expressions)
      (evaluateAll evaluate frame expressions) := by
  induction expressions with
  | nil => exact .pure []
  | cons expression rest ih =>
    rw [evaluateAll, List.mapM_cons, Value.definedNamesOfAll]
    apply Writes.bind
    · exact (hevaluate frame expression).mono (List.subset_append_left ..)
    · intro value
      apply Writes.bind
      · exact ih.mono (List.subset_append_right ..)
      · intro values
        exact .pure (value :: values)

theorem evaluateEntries_writes (frame : FrameId) (entries : List (Value × Value)) :
    Writes bound frame (Value.definedNamesOfEntries entries)
      (evaluateEntries evaluate frame entries) := by
  induction entries with
  | nil => exact .pure []
  | cons entry rest ih =>
    obtain ⟨key, value⟩ := entry
    rw [evaluateEntries, List.mapM_cons, Value.definedNamesOfEntries, bind_assoc]
    apply Writes.bind
    · exact (hevaluate frame key).mono (by simp)
    · intro newKey
      rw [bind_assoc]
      apply Writes.bind
      · exact (hevaluate frame value).mono (by simp)
      · intro newValue
        rw [pure_bind]
        apply Writes.bind
        · exact ih.mono (List.subset_append_right ..)
        · intro newEntries
          exact .pure ((newKey, newValue) :: newEntries)

theorem runBody_writes (frame : FrameId) (body : List Value) :
    Writes bound frame (Value.definedNamesOfAll body)
      (finish evaluate (runBody evaluate frame body)) := by
  induction body with
  | nil => exact .pure Value.nil
  | cons expression rest ih =>
    have hexpression := (hevaluate frame expression).mono
      (List.subset_append_left _ (Value.definedNamesOfAll rest))
    cases rest with
    | nil => exact hexpression
    | cons next rest =>
      rw [finish_runBody_cons]
      exact hexpression.bind fun _ => ih.mono (List.subset_append_right ..)

/-- A sequence of bindings writes what its expressions define and what it binds itself. -/
theorem bindPairs_writes (frame : FrameId) (bind : Symbol → Value → Store → Store)
    (nameExpected : String) (last : Value) (pairs : List Value) (names : List Symbol)
    (hnames : Value.definedNamesOfAll pairs ⊆ names)
    (hbind : ∀ name ∈ Value.pairNames pairs, ∀ value,
      Writes bound frame names (modify (bind name value))) :
    Writes bound frame names (bindPairs evaluate frame bind nameExpected last pairs) := by
  fun_induction bindPairs evaluate frame bind nameExpected last pairs with
  | case1 last name expression rest ih =>
    apply Writes.bind
    · exact (hevaluate frame expression).mono fun x hx =>
        hnames (by simp [Value.definedNamesOfAll, hx])
    · intro value
      apply Writes.bind
      · exact hbind name List.mem_cons_self value
      · intro _
        apply ih
        · intro x hx
          exact hnames (by simp [Value.definedNamesOfAll, hx])
        · intro other hother
          exact hbind other (List.mem_cons_of_mem _ hother)
  | case2 => exact .fail _
  | case3 last => exact .pure last

theorem chooseBranch_writes (frame : FrameId) (branches : List Value) :
    Writes bound frame (Value.definedNamesOfAll branches)
      (finish evaluate (chooseBranch evaluate frame branches)) := by
  fun_induction chooseBranch evaluate frame branches with
  | case1 condition branch rest ih =>
    rw [← chooseBranch, finish_chooseBranch_cons]
    apply Writes.bind
    · exact (hevaluate frame condition).mono (by simp [Value.definedNamesOfAll])
    · intro value
      split
      · exact (hevaluate frame branch).mono (by simp [Value.definedNamesOfAll])
      · exact ih.mono (by simp [Value.definedNamesOfAll])
  | case2 otherwise =>
    exact (hevaluate frame otherwise).mono (by simp [Value.definedNamesOfAll])
  | case3 => exact .pure Value.nil

omit hevaluate in
theorem call_keeps (operation : Builtin) (arguments : List Value) :
    Keeps bound (operation.call arguments) := by
  apply Keeps.of_frames_eq
  intro store
  rw [Builtin.call]
  split
  · rw [Action.after_bind]
    cases operation.value arguments <;> rfl
  · rfl

/-- A call leaves the frames from before it alone: its body runs in a frame of its own. -/
theorem apply_keeps (callee : Value) (arguments : List Value) :
    Keeps bound (finish evaluate (apply evaluate callee arguments)) := by
  cases callee with
  | builtin operation =>
    rw [finish_apply_builtin]
    exact call_keeps operation arguments
  | closure identity parameters body scope =>
    rw [finish_apply_closure]
    split
    · apply Keeps.newCallFrame
      intro inner _
      exact runBody_writes hevaluate inner body
    · exact .of_frames_eq fun _ => rfl
  | _ => exact .of_frames_eq fun _ => rfl

theorem bindLocally_writes (frame : FrameId) {bindings : Value} {pairs body : List Value}
    (hwell : SpecialForm.bindLocally.isWellFormed (bindings :: body))
    (hpairs : bindings.items? = some pairs) :
    Writes bound frame (Value.definedNamesOfLocal (bindings :: body))
      (finish evaluate (applyForm evaluate .bindLocally frame (bindings :: body))) := by
  have hnames : Value.definedNamesOfLocal (bindings :: body) =
      Value.definedNamesOfAll pairs ++ Value.definedNamesOfAll body := by
    cases bindings <;> cases hpairs <;> rfl
  rw [finish_applyForm_bindLocally evaluate frame hwell hpairs, hnames]
  apply Writes.newLocalFrame
  intro inner hinner
  apply Writes.bind
  · apply bindPairs_writes hevaluate
    · exact List.subset_append_left ..
    · intro name _ value
      exact .define_of_bound_le name value hinner
  · intro _
    exact (runBody_writes hevaluate inner body).mono (List.subset_append_right ..)

omit hevaluate in
theorem makeClosure_writes (frame : FrameId) (names : List Symbol) (items body : List Value) :
    Writes bound frame names (makeClosure frame items body) := by
  rw [makeClosure]
  apply Writes.bind
  · cases Parameters.ofItems items with
    | ok parameters => exact .pure parameters
    | error e => exact .fail e
  · intro parameters
    apply Writes.bind
    · exact Keeps.writes (.of_frames_eq fun _ => rfl) frame names
    · intro identity
      exact .pure (Value.closure identity parameters body frame)

theorem applyForm_writes {head : Value} {form : SpecialForm} (frame : FrameId)
    (arguments : List Value) (hform : formOfHead? head = some form) :
    Writes bound frame (Value.definedNames (.list (head :: arguments)))
      (finish evaluate (applyForm evaluate form frame arguments)) := by
  cases hwell : form.isWellFormed arguments with
  | false =>
    rw [finish_applyForm_malformed evaluate frame hwell]
    exact .fail _
  | true =>
    rw [Value.definedNames, hform]
    cases form with
    | define =>
      rw [finish_applyForm_define evaluate frame hwell]
      apply bindPairs_writes hevaluate
      · exact List.subset_append_right ..
      · intro name hname value
        exact .define (List.mem_append_left _ hname) value
    | bindLocally =>
      obtain ⟨bindings, body, pairs, rfl, hpairs⟩ := SpecialForm.bindings_of_isWellFormed hwell
      exact bindLocally_writes hevaluate frame hwell hpairs
    | sequence =>
      rw [finish_applyForm_sequence]
      exact (runBody_writes hevaluate frame arguments).mono (List.subset_append_right ..)
    | choose =>
      rw [finish_applyForm_choose evaluate frame hwell]
      exact (chooseBranch_writes hevaluate frame arguments).mono (List.subset_append_right ..)
    | function =>
      obtain ⟨parameters, body, items, rfl, hitems⟩ := SpecialForm.items_of_isWellFormed hwell
      rw [finish_applyForm_function evaluate frame hitems]
      exact makeClosure_writes frame _ items body

/-- One expression, when its subexpressions write what they define, writes what it defines. -/
theorem step_writes (frame : FrameId) (expression : Value) :
    Writes bound frame expression.definedNames
      (finish evaluate (step evaluate expression frame)) := by
  cases expression with
  | map entries =>
    rw [step, finish_bind]
    exact (evaluateEntries_writes hevaluate frame entries).bind fun _ => .pure _
  | vector items =>
    rw [step, finish_bind]
    exact (evaluateAll_writes hevaluate frame items).bind fun _ => .pure _
  | list items =>
    cases items with
    | nil => exact .pure (Value.list [])
    | cons head arguments =>
      rw [step]
      split
      · next form hform => exact applyForm_writes hevaluate frame arguments hform
      · next hform =>
        rw [Value.definedNames, hform, finish_bind]
        apply Writes.bind
        · exact (hevaluate frame head).mono (List.subset_append_left ..)
        · intro callee
          rw [finish_bind]
          apply Writes.bind
          · exact (evaluateAll_writes hevaluate frame arguments).mono
              (List.subset_append_right ..)
          · intro values
            exact (apply_keeps hevaluate callee values).writes frame _
  | symbol symbol =>
    rw [step]
    split
    · exact .pure (Value.symbol symbol)
    · rw [finish_bind_done]
      apply Keeps.writes
      apply Keeps.of_frames_eq
      intro store
      rw [Action.lookup, Action.after_bind]
      change (Action.after _ store).frames = store.frames
      split <;> rfl
  | _ => exact .pure _

end

/-- However much fuel there is, and so at every moment of a run, evaluation has written to no frame
from before but the one of its definitions. -/
theorem evaluateWithin_writes (fuel : Nat) (bound frame : FrameId) (expression : Value) :
    Writes bound frame expression.definedNames (evaluateWithin fuel expression frame) := by
  induction fuel generalizing frame expression with
  | zero => exact Keeps.writes (.of_frames_eq fun _ => rfl) frame _
  | succ fuel ih =>
    rw [evaluateWithin_succ]
    exact step_writes ih frame expression

end Evaluation

theorem respond_writes (bound frame : FrameId) (line : String) :
    ∃ names, Action.Writes bound frame names (respond frame line) := by
  simp only [respond, evaluateText]
  cases read line with
  | error e => exact ⟨[], .fail (.read e)⟩
  | ok expression =>
    refine ⟨expression.definedNames, ?_⟩
    apply Action.Writes.bind
    · exact Evaluation.evaluateWithin_writes ampleFuel bound frame expression
    · intro value
      exact .pure (value.print .readable)

namespace Session

/-- The frame of a session is not the outermost one, and what its lines define is defined there. -/
structure OwnsFrame (session : Session) : Prop where
  frame_pos : 0 < session.frame
  frame_lt : session.frame < session.store.frames.size
  definitionFrame : session.store.definitionFrame session.frame = session.frame

theorem start_ownsFrame : start.OwnsFrame where
  frame_pos := by decide
  frame_lt := by decide
  definitionFrame := Store.initial.definitionFrame_push_of_not_local [] (some 0)

theorem feed_frame (session : Session) (line : String) :
    (session.feed line).frame = session.frame := by
  rw [feed]
  split
  · rfl
  · split <;> rfl

theorem feed_writes {session : Session} (h : session.OwnsFrame) (line : String) :
    ∃ names, session.store.WritesOnly session.frame session.frame names
      (session.feed line).store := by
  obtain ⟨names, hrespond⟩ := respond_writes session.frame session.frame line
  have hrun := hrespond session.store (Nat.le_of_lt h.frame_lt) h.frame_lt
  rw [h.definitionFrame] at hrun
  refine ⟨names, ?_⟩
  rw [feed]
  split
  · exact .refl _
  · rw [Action.after] at hrun
    split at hrun
    · next hok =>
      simp only [hok]
      exact hrun.trans (.of_frames_eq rfl)
    · next halt _ herror =>
      simp only [herror]
      cases halt <;> exact hrun

/-- A line leaves the outermost frame as it was, and the session where it was. -/
theorem OwnsFrame.feed {session : Session} (h : session.OwnsFrame) (line : String) :
    (session.feed line).OwnsFrame ∧
      (session.feed line).store.frames[0]? = session.store.frames[0]? := by
  obtain ⟨names, hwrites⟩ := feed_writes h line
  have hroot : 0 < session.store.frames.size := Nat.lt_trans h.frame_pos h.frame_lt
  obtain ⟨new, hnew, -, -, hold⟩ := hwrites 0 _ (Array.getElem?_eq_getElem hroot)
  have hsame := (hold h.frame_pos).2 (Nat.ne_of_lt h.frame_pos)
  refine ⟨⟨?_, ?_, ?_⟩, ?_⟩
  · rw [feed_frame]
    exact h.frame_pos
  · rw [feed_frame]
    exact Nat.lt_of_lt_of_le h.frame_lt hwrites.size_le
  · rw [feed_frame, hwrites.definitionFrame_eq h.frame_lt]
    exact h.definitionFrame
  · rw [hnew, hsame, Array.getElem?_eq_getElem hroot]

theorem OwnsFrame.feedAll {session : Session} (h : session.OwnsFrame) (lines : List String) :
    (session.feedAll lines).store.frames[0]? = session.store.frames[0]? := by
  induction lines generalizing session with
  | nil => rfl
  | cons line rest ih =>
    obtain ⟨hnext, hroot⟩ := h.feed line
    exact (ih hnext).trans hroot

end Session

/-- At every moment of a run, and so however it ends, the frames from before it are still there in
their places. Only the frame that definitions go to may hold other bindings than before, it has lost
none of them, and the names in which it differs are names that the expression defines itself. A call
of any value leaves all frames from before it as they were, and no session changes the outermost
frame, which holds the builtins. -/
theorem evaluate_writes_only_definitions :
    (∀ (fuel : Nat) (expression : Value) (frame : FrameId) (before : Store),
      frame < before.frames.size →
      ∀ number old, before.frames[number]? = some old →
        ∃ new, ((evaluateWithin fuel expression frame).after before).frames[number]? = some new ∧
          new.parent = old.parent ∧ new.isLocal = old.isLocal ∧
          (number ≠ before.definitionFrame frame → new.bindings = old.bindings) ∧
          (∀ name, (Entries.get? name old.bindings).isSome →
            (Entries.get? name new.bindings).isSome) ∧
          ∀ name, Entries.get? name new.bindings ≠ Entries.get? name old.bindings →
            name ∈ expression.definedNames) ∧
    (∀ (fuel : Nat) (callee : Value) (arguments : List Value) (before : Store) (number : FrameId),
      number < before.frames.size →
      ((Evaluation.finish (evaluateWithin fuel)
          (Evaluation.apply (evaluateWithin fuel) callee arguments)).after before).frames[number]? =
        before.frames[number]?) ∧
    ∀ lines : List String,
      (Session.start.feedAll lines).store.frames[0]? = Store.initial.frames[0]? := by
  refine ⟨?_, ?_, ?_⟩
  · intro fuel expression frame before hframe number old hold
    have hnumber : number < before.frames.size := (Array.getElem?_eq_some_iff.1 hold).1
    have hwrites := Evaluation.evaluateWithin_writes fuel before.frames.size frame expression before
      (Nat.le_refl _) hframe
    obtain ⟨new, hnew, hparent, hlocal, hwritten⟩ := hwrites number old hold
    obtain ⟨hredefined, hsame⟩ := hwritten hnumber
    refine ⟨new, hnew, hparent, hlocal, ?_, hredefined.bound, ?_⟩
    · intro hne
      rw [hsame hne]
    · intro name hchanged
      by_contra hname
      exact hchanged (hredefined.other name hname)
  · intro fuel callee arguments before number hnumber
    have hkeeps := Evaluation.apply_keeps (Evaluation.evaluateWithin_writes fuel _) callee arguments
      before (Nat.le_refl _)
    obtain ⟨new, hnew, -, -, hwritten⟩ := hkeeps number _ (Array.getElem?_eq_getElem hnumber)
    rw [hnew, (hwritten hnumber).2 (Nat.ne_of_lt hnumber), Array.getElem?_eq_getElem hnumber]
  · intro lines
    rw [Session.start_ownsFrame.feedAll lines]
    rfl

/-- In `((fn* [y] (def! x y)) (def! z 1))` the argument defines `z` in the frame of the session, and
the call leaves no `x` behind there. -/
theorem call_definition_not_in_session :
    let arguments := [.list [.symbol ⟨"def!"⟩, .symbol ⟨"z"⟩, .number 1]]
    let definition := .list [.symbol ⟨"def!"⟩, .symbol ⟨"x"⟩, .symbol ⟨"y"⟩]
    let function := .list [.symbol ⟨"fn*"⟩, .vector [.symbol ⟨"y"⟩], definition]
    let before := Session.start.store
    let after := (evaluateWithin 9 (.list (function :: arguments)) 1).after before
    1 < before.frames.size ∧ before.frames[1]? = some ⟨[], some 0, false⟩ ∧
      ∃ new, after.frames[1]? = some new ∧ Entries.get? ⟨"x"⟩ new.bindings = none := by
  intro arguments definition function before after
  have hframe : 1 < before.frames.size := by decide
  have hold : before.frames[1]? = some ⟨[], some 0, false⟩ := rfl
  obtain ⟨new, hnew, -, -, -, -, hnames⟩ :=
    evaluate_writes_only_definitions.1 9 (.list (function :: arguments)) 1 before hframe 1 _ hold
  refine ⟨hframe, hold, new, hnew, ?_⟩
  by_contra hchanged
  have hname : (⟨"x"⟩ : Symbol) ∈ Value.definedNames (.list (function :: arguments)) :=
    hnames ⟨"x"⟩ hchanged
  exact absurd hname (by decide)

end SmallLisp
