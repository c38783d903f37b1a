import Mathlib
import SmallLisp.Proofs.Action.Writes
import SmallLisp.Proofs.Evaluation.Settled
import SmallLisp.Session

/-!
What the lines of a session end in. Each line starts from the store that the line before it has
left, also when that line failed. At every moment all the values of the session are settled.
-/

namespace SmallLisp

namespace Action

variable {α β : Type}

/-- What actions end in that are run one after the other. -/
def runEach : List (Action α) → Store → List (EStateM.Result Halt Store α)
  | [], _ => []
  | action :: rest, store => action store :: runEach rest (action.after store)

theorem EndsRelated.stores {R : RunRelation} {results : α → β → Prop} {first : Action α}
    {second : Action β} {s t : Store} (h : EndsRelated R results (first s) (second t)) :
    R.Stores (first.after s) (second.after t) := by
  rw [after, after]
  generalize first s = firstEnd at h
  generalize second t = secondEnd at h
  cases h <;> assumption

/-- Actions that are related one by one stay related when they are run one after the other. -/
theorem forall₂_runEach {R : RunRelation} {results : α → β → Prop} {firsts : List (Action α)}
    {seconds : List (Action β)} (h : List.Forall₂ (Related R results) firsts seconds) {s t : Store}
    (hstores : R.Stores s t) :
    List.Forall₂ (EndsRelated R results) (runEach firsts s) (runEach seconds t) := by
  induction h generalizing s t with
  | nil => exact .nil
  | cons hhead htail ih =>
    have hends := hhead s t hstores
    exact .cons hends (ih hends.stores)

end Action

/-- Reads and evaluates a line with a given amount of fuel. -/
def evaluateTextWithin (fuel : Nat) (frame : FrameId) (text : String) : Action Value := do
  let expression ← Action.ofExcept ((read text).mapError .read)
  evaluateWithin fuel expression frame

theorem evaluateText_eq : evaluateText = evaluateTextWithin ampleFuel := rfl

namespace Correspondence

/-- Two runs that read the same line stay in step. -/
theorem evaluateTextWithin_inStep {V : Vocabulary} (C : Correspondence V .id) {text : String}
    (h : ∀ expression, read text = .ok expression → V.IsExpression expression) (fuel : Nat)
    (frame : FrameId) :
    C.InStep (V.Renamed .id) (evaluateTextWithin fuel frame text)
      (evaluateTextWithin fuel frame text) := by
  rw [evaluateTextWithin]
  cases hread : read text with
  | error e => exact .fail (.same (.read e))
  | ok expression =>
    have hstep := C.evaluateWithin_inStep fuel frame (h expression hread)
    rw [Value.rename_id] at hstep
    exact hstep

end Correspondence

namespace Session

theorem isToken_name (operation : Builtin) : Symbol.IsToken ⟨operation.name⟩ := by
  rw [Symbol.isToken_iff_isReadable]
  cases operation <;> decide

theorem start_isSettled : start.store.IsSettled := by
  have hinitial : Store.initial.IsSettled := by
    intro frame hframe binding hbinding
    obtain rfl := Array.mem_singleton.1 hframe
    obtain ⟨operation, -, rfl⟩ := List.mem_map.1 hbinding
    exact ⟨isToken_name operation, .builtin operation⟩
  exact hinitial.push (List.forall_mem_nil _)

/-- The builtins keep their names, so every session starts alike. -/
theorem start_rename (ρ : Renaming) : start.store.rename ρ = start.store := by
  have hbindings : (Builtin.all.map fun operation =>
        ((⟨operation.name⟩ : Symbol), Value.builtin operation)).map
          (Prod.map ρ.apply (Value.rename ρ)) =
      Builtin.all.map fun operation => (⟨operation.name⟩, .builtin operation) := by
    simp [Function.comp_def, ρ.builtin, Value.rename]
  have hempty : Store.empty.rename ρ = Store.empty := by
    simp [Store.rename, Store.empty]
  rw [start, Store.initial, Store.push_rename, Store.push_rename, Frame.rename, hbindings, hempty]
  rfl

end Session

/-- A line leaves a settled store behind, whatever it ends in, and its value is settled. -/
theorem evaluateTextWithin_isSettled {store : Store} (h : store.IsSettled) (fuel : Nat)
    (frame : FrameId) (line : String) :
    (∀ value after, evaluateTextWithin fuel frame line store = .ok value after →
      value.IsSettled ∧ after.IsSettled) ∧
      ∀ halt after, evaluateTextWithin fuel frame line store = .error halt after →
        after.IsSettled := by
  let C := Correspondence.renamed .id
  have hliteral : ∀ expression, read line = .ok expression → expression.IsLiteral :=
    fun _ hread => (isLiteral_of_read hread).1
  -- The run is compared with itself, since the first of two runs in step is settled.
  have hends := C.evaluateTextWithin_inStep hliteral fuel frame store store
    ⟨h, (store.rename_id).symm⟩
  generalize evaluateTextWithin fuel frame line store = ending at hends
  constructor
  · rintro value after rfl
    cases hends with
    | ok hvalue hstores => exact ⟨hvalue.1, hstores.1⟩
  · rintro halt after rfl
    cases hends with
    | failure herror hstores => exact hstores.1
    | outOfFuel hstores => exact hstores.1

theorem after_isSettled {store : Store} (h : store.IsSettled) (fuel : Nat) (frame : FrameId)
    (line : String) : ((evaluateTextWithin fuel frame line).after store).IsSettled := by
  obtain ⟨hvalue, herror⟩ := evaluateTextWithin_isSettled h fuel frame line
  rw [Action.after]
  split
  · next value after hok => exact (hvalue value after hok).2
  · next halt after hfails => exact herror halt after hfails

/-- Whatever the lines of a run end in, all values are settled after each of them. -/
theorem runEach_isSettled {store : Store} (h : store.IsSettled) (fuel : Nat) (frame : FrameId)
    (lines : List String) :
    ∀ ending ∈ Action.runEach (lines.map (evaluateTextWithin fuel frame)) store,
      (∀ value after, ending = .ok value after → value.IsSettled ∧ after.IsSettled) ∧
        ∀ halt after, ending = .error halt after → after.IsSettled := by
  induction lines generalizing store with
  | nil => exact List.forall_mem_nil _
  | cons line rest ih =>
    rw [List.map_cons, Action.runEach, List.forall_mem_cons]
    exact ⟨evaluateTextWithin_isSettled h fuel frame line,
      ih (after_isSettled h fuel frame line)⟩

/-- After every line of a session, whether it gave a value or failed, in the reader or midway
through its evaluation, every value that came out and every value in the store is settled. Of these
all that hold no callable and are not too high are read back from their text. -/
theorem session_values_settled (fuel : Nat) (lines : List String) :
    (∀ ending ∈ Action.runEach (lines.map (evaluateTextWithin fuel Session.start.frame))
        Session.start.store,
      (∀ value store, ending = .ok value store → value.IsSettled ∧ store.IsSettled) ∧
        ∀ halt store, ending = .error halt store → store.IsSettled) ∧
      ∀ value : Value, value.IsSettled → value.isData → value.height ≤ Reader.maxDepth →
        read (value.print .readable) = .ok value := by
  constructor
  · exact runEach_isSettled Session.start_isSettled fuel Session.start.frame lines
  · intro value hsettled hdata hheight
    exact read_print_of_height_le (hsettled.isLiteral hdata) hheight

/-- The second line fails after it has defined `m` anew. Its two keys are equal, so the value of `m`
has one entry, and it is read back from its text. -/
theorem session_values_settled_after_failure :
    let lines := ["(def! m \x7b[1 2] 0\x7d)",
      "(do (def! m \x7b[1 2] 1 (list 1 2) \"a\\nb\"\x7d) (nope))", "m"]
    let runs := Action.runEach (lines.map (evaluateTextWithin 9 Session.start.frame))
      Session.start.store
    let m : Value := .map [(.vector [.number 1, .number 2], .string "a\nb")]
    ∃ store, .ok m store ∈ runs ∧ m.IsSettled ∧ store.IsSettled ∧ m.isData ∧
      m.height ≤ Reader.maxDepth ∧ read (m.print .readable) = .ok m := by
  intro lines runs m
  have hvalue : (runs[2]?).bind Action.result? = some m := by
    cbv
  obtain ⟨ending, hending, hresult⟩ := Option.bind_eq_some_iff.1 hvalue
  obtain ⟨store, rfl⟩ := Action.exists_of_result?_eq_some hresult
  have hmem := List.mem_of_getElem? hending
  obtain ⟨hsettled, hstore⟩ := ((session_values_settled 9 lines).1 _ hmem).1 m store rfl
  have hdata : m.isData := by decide
  have hheight : m.height ≤ Reader.maxDepth := by decide
  exact ⟨store, hmem, hsettled, hstore, hdata, hheight,
    (session_values_settled 9 lines).2 m hsettled hdata hheight⟩

end SmallLisp
