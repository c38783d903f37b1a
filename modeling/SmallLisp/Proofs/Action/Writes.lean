import SmallLisp.Proofs.Action.Ends
import SmallLisp.Proofs.Store.Writes

/-!
Actions that write to the frame of definitions only. The property is closed under the ways in which
evaluation puts actions together, the opening of a frame for a local form or for a call included.
-/

namespace SmallLisp

namespace Action

variable {α β : Type}

/-- The store that an action leaves behind, however it ends. -/
def after (action : Action α) (before : Store) : Store :=
  match action before with
  | .ok _ store | .error _ store => store

theorem Ends.after_eq {action : Action α} {before store : Store} {outcome : Except Error α}
    (h : action.Ends before outcome store) : action.after before = store := by
  rw [after, h]
  cases outcome <;> rfl

theorem after_bind (action : Action α) (next : α → Action β) (store : Store) :
    (action >>= next).after store =
      match action store with
      | .ok result middle => (next result).after middle
      | .error _ middle => middle := by
  rw [after, bind_apply]
  cases action store <;> rfl

/-- An action that is run in a frame and defines only some names. -/
def Writes (bound frame : FrameId) (names : List Symbol) (action : Action α) : Prop :=
  ∀ store : Store, bound ≤ store.frames.size → frame < store.frames.size →
    store.WritesOnly bound (store.definitionFrame frame) names (action.after store)

/-- An action that leaves every frame below the bound as it was. -/
def Keeps (bound : FrameId) (action : Action α) : Prop :=
  ∀ store : Store, bound ≤ store.frames.size →
    store.WritesOnly bound bound [] (action.after store)

theorem Keeps.writes {bound : FrameId} {action : Action α} (h : Keeps bound action)
    (frame : FrameId) (names : List Symbol) : Writes bound frame names action := by
  intro store hbound _
  exact (h store hbound).of_bound_le (Nat.le_refl _)

theorem Keeps.of_frames_eq {bound : FrameId} {action : Action α}
    (h : ∀ store, (action.after store).frames = store.frames) : Keeps bound action := by
  intro store _
  exact .of_frames_eq (h store)

namespace Writes

variable {bound frame : FrameId} {names : List Symbol} {action : Action α} {next : α → Action β}

theorem pure (result : α) : Writes bound frame names (Pure.pure result : Action α) :=
  Keeps.writes (.of_frames_eq fun _ => rfl) frame names

theorem fail (e : Error) : Writes bound frame names (Action.fail e : Action α) :=
  Keeps.writes (.of_frames_eq fun _ => rfl) frame names

theorem mono {more : List Symbol} (h : Writes bound frame names action) (hmore : names ⊆ more) :
    Writes bound frame more action := by
  intro store hbound hframe
  exact (h store hbound hframe).mono hmore

/-- Between the two parts the target stays the same, since no frame moves. -/
theorem bind (h : Writes bound frame names action)
    (hnext : ∀ result, Writes bound frame names (next result)) :
    Writes bound frame names (action >>= next) := by
  intro store hbound hframe
  have hfirst := h store hbound hframe
  rw [after_bind]
  cases hrun : action store with
  | error halt middle =>
    have hmiddle : action.after store = middle := by rw [after, hrun]
    exact hmiddle ▸ hfirst
  | ok result middle =>
    have hmiddle : action.after store = middle := by rw [after, hrun]
    rw [hmiddle] at hfirst
    have hsize := hfirst.size_le
    have hsecond :=
      hnext result middle (Nat.le_trans hbound hsize) (Nat.lt_of_lt_of_le hframe hsize)
    rw [hfirst.definitionFrame_eq hframe] at hsecond
    exact hfirst.trans hsecond

/-- A definition in the frame that definitions go to. -/
theorem define {name : Symbol} (hname : name ∈ names) (value : Value) :
    Writes bound frame names
      (modify fun store => store.define (store.definitionFrame frame) name value) := by
  intro store _ _
  exact .define hname store value

/-- A binding in a frame of the program's own. -/
theorem define_of_bound_le (name : Symbol) (value : Value) {own : FrameId} (hown : bound ≤ own) :
    Writes bound frame names (modify fun store => store.define own name value) := by
  intro store _ _
  have hdefine : store.WritesOnly bound own [name] (store.define own name value) :=
    .define (List.mem_singleton.2 rfl) store value
  exact hdefine.of_bound_le hown

theorem newLocalFrame {next : FrameId → Action β}
    (h : ∀ inner, bound ≤ inner → Writes bound inner names (next inner)) :
    Writes bound frame names (Action.newFrame frame true [] >>= next) := by
  intro store hbound hframe
  let pushed := store.push ⟨[], some frame, true⟩
  have hsize : pushed.frames.size = store.frames.size + 1 := store.size_push _
  have hpush : store.WritesOnly bound (store.definitionFrame frame) names pushed := .push _ _
  have hrest := h store.frames.size hbound pushed (hsize ▸ Nat.le_succ_of_le hbound)
    (hsize ▸ Nat.lt_succ_self _)
  rcases store.definitionFrame_push_local [] hframe with hsame | hown
  · rw [hsame] at hrest
    exact hpush.trans hrest
  · rw [hown] at hrest
    exact hpush.trans (hrest.of_bound_le hbound)

end Writes

/-- What runs in the frame of a call stays there: definitions pass through local frames only. -/
theorem Keeps.newCallFrame {bound : FrameId} {next : FrameId → Action β} {names : List Symbol}
    (scope : FrameId) (bindings : List (Symbol × Value))
    (h : ∀ inner, bound ≤ inner → Writes bound inner names (next inner)) :
    Keeps bound (Action.newFrame scope false bindings >>= next) := by
  intro store hbound
  let pushed := store.push ⟨bindings, some scope, false⟩
  have hsize : pushed.frames.size = store.frames.size + 1 := store.size_push _
  have hpush : store.WritesOnly bound bound [] pushed := .push _ _
  have hrest := h store.frames.size hbound pushed (hsize ▸ Nat.le_succ_of_le hbound)
    (hsize ▸ Nat.lt_succ_self _)
  rw [store.definitionFrame_push_of_not_local] at hrest
  exact hpush.trans (hrest.of_bound_le hbound)

end Action

end SmallLisp
