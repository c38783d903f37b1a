import SmallLisp.Entries
import SmallLisp.Names
import SmallLisp.Value.Basic

/-!
The store: everything that evaluation can change. It holds the frames in which names are bound,
counts the closures made so far, and collects what was written.

Each frame but the outermost has a parent that is older than itself. A frame and its ancestors form
its chain, along which names are looked up. The frames of a local binding form are marked as local:
definitions pass through them to the nearest ancestor that is not.
-/

namespace SmallLisp

structure Frame where
  bindings : List (Symbol × Value)
  parent : Option FrameId
  isLocal : Bool

structure Store where
  frames : Array Frame
  closureCount : Nat
  output : String

namespace Store

def empty : Store := ⟨#[], 0, ""⟩

def parent? (store : Store) (frame : FrameId) : Option FrameId :=
  store.frames[frame]?.bind Frame.parent

/-- A frame, its parent, the parent's parent and so on. -/
def chain (store : Store) (frame : FrameId) : List FrameId :=
  match store.parent? frame with
  | none => [frame]
  | some parent => if parent < frame then frame :: store.chain parent else [frame]
termination_by frame

def bindings (store : Store) (frame : FrameId) : List (Symbol × Value) :=
  (store.frames[frame]?.map Frame.bindings).getD []

def isLocal (store : Store) (frame : FrameId) : Bool :=
  (store.frames[frame]?.map Frame.isLocal).getD false

/-- The value of a symbol in the nearest frame of the chain that binds it. -/
def get? (store : Store) (frame : FrameId) (symbol : Symbol) : Option Value :=
  (store.chain frame).findSome? fun f => Entries.get? symbol (store.bindings f)

/-- The nearest frame of the chain that is not local. -/
def definitionFrame (store : Store) (frame : FrameId) : FrameId :=
  ((store.chain frame).find? fun f => !store.isLocal f).getD frame

/-- The names bound anywhere along the chain. -/
def names (store : Store) (frame : FrameId) : List String :=
  Names.ofList <| (store.chain frame).flatMap fun f =>
    (store.bindings f).map fun (symbol, _) => symbol.name

/-- Binds a symbol in one frame, in place of its earlier value there. -/
def define (store : Store) (frame : FrameId) (symbol : Symbol) (value : Value) : Store :=
  { store with
    frames := store.frames.modify frame fun f =>
      { f with bindings := Entries.insert symbol value f.bindings } }

/-- Adds a frame, whose number is the number of frames before. -/
def push (store : Store) (frame : Frame) : Store :=
  { store with frames := store.frames.push frame }

def write (store : Store) (text : String) : Store :=
  { store with output := store.output ++ text }

/-- The outline of a frame, which shows the number of its bindings and its place. -/
def inspectFrame (store : Store) (frame : FrameId) : String :=
  s!"Environment \x7b bindings: {(store.bindings frame).length}, " ++
    s!"parent: {(store.parent? frame).isSome}, local: {store.isLocal frame} \x7d"

theorem chain_eq (store : Store) (frame : FrameId) :
    store.chain frame = frame ::
      match store.parent? frame with
      | none => []
      | some parent => if parent < frame then store.chain parent else [] := by
  rw [chain]
  cases store.parent? frame with
  | none => rfl
  | some parent => dsimp only; split <;> rfl

theorem mem_chain_self (store : Store) (frame : FrameId) : frame ∈ store.chain frame := by
  rw [chain_eq]
  exact List.mem_cons_self

theorem le_of_mem_chain {store : Store} {frame ancestor : FrameId}
    (h : ancestor ∈ store.chain frame) : ancestor ≤ frame := by
  induction frame using Nat.strongRecOn with
  | _ frame ih =>
    rw [chain_eq] at h
    rcases List.mem_cons.1 h with rfl | habove
    · exact Nat.le_refl _
    · split at habove
      · cases habove
      · split at habove
        · next hless => exact Nat.le_trans (ih _ hless habove) (Nat.le_of_lt hless)
        · cases habove

theorem frames_define (store : Store) (frame f : FrameId) (symbol : Symbol) (value : Value) :
    (store.define frame symbol value).frames[f]? =
      if frame = f then
        store.frames[f]?.map fun old =>
          { old with bindings := Entries.insert symbol value old.bindings }
      else store.frames[f]? := by
  simp [define, Array.getElem?_modify]

/-- A definition changes no frame's place among the others. -/
theorem chain_congr {first second : Store} (h : ∀ f, first.parent? f = second.parent? f)
    (frame : FrameId) : first.chain frame = second.chain frame := by
  induction frame using Nat.strongRecOn with
  | _ frame ih =>
    rw [chain_eq, chain_eq, h]
    split
    · rfl
    · split
      · next holder => rw [ih _ holder]
      · rfl

theorem chain_define (store : Store) (frame : FrameId) (symbol : Symbol) (value : Value) :
    (store.define frame symbol value).chain = store.chain := by
  funext f
  apply chain_congr
  intro g
  rw [parent?, parent?, frames_define]
  split <;> cases store.frames[g]? <;> rfl

theorem isLocal_define (store : Store) (frame : FrameId) (symbol : Symbol) (value : Value) :
    (store.define frame symbol value).isLocal = store.isLocal := by
  funext f
  rw [isLocal, isLocal, frames_define]
  split <;> cases store.frames[f]? <;> rfl

theorem definitionFrame_define (store : Store) (frame : FrameId) (symbol : Symbol) (value : Value) :
    (store.define frame symbol value).definitionFrame = store.definitionFrame := by
  funext f
  simp only [definitionFrame, chain_define, isLocal_define]

end Store

end SmallLisp
