import SmallLisp.Store

/-!
What the changes of a store do to each of its frames, one lemma for each change and each thing that
can be asked of a frame.
-/

namespace SmallLisp

theorem Entries.mem_of_get? {κ ν : Type} [BEq κ] {key : κ} {value : ν} {entries : List (κ × ν)}
    (h : get? key entries = some value) : ∃ found, (found, value) ∈ entries := by
  obtain ⟨⟨found, _⟩, hfound, rfl⟩ := Option.map_eq_some_iff.1 h
  exact ⟨found, List.mem_of_find?_eq_some hfound⟩

namespace Store

theorem getElem?_push (store : Store) (frame : Frame) (f : FrameId) :
    (store.push frame).frames[f]? =
      if f = store.frames.size then some frame else store.frames[f]? :=
  Array.getElem?_push

theorem size_push (store : Store) (frame : Frame) :
    (store.push frame).frames.size = store.frames.size + 1 :=
  Array.size_push ..

theorem parent?_push (store : Store) (frame : Frame) (f : FrameId) :
    (store.push frame).parent? f =
      if f = store.frames.size then frame.parent else store.parent? f := by
  rw [parent?, getElem?_push]
  split <;> rfl

theorem isLocal_push_eq (store : Store) (frame : Frame) (f : FrameId) :
    (store.push frame).isLocal f =
      if f = store.frames.size then frame.isLocal else store.isLocal f := by
  rw [isLocal, getElem?_push]
  split <;> rfl

theorem parent?_define (store : Store) (frame f : FrameId) (name : Symbol) (value : Value) :
    (store.define frame name value).parent? f = store.parent? f := by
  rw [parent?, parent?, frames_define]
  split <;> cases store.frames[f]? <;> rfl

theorem bindings_push (store : Store) (frame : Frame) (f : FrameId) :
    (store.push frame).bindings f =
      if f = store.frames.size then frame.bindings else store.bindings f := by
  rw [bindings, getElem?_push]
  split <;> rfl

theorem bindings_of_size_le {store : Store} {f : FrameId} (h : store.frames.size ≤ f) :
    store.bindings f = [] := by
  rw [bindings, Array.getElem?_eq_none h]
  rfl

theorem size_define (store : Store) (frame : FrameId) (name : Symbol) (value : Value) :
    (store.define frame name value).frames.size = store.frames.size :=
  Array.size_modify ..

theorem get?_bindings_define (store : Store) (frame : FrameId) (name : Symbol) (value : Value)
    (f : FrameId) (other : Symbol) :
    Entries.get? other ((store.define frame name value).bindings f) =
      if frame < store.frames.size ∧ frame = f ∧ name = other then some value
      else Entries.get? other (store.bindings f) := by
  rw [bindings, bindings, frames_define]
  by_cases hsame : frame = f
  · subst hsame
    by_cases hframe : frame < store.frames.size
    · simp [hframe, Entries.get?_insert]
    · simp [hframe]
  · simp [hsame]

theorem get?_bindings_define_of_lt {store : Store} {frame : FrameId}
    (hframe : frame < store.frames.size) (name : Symbol) (value : Value) (f : FrameId)
    (other : Symbol) :
    Entries.get? other ((store.define frame name value).bindings f) =
      if frame = f ∧ name = other then some value else Entries.get? other (store.bindings f) := by
  simp only [get?_bindings_define, hframe, true_and]

theorem definitionFrame_mem (store : Store) (frame : FrameId) :
    store.definitionFrame frame ∈ store.chain frame := by
  rw [definitionFrame]
  cases hfound : (store.chain frame).find? fun f => !store.isLocal f with
  | none => exact mem_chain_self store frame
  | some target => exact List.mem_of_find?_eq_some hfound

theorem definitionFrame_lt {store : Store} {frame : FrameId} (hframe : frame < store.frames.size) :
    store.definitionFrame frame < store.frames.size :=
  Nat.lt_of_le_of_lt (le_of_mem_chain (definitionFrame_mem store frame)) hframe

end Store

end SmallLisp
