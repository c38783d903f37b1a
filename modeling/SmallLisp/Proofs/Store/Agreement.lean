import SmallLisp.Proofs.Store.Frames
import SmallLisp.Proofs.Value.Symbols

/-!
Stores that differ in what some names stand for, and in nothing else. They differ in no more after
the same change to both, and a name outside the set stands for the same in every frame.
-/

namespace SmallLisp

namespace Store

/-- The stores have the same frames, and differ in what names of the set stand for at most. -/
structure AgreesOutside (X : Set Symbol) (s t : Store) : Prop where
  size : t.frames.size = s.frames.size
  parent? : ∀ frame, t.parent? frame = s.parent? frame
  isLocal : ∀ frame, t.isLocal frame = s.isLocal frame
  get?_bindings : ∀ frame, ∀ name ∉ X,
    Entries.get? name (t.bindings frame) = Entries.get? name (s.bindings frame)
  closureCount : t.closureCount = s.closureCount
  output : t.output = s.output

namespace AgreesOutside

variable {X : Set Symbol} {s t : Store}

theorem symm (h : s.AgreesOutside X t) : t.AgreesOutside X s where
  size := h.size.symm
  parent? frame := (h.parent? frame).symm
  isLocal frame := (h.isLocal frame).symm
  get?_bindings frame name hname := (h.get?_bindings frame name hname).symm
  closureCount := h.closureCount.symm
  output := h.output.symm

theorem chain (h : s.AgreesOutside X t) (frame : FrameId) : t.chain frame = s.chain frame :=
  chain_congr h.parent? frame

theorem definitionFrame (h : s.AgreesOutside X t) (frame : FrameId) :
    t.definitionFrame frame = s.definitionFrame frame := by
  simp only [Store.definitionFrame, h.chain, h.isLocal]

theorem get? (h : s.AgreesOutside X t) (frame : FrameId) {name : Symbol} (hname : name ∉ X) :
    t.get? frame name = s.get? frame name := by
  simp only [Store.get?, h.chain, h.get?_bindings _ name hname]

theorem push (h : s.AgreesOutside X t) (frame : Frame) :
    (s.push frame).AgreesOutside X (t.push frame) where
  size := by rw [size_push, size_push, h.size]
  parent? f := by rw [parent?_push, parent?_push, h.size, h.parent?]
  isLocal f := by rw [isLocal_push_eq, isLocal_push_eq, h.size, h.isLocal]
  get?_bindings f name hname := by
    rw [bindings_push, bindings_push, h.size]
    split
    · rfl
    · exact h.get?_bindings f name hname
  closureCount := h.closureCount
  output := h.output

theorem define (h : s.AgreesOutside X t) (frame : FrameId) (name : Symbol) (value : Value) :
    (s.define frame name value).AgreesOutside X (t.define frame name value) where
  size := by rw [size_define, size_define, h.size]
  parent? f := by rw [parent?_define, parent?_define, h.parent?]
  isLocal f := by rw [isLocal_define, isLocal_define, h.isLocal]
  get?_bindings f other hother := by
    rw [get?_bindings_define, get?_bindings_define, h.size, h.get?_bindings f other hother]
  closureCount := h.closureCount
  output := h.output

theorem count (h : s.AgreesOutside X t) :
    { s with closureCount := s.closureCount + 1 }.AgreesOutside X
      { t with closureCount := t.closureCount + 1 } where
  size := h.size
  parent? := h.parent?
  isLocal := h.isLocal
  get?_bindings := h.get?_bindings
  closureCount := congrArg (· + 1) h.closureCount
  output := h.output

theorem write (h : s.AgreesOutside X t) (text : String) :
    (s.write text).AgreesOutside X (t.write text) where
  size := h.size
  parent? := h.parent?
  isLocal := h.isLocal
  get?_bindings := h.get?_bindings
  closureCount := h.closureCount
  output := congrArg (· ++ text) h.output

end AgreesOutside

/-- Whatever a name outside the set stands for, in any frame, its closures avoid the set. -/
def ClosuresAvoid (X : Set Symbol) (store : Store) : Prop :=
  ∀ frame, ∀ name ∉ X, ∀ value, Entries.get? name (store.bindings frame) = some value →
    value.CodeAvoids X false

namespace ClosuresAvoid

variable {X : Set Symbol} {store : Store}

theorem of_agreesOutside {other : Store} (h : store.ClosuresAvoid X)
    (hagrees : store.AgreesOutside X other) : other.ClosuresAvoid X := by
  intro frame name hname value hvalue
  rw [hagrees.get?_bindings frame name hname] at hvalue
  exact h frame name hname value hvalue

theorem get? (h : store.ClosuresAvoid X) {frame : FrameId} {name : Symbol} (hname : name ∉ X)
    {value : Value} (hvalue : store.get? frame name = some value) : value.CodeAvoids X false := by
  obtain ⟨f, -, hbound⟩ := List.exists_of_findSome?_eq_some hvalue
  exact h f name hname value hbound

theorem push (h : store.ClosuresAvoid X) {frame : Frame}
    (hframe : ∀ binding ∈ frame.bindings, binding.2.CodeAvoids X false) :
    (store.push frame).ClosuresAvoid X := by
  intro f name hname value hvalue
  rw [bindings_push] at hvalue
  split at hvalue
  · obtain ⟨key, hmem⟩ := Entries.mem_of_get? hvalue
    exact hframe _ hmem
  · exact h f name hname value hvalue

theorem define (h : store.ClosuresAvoid X) (frame : FrameId) (name : Symbol) {value : Value}
    (hvalue : value.CodeAvoids X false) : (store.define frame name value).ClosuresAvoid X := by
  intro f other hother found hfound
  rw [get?_bindings_define] at hfound
  split at hfound
  · cases hfound
    exact hvalue
  · exact h f other hother found hfound

end ClosuresAvoid

end Store

end SmallLisp
