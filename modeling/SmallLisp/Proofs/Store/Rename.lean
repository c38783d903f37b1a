import SmallLisp.Proofs.Value.Rename

/-!
A store whose names are renamed. The frames are where they were, so a renamed name is found where
the name itself was found, and stands for the renamed value.
-/

namespace SmallLisp

def Frame.rename (ρ : Renaming) (frame : Frame) : Frame :=
  { frame with bindings := frame.bindings.map (Prod.map ρ.apply (Value.rename ρ)) }

namespace Store

variable (ρ : Renaming)

def rename (store : Store) : Store :=
  { store with frames := store.frames.map (Frame.rename ρ) }

theorem getElem?_rename (store : Store) (frame : FrameId) :
    (store.rename ρ).frames[frame]? = store.frames[frame]?.map (Frame.rename ρ) := by
  simp only [rename, Array.getElem?_map]

theorem chain_rename (store : Store) (frame : FrameId) :
    (store.rename ρ).chain frame = store.chain frame := by
  apply chain_congr
  intro f
  rw [parent?, parent?, getElem?_rename]
  cases store.frames[f]? <;> rfl

theorem isLocal_rename (store : Store) (frame : FrameId) :
    (store.rename ρ).isLocal frame = store.isLocal frame := by
  rw [isLocal, isLocal, getElem?_rename]
  cases store.frames[frame]? <;> rfl

theorem bindings_rename (store : Store) (frame : FrameId) :
    (store.rename ρ).bindings frame =
      (store.bindings frame).map (Prod.map ρ.apply (Value.rename ρ)) := by
  rw [bindings, bindings, getElem?_rename]
  cases store.frames[frame]? <;> rfl

theorem definitionFrame_rename (store : Store) (frame : FrameId) :
    (store.rename ρ).definitionFrame frame = store.definitionFrame frame := by
  simp only [definitionFrame, chain_rename, isLocal_rename]

theorem get?_rename (store : Store) (frame : FrameId) (name : Symbol) :
    (store.rename ρ).get? frame (ρ.apply name) =
      (store.get? frame name).map (Value.rename ρ) := by
  simp only [get?, chain_rename, bindings_rename, Entries.get?_map ρ.beq_apply,
    List.map_findSome?, Function.comp_def]

theorem push_rename (store : Store) (frame : Frame) :
    (store.push frame).rename ρ = (store.rename ρ).push (frame.rename ρ) := by
  simp only [push, rename, Array.map_push]

theorem define_rename (store : Store) (frame : FrameId) (name : Symbol) (value : Value) :
    (store.define frame name value).rename ρ =
      (store.rename ρ).define frame (ρ.apply name) (value.rename ρ) := by
  have hinsert : ∀ f : Frame,
      ({ f with bindings := Entries.insert name value f.bindings } : Frame).rename ρ =
        { f.rename ρ with
          bindings := Entries.insert (ρ.apply name) (value.rename ρ) (f.rename ρ).bindings } := by
    intro f
    simp only [Frame.rename, Entries.insert_map ρ.beq_apply]
  simp only [define, rename, mk.injEq, and_true]
  apply Array.ext_getElem?
  intro f
  simp only [Array.getElem?_map, Array.getElem?_modify]
  split
  · simp only [Option.map_map, Function.comp_def, hinsert]
  · rfl

theorem rename_id (store : Store) : store.rename .id = store := by
  have hframe : Frame.rename .id = id := by
    funext frame
    rw [Frame.rename, prodMap_rename_id, List.map_id]
    rfl
  simp [rename, hframe]

end Store

end SmallLisp
