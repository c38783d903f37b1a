import Mathlib.Data.List.Find
import SmallLisp.Proofs.Store.Frames

/-!
What a program may write. `Store.WritesOnly` compares a store with a later one: every frame is still
in its place, and below a bound only one frame has been written to, where only some names have
changed. Frames from the bound on are those of the program itself, and it may do with their bindings
what it likes.
-/

namespace SmallLisp

/-- The same frame later, when nothing but some names was defined in it. No binding is gone, and
what the other names stand for is what it was. -/
structure Frame.Redefined (names : List Symbol) (before after : Frame) : Prop where
  parent : after.parent = before.parent
  isLocal : after.isLocal = before.isLocal
  bound : ∀ name, (Entries.get? name before.bindings).isSome →
    (Entries.get? name after.bindings).isSome
  other : ∀ name, name ∉ names →
    Entries.get? name after.bindings = Entries.get? name before.bindings

namespace Frame.Redefined

variable {names : List Symbol} {first second third : Frame}

theorem refl (names : List Symbol) (frame : Frame) : frame.Redefined names frame :=
  ⟨rfl, rfl, fun _ h => h, fun _ _ => rfl⟩

theorem trans (h : first.Redefined names second) (h' : second.Redefined names third) :
    first.Redefined names third where
  parent := h'.parent.trans h.parent
  isLocal := h'.isLocal.trans h.isLocal
  bound name hname := h'.bound name (h.bound name hname)
  other name hname := (h'.other name hname).trans (h.other name hname)

theorem mono {more : List Symbol} (h : first.Redefined names second) (hmore : names ⊆ more) :
    first.Redefined more second where
  parent := h.parent
  isLocal := h.isLocal
  bound := h.bound
  other name hname := h.other name fun hmem => hname (hmore hmem)

theorem insert {name : Symbol} (hname : name ∈ names) (value : Value) (frame : Frame) :
    frame.Redefined names
      { frame with bindings := Entries.insert name value frame.bindings } where
  parent := rfl
  isLocal := rfl
  bound other hother := by
    rw [Entries.get?_insert]
    split
    · rfl
    · exact hother
  other other hother := by
    have hne : (name == other) = false := by
      apply beq_false_of_ne
      intro heq
      exact hother (heq ▸ hname)
    simp [Entries.get?_insert, hne]

end Frame.Redefined

namespace Store

/-- Between two moments a frame below the bound was written to only if it is the target, and then
only at some names. The frames from the bound on have kept their place in the tree. -/
def WritesOnly (bound target : FrameId) (names : List Symbol) (before after : Store) : Prop :=
  ∀ number old, before.frames[number]? = some old → ∃ new, after.frames[number]? = some new ∧
    new.parent = old.parent ∧ new.isLocal = old.isLocal ∧
    (number < bound → old.Redefined names new ∧ (number ≠ target → new = old))

namespace WritesOnly

variable {bound target : FrameId} {names : List Symbol} {first second third : Store}

theorem of_frames_eq (h : second.frames = first.frames) :
    WritesOnly bound target names first second := by
  intro number old hold
  rw [← h] at hold
  exact ⟨old, hold, rfl, rfl, fun _ => ⟨.refl names old, fun _ => rfl⟩⟩

theorem refl (store : Store) : WritesOnly bound target names store store :=
  of_frames_eq rfl

theorem trans (h : WritesOnly bound target names first second)
    (h' : WritesOnly bound target names second third) :
    WritesOnly bound target names first third := by
  intro number old hold
  obtain ⟨middle, hmiddle, hparent, hlocal, hwritten⟩ := h number old hold
  obtain ⟨new, hnew, hparent', hlocal', hwritten'⟩ := h' number middle hmiddle
  refine ⟨new, hnew, hparent'.trans hparent, hlocal'.trans hlocal, ?_⟩
  intro hbound
  obtain ⟨hredefined, hsame⟩ := hwritten hbound
  obtain ⟨hredefined', hsame'⟩ := hwritten' hbound
  refine ⟨hredefined.trans hredefined', ?_⟩
  intro hne
  rw [hsame' hne, hsame hne]

theorem mono {more : List Symbol} (h : WritesOnly bound target names first second)
    (hmore : names ⊆ more) : WritesOnly bound target more first second := by
  intro number old hold
  obtain ⟨new, hnew, hparent, hlocal, hwritten⟩ := h number old hold
  exact ⟨new, hnew, hparent, hlocal,
    fun hbound => ⟨(hwritten hbound).1.mono hmore, (hwritten hbound).2⟩⟩

/-- Where the target is not below the bound, nothing below the bound is written to. -/
theorem of_bound_le {other : FrameId} {others : List Symbol} (htarget : bound ≤ target)
    (h : WritesOnly bound target names first second) :
    WritesOnly bound other others first second := by
  intro number old hold
  obtain ⟨new, hnew, hparent, hlocal, hwritten⟩ := h number old hold
  refine ⟨new, hnew, hparent, hlocal, ?_⟩
  intro hbound
  have hsame : new = old := (hwritten hbound).2 (Nat.ne_of_lt (Nat.lt_of_lt_of_le hbound htarget))
  subst hsame
  exact ⟨.refl others new, fun _ => rfl⟩

theorem size_le (h : WritesOnly bound target names first second) :
    first.frames.size ≤ second.frames.size := by
  apply Nat.le_of_not_lt
  intro hlt
  obtain ⟨new, hnew, -⟩ := h second.frames.size _ (Array.getElem?_eq_getElem hlt)
  simp at hnew

theorem push (store : Store) (frame : Frame) :
    WritesOnly bound target names store (store.push frame) := by
  intro number old hold
  have hlt : number < store.frames.size := (Array.getElem?_eq_some_iff.1 hold).1
  have hnew : (store.push frame).frames[number]? = some old := by
    rw [Store.push, Array.getElem?_push_lt hlt, ← hold, Array.getElem?_eq_getElem hlt]
  exact ⟨old, hnew, rfl, rfl, fun _ => ⟨.refl names old, fun _ => rfl⟩⟩

theorem define {name : Symbol} (hname : name ∈ names) (store : Store) (value : Value) :
    WritesOnly bound target names store (store.define target name value) := by
  intro number old hold
  rw [frames_define, hold]
  by_cases htarget : target = number
  · refine ⟨{ old with bindings := Entries.insert name value old.bindings }, ?_, rfl, rfl, ?_⟩
    · rw [if_pos htarget]; rfl
    · intro _
      exact ⟨.insert hname value old, fun hne => absurd htarget.symm hne⟩
  · refine ⟨old, ?_, rfl, rfl, fun _ => ⟨.refl names old, fun _ => rfl⟩⟩
    rw [if_neg htarget]

theorem parent?_eq (h : WritesOnly bound target names first second) {frame : FrameId}
    (hframe : frame < first.frames.size) : second.parent? frame = first.parent? frame := by
  have hold := Array.getElem?_eq_getElem hframe
  obtain ⟨new, hnew, hparent, -⟩ := h frame _ hold
  rw [parent?, parent?, hold, hnew]
  exact hparent

theorem isLocal_eq (h : WritesOnly bound target names first second) {frame : FrameId}
    (hframe : frame < first.frames.size) : second.isLocal frame = first.isLocal frame := by
  have hold := Array.getElem?_eq_getElem hframe
  obtain ⟨new, hnew, -, hlocal, -⟩ := h frame _ hold
  rw [isLocal, isLocal, hold, hnew]
  exact hlocal

theorem chain_eq (h : WritesOnly bound target names first second) {frame : FrameId}
    (hframe : frame < first.frames.size) : second.chain frame = first.chain frame := by
  induction frame using Nat.strongRecOn with
  | _ frame ih =>
    rw [Store.chain_eq, Store.chain_eq, h.parent?_eq hframe]
    split
    · rfl
    · split
      · next hless => rw [ih _ hless (Nat.lt_trans hless hframe)]
      · rfl

theorem find?_chain_eq (h : WritesOnly bound target names first second) {frame : FrameId}
    (hframe : frame < first.frames.size) :
    (second.chain frame).find? (fun f => !second.isLocal f) =
      (first.chain frame).find? (fun f => !first.isLocal f) := by
  rw [h.chain_eq hframe]
  apply List.find?_congr
  intro ancestor hmem
  rw [h.isLocal_eq (Nat.lt_of_le_of_lt (le_of_mem_chain hmem) hframe)]

/-- Definitions go on to the same frame. -/
theorem definitionFrame_eq (h : WritesOnly bound target names first second) {frame : FrameId}
    (hframe : frame < first.frames.size) :
    second.definitionFrame frame = first.definitionFrame frame := by
  rw [definitionFrame, definitionFrame, h.find?_chain_eq hframe]

end WritesOnly

theorem chain_push (store : Store) (bindings : List (Symbol × Value)) (isLocal : Bool)
    {parent : FrameId} (hparent : parent < store.frames.size) :
    (store.push ⟨bindings, some parent, isLocal⟩).chain store.frames.size =
      store.frames.size :: (store.push ⟨bindings, some parent, isLocal⟩).chain parent := by
  rw [Store.chain_eq]
  simp [parent?, push, hparent]

theorem isLocal_push (store : Store) (frame : Frame) :
    (store.push frame).isLocal store.frames.size = frame.isLocal := by
  simp [isLocal, push]

/-- Definitions pass through a new local frame to where they went before. In a chain that holds
nothing but local frames they stay in the new frame. -/
theorem definitionFrame_push_local (store : Store) (bindings : List (Symbol × Value))
    {parent : FrameId} (hparent : parent < store.frames.size) :
    (store.push ⟨bindings, some parent, true⟩).definitionFrame store.frames.size =
        store.definitionFrame parent ∨
      (store.push ⟨bindings, some parent, true⟩).definitionFrame store.frames.size =
        store.frames.size := by
  have hpush : WritesOnly 0 0 [] store (store.push ⟨bindings, some parent, true⟩) := .push _ _
  rw [definitionFrame, definitionFrame, chain_push _ _ _ hparent, List.find?_cons_of_neg,
    hpush.find?_chain_eq hparent]
  · cases (store.chain parent).find? fun f => !store.isLocal f with
    | none => exact .inr rfl
    | some ancestor => exact .inl rfl
  · simp [isLocal_push]

/-- Definitions stay in a new frame that is not local. -/
theorem definitionFrame_push_of_not_local (store : Store) (bindings : List (Symbol × Value))
    (parent : Option FrameId) :
    (store.push ⟨bindings, parent, false⟩).definitionFrame store.frames.size =
      store.frames.size := by
  rw [definitionFrame, Store.chain_eq, List.find?_cons_of_pos]
  · rfl
  · simp [isLocal_push]

end Store

end SmallLisp
