import Mathlib.Data.List.Basic
import SmallLisp.Proofs.Action.Ends
import SmallLisp.Proofs.Store.Frames
import SmallLisp.Proofs.Text.Bytes

/-!
Frames over any history. A store grows from one outermost frame by the opening of frames and by
definitions in them, in any order. What a name stands for in a frame is what was last written for it
in the nearest frame of the chain that it was ever written in; the names of a frame and the place of
its definitions follow the same chain.
-/

namespace SmallLisp

/-- How a frame was opened: below which frame, if any, and whether for local bindings. -/
structure Opening where
  parent : Option FrameId
  isLocal : Bool

/-- A value that was given to a name in a frame. -/
structure Write where
  frame : FrameId
  name : Symbol
  value : Value

namespace Write

def IsTo (write : Write) (frame : FrameId) (name : Symbol) : Prop :=
  write.frame = frame ∧ write.name = name

instance (write : Write) (frame : FrameId) (name : Symbol) : Decidable (write.IsTo frame name) :=
  inferInstanceAs (Decidable (_ ∧ _))

end Write

/-- The frame was written to at this name. -/
def IsWritten (writes : List Write) (frame : FrameId) (name : Symbol) : Prop :=
  ∃ write ∈ writes, write.IsTo frame name

/-- The value was the last to be written for a name in a frame. Later writes stand in front. -/
def IsLatest (writes : List Write) (frame : FrameId) (name : Symbol) (value : Value) : Prop :=
  ∃ later earlier, writes = later ++ ⟨frame, name, value⟩ :: earlier ∧
    ∀ write ∈ later, ¬ write.IsTo frame name

namespace Store

/-- The stores that grow from one outermost frame, with all frames in the order of their opening and
with everything that was written on the way, the latest first. Frames are opened below frames that
there are, and definitions are made in a frame or through it, which is in the frame that its
definitions go to. -/
inductive History : Store → List Opening → List Write → Prop
  | start : History (empty.push ⟨[], none, false⟩) [⟨none, false⟩] []
  | extend {store openings writes} (h : History store openings writes) {parent : FrameId}
      (hparent : parent < store.frames.size) (isLocal : Bool) :
      History (store.push ⟨[], some parent, isLocal⟩) (openings ++ [⟨some parent, isLocal⟩]) writes
  | define {store openings writes} (h : History store openings writes) {frame : FrameId}
      (hframe : frame < store.frames.size) (name : Symbol) (value : Value) :
      History (store.define frame name value) openings (⟨frame, name, value⟩ :: writes)
  | defineThrough {store openings writes} (h : History store openings writes) {frame : FrameId}
      (hframe : frame < store.frames.size) (name : Symbol) (value : Value) :
      History (store.define (store.definitionFrame frame) name value) openings
        (⟨store.definitionFrame frame, name, value⟩ :: writes)

/-- Parents are older than their children, and only a frame that has one is local. -/
structure Rooted (store : Store) : Prop where
  parent_lt : ∀ {frame parent}, store.parent? frame = some parent → parent < frame
  parent_of_isLocal : ∀ {frame}, store.isLocal frame → ∃ parent, store.parent? frame = some parent

namespace Rooted

variable {store : Store}

theorem start : Rooted (empty.push ⟨[], none, false⟩) where
  parent_lt h := by
    rw [parent?_push] at h
    split at h <;> cases h
  parent_of_isLocal h := by
    rw [isLocal_push_eq] at h
    split at h <;> cases h

theorem extend (h : store.Rooted) {parent : FrameId} (hparent : parent < store.frames.size)
    (isLocal : Bool) : (store.push ⟨[], some parent, isLocal⟩).Rooted where
  parent_lt hfound := by
    rw [parent?_push] at hfound
    split at hfound
    · next hnew =>
      cases hfound
      exact hnew ▸ hparent
    · exact h.parent_lt hfound
  parent_of_isLocal hlocal := by
    rw [isLocal_push_eq] at hlocal
    simp only [parent?_push]
    split at hlocal
    · next hnew => exact ⟨parent, if_pos hnew⟩
    · next hold =>
      obtain ⟨found, hfound⟩ := h.parent_of_isLocal hlocal
      exact ⟨found, (if_neg hold).trans hfound⟩

theorem define (h : store.Rooted) (frame : FrameId) (name : Symbol) (value : Value) :
    (store.define frame name value).Rooted where
  parent_lt hfound := by
    rw [parent?_define] at hfound
    exact h.parent_lt hfound
  parent_of_isLocal hlocal := by
    rw [isLocal_define] at hlocal
    simp only [parent?_define]
    exact h.parent_of_isLocal hlocal

theorem chain_eq (h : store.Rooted) (frame : FrameId) :
    store.chain frame = frame :: match store.parent? frame with
      | none => []
      | some parent => store.chain parent := by
  rw [Store.chain_eq]
  cases hparent : store.parent? frame with
  | none => rfl
  | some parent => simp only [h.parent_lt hparent, if_true]

/-- Going up from a local frame ends at one that is not local. -/
theorem exists_not_isLocal (h : store.Rooted) (frame : FrameId) :
    ∃ ancestor ∈ store.chain frame, store.isLocal ancestor = false := by
  induction frame using Nat.strongRecOn with
  | _ frame ih =>
    cases hlocal : store.isLocal frame with
    | false => exact ⟨frame, mem_chain_self store frame, hlocal⟩
    | true =>
      obtain ⟨parent, hparent⟩ := h.parent_of_isLocal hlocal
      obtain ⟨ancestor, hmem, hancestor⟩ := ih parent (h.parent_lt hparent)
      refine ⟨ancestor, ?_, hancestor⟩
      rw [h.chain_eq, hparent]
      exact List.mem_cons_of_mem _ hmem

/-- Definitions go to the nearest frame that is not local. -/
theorem definitionFrame (h : store.Rooted) (frame : FrameId) :
    ∃ above below, store.chain frame = above ++ store.definitionFrame frame :: below ∧
      (∀ other ∈ above, store.isLocal other) ∧
        store.isLocal (store.definitionFrame frame) = false := by
  obtain ⟨ancestor, hmem, hancestor⟩ := h.exists_not_isLocal frame
  have hsome : ((store.chain frame).find? fun f => !store.isLocal f).isSome := by
    rw [List.find?_isSome]
    exact ⟨ancestor, hmem, by simp [hancestor]⟩
  obtain ⟨target, htarget⟩ := Option.isSome_iff_exists.1 hsome
  obtain ⟨hfound, above, below, hchain, habove⟩ := List.find?_eq_some_iff_append.1 htarget
  have hdefinition : store.definitionFrame frame = target := by
    rw [Store.definitionFrame, htarget]
    rfl
  rw [hdefinition]
  refine ⟨above, below, hchain, fun other hother => ?_, by simpa using hfound⟩
  simpa using habove other hother

end Rooted

/-- No frame stands twice in a chain: what comes behind a frame is older. -/
theorem pairwise_chain (store : Store) (frame : FrameId) :
    (store.chain frame).Pairwise (· > ·) := by
  induction frame using Nat.strongRecOn with
  | _ frame ih =>
    rw [Store.chain_eq]
    cases store.parent? frame with
    | none => exact List.pairwise_singleton _ _
    | some parent =>
      dsimp only
      split
      · next hless =>
        refine List.pairwise_cons.2 ⟨fun ancestor hancestor => ?_, ih parent hless⟩
        exact Nat.lt_of_le_of_lt (le_of_mem_chain hancestor) hless
      · exact List.pairwise_singleton _ _

/-- The last value that was written, as a function. -/
def latest? (writes : List Write) (frame : FrameId) (name : Symbol) : Option Value :=
  (writes.find? fun write => decide (write.IsTo frame name)).map Write.value

theorem latest?_cons (write : Write) (writes : List Write) (frame : FrameId) (name : Symbol) :
    latest? (write :: writes) frame name =
      if write.IsTo frame name then some write.value else latest? writes frame name := by
  by_cases h : write.IsTo frame name <;> simp [latest?, h]

theorem latest?_eq_some_iff {writes : List Write} {frame : FrameId} {name : Symbol}
    {value : Value} :
    latest? writes frame name = some value ↔ IsLatest writes frame name value := by
  constructor
  · intro h
    obtain ⟨⟨_, _, _⟩, hfound, rfl⟩ := Option.map_eq_some_iff.1 h
    obtain ⟨hto, later, earlier, hwrites, hlater⟩ := List.find?_eq_some_iff_append.1 hfound
    obtain ⟨rfl, rfl⟩ := of_decide_eq_true hto
    exact ⟨later, earlier, hwrites, fun write hwrite => by simpa using hlater write hwrite⟩
  · rintro ⟨later, earlier, rfl, hlater⟩
    have hfound : (later ++ ⟨frame, name, value⟩ :: earlier).find?
        (fun write => decide (write.IsTo frame name)) = some ⟨frame, name, value⟩ := by
      rw [List.find?_eq_some_iff_append]
      exact ⟨decide_eq_true ⟨rfl, rfl⟩, later, earlier, rfl,
        fun write hwrite => by simpa using hlater write hwrite⟩
    rw [latest?, hfound]
    rfl

theorem latest?_eq_none_iff {writes : List Write} {frame : FrameId} {name : Symbol} :
    latest? writes frame name = none ↔ ¬ IsWritten writes frame name := by
  simp [latest?, IsWritten]

/-- A definition leaves how the frames were opened. -/
theorem opening_define (store : Store) (target frame : FrameId) (name : Symbol) (value : Value) :
    ((store.define target name value).frames[frame]?.map fun f => Opening.mk f.parent f.isLocal) =
      store.frames[frame]?.map fun f => ⟨f.parent, f.isLocal⟩ := by
  rw [frames_define]
  split
  · cases store.frames[frame]? <;> rfl
  · rfl

namespace History

variable {store : Store} {openings : List Opening} {writes : List Write}

theorem rooted (h : History store openings writes) : store.Rooted := by
  induction h with
  | start => exact .start
  | extend h hparent isLocal ih => exact ih.extend hparent isLocal
  | define h hframe name value ih => exact ih.define ..
  | defineThrough h hframe name value ih => exact ih.define ..

theorem length_openings (h : History store openings writes) :
    openings.length = store.frames.size := by
  induction h with
  | start => rfl
  | extend h hparent isLocal ih => rw [List.length_append, ih, size_push, List.length_singleton]
  | define h hframe name value ih => rw [ih, size_define]
  | defineThrough h hframe name value ih => rw [ih, size_define]

/-- Each frame stays as it was opened. -/
theorem getElem?_openings (h : History store openings writes) (frame : FrameId) :
    openings[frame]? = store.frames[frame]?.map fun f => ⟨f.parent, f.isLocal⟩ := by
  induction h with
  | start => cases frame <;> rfl
  | @extend store openings writes h parent hparent isLocal ih =>
    rw [getElem?_push, ← h.length_openings]
    split
    · next hnew => rw [hnew, List.getElem?_concat_length]; rfl
    · next hold =>
      rw [← ih]
      rcases Nat.lt_or_gt_of_ne hold with hlt | hgt
      · rw [List.getElem?_append_left hlt]
      · have hpast : (openings ++ [Opening.mk (some parent) isLocal]).length ≤ frame := by
          rw [List.length_append, List.length_singleton]
          exact hgt
        rw [List.getElem?_eq_none hpast, List.getElem?_eq_none (Nat.le_of_lt hgt)]
  | define h hframe name value ih => rw [opening_define, ih]
  | defineThrough h hframe name value ih => rw [opening_define, ih]

theorem parent?_eq (h : History store openings writes) (frame : FrameId) :
    store.parent? frame = openings[frame]?.bind Opening.parent := by
  rw [h.getElem?_openings, parent?]
  cases store.frames[frame]? <;> rfl

theorem isLocal_eq (h : History store openings writes) (frame : FrameId) :
    store.isLocal frame = (openings[frame]?.map Opening.isLocal).getD false := by
  rw [h.getElem?_openings, Store.isLocal]
  cases store.frames[frame]? <;> rfl

/-- Each frame holds what was last written in it, name by name. -/
theorem get?_bindings (h : History store openings writes) (frame : FrameId) (name : Symbol) :
    Entries.get? name (store.bindings frame) = latest? writes frame name := by
  induction h generalizing frame name with
  | start =>
    rw [bindings_push]
    split <;> rfl
  | extend h hparent isLocal ih =>
    rw [bindings_push]
    split
    · next hnew => rw [← ih, hnew, bindings_of_size_le (Nat.le_refl _)]
    · exact ih frame name
  | define h hframe name' value ih =>
    rw [get?_bindings_define_of_lt hframe, latest?_cons, ih]
    rfl
  | defineThrough h hframe name' value ih =>
    rw [get?_bindings_define_of_lt (definitionFrame_lt hframe), latest?_cons, ih]
    rfl

end History

/-- The frame itself has a value for the name. -/
def Binds (store : Store) (frame : FrameId) (name : Symbol) : Prop :=
  (Entries.get? name (store.bindings frame)).isSome

/-- The way up from the observer comes to the target before any other frame that binds the name. -/
def Reaches (store : Store) (observer target : FrameId) (name : Symbol) : Prop :=
  ∃ above below, store.chain observer = above ++ target :: below ∧
    ∀ frame ∈ above, ¬ store.Binds frame name

theorem not_binds_iff {store : Store} {frame : FrameId} {name : Symbol} :
    ¬ store.Binds frame name ↔ Entries.get? name (store.bindings frame) = none := by
  rw [Binds, Option.not_isSome_iff_eq_none]

theorem get?_eq_some_iff {store : Store} {observer : FrameId} {name : Symbol} {value : Value} :
    store.get? observer name = some value ↔ ∃ above nearest below,
      store.chain observer = above ++ nearest :: below ∧
        (∀ frame ∈ above, ¬ store.Binds frame name) ∧
          Entries.get? name (store.bindings nearest) = some value := by
  simp only [get?, List.findSome?_eq_some_iff, not_binds_iff]
  constructor
  · rintro ⟨above, nearest, below, hchain, hvalue, habove⟩
    exact ⟨above, nearest, below, hchain, habove, hvalue⟩
  · rintro ⟨above, nearest, below, hchain, habove, hvalue⟩
    exact ⟨above, nearest, below, hchain, hvalue, habove⟩

theorem get?_eq_none_iff {store : Store} {observer : FrameId} {name : Symbol} :
    store.get? observer name = none ↔ ∀ frame ∈ store.chain observer, ¬ store.Binds frame name := by
  simp only [get?, List.findSome?_eq_none_iff, not_binds_iff]

/-- The names of a frame are those that have a value in it. -/
theorem mem_names_iff {store : Store} {observer : FrameId} {text : String} :
    text ∈ store.names observer ↔ (store.get? observer ⟨text⟩).isSome := by
  rw [← Option.ne_none_iff_isSome, Ne, get?_eq_none_iff, names, Names.mem_ofList]
  simp only [not_forall, not_not, Binds, Entries.get?, Option.isSome_map, List.find?_isSome,
    List.mem_flatMap, List.mem_map, beq_iff_eq]
  constructor
  · rintro ⟨frame, hframe, ⟨⟨symbol⟩, value⟩, hbinding, rfl⟩
    exact ⟨frame, hframe, _, hbinding, rfl⟩
  · rintro ⟨frame, hframe, ⟨symbol, value⟩, hbinding, rfl⟩
    exact ⟨frame, hframe, _, hbinding, rfl⟩

section Define

variable {store : Store} {target : FrameId} (htarget : target < store.frames.size)
  (name : Symbol) (value : Value) {observer : FrameId}

include htarget

theorem get?_define_of_ne {other : Symbol} (hother : other ≠ name) :
    (store.define target name value).get? observer other = store.get? observer other := by
  simp only [get?, chain_define, get?_bindings_define_of_lt htarget, Ne.symm hother, and_false,
    if_false]

theorem get?_define_of_reaches (h : store.Reaches observer target name) :
    (store.define target name value).get? observer name = some value := by
  obtain ⟨above, below, hchain, habove⟩ := h
  rw [get?, chain_define, hchain, List.findSome?_append, List.findSome?_cons,
    get?_bindings_define_of_lt htarget, if_pos ⟨rfl, rfl⟩]
  -- a frame in front that has a value now is the target itself
  cases hfound : above.findSome? _ with
  | none => rfl
  | some found =>
    obtain ⟨frame, hframe, hvalue⟩ := List.exists_of_findSome?_eq_some hfound
    rw [get?_bindings_define_of_lt htarget, not_binds_iff.1 (habove frame hframe)] at hvalue
    split at hvalue
    · exact hvalue.symm
    · cases hvalue

theorem findSome?_define_of_notMem {frames : List FrameId} (h : target ∉ frames) :
    (frames.findSome? fun f => Entries.get? name ((store.define target name value).bindings f)) =
      frames.findSome? fun f => Entries.get? name (store.bindings f) := by
  induction frames with
  | nil => rfl
  | cons frame frames ih =>
    obtain ⟨hframe, hframes⟩ := not_or.1 (fun hmem => h (List.mem_cons.2 hmem))
    rw [List.findSome?_cons, List.findSome?_cons, ih hframes,
      get?_bindings_define_of_lt htarget, if_neg]
    rintro ⟨hsame, -⟩
    exact hframe hsame

theorem get?_define_of_not_reaches (h : ¬ store.Reaches observer target name) :
    (store.define target name value).get? observer name = store.get? observer name := by
  rw [get?, get?, chain_define]
  by_cases hmem : target ∈ store.chain observer
  · -- some frame in front of the target has a value, which both stores give
    obtain ⟨above, below, hchain, hfirst⟩ := List.eq_append_cons_of_mem hmem
    cases hfound : above.findSome? fun f => Entries.get? name (store.bindings f) with
    | none =>
      refine absurd ⟨above, below, hchain, fun frame hframe => ?_⟩ h
      exact not_binds_iff.2 (List.findSome?_eq_none_iff.1 hfound frame hframe)
    | some found =>
      rw [hchain, List.findSome?_append, List.findSome?_append,
        findSome?_define_of_notMem htarget name value hfirst, hfound]
      rfl
  · exact findSome?_define_of_notMem htarget name value hmem

end Define

/-- What a frame does in a store where the given frames were opened and no more than the given
writes was done. -/
structure Obeys (store : Store) (openings : List Opening) (writes : List Write) (frame : FrameId) :
    Prop where
  parent?_eq : ∀ other, store.parent? other = openings[other]?.bind Opening.parent
  isLocal_eq : ∀ other, store.isLocal other = (openings[other]?.map Opening.isLocal).getD false
  chain_of_root : store.parent? frame = none → store.chain frame = [frame]
  chain_of_child : ∀ parent, store.parent? frame = some parent →
    store.chain frame = frame :: store.chain parent
  get?_eq_some_iff : ∀ name value, store.get? frame name = some value ↔
    ∃ above nearest below, store.chain frame = above ++ nearest :: below ∧
      (∀ other ∈ above, ¬ IsWritten writes other name) ∧ IsLatest writes nearest name value
  get?_eq_none_iff : ∀ name, store.get? frame name = none ↔
    ∀ other ∈ store.chain frame, ¬ IsWritten writes other name
  lookup_ok_iff : ∀ name value after, (Action.lookup frame name).Ends store (.ok value) after ↔
    store.get? frame name = some value ∧ after = store
  lookup_error_iff : ∀ name e after, (Action.lookup frame name).Ends store (.error e) after ↔
    store.get? frame name = none ∧ e = .unbound name.name ∧ after = store
  names_ascending : (store.names frame).Pairwise fun first second =>
    Text.bytes first < Text.bytes second
  mem_names_iff : ∀ text, text ∈ store.names frame ↔ (store.get? frame ⟨text⟩).isSome
  definitionFrame_nearest : ∃ above below,
    store.chain frame = above ++ store.definitionFrame frame :: below ∧
      (∀ other ∈ above, store.isLocal other) ∧ store.isLocal (store.definitionFrame frame) = false
  /-- A definition through the frame is seen from where its place is reached before another binding
  of the name, and from nowhere else. -/
  define_reached : ∀ name value observer,
    store.Reaches observer (store.definitionFrame frame) name →
      (store.define (store.definitionFrame frame) name value).get? observer name = some value
  define_not_reached : ∀ name value observer,
    ¬ store.Reaches observer (store.definitionFrame frame) name →
      (store.define (store.definitionFrame frame) name value).get? observer name =
        store.get? observer name
  define_other : ∀ name value observer other, other ≠ name →
    (store.define (store.definitionFrame frame) name value).get? observer other =
      store.get? observer other
  binds_iff : ∀ other name, store.Binds other name ↔ IsWritten writes other name
  /-- A local binding between the frame and the place of its definitions keeps its value. -/
  local_kept : ∀ name value above below,
    store.chain frame = above ++ store.definitionFrame frame :: below →
      (∃ other ∈ above, store.Binds other name) →
        (store.define (store.definitionFrame frame) name value).get? frame name =
          store.get? frame name

theorem History.binds_iff {store : Store} {openings : List Opening} {writes : List Write}
    (h : History store openings writes) {frame : FrameId} {name : Symbol} :
    store.Binds frame name ↔ IsWritten writes frame name := by
  rw [Binds, h.get?_bindings, ← Option.ne_none_iff_isSome, Ne, latest?_eq_none_iff, not_not]

/-- A frame that binds a name hides from the frames below it what is behind it. -/
theorem not_reaches_of_binds {store : Store} {observer target frame : FrameId} {name : Symbol}
    {above below : List FrameId} (hchain : store.chain observer = above ++ target :: below)
    (hframe : frame ∈ above) (hbinds : store.Binds frame name) :
    ¬ store.Reaches observer target name := by
  rintro ⟨above', below', hchain', habove'⟩
  have hnodup : (store.chain observer).Nodup :=
    (pairwise_chain store observer).imp fun hlt => Nat.ne_of_gt hlt
  rw [hchain] at hnodup
  obtain ⟨-, hbelow, hdisjoint⟩ := List.nodup_append.1 hnodup
  have hfirst : target ∉ above := fun hmem => hdisjoint _ hmem _ List.mem_cons_self rfl
  have hlast : target ∉ below := (List.nodup_cons.1 hbelow).1
  have hsame : above = above' :=
    ((List.append_cons_inj_of_notMem hfirst hlast).1 (hchain.symm.trans hchain')).1
  exact habove' frame (hsame ▸ hframe) hbinds

end Store

/-- Every frame obeys the history of its store: what names stand for in it is what was last written
in the nearest frame of its chain that was written to, its names are those that stand for
something, and definitions through it go to the nearest frame that is not local, where exactly the
frames see them that have no binding of the name in between. -/
theorem frames_obey_history {store : Store} {openings : List Opening} {writes : List Write}
    (h : Store.History store openings writes) {frame : FrameId}
    (hframe : frame < store.frames.size) : store.Obeys openings writes frame where
  parent?_eq := h.parent?_eq
  isLocal_eq := h.isLocal_eq
  chain_of_root hparent := by rw [h.rooted.chain_eq, hparent]
  chain_of_child parent hparent := by rw [h.rooted.chain_eq, hparent]
  get?_eq_some_iff name value := by
    simp only [Store.get?_eq_some_iff, h.binds_iff, h.get?_bindings, Store.latest?_eq_some_iff]
  get?_eq_none_iff name := by
    simp only [Store.get?_eq_none_iff, h.binds_iff]
  lookup_ok_iff name value after := by
    rw [Action.ends_lookup_iff]
    cases store.get? frame name <;> simp [eq_comm]
  lookup_error_iff name e after := by
    rw [Action.ends_lookup_iff]
    cases store.get? frame name <;> simp
  names_ascending := (Names.pairwise_ofList _).imp Text.bytes_lt_bytes
  mem_names_iff text := Store.mem_names_iff
  definitionFrame_nearest := h.rooted.definitionFrame frame
  define_reached name value observer :=
    Store.get?_define_of_reaches (Store.definitionFrame_lt hframe) name value
  define_not_reached name value observer :=
    Store.get?_define_of_not_reaches (Store.definitionFrame_lt hframe) name value
  define_other name value observer other :=
    Store.get?_define_of_ne (Store.definitionFrame_lt hframe) name value
  binds_iff other name := h.binds_iff
  local_kept name value above below hchain hbound := by
    obtain ⟨other, hother, hbinds⟩ := hbound
    exact Store.get?_define_of_not_reaches (Store.definitionFrame_lt hframe) name value
      (Store.not_reaches_of_binds hchain hother hbinds)

/-- Below two local frames, of which the outer one binds `x`, a definition of `x` goes to the
outermost frame, and the local binding keeps its value. -/
theorem frames_obey_history_let :
    let openings : List Opening := [⟨none, false⟩, ⟨some 0, true⟩, ⟨some 1, true⟩]
    let writes : List Write := [⟨0, ⟨"x"⟩, .number 7⟩, ⟨1, ⟨"x"⟩, .number 5⟩]
    ∃ store, Store.History store openings writes ∧ 2 < store.frames.size ∧
      store.Obeys openings writes 2 ∧
        store.get? 2 ⟨"x"⟩ = some (.number 5) ∧ store.get? 0 ⟨"x"⟩ = some (.number 7) := by
  intro openings writes
  have hlocal : Store.History _ openings [] :=
    .extend (.extend .start Nat.zero_lt_one true) Nat.one_lt_two true
  have hinner : Store.History _ openings [⟨1, ⟨"x"⟩, .number 5⟩] :=
    hlocal.define (show 1 < 3 by decide) ⟨"x"⟩ (.number 5)
  have houter := hinner.defineThrough (Nat.lt_succ_self 2) ⟨"x"⟩ (.number 7)
  have htarget : (((Store.empty.push ⟨[], none, false⟩).push ⟨[], some 0, true⟩).push
      ⟨[], some 1, true⟩).definitionFrame 2 = 0 := by
    simp [Store.definitionFrame, Store.chain_eq, Store.parent?, Store.isLocal, Store.push,
      Store.empty]
  rw [Store.definitionFrame_define, htarget] at houter
  refine ⟨_, houter, Nat.lt_succ_self 2, frames_obey_history houter (Nat.lt_succ_self 2), ?_, ?_⟩
  all_goals
    simp [Store.get?, Store.chain_eq, Store.parent?, Store.bindings, Store.push, Store.define,
      Store.empty, Entries.insert, Entries.get?]

end SmallLisp
