import Mathlib.Data.List.Induction
import Mathlib.Data.Set.Card
import SmallLisp.Proofs.Value.Map

/-!
Maps over any history. However a map was made, by insertions one after the other or from a sequence
of items, it has one entry for each class of equal keys that were inserted. The entry has the value
that came with the last of them, and stands under the first of them, in the order in which the first
ones came.
-/

namespace SmallLisp

namespace Entries

variable {κ ν : Type}

section

variable [BEq κ]

/-- The last of the pairs with an equal key, as a split of the pairs. -/
theorem get?_reverse_eq_some_iff {key : κ} {value : ν} {pairs : List (κ × ν)} :
    get? key pairs.reverse = some value ↔
      ∃ earlier found later, pairs = earlier ++ (found, value) :: later ∧ found == key ∧
        ∀ pair ∈ later, (pair.1 == key) = false := by
  rw [get?, Option.map_eq_some_iff]
  constructor
  · rintro ⟨⟨found, _⟩, hfound, rfl⟩
    obtain ⟨hkey, later, earlier, hpairs, hlater⟩ := List.find?_eq_some_iff_append.1 hfound
    refine ⟨earlier.reverse, found, later.reverse, ?_, hkey, fun pair hpair => ?_⟩
    · rw [← List.reverse_reverse pairs, hpairs]
      simp
    · simpa using hlater pair (List.mem_reverse.1 hpair)
  · rintro ⟨earlier, found, later, rfl, hkey, hlater⟩
    refine ⟨(found, value), List.find?_eq_some_iff_append.2 ⟨hkey, later.reverse, earlier.reverse,
      by simp, fun pair hpair => ?_⟩, rfl⟩
    simpa using hlater pair (List.mem_reverse.1 hpair)

theorem get?_eq_none_iff {key : κ} {entries : List (κ × ν)} :
    get? key entries = none ↔ ∀ entry ∈ entries, (entry.1 == key) = false := by
  simp [get?]

theorem insertAll_concat (pairs entries : List (κ × ν)) (pair : κ × ν) :
    insertAll (pairs ++ [pair]) entries = insert pair.1 pair.2 (insertAll pairs entries) := by
  rw [insertAll, List.foldl_append]
  rfl

variable [EquivBEq κ]

/-- Some key of the entries is equal to the key exactly if some inserted one is. -/
theorem any_insertAll (key : κ) (pairs : List (κ × ν)) :
    ((insertAll pairs []).any fun entry => entry.1 == key) =
      pairs.any fun pair => pair.1 == key := by
  have hnone : get? key (insertAll pairs []) = none ↔ get? key pairs.reverse = none := by
    rw [get?_insertAll, get?_nil, Option.or_none]
  rw [get?_eq_none_iff, get?_eq_none_iff] at hnone
  rw [Bool.eq_iff_iff, ← not_iff_not, Bool.not_eq_true, Bool.not_eq_true, List.any_eq_false,
    List.any_eq_false]
  simpa using hnone

/-- Keys in the order of their first insertion: each is the first inserted key of its class, and
comes behind the others exactly if it was inserted behind them. -/
structure FirstInserted (inserted keys : List κ) : Prop where
  find?_eq : ∀ key ∈ keys, inserted.find? (· == key) = some key
  ordered : keys.Pairwise fun key later =>
    inserted.findIdx (· == key) < inserted.findIdx (· == later)

namespace FirstInserted

variable {inserted keys : List κ}

theorem findIdx_lt (h : FirstInserted inserted keys) {key : κ} (hkey : key ∈ keys) :
    inserted.findIdx (· == key) < inserted.length :=
  List.findIdx_lt_length.2
    ⟨key, List.mem_of_find?_eq_some (h.find?_eq key hkey), BEq.refl key⟩

/-- A further insertion leaves the first ones where they are. -/
theorem append (h : FirstInserted inserted keys) (key : κ) :
    FirstInserted (inserted ++ [key]) keys where
  find?_eq first hfirst := by rw [List.find?_append, h.find?_eq first hfirst, Option.some_or]
  ordered := by
    refine h.ordered.imp_of_mem fun {first later} hfirst hlater hlt => ?_
    rw [List.findIdx_append, if_pos (h.findIdx_lt hfirst), List.findIdx_append,
      if_pos (h.findIdx_lt hlater)]
    exact hlt

/-- A key that is equal to none before comes last. -/
theorem append_new (h : FirstInserted inserted keys) {key : κ}
    (hnew : ∀ first ∈ inserted, (first == key) = false) :
    FirstInserted (inserted ++ [key]) (keys ++ [key]) where
  find?_eq first hfirst := by
    rcases List.mem_append.1 hfirst with hold | hlast
    · exact (h.append key).find?_eq first hold
    · obtain rfl := List.mem_singleton.1 hlast
      have hnone : inserted.find? (· == first) = none := by
        rw [List.find?_eq_none]
        simpa using hnew
      rw [List.find?_append, hnone, Option.none_or, List.find?_singleton, if_pos (BEq.refl first)]
  ordered := by
    refine List.pairwise_append.2 ⟨(h.append key).ordered, List.pairwise_singleton _ _, ?_⟩
    intro first hfirst last hlast
    obtain rfl := List.mem_singleton.1 hlast
    have hplace := h.findIdx_lt hfirst
    have hbehind : inserted.findIdx (· == last) = inserted.length :=
      List.findIdx_eq_length.2 hnew
    rw [List.findIdx_append, if_pos hplace, List.findIdx_append, if_neg (by simp [hbehind])]
    exact Nat.lt_of_lt_of_le hplace (Nat.le_add_left _ _)

end FirstInserted

theorem firstInserted_insertAll (pairs : List (κ × ν)) :
    FirstInserted (pairs.map Prod.fst) ((insertAll pairs []).map Prod.fst) := by
  induction pairs using List.reverseRecOn with
  | nil => exact ⟨List.forall_mem_nil _, List.Pairwise.nil⟩
  | append_singleton pairs pair ih =>
    rw [insertAll_concat, map_fst_insert, any_insertAll, List.map_append]
    split
    · exact ih.append pair.1
    · next hnew =>
      apply ih.append_new
      simpa using hnew

/-- Equal keys are in one class. -/
def keySetoid (κ : Type) [BEq κ] [EquivBEq κ] : Setoid κ where
  r key other := key == other
  iseqv := ⟨fun _ => BEq.refl _, BEq.symm, BEq.trans⟩

/-- The classes of the keys of some pairs. -/
def keyClasses (pairs : List (κ × ν)) : Set (Quotient (keySetoid κ)) :=
  {keyClass | ∃ pair ∈ pairs, Quotient.mk (keySetoid κ) pair.1 = keyClass}

/-- Entries with distinct keys are as many as their keys have classes. -/
theorem DistinctKeys.ncard_keyClasses {entries : List (κ × ν)} (h : DistinctKeys entries) :
    (keyClasses entries).ncard = entries.length := by
  classical
  let classes := entries.map fun entry => Quotient.mk (keySetoid κ) entry.1
  have hnodup : classes.Nodup := by
    rw [DistinctKeys, List.pairwise_map] at h
    refine List.pairwise_map.2 (h.imp fun hdistinct hsame => ?_)
    exact Bool.false_ne_true (hdistinct.symm.trans (Quotient.exact hsame))
  have hclasses : keyClasses entries = (classes.toFinset : Set (Quotient (keySetoid κ))) := by
    ext keyClass
    simp [keyClasses, classes]
  rw [hclasses, Set.ncard_coe_finset, List.toFinset_card_of_nodup hnodup, List.length_map]

theorem mk_mem_keyClasses_iff {key : κ} {pairs : List (κ × ν)} :
    Quotient.mk (keySetoid κ) key ∈ keyClasses pairs ↔ pairs.any fun pair => pair.1 == key := by
  rw [List.any_eq_true]
  refine exists_congr fun pair => and_congr_right fun _ => ?_
  exact ⟨Quotient.exact, fun h => Quotient.sound h⟩

theorem keyClasses_insertAll (pairs : List (κ × ν)) :
    keyClasses (insertAll pairs []) = keyClasses pairs := by
  ext keyClass
  obtain ⟨key, rfl⟩ := Quotient.exists_rep keyClass
  rw [mk_mem_keyClasses_iff, mk_mem_keyClasses_iff, any_insertAll]

/-- What the entries of a map show of the pairs that were inserted, the earliest first. -/
structure Records (pairs entries : List (κ × ν)) : Prop where
  distinct : DistinctKeys entries
  /-- The last pair with an equal key decides. -/
  get?_eq_some_iff : ∀ key value, get? key entries = some value ↔
    ∃ earlier found later, pairs = earlier ++ (found, value) :: later ∧ found == key ∧
      ∀ pair ∈ later, (pair.1 == key) = false
  get?_eq_none_iff : ∀ key, get? key entries = none ↔ ∀ pair ∈ pairs, (pair.1 == key) = false
  length_eq : entries.length = (keyClasses pairs).ncard
  /-- The keys belong to the classes that were inserted, and are their first members in the order in
  which these came. -/
  keyClasses_eq : keyClasses entries = keyClasses pairs
  keys : FirstInserted (pairs.map Prod.fst) (entries.map Prod.fst)

theorem records_insertAll (pairs : List (κ × ν)) : Records pairs (insertAll pairs []) where
  distinct := distinctKeys_insertAll pairs
  get?_eq_some_iff key value := by
    rw [get?_insertAll, get?_nil, Option.or_none, get?_reverse_eq_some_iff]
  get?_eq_none_iff key := by
    rw [get?_insertAll, get?_nil, Option.or_none, Entries.get?_eq_none_iff]
    simp only [List.mem_reverse]
  length_eq := by
    rw [← keyClasses_insertAll, (distinctKeys_insertAll pairs).ncard_keyClasses]
  keyClasses_eq := keyClasses_insertAll pairs
  keys := firstInserted_insertAll pairs

end

/-- The pairs of neighbours among the items, where a last item without a neighbour gets a
partner. -/
def IsPairing (partner : κ) (items : List κ) (pairs : List (κ × κ)) : Prop :=
  ∀ i : Nat, pairs[i]? = items[2 * i]?.map fun key => (key, items[2 * i + 1]?.getD partner)

theorem isPairing_pairUp (partner : κ) (items : List κ) :
    IsPairing partner items (pairUp partner items) := by
  fun_induction pairUp partner items with
  | case1 => intro i; rfl
  | case2 key =>
    intro i
    cases i with
    | zero => rfl
    | succ i => rfl
  | case3 key value rest ih =>
    intro i
    cases i with
    | zero => rfl
    | succ i => exact ih i

theorem IsPairing.eq_pairUp {partner : κ} {items : List κ} {pairs : List (κ × κ)}
    (h : IsPairing partner items pairs) : pairs = pairUp partner items := by
  apply List.ext_getElem?
  intro i
  rw [h i, isPairing_pairUp partner items i]

end Entries

namespace Value

/-- The entries that a map can have, with all pairs that were inserted on the way, the earliest
first. A map is made by insertions, or from a sequence of items. -/
inductive MapHistory : List (Value × Value) → List (Value × Value) → Prop
  | empty : MapHistory [] []
  | insert {pairs entries} (h : MapHistory pairs entries) (key value : Value) :
      MapHistory (pairs ++ [(key, value)]) (Entries.insert key value entries)
  | ofItems {items pairs entries} (hpairs : Entries.IsPairing nil items pairs)
      (hmap : mapOfItems items = .map entries) : MapHistory pairs entries

theorem mapOfItems_of_isPairing {items : List Value} {pairs : List (Value × Value)}
    (h : Entries.IsPairing nil items pairs) :
    mapOfItems items = .map (Entries.insertAll pairs []) := by
  rw [mapOfItems, h.eq_pairUp]

theorem MapHistory.entries_eq {pairs entries : List (Value × Value)}
    (h : MapHistory pairs entries) : entries = Entries.insertAll pairs [] := by
  induction h with
  | empty => rfl
  | insert h key value ih => rw [Entries.insertAll_concat, ← ih]
  | ofItems hpairs hmap =>
    rw [mapOfItems_of_isPairing hpairs] at hmap
    exact (Value.map.inj hmap).symm

/-- Maps hold one value for each class of equal keys, however they were made: the value that was
inserted last, under the key that was inserted first, in the order of these keys. A map that is made
from items is the map of the insertions of their pairs. -/
theorem maps_record_insertions :
    (∀ pairs entries, MapHistory pairs entries → Entries.Records pairs entries) ∧
      ∀ items, ∃ pairs, Entries.IsPairing nil items pairs ∧
        mapOfItems items = .map (Entries.insertAll pairs []) := by
  constructor
  · intro pairs entries h
    rw [h.entries_eq]
    exact Entries.records_insertAll pairs
  · intro items
    have hpairs := Entries.isPairing_pairUp nil items
    exact ⟨_, hpairs, mapOfItems_of_isPairing hpairs⟩

/-- The list `(1)` and the vector `[1]` are one key. It stays the list that came first, with the
value that came with the vector. -/
theorem maps_record_insertions_mixed :
    let pairs : List (Value × Value) :=
      [(.list [.number 1], .string "a"), (.string "b", nil)] ++ [(.vector [.number 1], .string "c")]
    let entries : List (Value × Value) :=
      [(.list [.number 1], .string "c"), (.string "b", nil)]
    MapHistory pairs entries ∧ Entries.Records pairs entries ∧
      Entries.get? (.vector [.number 1]) entries = some (.string "c") := by
  intro pairs entries
  have hitems : MapHistory [(.list [.number 1], .string "a"), (.string "b", nil)]
      [(.list [.number 1], .string "a"), (.string "b", nil)] :=
    .ofItems (Entries.isPairing_pairUp nil [.list [.number 1], .string "a", .string "b"]) (by cbv)
  have hhistory : MapHistory pairs entries := hitems.insert (.vector [.number 1]) (.string "c")
  have hrecords := maps_record_insertions.1 pairs entries hhistory
  refine ⟨hhistory, hrecords, (hrecords.get?_eq_some_iff _ _).2 ?_⟩
  refine ⟨[(.list [.number 1], .string "a"), (.string "b", nil)], .vector [.number 1], [], rfl,
    BEq.refl _, List.forall_mem_nil _⟩

end Value

end SmallLisp
