import SmallLisp.Proofs.Token.Runs
import SmallLisp.Value.Map

/-!
Literals: the values that have a text of their own. They are the trees of numbers, strings and
symbols with a name that can be written, where the keys of a map are pairwise unequal.
-/

namespace SmallLisp

namespace Entries

variable {κ ν : Type}

/-- The keys and values of entries, each value behind its key. -/
def flatten : List (κ × κ) → List κ
  | [] => []
  | (key, value) :: entries => key :: value :: flatten entries

theorem forall_mem_flatten {P : κ → Prop} {entries : List (κ × κ)} :
    (∀ item ∈ flatten entries, P item) ↔ ∀ entry ∈ entries, P entry.1 ∧ P entry.2 := by
  induction entries with
  | nil => simp [flatten]
  | cons entry entries ih =>
    rw [flatten, List.forall_mem_cons, List.forall_mem_cons, List.forall_mem_cons, ih, and_assoc]

theorem pairUp_flatten (partner : κ) (entries : List (κ × κ)) :
    pairUp partner (flatten entries) = entries := by
  induction entries with
  | nil => rfl
  | cons entry entries ih => rw [flatten, pairUp, ih]

/-- What holds of all items, and of the partner of the last, holds of both sides of each pair. -/
theorem forall_pairUp {P : κ → Prop} {partner : κ} {items : List κ} (hpartner : P partner)
    (hitems : ∀ item ∈ items, P item) : ∀ entry ∈ pairUp partner items, P entry.1 ∧ P entry.2 := by
  fun_induction pairUp partner items with
  | case1 => simp
  | case2 key => simpa [hpartner] using hitems
  | case3 key value rest ih =>
    simp only [List.forall_mem_cons] at hitems ⊢
    exact ⟨⟨hitems.1, hitems.2.1⟩, ih hitems.2.2⟩

section

variable [BEq κ]

/-- No two of the keys are equal. -/
def DistinctKeys (entries : List (κ × ν)) : Prop :=
  (entries.map Prod.fst).Pairwise fun key other => (key == other) = false

theorem insert_of_all_ne {key : κ} {entries : List (κ × ν)}
    (h : ∀ entry ∈ entries, (entry.1 == key) = false) (value : ν) :
    insert key value entries = entries ++ [(key, value)] := by
  induction entries with
  | nil => rfl
  | cons entry entries ih =>
    rw [List.forall_mem_cons] at h
    rw [insert, if_neg (by simp [h.1]), ih h.2, List.cons_append]

theorem insertAll_cons (pair : κ × ν) (pairs entries : List (κ × ν)) :
    insertAll (pair :: pairs) entries = insertAll pairs (insert pair.1 pair.2 entries) := rfl

/-- Entries whose keys are all distinct are kept as they are. -/
theorem insertAll_of_distinctKeys {pairs entries : List (κ × ν)}
    (h : DistinctKeys (entries ++ pairs)) : insertAll pairs entries = entries ++ pairs := by
  induction pairs generalizing entries with
  | nil => simp [insertAll]
  | cons pair pairs ih =>
    have hsplit : entries ++ pair :: pairs = entries ++ [pair] ++ pairs := by simp
    have hnew : ∀ entry ∈ entries, (entry.1 == pair.1) = false := by
      intro entry hentry
      rw [DistinctKeys, List.map_append, List.pairwise_append] at h
      exact h.2.2 entry.1 (List.mem_map_of_mem hentry) pair.1 (by simp)
    have hinsert : Entries.insert pair.1 pair.2 entries = entries ++ [pair] :=
      insert_of_all_ne hnew pair.2
    rw [hsplit] at h ⊢
    rw [insertAll_cons, hinsert]
    exact ih h

theorem DistinctKeys.insert {entries : List (κ × ν)} (h : DistinctKeys entries) (key : κ)
    (value : ν) : DistinctKeys (insert key value entries) := by
  rw [DistinctKeys, map_fst_insert]
  split
  · exact h
  · next hnew =>
    have hnone := List.any_eq_false.1 (Bool.eq_false_iff.2 hnew)
    rw [List.pairwise_append]
    refine ⟨h, List.pairwise_singleton _ _, fun other hother found hfound => ?_⟩
    obtain ⟨entry, hentry, rfl⟩ := List.mem_map.1 hother
    obtain rfl := List.mem_singleton.1 hfound
    simpa using hnone entry hentry

theorem DistinctKeys.insertAll {entries : List (κ × ν)} (h : DistinctKeys entries)
    (pairs : List (κ × ν)) : DistinctKeys (insertAll pairs entries) := by
  induction pairs generalizing entries with
  | nil => exact h
  | cons pair pairs ih => exact ih (h.insert pair.1 pair.2)

theorem distinctKeys_insertAll (pairs : List (κ × ν)) :
    DistinctKeys (Entries.insertAll pairs []) := by
  have hempty : DistinctKeys ([] : List (κ × ν)) := List.Pairwise.nil
  exact hempty.insertAll pairs

theorem forall_insert {P : κ → Prop} {Q : ν → Prop} {key : κ} {value : ν} {entries : List (κ × ν)}
    (hkey : P key) (hvalue : Q value) (h : ∀ entry ∈ entries, P entry.1 ∧ Q entry.2) :
    ∀ entry ∈ insert key value entries, P entry.1 ∧ Q entry.2 := by
  induction entries with
  | nil => simpa [insert] using ⟨hkey, hvalue⟩
  | cons entry entries ih =>
    rw [List.forall_mem_cons] at h
    rw [insert]
    split
    · exact List.forall_mem_cons.2 ⟨⟨h.1.1, hvalue⟩, h.2⟩
    · exact List.forall_mem_cons.2 ⟨h.1, ih h.2⟩

theorem forall_insertAll {P : κ → Prop} {Q : ν → Prop} {pairs entries : List (κ × ν)}
    (hpairs : ∀ pair ∈ pairs, P pair.1 ∧ Q pair.2) (h : ∀ entry ∈ entries, P entry.1 ∧ Q entry.2) :
    ∀ entry ∈ insertAll pairs entries, P entry.1 ∧ Q entry.2 := by
  induction pairs generalizing entries with
  | nil => exact h
  | cons pair pairs ih =>
    rw [List.forall_mem_cons] at hpairs
    exact ih hpairs.2 (forall_insert hpairs.1.1 hpairs.1.2 h)

end

end Entries

namespace Value

open Entries (flatten DistinctKeys)

mutual

/-- How many values stand inside one another in a value, itself included. -/
def height : Value → Nat
  | .list items | .vector items => heightOfAll items + 1
  | .map entries => heightOfEntries entries + 1
  | _ => 1

def heightOfAll : List Value → Nat
  | [] => 0
  | item :: items => max item.height (heightOfAll items)

def heightOfEntries : List (Value × Value) → Nat
  | [] => 0
  | (key, value) :: entries => max (max key.height value.height) (heightOfEntries entries)

end

theorem height_pos (value : Value) : 0 < value.height := by
  cases value <;> simp [height]

theorem heightOfAll_le_iff {items : List Value} {n : Nat} :
    heightOfAll items ≤ n ↔ ∀ item ∈ items, item.height ≤ n := by
  induction items with
  | nil => simp [heightOfAll]
  | cons item items ih => rw [heightOfAll, Nat.max_le, ih, List.forall_mem_cons]

theorem heightOfEntries_eq (entries : List (Value × Value)) :
    heightOfEntries entries = heightOfAll (flatten entries) := by
  induction entries with
  | nil => rfl
  | cons entry entries ih =>
    rw [heightOfEntries, ih, flatten, heightOfAll, heightOfAll, Nat.max_assoc]

/-- The values that can be written and read back. -/
inductive IsLiteral : Value → Prop where
  | number (n : Int64) : IsLiteral (.number n)
  | string (text : String) : IsLiteral (.string text)
  | symbol {symbol : Symbol} (hname : symbol.IsReadable) : IsLiteral (.symbol symbol)
  | list {items : List Value} (hitems : ∀ item ∈ items, IsLiteral item) : IsLiteral (.list items)
  | vector {items : List Value} (hitems : ∀ item ∈ items, IsLiteral item) :
      IsLiteral (.vector items)
  | map {entries : List (Value × Value)} (hdistinct : DistinctKeys entries)
      (hparts : ∀ part ∈ flatten entries, IsLiteral part) : IsLiteral (.map entries)

theorem mapOfItems_flatten {entries : List (Value × Value)} (h : DistinctKeys entries) :
    mapOfItems (flatten entries) = .map entries := by
  have hall : DistinctKeys ([] ++ entries) := h
  rw [mapOfItems, Entries.pairUp_flatten, Entries.insertAll_of_distinctKeys hall, List.nil_append]

/-- What holds of `nil` and of all items holds of the keys and values of their map. -/
theorem forall_entries_of_items {P : Value → Prop} {items : List Value} (hnil : P nil)
    (hitems : ∀ item ∈ items, P item) :
    ∀ entry ∈ Entries.insertAll (Entries.pairUp nil items) [], P entry.1 ∧ P entry.2 := by
  have hpairs := Entries.forall_pairUp hnil hitems
  exact Entries.forall_insertAll (P := P) (Q := P) hpairs (List.forall_mem_nil _)

theorem isLiteral_nil : IsLiteral nil :=
  .symbol (by decide)

theorem isLiteral_mapOfItems {items : List Value} (h : ∀ item ∈ items, IsLiteral item) :
    IsLiteral (mapOfItems items) := by
  have hentries := forall_entries_of_items isLiteral_nil h
  exact .map (Entries.distinctKeys_insertAll _) (Entries.forall_mem_flatten.2 hentries)

/-- A map is no higher than its items allow. The `nil` behind a last key adds nothing to them, since
no key is lower than `nil`. -/
theorem height_mapOfItems_le (items : List Value) :
    (mapOfItems items).height ≤ heightOfAll items + 1 := by
  cases items with
  | nil => exact Nat.le_refl _
  | cons item rest =>
    have hitems := heightOfAll_le_iff.1 (Nat.le_refl (heightOfAll (item :: rest)))
    have hnil : nil.height ≤ heightOfAll (item :: rest) :=
      Nat.le_trans item.height_pos (hitems item List.mem_cons_self)
    rw [mapOfItems, height, heightOfEntries_eq]
    apply Nat.add_le_add_right
    rw [heightOfAll_le_iff, Entries.forall_mem_flatten]
    exact forall_entries_of_items (P := fun part => part.height ≤ _) hnil hitems

end Value

end SmallLisp
