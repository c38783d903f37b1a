import SmallLisp.Proofs.Value.Equality
import SmallLisp.Proofs.Value.Literal

/-!
Entries that were inserted one after the other. Of the keys that are equal the first one is kept, in
its place, and it has the value that came with the last of them.
-/

namespace SmallLisp

namespace Entries

variable {κ ν : Type} [BEq κ]

theorem get?_append (key : κ) (front back : List (κ × ν)) :
    get? key (front ++ back) = (get? key front).or (get? key back) := by
  simp only [get?, List.find?_append, Option.map_or]

variable [EquivBEq κ]

/-- The keys of an insertion are collected as those of a list without repetitions are. -/
theorem map_fst_insertAll (pairs entries : List (κ × ν)) :
    (insertAll pairs entries).map Prod.fst =
      List.eraseDupsBy.loop (· == ·) (pairs.map Prod.fst) (entries.map Prod.fst).reverse := by
  induction pairs generalizing entries with
  | nil => simp [insertAll, List.eraseDupsBy.loop]
  | cons pair pairs ih =>
    have hany : ((entries.map Prod.fst).reverse.any fun key => pair.1 == key) =
        entries.any fun entry => entry.1 == pair.1 := by
      simp only [List.any_reverse, List.any_map, Function.comp_def, BEq.comm (a := pair.1)]
    rw [insertAll_cons, ih, map_fst_insert, List.map_cons, List.eraseDupsBy.loop, hany]
    cases entries.any fun entry => entry.1 == pair.1 with
    | true => rfl
    | false => simp

/-- The last pair with the key decides. -/
theorem get?_insertAll (key : κ) (pairs entries : List (κ × ν)) :
    get? key (insertAll pairs entries) = (get? key pairs.reverse).or (get? key entries) := by
  induction pairs generalizing entries with
  | nil => rfl
  | cons pair pairs ih =>
    rw [insertAll_cons, ih, get?_insert, List.reverse_cons, get?_append, get?_cons, get?_nil,
      Option.or_assoc]
    cases pair.1 == key <;> rfl

/-- Entries in which the keys of some pairs have collapsed. Of equal keys the first one stays, where
it stood among the others, and with it the value that came with the last one. -/
structure Collapse (pairs entries : List (κ × ν)) : Prop where
  keys : entries.map Prod.fst = (pairs.map Prod.fst).eraseDups
  values : ∀ key, get? key entries = get? key pairs.reverse

theorem collapse_insertAll (pairs : List (κ × ν)) : Collapse pairs (insertAll pairs []) where
  keys := map_fst_insertAll pairs []
  values key := by rw [get?_insertAll, get?_nil, Option.or_none]

end Entries

end SmallLisp
