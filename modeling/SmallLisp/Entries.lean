/-!
Entries kept in the order of insertion. They hold the bindings of a frame and the contents of a
map. Keys are compared by a Boolean equality; where that is an equivalence, one key of each class is
kept, as it was first written.
-/

namespace SmallLisp.Entries

variable {κ ν : Type}

/-- Gives a key a value. A key that is there keeps its place and its first spelling, and a new one
comes last. -/
def insert [BEq κ] (key : κ) (value : ν) : List (κ × ν) → List (κ × ν)
  | [] => [(key, value)]
  | (k, v) :: entries =>
    if k == key then (k, value) :: entries else (k, v) :: insert key value entries

def insertAll [BEq κ] (pairs : List (κ × ν)) (entries : List (κ × ν)) : List (κ × ν) :=
  pairs.foldl (fun entries (key, value) => insert key value entries) entries

def get? [BEq κ] (key : κ) (entries : List (κ × ν)) : Option ν :=
  (entries.find? fun (k, _) => k == key).map (·.2)

/-- Pairs up neighbours. An item without a partner gets the given one. -/
def pairUp (partner : κ) : List κ → List (κ × κ)
  | [] => []
  | [key] => [(key, partner)]
  | key :: value :: rest => (key, value) :: pairUp partner rest

@[simp] theorem get?_nil [BEq κ] (key : κ) : get? key ([] : List (κ × ν)) = none := rfl

theorem get?_cons [BEq κ] (key k : κ) (value : ν) (entries : List (κ × ν)) :
    get? key ((k, value) :: entries) = if k == key then some value else get? key entries := by
  by_cases hsame : k == key <;> simp [get?, hsame]

theorem get?_insert [BEq κ] [EquivBEq κ] (key k : κ) (value : ν) (entries : List (κ × ν)) :
    get? k (insert key value entries) = if key == k then some value else get? k entries := by
  induction entries with
  | nil => simp [insert, get?_cons]
  | cons entry entries ih =>
    obtain ⟨first, old⟩ := entry
    by_cases hsame : first == key
    · have hcongr : (first == k) = (key == k) := BEq.congr_left hsame
      by_cases hfound : key == k <;> simp [insert, hsame, get?_cons, hcongr, hfound]
    · by_cases hfound : first == k
      · have hother : (key == k) = false := by
          rw [← BEq.congr_right hfound, BEq.comm]
          simpa using hsame
        simp [insert, hsame, get?_cons, hfound, hother]
      · simp [insert, hsame, get?_cons, hfound, ih]

/-- The keys of an insertion: those before, and the new one behind them if it was not there. -/
theorem map_fst_insert [BEq κ] (key : κ) (value : ν) (entries : List (κ × ν)) :
    (insert key value entries).map Prod.fst =
      if entries.any (·.1 == key) then entries.map Prod.fst else entries.map Prod.fst ++ [key] := by
  induction entries with
  | nil => simp [insert]
  | cons entry entries ih =>
    obtain ⟨first, old⟩ := entry
    rw [List.any_cons]
    by_cases hsame : first == key
    · simp [insert, hsame]
    · simp only [insert, hsame, Bool.false_or, if_false, List.map_cons, ih, Bool.false_eq_true]
      split <;> rfl

end SmallLisp.Entries
