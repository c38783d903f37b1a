/-!
Sets of names, listed in ascending order of their code points and without repetition. This is also
the order of their UTF-8 bytes.
-/

namespace SmallLisp.Names

def insert (name : String) : List String → List String
  | [] => [name]
  | first :: rest =>
    if name < first then name :: first :: rest
    else if name = first then first :: rest
    else first :: insert name rest

def ofList (names : List String) : List String :=
  names.foldr insert []

theorem mem_insert {x name : String} {names : List String} :
    x ∈ insert name names ↔ x = name ∨ x ∈ names := by
  induction names with
  | nil => simp [insert]
  | cons first rest ih =>
    by_cases hbefore : name < first
    · simp [insert, hbefore]
    · by_cases hsame : name = first
      · simp [insert, hsame]
      · simp [insert, hbefore, hsame, ih, or_left_comm]

theorem mem_ofList {x : String} {names : List String} : x ∈ ofList names ↔ x ∈ names := by
  induction names with
  | nil => simp [ofList]
  | cons name rest ih => simpa [ofList, mem_insert] using or_congr_right ih

theorem pairwise_insert {name : String} {names : List String} (h : names.Pairwise (· < ·)) :
    (insert name names).Pairwise (· < ·) := by
  induction names with
  | nil => simp [insert]
  | cons first rest ih =>
    obtain ⟨hleast, hascending⟩ := List.pairwise_cons.1 h
    unfold insert
    split
    · next hbefore =>
      refine List.pairwise_cons.2 ⟨fun x hx => ?_, h⟩
      rcases List.mem_cons.1 hx with rfl | hlater
      · exact hbefore
      · exact String.lt_trans hbefore (hleast x hlater)
    · split
      · exact h
      · next hbefore hdifferent =>
        refine List.pairwise_cons.2 ⟨fun x hx => ?_, ih hascending⟩
        rcases mem_insert.1 hx with rfl | hlater
        · exact Std.lt_of_le_of_ne (String.not_lt.1 hbefore) (Ne.symm hdifferent)
        · exact hleast x hlater

theorem pairwise_ofList (names : List String) : (ofList names).Pairwise (· < ·) := by
  induction names with
  | nil => exact .nil
  | cons name rest ih => exact pairwise_insert ih

end SmallLisp.Names
