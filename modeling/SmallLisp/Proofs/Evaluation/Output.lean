import SmallLisp.Proofs.Evaluation.Correspondence

/-!
What was written before does not matter. A program cannot read the output, so a run behind some
earlier output is the same run, and all that it writes comes after that output.
-/

namespace SmallLisp

/-- Every name, every expression and every value. -/
def Vocabulary.all : Vocabulary where
  IsName _ := True
  IsExpression _ := True
  IsValue _ := True
  name_of_expression _ := trivial
  items_of_expression _ _ _ _ := trivial
  entries_of_expression _ _ _ := ⟨trivial, trivial⟩
  value_of_expression _ _ := trivial
  number _ := trivial
  string _ := trivial
  nil := trivial
  ofBool _ := trivial
  list _ := trivial
  vector _ := trivial
  map _ := trivial
  closure _ _ _ _ _ := trivial
  names_of_closure _ _ _ := trivial
  body_of_closure _ _ _ := trivial

/-- The store with earlier output in front of its own. -/
def Store.behind (earlier : String) (store : Store) : Store :=
  { store with output := earlier ++ store.output }

theorem Store.chain_behind (earlier : String) (store : Store) (frame : FrameId) :
    (store.behind earlier).chain frame = store.chain frame := by
  apply chain_congr
  intro f
  rfl

/-- The second of two runs takes place behind some earlier output. -/
def Correspondence.behind (earlier : String) : Correspondence .all .id where
  Stores s t := t = s.behind earlier
  size := by
    rintro s _ rfl
    rfl
  definitionFrame := by
    rintro s _ rfl frame
    rw [Store.definitionFrame, Store.chain_behind]
    rfl
  closureCount := by
    rintro s _ rfl
    rfl
  value_of_get? _ _ _ _ _ _ _ := trivial
  get? := by
    rintro s _ rfl frame name - -
    rw [Value.rename_id_eq, Option.map_id, Store.get?, Store.chain_behind]
    rfl
  push := by
    rintro s _ rfl bindings - parent isLocal
    rw [prodMap_rename_id, List.map_id]
    rfl
  define := by
    rintro s _ rfl name value - - frame
    rw [Value.rename_id]
    rfl
  count := by
    rintro s _ rfl
    rfl
  write := by
    rintro s _ rfl text
    simp only [Store.behind, Store.write, String.append_assoc]
  print {value} _ mode := by rw [Value.rename_id]

end SmallLisp
