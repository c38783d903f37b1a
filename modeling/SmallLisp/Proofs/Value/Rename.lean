import Mathlib.Logic.Function.Defs
import SmallLisp.Evaluation

/-!
Renaming the symbols of a program. A renaming leaves alone every name that means something of its
own and keeps all names apart, so whatever looks at a value sees the same thing before and after.
-/

namespace SmallLisp

namespace Entries

variable {κ κ' ν ν' : Type} [BEq κ] [BEq κ'] {f : κ → κ'}
  (hkeys : ∀ key other, (f key == f other) = (key == other)) (g : ν → ν')

include hkeys

/-- It is the same to insert and to replace keys and values in either order, if equal keys stay
equal and others unequal. -/
theorem insert_map (key : κ) (value : ν) (entries : List (κ × ν)) :
    insert (f key) (g value) (entries.map (Prod.map f g)) =
      (insert key value entries).map (Prod.map f g) := by
  induction entries with
  | nil => rfl
  | cons entry entries ih =>
    obtain ⟨first, old⟩ := entry
    rw [List.map_cons, Prod.map_apply, insert, insert, hkeys, ih]
    split <;> rfl

theorem insertAll_map (pairs entries : List (κ × ν)) :
    insertAll (pairs.map (Prod.map f g)) (entries.map (Prod.map f g)) =
      (insertAll pairs entries).map (Prod.map f g) := by
  induction pairs generalizing entries with
  | nil => rfl
  | cons pair pairs ih =>
    have hinsert := insert_map hkeys g pair.1 pair.2 entries
    exact (congrArg (insertAll _) hinsert).trans (ih _)

theorem get?_map (key : κ) (entries : List (κ × ν)) :
    get? (f key) (entries.map (Prod.map f g)) = (get? key entries).map g := by
  induction entries with
  | nil => rfl
  | cons entry entries ih =>
    obtain ⟨first, old⟩ := entry
    rw [List.map_cons, Prod.map_apply, get?_cons, get?_cons, hkeys, ih]
    split <;> rfl

end Entries

/-- A renaming of symbols that keeps them apart and fixes those with a meaning of their own. -/
structure Renaming where
  apply : Symbol → Symbol
  injective : Function.Injective apply
  constant : ∀ symbol : Symbol, symbol.isConstant → apply symbol = symbol
  form : ∀ form : SpecialForm, apply ⟨form.name⟩ = ⟨form.name⟩
  ampersand : apply .ampersand = .ampersand
  builtin : ∀ operation : Builtin, apply ⟨operation.name⟩ = ⟨operation.name⟩

namespace Renaming

protected def id : Renaming where
  apply := id
  injective := Function.injective_id
  constant _ _ := rfl
  form _ := rfl
  ampersand := rfl
  builtin _ := rfl

@[simp] theorem id_apply : Renaming.id.apply = id := rfl

variable (ρ : Renaming)

theorem apply_inj {first second : Symbol} : ρ.apply first = ρ.apply second ↔ first = second :=
  ρ.injective.eq_iff

theorem beq_apply (first second : Symbol) :
    (ρ.apply first == ρ.apply second) = (first == second) := by
  simp only [Bool.beq_eq_decide_eq, ρ.apply_inj]

/-- A symbol that stays what it is is the image of itself only. -/
theorem apply_eq_iff {fixed : Symbol} (h : ρ.apply fixed = fixed) (symbol : Symbol) :
    ρ.apply symbol = fixed ↔ symbol = fixed := by
  constructor
  · intro himage
    exact ρ.injective (himage.trans h.symm)
  · rintro rfl
    exact h

theorem isConstant_apply (symbol : Symbol) :
    (ρ.apply symbol).isConstant = symbol.isConstant := by
  rw [Bool.eq_iff_iff]
  constructor
  · intro himage
    have hsame : ρ.apply symbol = symbol := ρ.injective (ρ.constant _ himage)
    rwa [hsame] at himage
  · intro hsymbol
    rwa [ρ.constant symbol hsymbol]

theorem ofSymbol?_apply (symbol : Symbol) :
    SpecialForm.ofSymbol? (ρ.apply symbol) = SpecialForm.ofSymbol? symbol := by
  apply Option.ext
  intro form
  have hname : ∀ s : Symbol, s.name = form.name ↔ s = ⟨form.name⟩ := by
    rintro ⟨name⟩
    simp
  rw [SpecialForm.ofSymbol?_eq_some_iff, SpecialForm.ofSymbol?_eq_some_iff, hname, hname,
    ρ.apply_eq_iff (ρ.form form)]

end Renaming

def Parameters.rename (ρ : Renaming) (parameters : Parameters) : Parameters :=
  ⟨parameters.fixed.map ρ.apply, parameters.rest.map ρ.apply⟩

namespace Value

mutual

/-- The value with all its symbols renamed, those in the closures included. -/
def rename (ρ : Renaming) : Value → Value
  | .number n => .number n
  | .string text => .string text
  | .symbol s => .symbol (ρ.apply s)
  | .list items => .list (renameAll ρ items)
  | .vector items => .vector (renameAll ρ items)
  | .map entries => .map (renameEntries ρ entries)
  | .closure identity parameters body scope =>
    .closure identity (parameters.rename ρ) (renameAll ρ body) scope
  | .builtin operation => .builtin operation

def renameAll (ρ : Renaming) : List Value → List Value
  | [] => []
  | item :: items => item.rename ρ :: renameAll ρ items

def renameEntries (ρ : Renaming) : List (Value × Value) → List (Value × Value)
  | [] => []
  | (key, value) :: entries => (key.rename ρ, value.rename ρ) :: renameEntries ρ entries

end

variable (ρ : Renaming)

theorem renameAll_eq_map (items : List Value) : renameAll ρ items = items.map (rename ρ) := by
  induction items with
  | nil => rfl
  | cons item items ih => rw [renameAll, ih, List.map_cons]

theorem renameEntries_eq_map (entries : List (Value × Value)) :
    renameEntries ρ entries = entries.map (Prod.map (rename ρ) (rename ρ)) := by
  induction entries with
  | nil => rfl
  | cons entry entries ih => rw [renameEntries, ih, List.map_cons]; rfl

@[simp] theorem rename_nil : rename ρ nil = nil := by
  rw [nil, rename, ρ.constant _ (by decide)]

@[simp] theorem rename_ofBool (b : Bool) : rename ρ (ofBool b) = ofBool b := by
  rw [ofBool, rename, ρ.constant _ (by cases b <;> decide)]

mutual

theorem rename_id : ∀ value : Value, value.rename .id = value
  | .number _ | .string _ | .symbol _ | .builtin _ => rfl
  | .list items => by rw [rename, renameAll_id items]
  | .vector items => by rw [rename, renameAll_id items]
  | .map entries => by rw [rename, renameEntries_id entries]
  | .closure identity ⟨fixed, rest⟩ body scope => by
    simp [rename, Parameters.rename, renameAll_id body]

theorem renameAll_id : ∀ items : List Value, renameAll .id items = items
  | [] => rfl
  | item :: items => by rw [renameAll, rename_id item, renameAll_id items]

theorem renameEntries_id : ∀ entries : List (Value × Value), renameEntries .id entries = entries
  | [] => rfl
  | (key, value) :: entries => by
    rw [renameEntries, rename_id key, rename_id value, renameEntries_id entries]

end

theorem rename_id_eq : rename .id = id :=
  funext rename_id

@[simp] theorem isNil_rename (value : Value) : (value.rename ρ).isNil = value.isNil := by
  cases value with
  | symbol s => simp only [rename, isNil, ρ.apply_eq_iff (ρ.constant .nil (by decide))]
  | _ => rfl

@[simp] theorem isTruthy_rename (value : Value) : (value.rename ρ).isTruthy = value.isTruthy := by
  cases value with
  | symbol s =>
    simp only [rename, isTruthy, ne_eq, ρ.apply_eq_iff (ρ.constant .nil (by decide)),
      ρ.apply_eq_iff (ρ.constant (.ofBool false) (by decide))]
  | _ => rfl

@[simp] theorem isList_rename (value : Value) : (value.rename ρ).isList = value.isList := by
  cases value <;> rfl

theorem items?_rename (value : Value) :
    (value.rename ρ).items? = value.items?.map (List.map (rename ρ)) := by
  cases value <;> simp [rename, items?, renameAll_eq_map]

@[simp] theorem count_rename (value : Value) : (value.rename ρ).count = value.count := by
  have hnil := isNil_rename ρ value
  cases value <;> simp_all [rename, count, renameAll_eq_map, renameEntries_eq_map]

@[simp] theorem typeName_rename (value : Value) : (value.rename ρ).typeName = value.typeName := by
  cases value <;> rfl

mutual

theorem beq_rename (first second : Value) :
    beq (first.rename ρ) (second.rename ρ) = beq first second := by
  cases first with
  | symbol s =>
    cases second with
    | symbol t => simp only [rename, beq, Bool.beq_eq_decide_eq, ρ.apply_inj]
    | _ => rfl
  | list items => cases second <;> simp only [rename, beq, beqItems_rename items]
  | vector items => cases second <;> simp only [rename, beq, beqItems_rename items]
  | map entries => cases second <;> simp only [rename, beq, beqEntries_rename entries]
  | _ => cases second <;> rfl

theorem beqItems_rename (first second : List Value) :
    beqItems (renameAll ρ first) (renameAll ρ second) = beqItems first second := by
  cases first with
  | nil => cases second <;> rfl
  | cons item items =>
    cases second with
    | nil => rfl
    | cons other others =>
      rw [renameAll, renameAll, beqItems, beqItems, beq_rename item, beqItems_rename items]

theorem beqEntries_rename (first second : List (Value × Value)) :
    beqEntries (renameEntries ρ first) (renameEntries ρ second) = beqEntries first second := by
  cases first with
  | nil => cases second <;> rfl
  | cons entry entries =>
    obtain ⟨key, value⟩ := entry
    cases second with
    | nil => rfl
    | cons other others =>
      obtain ⟨otherKey, otherValue⟩ := other
      rw [renameEntries, renameEntries, beqEntries, beqEntries, beq_rename key, beq_rename value,
        beqEntries_rename entries]

end

/-- A map with renamed entries has the renamed keys, since equal keys stay equal. -/
theorem rename_map_insertAll (entries : List (Value × Value)) :
    rename ρ (.map (Entries.insertAll entries [])) =
      .map (Entries.insertAll (entries.map (Prod.map (rename ρ) (rename ρ))) []) := by
  rw [rename, renameEntries_eq_map, ← Entries.insertAll_map (beq_rename ρ), List.map_nil]

end Value

theorem prodMap_rename_id : Prod.map Renaming.id.apply (Value.rename .id) = id := by
  rw [Renaming.id_apply, Value.rename_id_eq, Prod.map_id]

theorem Evaluation.formOfHead?_rename (ρ : Renaming) (head : Value) :
    formOfHead? (head.rename ρ) = formOfHead? head := by
  cases head with
  | symbol s => exact ρ.ofSymbol?_apply s
  | _ => rfl

namespace Builtin

variable (ρ : Renaming)

theorem numbers_rename (operation : Builtin) (place : Nat) (arguments : List Value) :
    operation.numbers place (arguments.map (Value.rename ρ)) =
      operation.numbers place arguments := by
  fun_induction numbers operation place arguments with
  | case1 => rfl
  | case2 place n rest ih => rw [List.map_cons, Value.rename, numbers, ih]
  | case3 place value rest hvalue =>
    rw [List.map_cons, ← Value.typeName_rename ρ value]
    cases value with
    | number n => exact absurd rfl (hvalue n)
    | _ => rfl

theorem neighbours_rename (arguments : List Value) :
    neighbours (· == ·) (arguments.map (Value.rename ρ)) = neighbours (· == ·) arguments := by
  have hbeq : ∀ first second : Value, (first.rename ρ == second.rename ρ) = (first == second) :=
    Value.beq_rename ρ
  simp [neighbours, ← List.map_tail, List.zip_map, List.all_map, Function.comp_def, hbeq]

theorem arityError_rename (operation : Builtin) (arguments : List Value) :
    operation.arityError (arguments.map (Value.rename ρ)) = operation.arityError arguments := by
  simp only [arityError, List.length_map]

end Builtin

/-- Errors that differ in the names that they show, and in nothing else. -/
inductive Error.Renamed (ρ : Renaming) : Error → Error → Prop
  | same (e : Error) : Renamed ρ e e
  | type (complaint : String) (value : Value) :
      Renamed ρ (.type (complaint ++ value.print .readable))
        (.type (complaint ++ (value.rename ρ).print .readable))
  | unbound (symbol : Symbol) : Renamed ρ (.unbound symbol.name) (.unbound (ρ.apply symbol).name)

theorem Error.eq_of_renamed_id {d e : Error} (h : Renamed .id d e) : e = d := by
  cases h with
  | same | unbound => rfl
  | type complaint value => rw [Value.rename_id]

namespace Parameters

variable (ρ : Renaming)

theorem arity_rename (parameters : Parameters) :
    (parameters.rename ρ).arity = parameters.arity := by
  obtain ⟨fixed, rest⟩ := parameters
  cases rest <;> simp [rename, arity]

/-- A renamed list of symbols names the renamed parameters, or is refused as the first was. -/
theorem ofSymbols_map (symbols : List Symbol) :
    ofSymbols (symbols.map ρ.apply) = (ofSymbols symbols).map (rename ρ) := by
  have hampersand : ((decide <| · ≠ Symbol.ampersand) ∘ ρ.apply) = (decide <| · ≠ .ampersand) := by
    funext symbol
    simp only [Function.comp_apply, ne_eq, ρ.apply_eq_iff ρ.ampersand]
  simp only [ofSymbols, List.takeWhile_map, List.dropWhile_map, hampersand]
  generalize symbols.dropWhile (· ≠ .ampersand) = behind
  match behind with
  | [] => rfl
  | [_] => rfl
  | [_, rest] =>
    simp only [List.map_cons, List.map_nil, ne_eq, ρ.apply_eq_iff ρ.ampersand]
    split <;> rfl
  | _ :: _ :: _ :: _ => rfl

theorem bindings_rename (parameters : Parameters) (arguments : List Value) :
    (parameters.rename ρ).bindings (arguments.map (Value.rename ρ)) =
      (parameters.bindings arguments).map (Prod.map ρ.apply (Value.rename ρ)) := by
  rw [bindings, bindings, ← List.map_nil (f := Prod.map ρ.apply (Value.rename ρ)),
    ← Entries.insertAll_map ρ.beq_apply]
  obtain ⟨fixed, rest⟩ := parameters
  congr 1
  cases rest <;> simp [rename, List.zip_map, Value.rename, Value.renameAll_eq_map]

end Parameters

end SmallLisp
