import Mathlib.Logic.Function.Basic
import PdMasking.Lib.Effect
import PdMasking.Python

/-!
# PdMasking.Store — the store contract `MappingStore` (`storage/base.py`) and the plain map

A store is known through its operations `get`, `put_if_absent` and `put`, each of which may raise.  `StoreM`
are the programs over these operations; `mapStep` is the store that behaves as a map: no failure, no expiry,
no eviction.
-/

namespace PdMasking

/-- `MappingRecord`. -/
structure MappingRecord where
  original : Str
  masked : Str
  fragments : List (Str × Str)
  deriving DecidableEq

inductive StoreOp
  | get (key : Str)
  | putIfAbsent (key : Str) (record : MappingRecord)
  | put (key : Str) (record : MappingRecord)

/-- What a successful call returns. -/
def StoreOp.Val : StoreOp → Type
  | get _ => Option MappingRecord
  | putIfAbsent _ _ => Bool
  | put _ _ => Unit

/-- The outcome of a call: a value or an exception. -/
abbrev StoreOp.Res (op : StoreOp) : Type := Except PyExc op.Val

/-- Programs that call a store. -/
abbrev StoreM (α : Type) : Type := ExceptT PyExc (Prog StoreOp StoreOp.Res) α

namespace StoreM

def get (key : Str) : StoreM (Option MappingRecord) :=
  ExceptT.mk (@Prog.invoke StoreOp StoreOp.Res (StoreOp.get key))

def putIfAbsent (key : Str) (record : MappingRecord) : StoreM Bool :=
  ExceptT.mk (@Prog.invoke StoreOp StoreOp.Res (StoreOp.putIfAbsent key record))

def put (key : Str) (record : MappingRecord) : StoreM Unit :=
  ExceptT.mk (@Prog.invoke StoreOp StoreOp.Res (StoreOp.put key record))

end StoreM

/-- The contents of a store that behaves as a map. -/
abbrev MapStore := Str → Option MappingRecord

def mapStep : (op : StoreOp) → MapStore → StoreOp.Res op × MapStore
  | .get key, s => (.ok (s key), s)
  | .putIfAbsent key record, s =>
    if (s key).isSome then (.ok false, s) else (.ok true, Function.update s key (some record))
  | .put key record, s => (.ok (), Function.update s key (some record))

/-- A map never fails. -/
theorem mapStep_ok (op : StoreOp) (s : MapStore) : ∃ value, (mapStep op s).1 = .ok value := by
  cases op with
  | get key => exact ⟨s key, rfl⟩
  | putIfAbsent key record =>
    rw [mapStep]
    split_ifs
    · exact ⟨false, rfl⟩
    · exact ⟨true, rfl⟩
  | put key record => exact ⟨(), rfl⟩

section Map

variable (s : MapStore) (key : Str) (record : MappingRecord)

@[simp] theorem exec_get : Prog.exec mapStep (StoreM.get key) s = (.ok (s key), s) := rfl

theorem exec_putIfAbsent_none (h : s key = none) :
    Prog.exec mapStep (StoreM.putIfAbsent key record) s = (.ok true, Function.update s key (some record)) := by
  show mapStep (.putIfAbsent key record) s = _
  rw [mapStep, h]
  rfl

/-! One operation of a program that goes on with `f`. -/

theorem step_get_bind {α : Type} (f : Option MappingRecord → StoreM α) :
    Prog.step mapStep (StoreM.get key >>= f).run s = ((f (s key)).run, s) := rfl

theorem step_putIfAbsent_bind_none {α : Type} (f : Bool → StoreM α) (h : s key = none) :
    Prog.step mapStep (StoreM.putIfAbsent key record >>= f).run s =
      ((f true).run, Function.update s key (some record)) := by
  show (ExceptT.bindCont f (mapStep (.putIfAbsent key record) s).1, (mapStep (.putIfAbsent key record) s).2) = _
  rw [mapStep, h]
  rfl

theorem step_putIfAbsent_bind_some {α : Type} (f : Bool → StoreM α) {stored : MappingRecord}
    (h : s key = some stored) :
    Prog.step mapStep (StoreM.putIfAbsent key record >>= f).run s = ((f false).run, s) := by
  show (ExceptT.bindCont f (mapStep (.putIfAbsent key record) s).1, (mapStep (.putIfAbsent key record) s).2) = _
  rw [mapStep, h]
  rfl

end Map

end PdMasking
