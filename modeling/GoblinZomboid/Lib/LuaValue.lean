import GoblinZomboid.Lib.Bytes
import Mathlib.Data.Rat.Init
/-!
# Lua values

The values a decoded message or a mod-data field can hold. A number is a
double: a finite one is its exact rational value. A table is the list of
its entries, in the order `pairs` visits them.
-/

/-- A Lua number. -/
inductive LuaNum
  | finite (q : ℚ)
  | huge (negative : Bool)
  | nan
  deriving DecidableEq

/-- What keys a table here. -/
inductive LuaKey
  | str (s : Bytes)
  | num (n : LuaNum)
  | bool (b : Bool)
  deriving DecidableEq

/-- A Lua value. -/
inductive LuaValue
  | nil
  | bool (b : Bool)
  | num (n : LuaNum)
  | str (s : Bytes)
  | table (entries : List (LuaKey × LuaValue))

namespace LuaValue

/-- `t[k]` with a string key: `nil` for a value that is no table. -/
def get (v : LuaValue) (k : Bytes) : LuaValue :=
  match v with
  | table entries => ((entries.find? fun e => e.1 = .str k).map Prod.snd).getD nil
  | _ => nil

/-- `t.name`. -/
def field (v : LuaValue) (name : String) : LuaValue := v.get (Bytes.lit name)

/-- The string a value is, if it is one. -/
def str? : LuaValue → Option Bytes
  | str s => some s
  | _ => none

def isNil : LuaValue → Bool
  | nil => true
  | _ => false

/-- `v == true`. -/
def isTrue : LuaValue → Bool
  | bool true => true
  | _ => false

/-- Lua truth: everything but `nil` and `false`. -/
def truthy : LuaValue → Bool
  | nil => false
  | bool false => false
  | _ => true

@[simp] theorem str?_eq_some {v : LuaValue} {s : Bytes} : v.str? = some s ↔ v = str s := by
  cases v <;> simp [str?]

@[simp] theorem isNil_iff {v : LuaValue} : v.isNil = true ↔ v = nil := by
  cases v <;> simp [isNil]

@[simp] theorem isTrue_iff {v : LuaValue} : v.isTrue = true ↔ v = bool true := by
  rcases v with - | (- | -) | - | - | - <;> simp [isTrue]

/-- `t.name = x`; a `nil` removes the field. -/
def set (v : LuaValue) (name : String) (x : LuaValue) : LuaValue :=
  match v with
  | table entries =>
    table ((entries.filter fun e => e.1 ≠ .str (Bytes.lit name)) ++
      if x.isNil then [] else [(.str (Bytes.lit name), x)])
  | v => v

theorem field_set_of_ne {name name' : String} (h : Bytes.lit name ≠ Bytes.lit name') (v x : LuaValue) :
    (v.set name x).field name' = v.field name' := by
  cases v with
  | table entries =>
    have hrest : (if x.isNil then [] else [(LuaKey.str (Bytes.lit name), x)]).find?
        (fun e => e.1 = .str (Bytes.lit name')) = none := by
      split <;> simp [h]
    have hkept : (entries.filter fun e => e.1 ≠ .str (Bytes.lit name)).find?
        (fun e => e.1 = .str (Bytes.lit name')) =
          entries.find? fun e => e.1 = .str (Bytes.lit name') := by
      rw [List.find?_filter]
      congr 1
      funext e
      by_cases he : e.1 = .str (Bytes.lit name')
      · simp [he, h.symm]
      · simp [he]
    simp only [set, field, get, List.find?_append, hkept, hrest, Option.or_none]
  | _ => rfl

/-- `type(v) == "table" and v or {}`. -/
def orEmpty : LuaValue → LuaValue
  | table entries => table entries
  | _ => table []

/-- A message with one string-keyed entry per listed field. -/
def ofFields (fields : List (String × LuaValue)) : LuaValue :=
  table (fields.map fun e => (.str (Bytes.lit e.1), e.2))

end LuaValue
