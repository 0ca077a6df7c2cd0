import MiniDB.Core.Text

/-!
# Storage/Row — values, rows and columns

A value is an int, a string or NONE, and `Value.compare` orders all three.  On texts without NUL the
comparison is an order on values: `Value.compare_eq_zero_iff` says that it separates them.
-/

namespace MiniDB.Storage

open MiniDB.Core

inductive Value where
  | int (n : Int)
  | string (s : Text)
  | none
  deriving DecidableEq, Repr

namespace Value

def isInt : Value → Bool
  | int _ => true
  | _ => false

/-- NONE sorts before everything, an int before a string; `strcmp` reads the raw pointers. -/
def compare : Value → Value → Int
  | none, none => 0
  | none, _ => -1
  | _, none => 1
  | int a, int b => if a < b then -1 else if a > b then 1 else 0
  | string s, string t => strcmp (cString s) (cString t)
  | int _, string _ => -1
  | string _, int _ => 1

/-- A value whose text holds no NUL, so that its pointer denotes the whole of it. -/
def Clean : Value → Prop
  | string s => '\x00' ∉ s
  | _ => True

theorem compare_self (v : Value) : compare v v = 0 := by
  cases v with
  | int n => simp [compare]
  | string s => exact strcmp_eq_zero_iff.mpr rfl
  | none => rfl

/-- **Clean values compare equal exactly when they are equal.** -/
theorem compare_eq_zero_iff {a b : Value} (ha : a.Clean) (hb : b.Clean) :
    compare a b = 0 ↔ a = b := by
  refine ⟨fun h => ?_, fun h => h ▸ compare_self a⟩
  cases a <;> cases b <;> simp only [compare] at h
  case int.int x y =>
    have hxy : x = y := by split_ifs at h <;> omega
    rw [hxy]
  case string.string s t =>
    rw [strcmp_eq_zero_iff, cString_of_notMem ha, cString_of_notMem hb] at h
    rw [h]
  all_goals first | rfl | simp at h

end Value

abbrev Row := List Value

inductive ColumnType where
  | int | string
  deriving DecidableEq, Repr

structure Column where
  name : Text := []
  type : ColumnType := .int
  isPrimary : Bool := false
  deriving DecidableEq, Repr

/-- Any type but `int`, in lower case, is a string. -/
def Column.typeFromString (s : Text) : ColumnType :=
  if strcmp (cString s) "int".toList = 0 then .int else .string

end MiniDB.Storage
