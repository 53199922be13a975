import Interlock.Assoc

/-!
# Tables

A finite map from numbers to values in which every absent key holds the default value.

  * `Table.get` reads a key, `Table.set` writes one;
  * `get_set` says that a write changes the key it names and no other, so a table is reasoned
    about as a total function from numbers.
-/

namespace Interlock

/-- A finite map from numbers to `α`; keys it does not list hold the default value. -/
structure Table (α : Type) where
  listed : Assoc Nat α

namespace Table

variable {α : Type}

/-- The table that holds the default value everywhere. -/
def empty : Table α := ⟨.empty⟩

instance : Inhabited (Table α) := ⟨empty⟩

def get [Inhabited α] (table : Table α) (i : Nat) : α :=
  (table.listed.get? i).getD default

def set (table : Table α) (i : Nat) (a : α) : Table α :=
  ⟨table.listed.set i a⟩

variable [Inhabited α]

@[simp] theorem get_empty (i : Nat) : (empty : Table α).get i = default := rfl

/-- A write changes the key it names and no other. -/
theorem get_set (table : Table α) (i j : Nat) (a : α) :
    (table.set i a).get j = if j = i then a else table.get j := by
  simp only [get, set, Assoc.get?_set]
  split <;> rfl

@[simp] theorem get_set_self (table : Table α) (i : Nat) (a : α) :
    (table.set i a).get i = a := by
  simp [get_set]

theorem get_set_of_ne (table : Table α) {i j : Nat} (a : α) (h : j ≠ i) :
    (table.set i a).get j = table.get j := by
  simp [get_set, h]

end Table

end Interlock
