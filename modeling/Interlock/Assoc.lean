/-!
# Association lists

A finite map with keys in the order of their first insertion.

  * `Assoc.get?`, `Assoc.set`, `Assoc.erase`;
  * `get?_set` and `get?_erase` say what a write and a removal change, with no side condition, so
    a map is reasoned about as a function of its keys.
-/

namespace Interlock

/-- A finite map from `κ` to `α`. -/
structure Assoc (κ α : Type) where
  entries : List (κ × α)

namespace Assoc

variable {κ α : Type} [DecidableEq κ]

def empty : Assoc κ α := ⟨[]⟩

instance : Inhabited (Assoc κ α) := ⟨empty⟩

/-- The value listed first under a key. -/
def find (k : κ) : List (κ × α) → Option α
  | [] => none
  | (j, b) :: rest => if j = k then some b else find k rest

/-- Replaces the first entry of a key, or adds one at the end. -/
def put (k : κ) (a : α) : List (κ × α) → List (κ × α)
  | [] => [(k, a)]
  | (j, b) :: rest => if j = k then (k, a) :: rest else (j, b) :: put k a rest

def get? (m : Assoc κ α) (k : κ) : Option α := find k m.entries

/-- The map with `a` under the key `k`. -/
def set (m : Assoc κ α) (k : κ) (a : α) : Assoc κ α := ⟨put k a m.entries⟩

/-- The map without the key `k`. -/
def erase (m : Assoc κ α) (k : κ) : Assoc κ α := ⟨m.entries.filter fun entry => entry.1 ≠ k⟩

/-- The values, in the order of insertion. -/
def values (m : Assoc κ α) : List α := m.entries.map (·.2)

theorem find_put (k j : κ) (a : α) (entries : List (κ × α)) :
    find j (put k a entries) = if j = k then some a else find j entries := by
  induction entries with
  | nil => simp [put, find, eq_comm (a := k)]
  | cons entry rest ih =>
    obtain ⟨i, b⟩ := entry
    by_cases hk : i = k
    · subst hk
      by_cases hj : j = i <;> simp [put, find, hj, eq_comm]
    · by_cases hj : i = j
      · subst hj
        simp [put, find, hk]
      · simp [put, find, hk, hj, ih]

@[simp] theorem get?_empty (k : κ) : (empty : Assoc κ α).get? k = none := rfl

/-- A write changes the key it names and no other. -/
theorem get?_set (m : Assoc κ α) (k j : κ) (a : α) :
    (m.set k a).get? j = if j = k then some a else m.get? j := by
  simp [get?, set, find_put]

theorem find_filter_ne (k j : κ) (entries : List (κ × α)) :
    find j (entries.filter fun entry => entry.1 ≠ k) = if j = k then none else find j entries := by
  induction entries with
  | nil => simp [find]
  | cons entry rest ih =>
    obtain ⟨i, b⟩ := entry
    by_cases hk : i = k
    · subst hk
      by_cases hj : j = i
      · simp_all
      · simp_all [find, eq_comm (a := i)]
    · by_cases hj : i = j
      · subst hj
        simp [find, hk]
      · simp_all [find]

/-- A removal changes the key it names and no other. -/
theorem get?_erase (m : Assoc κ α) (k j : κ) :
    (m.erase k).get? j = if j = k then none else m.get? j :=
  find_filter_ne k j m.entries

end Assoc

end Interlock
