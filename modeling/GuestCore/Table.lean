/-!
# Tables

A table holds cells under the numbers zero, one, two and so on.  A new cell takes the next number,
and no cell is ever removed.  A number without a cell reads as the default.
-/

namespace GuestCore

structure Table (α : Type) where
  cells : Array α := #[]
deriving Inhabited

namespace Table

variable {α : Type}

def size (table : Table α) : Nat :=
  table.cells.size

def get [Inhabited α] (table : Table α) (index : Nat) : α :=
  table.cells.getD index default

def push (table : Table α) (cell : α) : Table α :=
  ⟨table.cells.push cell⟩

def modify (table : Table α) (index : Nat) (change : α → α) : Table α :=
  ⟨table.cells.modify index change⟩

@[simp]
theorem size_push (table : Table α) (cell : α) : (table.push cell).size = table.size + 1 := by
  simp [push, size]

@[simp]
theorem size_modify (table : Table α) (index : Nat) (change : α → α) :
    (table.modify index change).size = table.size := by
  simp [modify, size]

/-- The new cell has the next number, and all others are as before. -/
theorem get_push [Inhabited α] (table : Table α) (cell : α) (index : Nat) :
    (table.push cell).get index = if index = table.size then cell else table.get index := by
  simp only [push, get, size, Array.getD_eq_getD_getElem?, Array.getElem?_push]
  split <;> rfl

/-- A change reaches one cell, if there is one under its number. -/
theorem get_modify [Inhabited α] (table : Table α) (index other : Nat) (change : α → α) :
    (table.modify index change).get other =
      if index = other ∧ other < table.size then change (table.get other)
      else table.get other := by
  simp only [modify, get, size, Array.getD_eq_getD_getElem?, Array.getElem?_modify]
  by_cases hbound : other < table.cells.size
  · by_cases h : index = other
    · simp [h, hbound]
    · simp [h]
  · by_cases h : index = other
    · simp [h, hbound]
    · simp [h]

end Table

end GuestCore
