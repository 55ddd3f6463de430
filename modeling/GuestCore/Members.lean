import GuestCore.Fault

/-!
# Insertion-Ordered Members

A member table maps names to contents and remembers the order in which names arrived.  Writing to
a name that is present keeps its place; a name that was removed and comes back goes to the end.
The lemmas say what each operation does to the two views of a table: the content of a name, and
the list of names.
-/

namespace GuestCore

/-- Entries with distinct names, oldest first. -/
structure Members (α : Type) where
  entries : List (String × α) := []
  distinct : (entries.map Prod.fst).Nodup := by exact List.nodup_nil

namespace Members

variable {α : Type}

def empty : Members α := {}

instance : Inhabited (Members α) := ⟨empty⟩

/-- Member names, oldest first. -/
def keys (members : Members α) : List String :=
  members.entries.map Prod.fst

/-- Member contents in the order of `keys`. -/
def values (members : Members α) : List α :=
  members.entries.map Prod.snd

def size (members : Members α) : Nat :=
  members.entries.length

def isEmpty (members : Members α) : Bool :=
  members.entries.isEmpty

def get? (members : Members α) (key : String) : Option α :=
  members.entries.lookup key

def contains (members : Members α) (key : String) : Bool :=
  (members.get? key).isSome

/-- A member can be inserted exactly if it is not there yet. -/
def isInsertable (members : Members α) (key : String) : Bool :=
  !members.contains key

/-! ## Writing -/

/-- The entries with one content replaced, or with a new entry at the end. -/
def insertEntry (key : String) (value : α) : List (String × α) → List (String × α)
  | [] => [(key, value)]
  | entry :: rest =>
    if entry.1 = key then (key, value) :: rest else entry :: insertEntry key value rest

theorem map_fst_insertEntry (key : String) (value : α) (entries : List (String × α)) :
    (insertEntry key value entries).map Prod.fst =
      if key ∈ entries.map Prod.fst then entries.map Prod.fst
      else entries.map Prod.fst ++ [key] := by
  induction entries with
  | nil => simp [insertEntry]
  | cons entry rest ih =>
    by_cases h : entry.1 = key
    · simp [insertEntry, h]
    · have h' : ¬ key = entry.1 := fun heq ↦ h heq.symm
      simp only [insertEntry, h, if_false, List.map_cons, ih, List.mem_cons, h', false_or]
      split <;> simp

theorem distinct_insertEntry (key : String) (value : α) {entries : List (String × α)}
    (hdistinct : (entries.map Prod.fst).Nodup) :
    ((insertEntry key value entries).map Prod.fst).Nodup := by
  rw [map_fst_insertEntry]
  split
  · exact hdistinct
  · next hkey =>
    rw [List.nodup_append]
    refine ⟨hdistinct, by simp, fun name hname other hother ↦ ?_⟩
    rw [List.mem_singleton.mp hother]
    exact fun heq ↦ hkey (heq ▸ hname)

def insert (members : Members α) (key : String) (value : α) : Members α where
  entries := insertEntry key value members.entries
  distinct := distinct_insertEntry key value members.distinct

/-- The table without a name; the others keep their order. -/
def erase (members : Members α) (key : String) : Members α where
  entries := members.entries.filter fun entry ↦ entry.1 ≠ key
  distinct := List.Nodup.sublist (List.filter_sublist.map Prod.fst) members.distinct

/-! ## Requests -/

/-- The content of a member, or the fault that names it. -/
def read (members : Members α) (key : String) : Except Fault α :=
  match members.get? key with
  | some value => .ok value
  | none => .error (.unknownMember key)

/-- The content of a removed member with the table that is left, or the fault that names it. -/
def remove (members : Members α) (key : String) : Except Fault (α × Members α) :=
  match members.get? key with
  | some value => .ok (value, members.erase key)
  | none => .error (.unknownMember key)

/-- The content of a member, which is first inserted if it is not there.  The flag tells whether
it was inserted. -/
def getOrInsert (members : Members α) (key : String) (initial : α) : α × Bool × Members α :=
  match members.get? key with
  | some value => (value, false, members)
  | none => (initial, true, members.insert key initial)

/-- Diagnostic text: contents may refer back to the table, so only names are shown. -/
def debug (members : Members α) : String :=
  Text.record "Object" [("members", Text.bracketed (members.keys.map Text.quoted))]

/-! ## Names -/

@[simp]
theorem keys_empty : (empty : Members α).keys = [] := rfl

theorem nodup_keys (members : Members α) : members.keys.Nodup :=
  members.distinct

/-- A new name goes to the end, and a known name stays where it is. -/
theorem keys_insert (members : Members α) (key : String) (value : α) :
    (members.insert key value).keys =
      if key ∈ members.keys then members.keys else members.keys ++ [key] :=
  map_fst_insertEntry key value members.entries

theorem keys_erase (members : Members α) (key : String) :
    (members.erase key).keys = members.keys.filter fun name ↦ name ≠ key := by
  simp only [keys, erase, List.filter_map]
  rfl

theorem contains_iff_mem_keys (members : Members α) (key : String) :
    members.contains key = true ↔ key ∈ members.keys := by
  unfold contains get? keys
  induction members.entries with
  | nil => simp
  | cons entry rest ih =>
    rw [List.lookup_cons]
    by_cases h : key = entry.1
    · simp [h]
    · simp [h, beq_false_of_ne h, ih]

/-! ## Contents -/

@[simp]
theorem get?_empty (key : String) : (empty : Members α).get? key = none := rfl

theorem lookup_insertEntry (key other : String) (value : α) (entries : List (String × α)) :
    (insertEntry key value entries).lookup other =
      if other = key then some value else entries.lookup other := by
  induction entries with
  | nil =>
    rw [insertEntry, List.lookup_cons]
    by_cases h : other = key
    · simp [h]
    · simp [h, beq_false_of_ne h]
  | cons entry rest ih =>
    by_cases hentry : entry.1 = key
    · rw [insertEntry, if_pos hentry, List.lookup_cons, List.lookup_cons, hentry]
      by_cases h : other = key
      · simp [h]
      · simp [h, beq_false_of_ne h]
    · rw [insertEntry, if_neg hentry, List.lookup_cons, List.lookup_cons, ih]
      by_cases h : other = entry.1
      · simp [h, hentry]
      · simp [beq_false_of_ne h]

/-- Writing changes the content of one name. -/
theorem get?_insert (members : Members α) (key other : String) (value : α) :
    (members.insert key value).get? other =
      if other = key then some value else members.get? other :=
  lookup_insertEntry key other value members.entries

theorem lookup_filter_ne (key other : String) (entries : List (String × α)) :
    (entries.filter fun entry ↦ entry.1 ≠ key).lookup other =
      if other = key then none else entries.lookup other := by
  induction entries with
  | nil => simp
  | cons entry rest ih =>
    rw [List.filter_cons, List.lookup_cons]
    by_cases hentry : entry.1 = key
    · rw [if_neg (by simpa using hentry), ih, hentry]
      by_cases h : other = key
      · simp [h]
      · simp [h, beq_false_of_ne h]
    · rw [if_pos (by simpa using hentry), List.lookup_cons, ih]
      by_cases h : other = entry.1
      · simp [h, hentry]
      · simp [beq_false_of_ne h]

/-- Removing changes the content of one name. -/
theorem get?_erase (members : Members α) (key other : String) :
    (members.erase key).get? other = if other = key then none else members.get? other :=
  lookup_filter_ne key other members.entries

end Members

end GuestCore
