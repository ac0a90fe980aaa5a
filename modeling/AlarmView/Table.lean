/-!
# Tables keyed by text

A table is a list of entries in strictly ascending order of their keys, so two tables with the same
entries are equal and listing a table shows its keys in order.
-/

namespace AlarmView

/-- Entries with distinct keys in ascending order. -/
structure Table (α : Type) where
  entries : List (String × α)
  sorted : entries.Pairwise (fun first second => first.1 < second.1)

namespace Table

variable {α : Type}

instance [DecidableEq α] : DecidableEq (Table α) := fun a b =>
  decidable_of_iff (a.entries = b.entries) <| by cases a; cases b; simp

def empty : Table α := ⟨[], .nil⟩

instance : Inhabited (Table α) := ⟨empty⟩

def get? (table : Table α) (key : String) : Option α :=
  (table.entries.find? (·.1 == key)).map (·.2)

def contains (table : Table α) (key : String) : Bool :=
  (table.get? key).isSome

def isEmpty (table : Table α) : Bool :=
  table.entries.isEmpty

/-- Puts an entry at its place in an ascending list, instead of one with the same key. -/
def insertEntry (key : String) (value : α) : List (String × α) → List (String × α)
  | [] => [(key, value)]
  | (other, kept) :: rest =>
      if key < other then (key, value) :: (other, kept) :: rest
      else if key = other then (key, value) :: rest
      else (other, kept) :: insertEntry key value rest

theorem mem_insertEntry {key : String} {value : α} {entry : String × α}
    {entries : List (String × α)} (member : entry ∈ insertEntry key value entries) :
    entry = (key, value) ∨ entry ∈ entries := by
  induction entries with
  | nil => simpa [insertEntry] using member
  | cons head rest induction =>
      obtain ⟨other, kept⟩ := head
      simp only [insertEntry] at member
      split at member
      · simpa using member
      · split at member
        · rcases List.mem_cons.mp member with found | found
          · exact .inl found
          · exact .inr (List.mem_cons_of_mem _ found)
        · rcases List.mem_cons.mp member with found | found
          · exact .inr (List.mem_cons.mpr (.inl found))
          · exact (induction found).imp id (List.mem_cons_of_mem _)

theorem sorted_insertEntry (key : String) (value : α) {entries : List (String × α)}
    (sorted : entries.Pairwise (fun first second => first.1 < second.1)) :
    (insertEntry key value entries).Pairwise (fun first second => first.1 < second.1) := by
  induction entries with
  | nil => simp [insertEntry]
  | cons head rest induction =>
      obtain ⟨other, kept⟩ := head
      obtain ⟨below, sortedRest⟩ := List.pairwise_cons.mp sorted
      simp only [insertEntry]
      split
      next before =>
        refine List.pairwise_cons.mpr ⟨fun entry member => ?_, sorted⟩
        rcases List.mem_cons.mp member with rfl | found
        · exact before
        · exact String.lt_trans before (below entry found)
      next notBefore =>
        split
        next same =>
          subst same
          exact List.pairwise_cons.mpr ⟨below, sortedRest⟩
        next different =>
          refine List.pairwise_cons.mpr ⟨fun entry member => ?_, induction sortedRest⟩
          rcases mem_insertEntry member with rfl | found
          · exact Std.not_le.mp fun le =>
              different (String.le_antisymm le (Std.not_lt.mp notBefore))
          · exact below entry found

/-- The table with the value under the key, whatever was there before. -/
def insert (table : Table α) (key : String) (value : α) : Table α :=
  ⟨insertEntry key value table.entries, sorted_insertEntry key value table.sorted⟩

def erase (table : Table α) (key : String) : Table α :=
  ⟨table.entries.filter (·.1 != key), table.sorted.filter _⟩

/-- The table that results from inserting entries one after the other; a later entry replaces an
earlier one with the same key. -/
def insertAll (table : Table α) (entries : List (String × α)) : Table α :=
  entries.foldl (fun table entry => table.insert entry.1 entry.2) table

/-- The table of some entries; a later entry replaces an earlier one with the same key. -/
def ofList (entries : List (String × α)) : Table α :=
  empty.insertAll entries

end Table

end AlarmView
