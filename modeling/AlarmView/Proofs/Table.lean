import AlarmView.Table

/-!
# Looking up entries of a table

What is found under a key after entries were inserted and removed.
-/

namespace AlarmView.Table

variable {α : Type}

@[simp]
theorem get?_empty (key : String) : (empty : Table α).get? key = none := rfl

private theorem find?_insertEntry (key other : String) (value : α) {entries : List (String × α)}
    (sorted : entries.Pairwise fun first second => first.1 < second.1) :
    (insertEntry key value entries).find? (·.1 == other) =
      if other = key then some (key, value) else entries.find? (·.1 == other) := by
  induction entries with
  | nil =>
      by_cases here : other = key
      · simp [insertEntry, here]
      · simp [insertEntry, here, Ne.symm here]
  | cons head rest ih =>
      obtain ⟨first, kept⟩ := head
      obtain ⟨below, sortedRest⟩ := List.pairwise_cons.mp sorted
      have restFound := ih sortedRest
      unfold insertEntry
      by_cases here : other = key
      · subst here
        split
        · simp
        · split
          · simp
          · next different =>
              simpa [Ne.symm different] using restFound
      · split
        · simp [Ne.symm here]
        · split
          · next same => simp [← same, Ne.symm here]
          · simp only [List.find?_cons, restFound, if_neg here]

theorem get?_insert (table : Table α) (key other : String) (value : α) :
    (table.insert key value).get? other = if other = key then some value else table.get? other := by
  simp only [get?, insert, find?_insertEntry key other value table.sorted]
  split <;> rfl

theorem get?_insert_unless_contains (table : Table α) (key other : String) (value : α) :
    (if table.contains key then table else table.insert key value).get? other =
      if other = key then some ((table.get? key).getD value) else table.get? other := by
  rw [contains]
  cases known : table.get? key with
  | none => simp [get?_insert]
  | some kept =>
      rw [Option.isSome_some, if_pos rfl]
      split
      · next here => rw [here, known, Option.getD_some]
      · rfl

theorem get?_insert_if_contains (table : Table α) (key other : String) (value : α) :
    (if table.contains key then table.insert key value else table).get? other =
      (table.get? other).map fun kept => if other = key then value else kept := by
  rw [contains]
  cases known : table.get? key with
  | none =>
      by_cases here : other = key
      · simp [here, known]
      · simp [here]
  | some kept =>
      rw [Option.isSome_some, if_pos rfl, get?_insert]
      by_cases here : other = key
      · simp [here, known]
      · simp [here]

/-- What holds of the values of a table and of a new one holds after its insertion. -/
theorem of_get?_insert {table : Table α} {holds : α → Prop} {key other : String} {value found : α}
    (old : ∀ other found, table.get? other = some found → holds found) (new : holds value)
    (lookup : (table.insert key value).get? other = some found) : holds found := by
  rw [get?_insert] at lookup
  split at lookup
  · obtain rfl := Option.some.inj lookup
    exact new
  · exact old other found lookup

theorem get?_erase (table : Table α) (key other : String) :
    (table.erase key).get? other = if other = key then none else table.get? other := by
  simp only [get?, erase, List.find?_filter]
  split
  · next same =>
      subst same
      rw [List.find?_eq_none.mpr (by simp)]
      rfl
  · next different =>
      congr 2
      funext entry
      by_cases found : entry.1 = other
      · simp [found, different]
      · simp [found]

theorem get?_insertAll (table : Table α) (entries : List (String × α)) (key : String) :
    (table.insertAll entries).get? key = (entries.reverse.lookup key).or (table.get? key) := by
  induction entries generalizing table with
  | nil => rfl
  | cons head rest ih =>
      have step : table.insertAll (head :: rest) =
          (table.insert head.1 head.2).insertAll rest := rfl
      rw [step, ih, get?_insert, List.reverse_cons, List.lookup_append]
      obtain ⟨first, value⟩ := head
      rw [List.lookup_cons, List.lookup_nil, Option.or_assoc]
      by_cases same : key = first
      · simp [same]
      · have other : (key == first) = false := beq_eq_false_iff_ne.mpr same
        simp only [same, other, if_false, Option.none_or]

theorem mem_insertAll {table : Table α} {entries : List (String × α)} {entry : String × α}
    (member : entry ∈ (table.insertAll entries).entries) :
    entry ∈ table.entries ∨ entry ∈ entries := by
  induction entries generalizing table with
  | nil => exact .inl member
  | cons head rest ih =>
      have step : entry ∈ ((table.insert head.1 head.2).insertAll rest).entries := member
      rcases ih step with inserted | later
      · rcases mem_insertEntry inserted with rfl | old
        · exact .inr List.mem_cons_self
        · exact .inl old
      · exact .inr (.tail _ later)

theorem mem_of_get? {table : Table α} {key : String} {value : α}
    (found : table.get? key = some value) : (key, value) ∈ table.entries := by
  obtain ⟨⟨other, kept⟩, known, rfl⟩ := Option.map_eq_some_iff.mp found
  obtain rfl : other = key := by simpa using List.find?_some known
  exact List.mem_of_find?_eq_some known

def eraseAll (table : Table α) (keys : List String) : Table α :=
  keys.foldl erase table

theorem eraseAll_append (table : Table α) (first second : List String) :
    table.eraseAll (first ++ second) = (table.eraseAll first).eraseAll second :=
  List.foldl_append

theorem get?_eraseAll (table : Table α) (keys : List String) (key : String) :
    (table.eraseAll keys).get? key = if key ∈ keys then none else table.get? key := by
  induction keys generalizing table with
  | nil => simp [eraseAll]
  | cons head rest ih =>
      have step : table.eraseAll (head :: rest) = (table.erase head).eraseAll rest := rfl
      rw [step, ih, get?_erase]
      by_cases later : key ∈ rest
      · simp [later]
      · by_cases here : key = head <;> simp [later, here]

end AlarmView.Table
