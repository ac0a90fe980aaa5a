import AlarmView.FilterSet
import Mathlib.Data.List.Induction

/-!
# The order of attributes

The attributes of some filters are listed without repetition, in the order in which each one is met
first.
-/

namespace AlarmView.FilterSet

def firstOf (filters : List Filter) (attr : Attribute) : Nat :=
  filters.findIdx (·.attr == attr)

theorem attributesOf_append (filters : List Filter) (last : Filter) :
    attributesOf (filters ++ [last]) =
      if last.attr ∈ attributesOf filters then attributesOf filters
      else attributesOf filters ++ [last.attr] := by
  rw [attributesOf, List.foldl_append]
  rfl

@[simp]
theorem mem_attributesOf {filters : List Filter} {attr : Attribute} :
    attr ∈ attributesOf filters ↔ ∃ filter ∈ filters, filter.attr = attr := by
  induction filters using List.reverseRecOn with
  | nil => simp [attributesOf]
  | append_singleton filters last ih =>
      rw [attributesOf_append]
      split <;> grind

theorem nodup_attributesOf (filters : List Filter) : (attributesOf filters).Nodup := by
  induction filters using List.reverseRecOn with
  | nil => simp [attributesOf]
  | append_singleton filters last ih =>
      rw [attributesOf_append]
      split
      · exact ih
      · next fresh => exact List.nodup_append.mpr ⟨ih, by simp, by grind⟩

@[simp]
theorem attributesOf_eq_nil {filters : List Filter} : attributesOf filters = [] ↔ filters = [] := by
  constructor
  · intro none
    cases filters with
    | nil => rfl
    | cons filter rest =>
        have listed : filter.attr ∈ attributesOf (filter :: rest) :=
          mem_attributesOf.mpr ⟨filter, List.mem_cons_self, rfl⟩
        simp [none] at listed
  · intro same
    subst same
    rfl

theorem firstOf_lt {filters : List Filter} {attr : Attribute}
    (listed : attr ∈ attributesOf filters) : firstOf filters attr < filters.length := by
  obtain ⟨filter, member, rfl⟩ := mem_attributesOf.mp listed
  exact List.findIdx_lt_length_of_exists ⟨filter, member, by simp⟩

private theorem firstOf_append {filters : List Filter} {attr : Attribute}
    (listed : attr ∈ attributesOf filters) (behind : List Filter) :
    firstOf (filters ++ behind) attr = firstOf filters attr := by
  have before := firstOf_lt listed
  unfold firstOf at before ⊢
  rw [List.findIdx_append, if_pos before]

theorem pairwise_attributesOf (filters : List Filter) :
    (attributesOf filters).Pairwise fun first second =>
      firstOf filters first < firstOf filters second := by
  induction filters using List.reverseRecOn with
  | nil => simp [attributesOf]
  | append_singleton filters last ih =>
      have kept : (attributesOf filters).Pairwise fun first second =>
          firstOf (filters ++ [last]) first < firstOf (filters ++ [last]) second := by
        apply ih.imp_of_mem
        intro first second firstListed secondListed before
        rwa [firstOf_append firstListed, firstOf_append secondListed]
      rw [attributesOf_append]
      split
      · exact kept
      · next fresh =>
          refine List.pairwise_append.mpr ⟨kept, by simp, ?_⟩
          intro attr listed other isLast
          obtain rfl : other = last.attr := by simpa using isLast
          have absent : firstOf filters last.attr = filters.length := by
            apply List.findIdx_eq_length.mpr
            intro filter member
            have different : filter.attr ≠ last.attr := fun same =>
              fresh (mem_attributesOf.mpr ⟨filter, member, same⟩)
            simpa using different
          have before := firstOf_lt listed
          rw [firstOf_append listed]
          unfold firstOf at absent ⊢
          rw [List.findIdx_append, if_neg (by omega)]
          unfold firstOf at before
          omega

end AlarmView.FilterSet
