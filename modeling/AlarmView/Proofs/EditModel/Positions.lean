import AlarmView.Proofs.EditModel.Serving

/-!
# Positions

A position says for each level of a tree which child to take.  Unlike a path it tells properties of
the same name apart, so it also leads to those that no lookup finds.  Storing a value changes the
value at one position only.
-/

namespace AlarmView

namespace Property

variable {property child : Property} {attr name : String} {index : Nat}
  {change : Property → Property}

/-- The property at a position. -/
def at? (property : Property) : List Nat → Option Property
  | [] => some property
  | index :: rest => property.children[index]?.bind (·.at? rest)

def valueAt? (property : Property) (position : List Nat) : Option PropertyValue :=
  (property.at? position).bind (·.value)

/-- Where a lookup by name ends among siblings. -/
def indexOf? (name : String) (properties : List Property) : Option Nat :=
  properties.findIdx? (·.name == name)

/-- The position of the leaf that is looked up below an attribute. -/
def positionOf? (property : Property) (attr name : String) : Option (List Nat) := do
  let parent ← property.child? attr
  let index ← indexOf? attr property.children
  let below ← indexOf? name parent.children
  return [index, below]

private theorem valueAt?_cons (property : Property) (index : Nat) (rest : List Nat) :
    property.valueAt? (index :: rest) = property.children[index]?.bind (·.valueAt? rest) := by
  rw [valueAt?, at?, Option.bind_assoc]
  rfl

theorem indexOf?_cons (name : String) (head : Property) (rest : List Property) :
    indexOf? name (head :: rest) =
      if head.name = name then some 0 else (indexOf? name rest).map (· + 1) := by
  simp [indexOf?, List.findIdx?_cons]

theorem findNamed_eq_getElem? (name : String) (properties : List Property) :
    findNamed name properties = (indexOf? name properties).bind (properties[·]?) := by
  induction properties with
  | nil => rfl
  | cons head rest ih =>
      rw [findNamed_cons, indexOf?_cons]
      split
      · rfl
      · rw [ih, Option.bind_map]
        rfl

/-- A child that a lookup finds is at the index of its name. -/
theorem exists_indexOf? (found : property.child? name = some child) :
    ∃ index, indexOf? name property.children = some index ∧
      property.children[index]? = some child := by
  rw [child?, findNamed_eq_getElem?] at found
  exact Option.bind_eq_some_iff.mp found

private theorem leafAt?_eq_at? (property : Property) (attr name : String) :
    property.leafAt? attr name = (property.positionOf? attr name).bind property.at? := by
  cases found : property.child? attr with
  | none => simp [leafAt?, positionOf?, found]
  | some parent =>
      obtain ⟨index, here, listed⟩ := exists_indexOf? found
      simp [leafAt?, positionOf?, here, child?, findNamed_eq_getElem?, Option.bind_assoc, at?, listed]

private theorem positionOf?_skeleton (property : Property) (attr name : String) :
    property.skeleton.positionOf? attr name = property.positionOf? attr name := by
  have sameIndex (name : String) (properties : List Property) :
      indexOf? name (skeletonList properties) = indexOf? name properties := by
    rw [skeletonList_eq_map, indexOf?, indexOf?, List.findIdx?_map]
    simp only [Function.comp_def, skeleton_name]
  rw [positionOf?, positionOf?, skeleton_eq, child?, findNamed_skeletonList, ← child?]
  cases property.child? attr with
  | none => rfl
  | some parent => simp [sameIndex, skeleton_eq parent]

theorem positionOf?_congr {other : Property} (same : property.skeleton = other.skeleton)
    (attr name : String) : property.positionOf? attr name = other.positionOf? attr name := by
  rw [← positionOf?_skeleton, same, positionOf?_skeleton]

private theorem getElem?_updateNamed (properties : List Property) (index : Nat) :
    (updateNamed name change properties)[index]? =
      if indexOf? name properties = some index then properties[index]?.map change
      else properties[index]? := by
  induction properties generalizing index with
  | nil => simp [updateNamed]
  | cons head rest ih =>
      rw [updateNamed, indexOf?_cons]
      cases index with
      | zero => by_cases here : head.name = name <;> simp [here]
      | succ index => by_cases here : head.name = name <;> simp [here, ih]

/-- Whether two trees differ at most in a value at a position, which the second one has there. -/
def SetsAt (position : List Nat) (value : PropertyValue) (before after : Property) : Prop :=
  ∀ other, after.valueAt? other = if other = position then some value else before.valueAt? other

private theorem setsAt_root (property : Property) (value : PropertyValue) :
    SetsAt [] value property { property with value := some value } := by
  intro other
  cases other with
  | nil => rfl
  | cons index rest => rfl

/-- A change of a child is seen below the index of the child. -/
theorem SetsAt.updateChild {position : List Nat} {value : PropertyValue}
    (sets : SetsAt position value child (change child)) (found : property.child? name = some child)
    (here : indexOf? name property.children = some index) :
    SetsAt (index :: position) value property (property.updateChild name change) := by
  have listed : property.children[index]? = some child := by
    rwa [child?, findNamed_eq_getElem?, here] at found
  intro other
  cases other with
  | nil => rfl
  | cons first rest =>
      rw [valueAt?_cons, valueAt?_cons, Property.updateChild, getElem?_updateNamed, here]
      by_cases below : index = first
      · subst below
        simp [listed, sets rest]
      · simp [below, Ne.symm below]

end Property

namespace Instance

open Property

variable {model changed : Instance} {attr name : String} {value : PropertyValue}

theorem stored?_eq_valueAt? (model : Instance) (attr name : String) :
    model.stored? attr name = (model.root.positionOf? attr name).bind model.root.valueAt? := by
  rw [stored?, leafAt?_eq_at?, Option.bind_assoc]
  rfl

/-- A value is stored at the position of its leaf and nowhere else. -/
theorem setsAt_setValue (stored : model.setValue attr name value = .ok changed) :
    ∃ position, model.root.positionOf? attr name = some position ∧
      SetsAt position value model.root changed.root := by
  obtain ⟨parent, leaf, parentFound, leafFound, _, rfl⟩ := setValue_eq_ok.mp stored
  obtain ⟨index, here, _⟩ := exists_indexOf? parentFound
  obtain ⟨below, leafHere, _⟩ := exists_indexOf? leafFound
  refine ⟨[index, below], by simp [positionOf?, parentFound, here, leafHere], ?_⟩
  exact ((setsAt_root leaf value).updateChild leafFound leafHere).updateChild parentFound here

end Instance

end AlarmView
