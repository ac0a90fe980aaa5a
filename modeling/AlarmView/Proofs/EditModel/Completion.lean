import AlarmView.Proofs.EditModel.Pruning
import AlarmView.Proofs.Table

/-!
# Completing an instance

Completing passes the retained values on from node to node, and every node that comes into being
uses up those of its path.  If no two nodes of the schema have the same path, every node finds what
was retained at first, so that completing is the same as filling each gap on its own.
-/

namespace AlarmView.Instance

open Property

mutual

/-- A copy of a part of the schema at a path, with the values that `look` has for it. -/
def seed (look : String → Option PropertyValue) (path : String) : Property → Property
  | ⟨name, type, value, children⟩ =>
      ⟨name, type, ((look path).filter (·.type == type)).or value, seedList look path children⟩

/-- List counterpart of `seed`, for the children of the property at `path`. -/
def seedList (look : String → Option PropertyValue) (path : String) :
    List Property → List Property
  | [] => []
  | child :: rest =>
      seed look (BrowseName.join path child.name) child :: seedList look path rest

end

mutual

def fill (look : String → Option PropertyValue) (path : String) :
    (schema : Property) → Property → Property
  | ⟨_, _, _, wanted⟩, property =>
      { property with children := fillList look path wanted property.children }

/-- List counterpart of `fill`, for the children of the property at `path`. -/
def fillList (look : String → Option PropertyValue) (path : String) :
    (wanted : List Property) → List Property → List Property
  | [], children => children
  | property :: rest, children =>
      let here := BrowseName.join path property.name
      match findNamed property.name children with
      | some child =>
          fillList look path rest
            (updateNamed property.name (fun _ => fill look here property child) children)
      | none => fillList look path rest (children ++ [seed look here property])

end

mutual

/-- The parts of the schema that a property lacks, each with the path of its parent. -/
def missing (path : String) : (schema : Property) → Property → List (String × Property)
  | ⟨_, _, _, wanted⟩, property => missingList path wanted property.children

/-- List counterpart of `missing`, for the children of the property at `path`. -/
def missingList (path : String) :
    (wanted : List Property) → List Property → List (String × Property)
  | [], _ => []
  | property :: rest, children =>
      (match findNamed property.name children with
        | some child => missing (BrowseName.join path property.name) property child
        | none => [(path, property)]) ++ missingList path rest children

end

/-- The nodes of the schema that some children of the property at `path` lack. -/
def gapsList (path : String) (wanted children : List Property) : List (String × PropertyType) :=
  (missingList path wanted children).flatMap fun part =>
    part.2.nodes (BrowseName.join part.1 part.2.name)

def gaps (path : String) (schema property : Property) : List (String × PropertyType) :=
  gapsList path schema.children property.children

theorem missing_eq (path : String) (schema property : Property) :
    missing path schema property = missingList path schema.children property.children := by
  obtain ⟨name, type, value, wanted⟩ := schema
  rfl

theorem gapsList_cons (path : String) (property : Property) (rest children : List Property) :
    gapsList path (property :: rest) children =
      (match findNamed property.name children with
        | some child => gaps (BrowseName.join path property.name) property child
        | none => property.nodes (BrowseName.join path property.name)) ++
        gapsList path rest children := by
  unfold gapsList
  rw [missingList, List.flatMap_append]
  cases findNamed property.name children with
  | none => simp
  | some child => simp [gaps, gapsList, missing_eq]

theorem fill_eq (look : String → Option PropertyValue) (path : String)
    (schema property : Property) :
    fill look path schema property =
      { property with children := fillList look path schema.children property.children } := by
  obtain ⟨name, type, value, wanted⟩ := schema
  rfl

theorem fill_name (look : String → Option PropertyValue) (path : String)
    (schema property : Property) : (fill look path schema property).name = property.name := by
  rw [fill_eq]

theorem seed_name (look : String → Option PropertyValue) (path : String) (property : Property) :
    (seed look path property).name = property.name := by
  obtain ⟨name, type, value, children⟩ := property
  rfl

mutual

theorem adopt_retained (path : String) :
    ∀ (property : Property) (retained : Table PropertyValue),
      (adopt path property retained).retained = retained.eraseAll (property.keys path)
  | ⟨name, type, value, children⟩, retained => by
      have below := adoptList_retained path children (retained.erase path)
      simpa [adopt, keys, nodes, Table.eraseAll, keysList] using below

theorem adoptList_retained (path : String) :
    ∀ (children : List Property) (retained : Table PropertyValue),
      (adoptList path children retained).retained = retained.eraseAll (keysList path children)
  | [], retained => rfl
  | child :: rest, retained => by
      have first := adopt_retained (BrowseName.join path child.name) child retained
      have others := adoptList_retained path rest
        (adopt (BrowseName.join path child.name) child retained).retained
      rw [keysList_cons, Table.eraseAll_append, ← first]
      exact others

end

private theorem initialValue_eq (retained : Table PropertyValue) (path : String)
    (type : PropertyType)
    (default : Option PropertyValue) :
    (initialValue retained path type default).1 =
      ((retained.get? path).filter (·.type == type)).or default := by
  unfold initialValue
  split
  · next value found => rw [found]; rfl
  · next found => rw [found]; rfl

/-- Whether a node gets a value that was retained. -/
def restorable (look : String → Option PropertyValue) (node : String × PropertyType) : Bool :=
  (look node.1).any (·.type == node.2)

private theorem initialValue_restored (retained : Table PropertyValue) (path : String)
    (type : PropertyType) (default : Option PropertyValue) :
    (initialValue retained path type default).2 =
      if restorable retained.get? (path, type) then [path] else [] := by
  rw [initialValue, restorable]
  cases retained.get? path with
  | none => rfl
  | some value => by_cases fits : value.type = type <;> simp [Option.filter, fits]

/-- What is retained for a path that is not among some others stays after these are used up. -/
theorem get?_eraseAll_of_notMem {retained : Table PropertyValue} {keys : List String}
    {key : String} (absent : key ∉ keys) :
    (retained.eraseAll keys).get? key = retained.get? key := by
  rw [Table.get?_eraseAll, if_neg absent]

mutual

/-- With different paths every node of a copied part finds what was retained at first. -/
theorem adopt_copy {look : String → Option PropertyValue} (path : String) :
    ∀ (property : Property) (retained : Table PropertyValue), (property.keys path).Nodup →
      (∀ key ∈ property.keys path, retained.get? key = look key) →
      (adopt path property retained).copy = seed look path property ∧
        (adopt path property retained).restored =
          ((property.nodes path).filter (restorable look)).map (·.1)
  | ⟨name, type, value, children⟩, retained, distinct, finds => by
      obtain ⟨fresh, below⟩ : path ∉ keysList path children ∧ (keysList path children).Nodup :=
        List.nodup_cons.mp distinct
      have findsBelow : ∀ key ∈ keysList path children,
          (retained.erase path).get? key = look key := by
        intro key member
        have different : key ≠ path := fun same => fresh (same ▸ member)
        rw [Table.get?_erase, if_neg different]
        exact finds key (List.mem_cons_of_mem _ member)
      have here : retained.get? path = look path := finds path List.mem_cons_self
      obtain ⟨copied, restored⟩ :=
        adoptList_copy path children (retained.erase path) below findsBelow
      have own : restorable retained.get? (path, type) = restorable look (path, type) := by
        rw [restorable, restorable, here]
      constructor
      · simp only [adopt, seed, initialValue_eq, here, copied]
      · simp only [adopt, nodes, initialValue_restored, own, restored, List.filter_cons]
        cases restorable look (path, type) <;> rfl

theorem adoptList_copy {look : String → Option PropertyValue} (path : String) :
    ∀ (children : List Property) (retained : Table PropertyValue),
      (keysList path children).Nodup →
      (∀ key ∈ keysList path children, retained.get? key = look key) →
      (adoptList path children retained).copy = seedList look path children ∧
        (adoptList path children retained).restored =
          ((nodesList path children).filter (restorable look)).map (·.1)
  | [], retained, _, _ => ⟨rfl, rfl⟩
  | child :: rest, retained, distinct, finds => by
      rw [keysList_cons] at distinct finds
      obtain ⟨firstDistinct, restDistinct, apart⟩ := List.nodup_append'.mp distinct
      obtain ⟨first, firstRestored⟩ :=
        adopt_copy (BrowseName.join path child.name) child retained firstDistinct
          fun key member => finds key (List.mem_append_left _ member)
      have findsRest : ∀ key ∈ keysList path rest,
          (adopt (BrowseName.join path child.name) child retained).retained.get? key =
            look key := by
        intro key member
        rw [adopt_retained, get?_eraseAll_of_notMem fun early => apart early member]
        exact finds key (List.mem_append_right _ member)
      obtain ⟨others, othersRestored⟩ := adoptList_copy path rest _ restDistinct findsRest
      constructor
      · simp only [adoptList, seedList, first, others]
      · simp only [adoptList, nodesList, List.filter_append, List.map_append, firstRestored,
          othersRestored]

end

theorem complete_frame (path : String) (schema property : Property)
    (retained : Table PropertyValue) :
    let whole := (complete path schema property retained).whole
    whole = { property with children := whole.children } := by
  obtain ⟨name, type, value, children⟩ := schema
  rfl

theorem missingList_congr (path : String) {wanted first second : List Property}
    (same : ∀ property ∈ wanted,
      findNamed property.name first = findNamed property.name second) :
    missingList path wanted first = missingList path wanted second := by
  induction wanted with
  | nil => rfl
  | cons property rest ih =>
      rw [missingList, missingList, same property List.mem_cons_self,
        ih fun other member => same other (List.mem_cons_of_mem _ member)]

theorem missingList_of_otherNames {path : String} {wanted before behind : List Property}
    {child : Property} (others : ∀ property ∈ wanted, property.name ≠ child.name) :
    missingList path wanted (before ++ child :: behind) =
      missingList path wanted (before ++ behind) := by
  apply missingList_congr path
  intro property member
  rw [findNamed_append, findNamed_append, findNamed_cons, if_neg (others property member).symm]

theorem missingList_append_of_otherNames {path : String} {wanted before : List Property}
    {child : Property} (others : ∀ property ∈ wanted, property.name ≠ child.name) :
    missingList path wanted (before ++ [child]) = missingList path wanted before := by
  rw [missingList_of_otherNames others, List.append_nil]

private theorem missingList_updateNamed {path name : String} {wanted children : List Property}
    {changed : Property} (keeps : changed.name = name)
    (others : ∀ property ∈ wanted, property.name ≠ name) :
    missingList path wanted (updateNamed name (fun _ => changed) children) =
      missingList path wanted children := by
  apply missingList_congr path
  intro property member
  rw [findNamed_updateNamed (fun _ _ => keeps), if_neg (others property member)]

mutual

theorem missing_sublist {β : Type} (collection : Collection β) (path : String) :
    ∀ schema property : Property,
      ((missing path schema property).flatMap fun part => collection.all part.1 part.2).Sublist
        (schema.children.flatMap (collection.all path))
  | ⟨_, _, _, wanted⟩, property => missingList_sublist collection path wanted property.children

theorem missingList_sublist {β : Type} (collection : Collection β) (path : String) :
    ∀ wanted children : List Property,
      ((missingList path wanted children).flatMap fun part =>
        collection.all part.1 part.2).Sublist (wanted.flatMap (collection.all path))
  | [], _ => .slnil
  | property :: rest, children => by
      have others := missingList_sublist collection path rest children
      rw [missingList, List.flatMap_append, List.flatMap_cons]
      refine List.Sublist.append ?_ others
      cases findNamed property.name children with
      | none => simp
      | some child =>
          have inner := missing_sublist collection (BrowseName.join path property.name) property
            child
          rw [collection.all_eq]
          exact inner.trans (List.sublist_append_right _ _)

end

theorem gapsList_sublist (path : String) (wanted children : List Property) :
    (gapsList path wanted children).Sublist (nodesList path wanted) := by
  rw [nodesList_eq_flatMap]
  exact missingList_sublist .ofNodes path wanted children

private theorem gapKeys_subset {path : String} {wanted children : List Property} {key : String}
    (member : key ∈ (gapsList path wanted children).map (·.1)) : key ∈ keysList path wanted :=
  ((gapsList_sublist path wanted children).map _).subset member

private theorem key_mem_keysList {path : String} {properties : List Property} {property : Property}
    (member : property ∈ properties) :
    BrowseName.join path property.name ∈ keysList path properties := by
  refine List.mem_map.mpr ⟨(BrowseName.join path property.name, property.type), ?_, rfl⟩
  rw [nodesList_eq_flatMap]
  refine List.mem_flatMap.mpr ⟨property, member, ?_⟩
  obtain ⟨name, type, value, children⟩ := property
  exact List.mem_cons_self

private theorem names_of_keys {path : String} {property : Property} {rest : List Property}
    (distinct : (keysList path (property :: rest)).Nodup) :
    ∀ other ∈ rest, other.name ≠ property.name := by
  rw [keysList_cons] at distinct
  intro other member same
  have key : BrowseName.join path other.name ∈ keysList path rest := key_mem_keysList member
  rw [same] at key
  apply (List.nodup_append'.mp distinct).2.2 _ key
  rw [keys_eq]
  exact List.mem_cons_self

/-- Whether completing has filled some gaps with the values that `look` has for them, of the gaps'
types, and has used up what was retained for them. -/
structure Completed.Fills {α : Type} (look : String → Option PropertyValue)
    (retained : Table PropertyValue) (gaps : List (String × PropertyType)) (whole : α)
    (completed : Completed α) : Prop where
  whole_eq : completed.whole = whole
  left : completed.retained = retained.eraseAll (gaps.map (·.1))
  restored : completed.changes.restored = (gaps.filter (restorable look)).map (·.1)

/-- Gaps can be filled one after the other. -/
theorem Completed.Fills.after {α : Type} {look : String → Option PropertyValue}
    {retained : Table PropertyValue} {first rest : List (String × PropertyType)} {whole : α}
    {completed : Completed α} {changes : Changes}
    (others : completed.Fills look (retained.eraseAll (first.map (·.1))) rest whole)
    (restored : changes.restored = (first.filter (restorable look)).map (·.1)) :
    Fills look retained (first ++ rest) whole
      { completed with changes := changes ++ completed.changes } where
  whole_eq := others.whole_eq
  left := by
    rw [List.map_append, Table.eraseAll_append]
    exact others.left
  restored := by
    rw [List.filter_append, List.map_append, ← restored, ← others.restored]
    rfl

mutual

/-- With different paths in the schema, completing fills every gap with what was retained at first
if it fits. -/
theorem complete_fills (look : String → Option PropertyValue) (path : String) :
    ∀ (schema property : Property) (retained : Table PropertyValue),
      (keysList path schema.children).Nodup →
      (∀ key ∈ keysList path schema.children, retained.get? key = look key) →
      (complete path schema property retained).Fills look retained (gaps path schema property)
        (fill look path schema property)
  | ⟨_, _, _, wanted⟩, property, retained, distinct, finds => by
      have below := completeList_fills look path wanted property.children retained distinct finds
      exact ⟨by rw [complete, fill, below.whole_eq], below.left, below.restored⟩

theorem completeList_fills (look : String → Option PropertyValue) (path : String) :
    ∀ (wanted children : List Property) (retained : Table PropertyValue),
      (keysList path wanted).Nodup →
      (∀ key ∈ keysList path wanted, retained.get? key = look key) →
      (completeList path wanted children retained).Fills look retained
        (gapsList path wanted children) (fillList look path wanted children)
  | [], children, retained, _, _ => ⟨rfl, rfl, rfl⟩
  | property :: rest, children, retained, distinct, finds => by
      let here := BrowseName.join path property.name
      have otherName := names_of_keys distinct
      rw [keysList_cons] at distinct finds
      obtain ⟨firstDistinct, restDistinct, apart⟩ := List.nodup_append'.mp distinct
      have findsFirst : ∀ key ∈ property.keys here, retained.get? key = look key :=
        fun key member => finds key (List.mem_append_left _ member)
      have findsRest : ∀ used : List String, (∀ key ∈ used, key ∈ property.keys here) →
          ∀ key ∈ keysList path rest, (retained.eraseAll used).get? key = look key := by
        intro used usedHere key member
        rw [get?_eraseAll_of_notMem fun early => apart (usedHere key early) member]
        exact finds key (List.mem_append_right _ member)
      cases found : findNamed property.name children with
      | some child =>
          rw [keys_eq] at firstDistinct findsFirst
          have inner := complete_fills look here property child retained
            (List.nodup_cons.mp firstDistinct).2
            fun key member => findsFirst key (List.mem_cons_of_mem _ member)
          have usedHere : ∀ key ∈ (gaps here property child).map (·.1),
              key ∈ property.keys here := by
            intro key member
            rw [keys_eq]
            exact List.mem_cons_of_mem _ (gapKeys_subset member)
          have others := completeList_fills look path rest
            (updateNamed property.name (fun _ => fill look here property child) children)
            (retained.eraseAll ((gaps here property child).map (·.1))) restDistinct
            (findsRest _ usedHere)
          have keeps : (fill look here property child).name = property.name := by
            rw [fill_name, findNamed_name found]
          rw [gapsList, missingList_updateNamed keeps otherName] at others
          simp only [completeList, fillList, gapsList_cons, found]
          rw [inner.whole_eq, inner.left]
          exact others.after inner.restored
      | none =>
          obtain ⟨copied, restored⟩ := adopt_copy here property retained firstDistinct findsFirst
          have others := completeList_fills look path rest
            (children ++ [seed look here property])
            (retained.eraseAll (property.keys here)) restDistinct
            (findsRest _ fun key member => member)
          rw [← seed_name look here property] at otherName
          rw [gapsList, missingList_append_of_otherNames otherName] at others
          simp only [completeList, fillList, gapsList_cons, found]
          rw [copied, adopt_retained]
          exact others.after restored

end

end AlarmView.Instance
