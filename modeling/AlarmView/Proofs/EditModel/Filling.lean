import AlarmView.Proofs.EditModel.Completion

/-!
# What filling leaves

Filling keeps everything that was there and adds the missing parts of the schema.  Where everything
that was there has a counterpart in the schema, the result has exactly the nodes of the schema.
-/

namespace AlarmView.Instance

open Property

variable {look : String → Option PropertyValue}

mutual

theorem fill_perm {β : Type} (look : String → Option PropertyValue) (collection : Collection β)
    (path : String) :
    ∀ schema property : Property, (names schema.children).Nodup → UniqueList schema.children →
      ((fillList look path schema.children property.children).flatMap (collection.all path)).Perm
        (property.children.flatMap (collection.all path) ++
          (missing path schema property).flatMap fun part =>
            collection.all part.1 (seed look (BrowseName.join part.1 part.2.name) part.2))
  | ⟨_, _, _, wanted⟩, property, distinct, unique =>
      fillList_perm look collection path wanted property.children distinct unique

theorem fillList_perm {β : Type} (look : String → Option PropertyValue)
    (collection : Collection β) (path : String) :
    ∀ wanted children : List Property, (names wanted).Nodup → UniqueList wanted →
      ((fillList look path wanted children).flatMap (collection.all path)).Perm
        (children.flatMap (collection.all path) ++
          (missingList path wanted children).flatMap fun part =>
            collection.all part.1 (seed look (BrowseName.join part.1 part.2.name) part.2))
  | [], children, _, _ => by simp [fillList, missingList]
  | property :: rest, children, distinct, ⟨first, others⟩ => by
      obtain ⟨absent, restDistinct⟩ := List.nodup_cons.mp distinct
      have otherName := notMem_names.mp absent
      rw [fillList, missingList, List.flatMap_append]
      cases found : findNamed property.name children with
      | none =>
          have filled := fillList_perm look collection path rest
            (children ++ [seed look (BrowseName.join path property.name) property])
            restDistinct others
          rw [missingList_append_of_otherNames (by simpa [seed_name] using otherName)] at filled
          simpa using filled
      | some child =>
          have named := findNamed_name found
          obtain ⟨before, behind, rfl, early⟩ := findNamed_split found
          let here := BrowseName.join path property.name
          let filled := fill look here property child
          have rest := fillList_perm look collection path rest (before ++ filled :: behind)
            restDistinct others
          have fillNamed : filled.name = property.name := by rw [fill_name, named]
          have inner : (collection.all path filled).Perm
              (collection.all path child ++ (missing here property child).flatMap fun part =>
                collection.all part.1 (seed look (BrowseName.join part.1 part.2.name) part.2)) := by
            have own : collection.own path filled = collection.own path child := by
              simp only [filled, fill_eq, collection.own_eq]
            have below : filled.children = fillList look here property.children child.children := by
              simp only [filled, fill_eq]
            obtain ⟨distinctBelow, uniqueBelow⟩ := unique_iff.mp first
            rw [collection.all_eq path child, collection.all_eq path filled, List.append_assoc,
              own, below, fillNamed, named]
            exact (fill_perm look collection here property child distinctBelow
              (uniqueList_iff.mpr uniqueBelow)).append_left _
          rw [missingList_of_otherNames (by simpa [fillNamed] using otherName)] at rest
          dsimp only
          rw [updateNamed_split _ early named,
            missingList_of_otherNames (by simpa [named] using otherName)]
          apply rest.trans
          simp only [List.flatMap_append, List.flatMap_cons, List.append_assoc]
          apply List.Perm.append_left _
          apply (inner.append_right _).trans
          rw [List.append_assoc]
          exact (List.perm_append_comm_assoc ..).append_left _

end

mutual

theorem seed_nodes (path here : String) :
    ∀ property : Property, (seed look path property).nodes here = property.nodes here
  | ⟨name, type, value, children⟩ => by
      rw [seed, nodes, nodes, seedList_nodes path here children]

theorem seedList_nodes (path here : String) :
    ∀ properties : List Property,
      nodesList here (seedList look path properties) = nodesList here properties
  | [] => rfl
  | property :: rest => by
      rw [seedList, nodesList, nodesList, seed_name, seed_nodes _ _ property,
        seedList_nodes path here rest]

end

mutual

/-- A value of a copy was looked up for a node of its type, or stems from the original. -/
theorem mem_seed_values {path key : String} {value : PropertyValue} :
    ∀ property : Property,
      (key, value) ∈ (seed look (BrowseName.join path property.name) property).values path →
      (key, value.type) ∈ property.nodes (BrowseName.join path property.name) ∧
          look key = some value ∨
        (key, value) ∈ property.values path
  | ⟨name, type, default, children⟩, member => by
      simp only [seed, values, List.mem_append, List.mem_map, Option.mem_toList,
        Option.or_eq_some_iff] at member
      simp only [nodes, values, List.mem_append, List.mem_cons, List.mem_map, Option.mem_toList]
      rcases member with ⟨stored, (retained | ⟨_, own⟩), same⟩ | below
      · obtain ⟨rfl, rfl⟩ := Prod.mk.inj same
        obtain ⟨found, fits⟩ := Option.filter_eq_some_iff.mp retained
        have sameType : stored.type = type := by simpa using fits
        exact .inl ⟨.inl (by rw [sameType]), found⟩
      · exact .inr (.inl ⟨stored, own, same⟩)
      · rcases mem_seedList_values children below with ⟨node, found⟩ | old
        · exact .inl ⟨.inr node, found⟩
        · exact .inr (.inr old)

theorem mem_seedList_values {path key : String} {value : PropertyValue} :
    ∀ properties : List Property,
      (key, value) ∈ valuesList path (seedList look path properties) →
      (key, value.type) ∈ nodesList path properties ∧ look key = some value ∨
        (key, value) ∈ valuesList path properties
  | [], member => by simp [seedList, valuesList] at member
  | property :: rest, member => by
      rw [seedList, valuesList, List.mem_append] at member
      rw [nodesList, valuesList, List.mem_append, List.mem_append]
      rcases member with first | later
      · exact (mem_seed_values property first).imp (fun found => ⟨.inl found.1, found.2⟩) .inl
      · exact (mem_seedList_values rest later).imp (fun found => ⟨.inr found.1, found.2⟩) .inr

end

mutual

/-- A value that is looked up for a node of its type is in the copy. -/
theorem seed_values_of_look {path key : String} {value : PropertyValue}
    (found : look key = some value) :
    ∀ property : Property,
      (key, value.type) ∈ property.nodes (BrowseName.join path property.name) →
      (key, value) ∈ (seed look (BrowseName.join path property.name) property).values path
  | ⟨name, type, default, children⟩, node => by
      simp only [seed, values, List.mem_append, List.mem_map, Option.mem_toList]
      rcases List.mem_cons.mp node with here | below
      · obtain ⟨rfl, rfl⟩ := Prod.mk.inj here
        exact .inl ⟨value, by simp [found], rfl⟩
      · exact .inr (seedList_values_of_look found children below)

theorem seedList_values_of_look {path key : String} {value : PropertyValue}
    (found : look key = some value) :
    ∀ properties : List Property, (key, value.type) ∈ nodesList path properties →
      (key, value) ∈ valuesList path (seedList look path properties)
  | [], node => by simp [nodesList] at node
  | property :: rest, node => by
      rw [nodesList, List.mem_append] at node
      rw [seedList, valuesList, List.mem_append]
      exact node.imp (seed_values_of_look found property) (seedList_values_of_look found rest)

end

def arrivalsList (look : String → Option PropertyValue) (path : String)
    (wanted children : List Property) : List (String × PropertyValue) :=
  (missingList path wanted children).flatMap fun part =>
    (seed look (BrowseName.join part.1 part.2.name) part.2).values part.1

theorem nodesList_fillList (path : String) {wanted : List Property} (children : List Property)
    (distinct : (names wanted).Nodup) (unique : UniqueList wanted) :
    (nodesList path (fillList look path wanted children)).Perm
      (nodesList path children ++ gapsList path wanted children) := by
  have filled := fillList_perm look Collection.ofNodes path wanted children distinct unique
  simpa only [Collection.ofNodes, nodesList_eq_flatMap, gapsList, seed_name, seed_nodes]
    using filled

theorem valuesList_fillList (path : String) {wanted : List Property} (children : List Property)
    (distinct : (names wanted).Nodup) (unique : UniqueList wanted) :
    (valuesList path (fillList look path wanted children)).Perm
      (valuesList path children ++ arrivalsList look path wanted children) := by
  have filled := fillList_perm look Collection.ofValues path wanted children distinct
    unique
  simpa only [Collection.ofValues, valuesList_eq_flatMap, arrivalsList] using filled

mutual

/-- Children that have counterparts in the schema and the parts that they lack make up the nodes of
the schema. -/
theorem nodes_within (path : String) :
    ∀ schema property : Property, schema.Unique → property.Unique →
      Within schema.children property.children →
      (nodesList path property.children ++ gapsList path schema.children property.children).Perm
        (nodesList path schema.children)
  | ⟨_, _, _, wanted⟩, property, ⟨distinct, unique⟩, propertyUnique, within =>
      have ⟨childrenDistinct, childrenUnique⟩ := unique_iff.mp propertyUnique
      nodesList_within path wanted property.children distinct unique childrenDistinct
        (uniqueList_iff.mpr childrenUnique) within

theorem nodesList_within (path : String) :
    ∀ wanted children : List Property, (names wanted).Nodup → UniqueList wanted →
      (names children).Nodup → UniqueList children → Within wanted children →
      (nodesList path children ++ gapsList path wanted children).Perm (nodesList path wanted)
  | [], children, _, _, _, _, within => by
      cases within with
      | nil => exact .nil
      | cons listed => simp at listed
  | property :: rest, children, distinct, ⟨first, others⟩, childrenDistinct, childrenUnique,
      within => by
      obtain ⟨absent, restDistinct⟩ := List.nodup_cons.mp distinct
      have otherName := notMem_names.mp absent
      rw [gapsList_cons, nodesList]
      cases found : findNamed property.name children with
      | none =>
          have different := notMem_names.mp (findNamed_eq_none.mp found)
          have inRest := nodesList_within path rest children restDistinct others childrenDistinct
            childrenUnique (within.of_otherNames (fun _ member => member) different)
          exact (List.perm_append_comm_assoc ..).trans (inRest.append_left _)
      | some child =>
          let here := BrowseName.join path property.name
          have named := findNamed_name found
          obtain ⟨before, behind, rfl, early⟩ := findNamed_split found
          have childMember : child ∈ before ++ child :: behind := by simp
          have apart : child.name ∉ names (before ++ behind) :=
            (List.nodup_cons.mp ((List.perm_middle.map _).nodup_iff.mp childrenDistinct)).1
          have different := notMem_names.mp apart
          rw [named] at different
          have othersSublist : (before ++ behind).Sublist (before ++ child :: behind) :=
            (List.Sublist.refl before).append (List.sublist_cons_self child behind)
          have inRest := nodesList_within path rest (before ++ behind) restDistinct others
            (childrenDistinct.sublist (othersSublist.map _))
            (uniqueList_iff.mpr fun other member =>
              uniqueList_iff.mp childrenUnique other (othersSublist.subset member))
            (within.of_otherNames (fun _ member => othersSublist.subset member) different)
          have inner : (child.nodes here ++ gaps here property child).Perm
              (property.nodes here) := by
            obtain ⟨type, below⟩ := within.of_name childMember named otherName
            have nodesBelow := nodes_within here property child first
              (uniqueList_iff.mp childrenUnique child childMember) below
            rw [nodes_eq, nodes_eq, List.cons_append, type]
            exact nodesBelow.cons _
          have restGaps : gapsList path rest (before ++ child :: behind) =
              gapsList path rest (before ++ behind) :=
            congrArg (List.flatMap _)
              (missingList_of_otherNames (by simpa [named] using otherName))
          have childHere : BrowseName.join path child.name = here := by rw [named]
          rw [restGaps]
          refine List.Perm.trans ?_ (inner.append inRest)
          simp only [nodesList_append, nodesList, childHere, List.append_assoc]
          refine (List.perm_append_comm_assoc ..).trans (List.Perm.append_left _ ?_)
          simpa only [List.append_assoc] using List.perm_append_comm_assoc
            (nodesList path before ++ nodesList path behind) (gaps here property child)
            (gapsList path rest (before ++ behind))

end

theorem seedList_eq_map (path : String) (properties : List Property) :
    seedList look path properties =
      properties.map fun property => seed look (BrowseName.join path property.name) property := by
  induction properties with
  | nil => rfl
  | cons head rest ih => rw [seedList, ih, List.map_cons]

theorem names_seedList (path : String) (properties : List Property) :
    names (seedList look path properties) = names properties := by
  simp [seedList_eq_map, names, seed_name]

mutual

theorem seed_unique (path : String) :
    ∀ property : Property, property.Unique → (seed look path property).Unique
  | ⟨_, _, _, children⟩, ⟨distinct, below⟩ =>
      ⟨(names_seedList path children).symm ▸ distinct, seedList_unique path children below⟩

theorem seedList_unique (path : String) :
    ∀ properties : List Property, UniqueList properties →
      UniqueList (seedList look path properties)
  | [], _ => trivial
  | property :: rest, ⟨first, others⟩ =>
      ⟨seed_unique _ property first, seedList_unique path rest others⟩

end

mutual

theorem fill_unique (look : String → Option PropertyValue) (path : String) :
    ∀ schema property : Property, UniqueList schema.children → property.Unique →
      (fill look path schema property).Unique
  | ⟨_, _, _, wanted⟩, ⟨_, _, _, children⟩, wantedUnique, ⟨distinct, unique⟩ =>
      fillList_unique look path wanted children wantedUnique distinct unique

theorem fillList_unique (look : String → Option PropertyValue) (path : String) :
    ∀ wanted children : List Property, UniqueList wanted → (names children).Nodup →
      UniqueList children →
      (names (fillList look path wanted children)).Nodup ∧
        UniqueList (fillList look path wanted children)
  | [], _, _, distinct, unique => ⟨distinct, unique⟩
  | property :: rest, children, ⟨first, others⟩, distinct, unique => by
      let here := BrowseName.join path property.name
      rw [fillList]
      cases found : findNamed property.name children with
      | none =>
          refine fillList_unique look path rest _ others ?_ (uniqueList_iff.mpr ?_)
          · rw [names_append]
            refine List.nodup_append'.mpr ⟨distinct, List.nodup_singleton _, ?_⟩
            intro name listed fresh
            have same : name = property.name := by simpa [names, seed_name] using fresh
            exact findNamed_eq_none.mp found (same ▸ listed)
          · intro child member
            rcases List.mem_append.mp member with old | fresh
            · exact uniqueList_iff.mp unique child old
            · obtain rfl := List.mem_singleton.mp fresh
              exact seed_unique here property first
      | some child =>
          have childUnique := uniqueList_iff.mp unique child (findNamed_mem found)
          have filledUnique := fill_unique look here property child
            (uniqueList_iff.mpr (unique_iff.mp first).2) childUnique
          have keeps : (fill look here property child).name = property.name := by
            rw [fill_name, findNamed_name found]
          refine fillList_unique look path rest _ others ?_ (uniqueList_iff.mpr ?_)
          · rw [names_updateNamed fun _ _ => keeps]
            exact distinct
          · intro other member
            rcases mem_updateNamed member with old | ⟨_, _, rfl⟩
            · exact uniqueList_iff.mp unique other old
            · exact filledUnique

end

/-- What is found after filling. -/
theorem findNamed_fillList (path name : String) {wanted : List Property} (children : List Property)
    (distinct : (names wanted).Nodup) :
    findNamed name (fillList look path wanted children) =
      match findNamed name children, findNamed name wanted with
      | some child, some property =>
          some (fill look (BrowseName.join path name) property child)
      | some child, none => some child
      | none, some property => some (seed look (BrowseName.join path name) property)
      | none, none => none := by
  induction wanted generalizing children with
  | nil =>
      have none : findNamed name [] = none := rfl
      rw [fillList, none]
      cases findNamed name children <;> rfl
  | cons property rest ih =>
      obtain ⟨absent, restDistinct⟩ : property.name ∉ names rest ∧ (names rest).Nodup :=
        List.nodup_cons.mp distinct
      rw [fillList, findNamed_cons name property rest]
      by_cases here : property.name = name
      · subst here
        have last : findNamed property.name rest = none := findNamed_eq_none.mpr absent
        cases found : findNamed property.name children with
        | none =>
            dsimp only
            rw [ih _ restDistinct, findNamed_append, findNamed_cons, seed_name, found, last]
            simp
        | some child =>
            have keeps : (fill look (BrowseName.join path property.name) property child).name =
                property.name := by
              rw [fill_name, findNamed_name found]
            dsimp only
            rw [ih _ restDistinct, findNamed_updateNamed fun _ _ => keeps, found, last]
            simp
      · cases found : findNamed property.name children with
        | none =>
            dsimp only
            rw [ih _ restDistinct, findNamed_append, findNamed_cons, seed_name, if_neg here,
              if_neg here]
            simp [findNamed]
        | some child =>
            have keeps : (fill look (BrowseName.join path property.name) property child).name =
                property.name := by
              rw [fill_name, findNamed_name found]
            dsimp only
            rw [ih _ restDistinct, findNamed_updateNamed fun _ _ => keeps, if_neg (Ne.symm here),
              if_neg here]

end AlarmView.Instance
