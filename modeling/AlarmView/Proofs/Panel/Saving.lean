import AlarmView.Proofs.EditModel.Positions
import AlarmView.Proofs.EditModel.Provenance
import AlarmView.Proofs.EditModel.Store
import AlarmView.Proofs.Panel.Controls

/-!
# Saving a panel

Saving stores the checked state behind each control and the limits of the enabled ranges, each at a
place of its own, and leaves everything else as it is.
-/

namespace AlarmView

open BrowseName Property

def Write.place (write : Write) : String × String :=
  (write.attr, write.name)

namespace Instance

variable {model changed : Instance}

/-- What holds of an instance and stays when a value is stored holds after some are saved. -/
theorem holds_writeAll (holds : Instance → Prop) {writes : List Write} (start : holds model)
    (step : ∀ (model changed : Instance) (write : Write), write ∈ writes → holds model →
      model.setValue write.attr write.name write.value = .ok changed → holds changed) :
    holds (model.writeAll writes).1 := by
  induction writes generalizing model with
  | nil => exact start
  | cons write rest ih =>
      rw [writeAll]
      cases stored : model.setValue write.attr write.name write.value with
      | error error => exact start
      | ok next =>
          apply ih (step model next write List.mem_cons_self start stored)
          intro model changed other member
          exact step model changed other (List.mem_cons_of_mem _ member)

theorem nodes_writeAll (model : Instance) (writes : List Write) :
    nodesList "" (model.writeAll writes).1.root.children = nodesList "" model.root.children := by
  apply holds_writeAll fun changed =>
    nodesList "" changed.root.children = nodesList "" model.root.children
  · rfl
  · intro _ _ _ _ same stored
    exact (nodes_setValue stored).trans same

theorem skeleton_writeAll (model : Instance) (writes : List Write) :
    (model.writeAll writes).1.root.skeleton = model.root.skeleton := by
  apply holds_writeAll fun changed => changed.root.skeleton = model.root.skeleton
  · rfl
  · intro _ _ _ _ same stored
    exact (skeleton_setValue stored).trans same

private theorem retained_writeAll (model : Instance) (writes : List Write) :
    (model.writeAll writes).1.retained = model.retained := by
  apply holds_writeAll fun changed => changed.retained = model.retained
  · rfl
  · intro _ _ _ _ same stored
    exact (retained_setValue stored).trans same

theorem Kept.writeAll (kept : model.Kept) {writes : List Write}
    (shown : ∀ write ∈ writes, write.attr = BrowseName.severity →
      isRangeValue write.name = true ∨ write.name = BrowseName.severity) :
    (model.writeAll writes).1.Kept := by
  apply holds_writeAll Kept kept
  intro _ _ write member before stored
  exact before.setValue (shown write member) stored

theorem Only.writeAll {holds : String × PropertyValue → Prop} (only : model.Only holds)
    {writes : List Write}
    (here : ∀ write ∈ writes, holds (join write.attr write.name, write.value)) :
    (model.writeAll writes).1.Only holds := by
  apply holds_writeAll (Only holds) only
  intro _ _ write member before stored
  exact before.setValue (here write member) stored

theorem stored?_writeAll_of_notMem {writes : List Write} {attr name : String}
    (untouched : (attr, name) ∉ writes.map Write.place) :
    (model.writeAll writes).1.stored? attr name = model.stored? attr name := by
  apply holds_writeAll fun changed => changed.stored? attr name = model.stored? attr name
  · rfl
  · intro _ _ write member same stored
    rw [stored?_setValue stored, if_neg, same]
    intro here
    apply untouched
    exact List.mem_map.mpr ⟨write, member, Prod.ext here.1.symm here.2.symm⟩

/-- Values that could all be saved, each at its own place, are there afterwards. -/
theorem stored?_writeAll {writes : List Write} (distinct : (writes.map Write.place).Nodup)
    (saved : model.writeAll writes = (changed, .ok ())) {write : Write} (member : write ∈ writes) :
    changed.stored? write.attr write.name = some write.value := by
  induction writes generalizing model with
  | nil => exact absurd member List.not_mem_nil
  | cons head rest ih =>
      obtain ⟨absent, restDistinct⟩ := List.nodup_cons.mp distinct
      rw [writeAll] at saved
      cases stored : model.setValue head.attr head.name head.value with
      | error error => simp [stored] at saved
      | ok next =>
          have savedRest : next.writeAll rest = (changed, .ok ()) := by rwa [stored] at saved
          rcases List.mem_cons.mp member with rfl | later
          · have frame : (next.writeAll rest).1.stored? write.attr write.name = _ :=
              stored?_writeAll_of_notMem absent
            rw [savedRest] at frame
            rw [frame, stored?_setValue stored]
            exact if_pos ⟨rfl, rfl⟩
          · exact ih restDistinct savedRest later

/-- Whether an instance has a leaf for a value that is declared with its type. -/
def Accepts (model : Instance) (write : Write) : Prop :=
  ∃ leaf, model.root.leafAt? write.attr write.name = some leaf ∧ leaf.type = write.value.type

private theorem accepts_iff {write : Write} :
    model.Accepts write ↔
      ∃ changed, model.setValue write.attr write.name write.value = .ok changed := by
  constructor
  · intro accepted
    obtain ⟨leaf, found, type⟩ := accepted
    obtain ⟨parent, parentFound, leafFound⟩ := Option.bind_eq_some_iff.mp found
    exact ⟨_, setValue_eq_ok.mpr ⟨parent, leaf, parentFound, leafFound, type, rfl⟩⟩
  · intro stored
    obtain ⟨changed, stored⟩ := stored
    obtain ⟨parent, leaf, parentFound, leafFound, type, _⟩ := setValue_eq_ok.mp stored
    exact ⟨leaf, Option.bind_eq_some_iff.mpr ⟨parent, parentFound, leafFound⟩, type⟩

private theorem accepts_setValue {attr name : String} {value : PropertyValue}
    (stored : model.setValue attr name value = .ok changed) {write : Write} :
    changed.Accepts write ↔ model.Accepts write := by
  rw [Accepts, Accepts, leafAt?_setValue stored]
  split
  · next here =>
      obtain ⟨rfl, rfl⟩ := here
      simp
  · rfl

/-- Values are saved in their order, up to the first one that is not accepted. -/
theorem writeAll_split (model : Instance) (writes : List Write) :
    ∃ saved left, writes = saved ++ left ∧ (∀ write ∈ saved, model.Accepts write) ∧
      (∀ write ∈ left.head?, ¬ model.Accepts write) ∧
      model.writeAll saved = ((model.writeAll writes).1, .ok ()) ∧
      (left = [] ↔ (model.writeAll writes).2 = .ok ()) := by
  induction writes generalizing model with
  | nil => exact ⟨[], [], rfl, by simp, by simp, rfl, by simp [writeAll]⟩
  | cons write rest ih =>
      rw [writeAll]
      cases stored : model.setValue write.attr write.name write.value with
      | error error =>
          have refused : ¬ model.Accepts write := by
            rw [accepts_iff, stored]
            simp
          exact ⟨[], write :: rest, rfl, by simp, by simpa using refused, rfl, by simp⟩
      | ok next =>
          obtain ⟨saved, left, rfl, accepted, refused, written, finished⟩ := ih next
          refine ⟨write :: saved, left, rfl, ?_, ?_, ?_, finished⟩
          · refine List.forall_mem_cons.mpr ⟨accepts_iff.mpr ⟨next, stored⟩, ?_⟩
            exact fun other member => (accepts_setValue stored).mp (accepted other member)
          · exact fun other first => (accepts_setValue stored).not.mp (refused other first)
          · rw [writeAll, stored]
            exact written

theorem writeAll_of_accepts {writes : List Write}
    (accepted : ∀ write ∈ writes, model.Accepts write) :
    ∃ changed, model.writeAll writes = (changed, .ok ()) := by
  obtain ⟨saved, left, rfl, _, refused, _, finished⟩ := model.writeAll_split writes
  cases left with
  | nil => exact ⟨_, Prod.ext rfl (finished.mp rfl)⟩
  | cons write rest => exact absurd (accepted write (by simp)) (refused write (by simp))

/-- Whether an instance has come to hold some values and has not changed otherwise.  The skeleton
has the names, types, order and positions of all properties. -/
structure ChangedBy (model : Instance) (saved : List Write) (changed : Instance) : Prop where
  retained : changed.retained = model.retained
  skeleton : changed.root.skeleton = model.root.skeleton
  values : ∀ write ∈ saved, ∃ position,
    model.root.positionOf? write.attr write.name = some position ∧
      changed.root.valueAt? position = some write.value
  others : ∀ position,
    (∀ write ∈ saved, model.root.positionOf? write.attr write.name ≠ some position) →
      changed.root.valueAt? position = model.root.valueAt? position

private theorem valueAt?_writeAll {writes : List Write} {position : List Nat}
    (elsewhere : ∀ write ∈ writes,
      model.root.positionOf? write.attr write.name ≠ some position) :
    (model.writeAll writes).1.root.valueAt? position = model.root.valueAt? position := by
  -- The positions of the leaves stay, because the skeleton does.
  suffices kept : (model.writeAll writes).1.root.skeleton = model.root.skeleton ∧
      (model.writeAll writes).1.root.valueAt? position = model.root.valueAt? position from kept.2
  apply holds_writeAll fun changed => changed.root.skeleton = model.root.skeleton ∧
    changed.root.valueAt? position = model.root.valueAt? position
  · exact ⟨rfl, rfl⟩
  · intro _ _ write member given stored
    obtain ⟨skeleton, same⟩ := given
    obtain ⟨place, found, sets⟩ := setsAt_setValue stored
    rw [positionOf?_congr skeleton] at found
    refine ⟨(skeleton_setValue stored).trans skeleton, ?_⟩
    rw [sets position, if_neg, same]
    intro here
    exact elsewhere write member (here ▸ found)

/-- Values that are all saved, each at its own place, change nothing else. -/
theorem changedBy_writeAll {writes : List Write} (distinct : (writes.map Write.place).Nodup)
    (saved : model.writeAll writes = (changed, .ok ())) : model.ChangedBy writes changed := by
  have whole : changed = (model.writeAll writes).1 := by rw [saved]
  have skeleton : changed.root.skeleton = model.root.skeleton := by
    rw [whole, skeleton_writeAll]
  refine ⟨by rw [whole, retained_writeAll], skeleton, ?_, ?_⟩
  · intro write member
    have stored := stored?_writeAll distinct saved member
    rw [stored?_eq_valueAt?, positionOf?_congr skeleton] at stored
    exact Option.bind_eq_some_iff.mp stored
  · intro position elsewhere
    rw [whole]
    exact valueAt?_writeAll elsewhere

theorem Sound.live?_join (sound : model.Sound) {attr name : String} (named : NamesAttribute attr) :
    model.live? (join attr name) = model.stored? attr name := by
  ext value
  rw [live?_eq_some sound.shaped.distinct_keys, sound.shaped.mem_values_iff_leafAt?]
  constructor
  · intro given
    obtain ⟨other, otherName, otherNamed, same, stored⟩ := given
    obtain ⟨rfl, rfl⟩ := join_injective named otherNamed same
    exact stored
  · exact fun stored => ⟨attr, name, named, rfl, stored⟩

end Instance

theorem Attribute.browseName_named (attr : Attribute) : NamesAttribute attr.browseName := by
  cases attr <;> decide +kernel

namespace Panel

variable {panel : Panel} {configuration : Configuration}

/-- The filters by their attributes and names. -/
def keys (panel : Panel) : List (Attribute × String) :=
  panel.filters.filters.map fun filter => (filter.attr, filter.name)

def placeOf (key : Attribute × String) : String × String :=
  (key.1.browseName, key.2)

theorem placeOf_injective : Function.Injective placeOf := by
  rintro ⟨attr, name⟩ ⟨other, otherName⟩ same
  obtain ⟨sameAttr, sameName⟩ := Prod.mk.inj same
  exact Prod.ext (Attribute.browseName_injective sameAttr) sameName

def rangeKeys : List (Attribute × String) :=
  [(.eventTime, fromEventTimeValue), (.eventTime, toEventTimeValue), (.severity, fromSeverity),
    (.severity, toSeverity)]

theorem isRangeValue_of_rangeKey {key : Attribute × String} (range : key ∈ rangeKeys) :
    isRangeValue key.2 = true := by
  have reserved : ∀ key ∈ rangeKeys, isRangeValue key.2 = true := by decide +kernel
  exact reserved key range

theorem places_checkedWrites (panel : Panel) :
    panel.checkedWrites.map Write.place = panel.keys.map placeOf := by
  rw [checkedWrites, keys, List.map_map, List.map_map]
  rfl

theorem places_rangeWrites (now : Instant) (panel : Panel) :
    ((panel.pickerWrites now ++ panel.severityWrites).map Write.place).Sublist
      (rangeKeys.map placeOf) := by
  have pickers : ((panel.pickerWrites now).map Write.place).Sublist
      [(eventTime, fromEventTimeValue), (eventTime, toEventTimeValue)] := by
    rw [pickerWrites]
    cases panel.gates.eventTime.lower <;> cases panel.gates.eventTime.upper <;> simp [Write.place]
  have limits : (panel.severityWrites.map Write.place).Sublist
      [(severity, fromSeverity), (severity, toSeverity)] := by
    rw [severityWrites]
    cases panel.gates.severity <;> simp [Write.place]
  rw [List.map_append]
  exact pickers.append limits

theorem key_of_rangeWrite {now : Instant} {write : Write}
    (member : write ∈ panel.pickerWrites now ++ panel.severityWrites) :
    ∃ key ∈ rangeKeys, write.attr = key.1.browseName ∧ write.name = key.2 := by
  obtain ⟨key, range, same⟩ :=
    List.mem_map.mp ((places_rangeWrites now panel).subset (List.mem_map_of_mem member))
  obtain ⟨attr, name⟩ := Prod.mk.inj same
  exact ⟨key, range, attr.symm, name.symm⟩

theorem isRangeValue_of_mem {now : Instant} {write : Write}
    (member : write ∈ panel.pickerWrites now ++ panel.severityWrites) :
    isRangeValue write.name = true := by
  obtain ⟨key, range, _, name⟩ := key_of_rangeWrite member
  rw [name]
  exact isRangeValue_of_rangeKey range

private theorem rangeKey_notMem {key : Attribute × String} (range : key ∈ rangeKeys) :
    key ∉ configuration.controlKeys := by
  obtain ⟨attr, name⟩ := key
  intro shown
  obtain ⟨flag, _, _, _, listed⟩ := Configuration.mem_controlKeys.mp shown
  obtain ⟨_, _, _, _, free, _⟩ := Flag.mem_controlNames.mp listed
  have reserved := isRangeValue_of_rangeKey range
  simp [free] at reserved

/-- A panel saves the states of its filters and the limits of the enabled ranges. -/
theorem mem_writes {now : Instant} {write : Write} :
    write ∈ panel.writes now ↔
      (∃ filter ∈ panel.filters.filters,
        ⟨filter.attr.browseName, filter.name, .boolean filter.checked, []⟩ = write) ∨
      (panel.gates.eventTime.lower = true ∧
        write = ⟨eventTime, fromEventTimeValue,
          .dateTime ((panel.controls.instant? fromEventTime).getD now), []⟩) ∨
      (panel.gates.eventTime.upper = true ∧
        write = ⟨eventTime, toEventTimeValue,
          .dateTime ((panel.controls.instant? toEventTime).getD now), []⟩) ∨
      (panel.gates.severity = true ∧ ∃ name ∈ [fromSeverity, toSeverity],
        ⟨severity, name, .uint16 (panel.controls.severity name),
          panel.controls.severityNotices name⟩ = write) := by
  simp only [writes, checkedWrites, pickerWrites, severityWrites, List.mem_append, List.mem_map,
    List.mem_ite_nil_right, List.mem_singleton, or_assoc]

theorem mem_writes_of_filter {filter : Filter} (listed : filter ∈ panel.filters.filters)
    (now : Instant) :
    { attr := filter.attr.browseName, name := filter.name, value := .boolean filter.checked,
      notices := [] } ∈ panel.writes now :=
  mem_writes.mpr (.inl ⟨filter, listed, rfl⟩)

/-- No two values are saved at the same place. -/
theorem distinct_writes (keys : panel.keys = configuration.controlKeys)
    (siblings : configuration.Distinct) (now : Instant) :
    ((panel.writes now).map Write.place).Nodup := by
  rw [writes, List.append_assoc, List.map_append, places_checkedWrites, keys]
  have ranges := places_rangeWrites now panel
  refine List.nodup_append'.mpr ⟨?_, ?_, ?_⟩
  · exact (Configuration.nodup_controlKeys siblings).map placeOf_injective
  · have distinct : (rangeKeys.map placeOf).Nodup := by decide +kernel
    exact distinct.sublist ranges
  · intro place shown range
    obtain ⟨key, keyShown, rfl⟩ := List.mem_map.mp shown
    obtain ⟨other, rangeKey, same⟩ := List.mem_map.mp (ranges.subset range)
    exact rangeKey_notMem (placeOf_injective same ▸ rangeKey) keyShown

end Panel

end AlarmView
