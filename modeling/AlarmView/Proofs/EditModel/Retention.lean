import AlarmView.Proofs.EditModel.Upkeep

/-!
# Values along the history of an edit model

The logical value of a path is the live one or else the retained one.  Along any history of
reconciliations and stored values it changes only where a value is stored, or where a reconciliation
adds a leaf that had none before.
-/

namespace AlarmView

open BrowseName Property

/-- The schema and the instance of an edit model. -/
structure EditState where
  schema : Property
  model : Instance

/-- What can happen to an edit model. -/
inductive EditOperation where
  | reconcile (now : Instant) (configuration : Configuration)
  | setValue (attr name : String) (value : PropertyValue)

/-- Whether a configuration of an operation is usable and has no equal names among siblings. -/
def EditOperation.WellFormed : EditOperation → Prop
  | reconcile _ configuration => configuration.WellFormed
  | setValue _ _ _ => True

namespace EditState

def start (schemaName modelName : String) : EditState where
  schema := .object schemaName
  model := .new modelName

/-- The state after an operation; one that fails leaves it as it was. -/
def step (state : EditState) : EditOperation → EditState
  | .reconcile now configuration =>
      match AlarmView.reconcile now configuration state.schema state.model with
      | .ok result => { schema := result.schema, model := result.model }
      | .error _ => state
  | .setValue attr name value =>
      match state.model.setValue attr name value with
      | .ok model => { state with model }
      | .error _ => state

/-- The state after some operations. -/
def run (state : EditState) (operations : List EditOperation) : EditState :=
  operations.foldl step state

/-- What holds in the whole history of an edit model: its trees are shaped and have the same
nodes. -/
structure Sound (state : EditState) : Prop where
  schema : state.schema.Shaped
  model : state.model.Sound
  nodes : (nodesList "" state.model.root.children).Perm (nodesList "" state.schema.children)

private theorem Sound.start (schemaName modelName : String) :
    (start schemaName modelName).Sound where
  schema := .object schemaName
  model := .new modelName
  nodes := .refl _

/-- Whether no path is both live and retained. -/
def Exclusive (state : EditState) : Prop :=
  ∀ path, state.model.live? path ≠ none → state.model.retained.get? path = none

/-- Whether storing a value succeeds with the value at its own path and all others as they were, or
fails and changes nothing. -/
def StoresOne (state : EditState) : Prop :=
  ∀ attr name value,
    match state.model.setValue attr name value with
    | .ok model => ∀ path, model.logical? path =
        if path = join attr name then some value else state.model.logical? path
    | .error _ => state.step (.setValue attr name value) = state

/-- Whether reconciling succeeds, keeps every value, and adds only defaults of leaves that are
shown and had no value; whatever is shown is live. -/
def OnlyAdds (state : EditState) : Prop :=
  ∀ (now : Instant) (configuration : Configuration), configuration.WellFormed →
    ∃ result, reconcile now configuration state.schema state.model = .ok result ∧
      (∀ path value, state.model.logical? path = some value →
        result.model.logical? path = some value) ∧
      (∀ path value, state.model.logical? path = none → result.model.logical? path = some value →
        configuration.Shows now path value ∧
          ∃ attr name, path = join attr name ∧ value = defaultValue now name) ∧
      ∀ path default, configuration.Shows now path default → result.model.live? path ≠ none

/-- Whether a stored value stays under its path until another one is stored there. -/
def Retains (state : EditState) : Prop :=
  ∀ attr name value, (∃ model, state.model.setValue attr name value = .ok model) →
    ∀ later : List EditOperation,
      (∀ operation ∈ later, operation.WellFormed ∧
        ∀ other, operation ≠ .setValue attr name other) →
      ((state.step (.setValue attr name value)).run later).model.logical? (join attr name) =
        some value

namespace Sound

variable {state : EditState}

theorem onlyAdds (sound : state.Sound) : state.OnlyAdds := by
  intro now configuration wellFormed
  obtain ⟨result, reconciled, schema, model⟩ :=
    reconcile_ok wellFormed now state.schema state.model
  have shaped : result.schema.Shaped := by
    rw [schema]
    exact Schema.shaped_syncAttributes sound.schema now wellFormed
  refine ⟨result, reconciled, ?_, ?_, ?_⟩
  · intro path value stored
    rw [model]
    exact sound.model.logical?_update shaped stored
  · intro path value absent stored
    rw [model] at stored
    rcases sound.model.of_logical?_update shaped stored with old | default
    · simp [absent] at old
    · rw [schema] at default
      rcases Schema.values_syncAttributes sound.schema.regular wellFormed.siblings default with
        old | shows
      · -- What the schema had before was also in the instance, with a value.
        obtain ⟨attr, name, named, rfl, _, node⟩ := sound.schema.node_of_value old
        obtain ⟨known, live⟩ :=
          sound.model.shaped.value_of_node named (sound.nodes.mem_iff.mpr node)
        have found := sound.model.separate.logical?_eq_some.mpr (.inl live)
        simp [absent] at found
      · refine ⟨shows, ?_⟩
        obtain ⟨attr, _, _, leaf, called, _, same, rfl⟩ := shows
        exact ⟨attr.name, leaf.name, same, Leaf.ofAttribute_default called⟩
  · intro path default shows
    obtain ⟨value, listed⟩ := Schema.key_of_shows sound.schema wellFormed shows
    rw [← schema] at listed
    obtain ⟨attr, name, named, rfl, _, node⟩ := shaped.node_of_value listed
    have after := sound.model.update shaped
    have nodes := sound.model.update_nodes shaped
    rw [← model] at after nodes
    obtain ⟨known, live⟩ := after.shaped.value_of_node named (nodes.mem_iff.mpr node)
    simp [after.separate.live?_eq_some.mpr live]

private theorem storesOne (sound : state.Sound) : state.StoresOne := by
  intro attr name value
  cases stored : state.model.setValue attr name value with
  | error error => simp [EditState.step, stored]
  | ok model => exact sound.model.logical?_setValue stored

theorem step (sound : state.Sound) {operation : EditOperation} (wellFormed : operation.WellFormed) :
    (state.step operation).Sound := by
  cases operation with
  | reconcile now configuration =>
      obtain ⟨result, reconciled, schema, model⟩ :=
        reconcile_ok wellFormed now state.schema state.model
      have shaped : result.schema.Shaped := by
        rw [schema]
        exact Schema.shaped_syncAttributes sound.schema now wellFormed
      have after : Sound { schema := result.schema, model := result.model } :=
        { schema := shaped
          model := model ▸ sound.model.update shaped
          nodes := model ▸ sound.model.update_nodes shaped }
      simpa [EditState.step, reconciled] using after
  | setValue attr name value =>
      cases stored : state.model.setValue attr name value with
      | error error => simpa [EditState.step, stored] using sound
      | ok model =>
          have after : Sound { state with model } :=
            { schema := sound.schema
              model := sound.model.setValue stored
              nodes := (Instance.nodes_setValue stored).symm ▸ sound.nodes }
          simpa [EditState.step, stored] using after

private theorem run (sound : state.Sound) {operations : List EditOperation}
    (wellFormed : ∀ operation ∈ operations, operation.WellFormed) :
    (state.run operations).Sound := by
  induction operations generalizing state with
  | nil => exact sound
  | cons operation rest ih =>
      exact ih (sound.step (wellFormed operation List.mem_cons_self))
        fun other member => wellFormed other (List.mem_cons_of_mem _ member)

private theorem logical?_step (sound : state.Sound) {operation : EditOperation}
    (wellFormed : operation.WellFormed) {attr name : String} (named : NamesAttribute attr)
    (elsewhere : ∀ other, operation ≠ .setValue attr name other) {value : PropertyValue}
    (stored : state.model.logical? (join attr name) = some value) :
    (state.step operation).model.logical? (join attr name) = some value := by
  cases operation with
  | reconcile now configuration =>
      obtain ⟨result, reconciled, keeps, _⟩ := sound.onlyAdds now configuration wellFormed
      simpa [EditState.step, reconciled] using keeps _ _ stored
  | setValue otherAttr otherName other =>
      cases changed : state.model.setValue otherAttr otherName other with
      | error error => simpa [EditState.step, changed] using stored
      | ok model =>
          have otherNamed := Instance.named_of_setValue sound.model.shaped changed
          have different : join attr name ≠ join otherAttr otherName := by
            intro same
            obtain ⟨rfl, rfl⟩ := join_injective named otherNamed same
            exact elsewhere other rfl
          have kept := sound.model.logical?_setValue changed (join attr name)
          rw [if_neg different, stored] at kept
          simpa [EditState.step, changed] using kept

private theorem logical?_run (sound : state.Sound) {later : List EditOperation} {attr name : String}
    (named : NamesAttribute attr)
    (others : ∀ operation ∈ later, operation.WellFormed ∧
      ∀ other, operation ≠ .setValue attr name other) {value : PropertyValue}
    (stored : state.model.logical? (join attr name) = some value) :
    (state.run later).model.logical? (join attr name) = some value := by
  induction later generalizing state with
  | nil => exact stored
  | cons operation rest ih =>
      obtain ⟨wellFormed, elsewhere⟩ := others operation List.mem_cons_self
      exact ih (sound.step wellFormed)
        (fun other member => others other (List.mem_cons_of_mem _ member))
        (sound.logical?_step wellFormed named elsewhere stored)

private theorem retains (sound : state.Sound) : state.Retains := by
  rintro attr name value ⟨model, stored⟩ later others
  have named := Instance.named_of_setValue sound.model.shaped stored
  have own := sound.model.logical?_setValue stored (join attr name)
  rw [if_pos rfl] at own
  have after : state.step (.setValue attr name value) = { state with model } := by
    simp [EditState.step, stored]
  have afterSound : (state.step (.setValue attr name value)).Sound := sound.step trivial
  rw [after] at afterSound ⊢
  exact afterSound.logical?_run named others own

end Sound

end EditState

/-- Values of an edit model change only where they are stored or come into being. -/
theorem run_retention (schemaName modelName : String) {operations : List EditOperation}
    (wellFormed : ∀ operation ∈ operations, operation.WellFormed) :
    let state := (EditState.start schemaName modelName).run operations
    state.Exclusive ∧ state.StoresOne ∧ state.OnlyAdds ∧ state.Retains := by
  intro state
  have sound : state.Sound := (EditState.Sound.start schemaName modelName).run wellFormed
  exact ⟨sound.model.apart, sound.storesOne, sound.onlyAdds, sound.retains⟩

/-- A priority that was checked and then hidden together with its attribute. -/
theorem run_retention_hidden_priority :
    let hidden := Configuration.builtin.updateAttribute "Priority" (Flag.set false)
    let state := (EditState.start "Schema" "Instance").run
      [.reconcile .unixEpoch .builtin, .setValue "Priority" "Urgent" (.boolean true),
        .reconcile .unixEpoch hidden]
    state.model.live? "Priority/Urgent" = none ∧
      state.model.logical? "Priority/Urgent" = some (.boolean true) ∧
      state.Exclusive ∧ state.StoresOne ∧ state.OnlyAdds ∧ state.Retains := by
  intro hidden state
  have hiddenWellFormed : hidden.WellFormed :=
    { usable := ⟨_, rfl⟩
      distinct := by decide +kernel
      named := by decide +kernel
      criteria := by decide +kernel }
  refine ⟨by decide +kernel, by decide +kernel, run_retention "Schema" "Instance" ?_⟩
  intro operation member
  simp only [List.mem_cons, List.not_mem_nil, or_false] at member
  rcases member with rfl | rfl | rfl
  · exact Configuration.builtin_wellFormed
  · trivial
  · exact hiddenWellFormed

end AlarmView
