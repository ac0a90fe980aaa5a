import AlarmView.Proofs.Property
import AlarmView.Proofs.Query.Compilation
import AlarmView.Proofs.Time.NextSecond
import Mathlib.Data.List.Forall2

/-!
# A later end of the event time

The last included second of the event time reaches a query as the bound behind it.  With a later
one the same query has later bounds and selects no fewer alarms, unless the bound of the earlier one
overtakes that of the later one, as far as the texts in queries show it.
-/

namespace AlarmView

open OpenRanges

namespace Instant

variable {s t : Instant}

/-- Whether a time comes before an instant as it is written in a query. -/
def IsBefore (time : Instant) (written : String) : Prop :=
  ∃ limit, ofText? written = some limit ∧ time < limit

/-- Whether every time before one bound of a query also comes before another one. -/
def Extends (s t : Instant) : Prop :=
  ∀ time : Instant, time.IsBefore s.queryText → time.IsBefore t.queryText

private theorem isBefore_queryText {time : Instant} :
    time.IsBefore t.queryText ↔ time < t.readBack.truncated := by
  simp [IsBefore, ofText?_queryText]

private theorem extends_iff : s.Extends t ↔ s.readBack.truncated ≤ t.readBack.truncated := by
  simp only [Extends, isBefore_queryText]
  constructor
  · intro wider reversed
    have irrefl := wider _ reversed
    rw [lt_iff] at irrefl
    omega
  · intro ordered time before
    rw [le_iff] at ordered
    rw [lt_iff] at before ⊢
    omega

private theorem extends_secondAfter_iff (ordered : s ≤ t) :
    (secondAfter s).Extends (secondAfter t) ↔ ¬ s.truncated.Overtakes t.truncated := by
  rw [extends_iff, readBack_secondAfter, readBack_secondAfter, ← secondAfter_truncated,
    ← secondAfter_truncated, secondAfter_le_iff (truncated_le ordered)]

end Instant

/-- What queries ask of an alarm; `meets` says which fragments hold of it. -/
structure Alarm where
  time : Instant
  severity : Int
  meets : String → Prop

def Clause.Holds (alarm : Alarm) : Clause → Prop
  | fragment text => alarm.meets text
  | window lower upper =>
      ¬ alarm.time.IsBefore lower.queryText ∧
        ∀ limit ∈ upper, alarm.time.IsBefore limit.queryText
  | before limit => alarm.time.IsBefore limit.queryText
  | severity lower upper => lower ≤ alarm.severity ∧ alarm.severity ≤ upper

/-- Every group has a clause that holds. -/
def Query.Selects (query : Query) (alarm : Alarm) : Prop :=
  ∀ group ∈ query.groups, ∃ clause ∈ group.clauses, clause.Holds alarm

/-- The same clause, or one with an upper bound of the event time that extends the other. -/
inductive Clause.Widens : Clause → Clause → Prop where
  | same (clause : Clause) : Widens clause clause
  | window (lower : Instant) {s t : Instant} (wider : s.Extends t) :
      Widens (.window lower (some s)) (.window lower (some t))
  | before {s t : Instant} (wider : s.Extends t) : Widens (.before s) (.before t)

structure Group.Widens (first second : Group) : Prop where
  attr : first.attr = second.attr
  clauses : List.Forall₂ Clause.Widens first.clauses second.clauses

/-- The same query up to upper bounds of the event time, which extend those of the other query. -/
def Query.Widens (first second : Query) : Prop :=
  List.Forall₂ Group.Widens first.groups second.groups

private theorem Query.Widens.refl (query : Query) : query.Widens query :=
  List.forall₂_same.mpr fun _ _ => ⟨rfl, List.forall₂_same.mpr fun clause _ => .same clause⟩

private theorem Clause.Widens.holds {first second : Clause} (widens : first.Widens second)
    {alarm : Alarm}
    (holds : first.Holds alarm) : second.Holds alarm := by
  cases widens with
  | same => exact holds
  | before wider => exact wider _ holds
  | window lower wider =>
      obtain ⟨late, early⟩ := holds
      refine ⟨late, fun limit closed => ?_⟩
      obtain rfl := Option.some.inj closed
      exact wider _ (early _ rfl)

private theorem Query.Widens.selects {first second : Query} (widens : first.Widens second)
    {alarm : Alarm}
    (selected : first.Selects alarm) : second.Selects alarm := by
  intro group member
  obtain ⟨narrow, narrowMember, wide⟩ := exists_mem_of_forall₂ widens member
  obtain ⟨clause, clauseMember, holds⟩ := selected narrow narrowMember
  obtain ⟨other, otherMember, wider⟩ := exists_mem_of_forall₂ wide.clauses.flip clauseMember
  exact ⟨other, otherMember, wider.holds holds⟩

namespace OpenRanges

/-- The limits with this bound behind the event time. -/
def upTo (ranges : OpenRanges) (upper : Instant) : OpenRanges :=
  { ranges with toEventTime := some upper }

variable {ranges : OpenRanges} {s t : Instant}

private theorem clausesOf_widens (wider : s.Extends t) (opened : Bool) (filters : List Filter) :
    List.Forall₂ Clause.Widens ((ranges.upTo s).clausesOf opened filters)
      ((ranges.upTo t).clausesOf opened filters) := by
  have same (clauses : List Clause) : List.Forall₂ Clause.Widens clauses clauses :=
    List.forall₂_same.mpr fun clause _ => .same clause
  induction filters generalizing opened with
  | nil => exact .nil
  | cons filter rest ih =>
      rw [clausesOf, clausesOf]
      cases filter.condition with
      | fragment text => exact .cons (.same _) (ih opened)
      | range bound =>
          cases bound with
          | severity => exact List.rel_append (same _) (ih opened)
          | fromEventTime =>
              -- A window shows the bound only if a filter behind it closes the window.
              refine List.rel_append ?_ (ih true)
              change List.Forall₂ _ (ranges.fromEventTime.toList.map _)
                (ranges.fromEventTime.toList.map _)
              cases ranges.fromEventTime with
              | none => exact .nil
              | some lower =>
                  refine .cons ?_ .nil
                  split
                  · exact .window lower wider
                  · exact .same _
          | toEventTime =>
              refine List.rel_append ?_ (ih false)
              split
              · exact .nil
              · exact .cons (.before wider) .nil

private theorem queryOf_widens (wider : s.Extends t) (filters : List Filter) :
    ((ranges.upTo s).queryOf filters).Widens ((ranges.upTo t).queryOf filters) := by
  rw [Query.Widens, queryOf, queryOf, List.forall₂_map_left_iff, List.forall₂_map_right_iff]
  refine List.forall₂_same.mpr fun attr _ => ⟨rfl, ?_⟩
  exact clausesOf_widens wider false _

end OpenRanges

private theorem RangeInputs.through_toEventTime (inputs : RangeInputs) (gates : RangeGates)
    (last : Instant) : RangeInputs.through { inputs with toEventTime := last } gates =
      if gates.eventTime.upper then (inputs.through gates).upTo (secondAfter last)
      else inputs.through gates := by
  cases closed : gates.eventTime.upper <;> simp [through, upTo, closed]

/-- Whether a query with the second of two instants as the last included second has later bounds
than with the first, and selects no fewer alarms. -/
def NeverNarrows (s t : Instant) : Prop :=
  ∀ (filters : List Filter) (inputs : RangeInputs) (configuration : Configuration) (query : Query),
    compile filters { inputs with toEventTime := s } configuration = .ok query →
    ∃ other, compile filters { inputs with toEventTime := t } configuration = .ok other ∧
      query.Widens other ∧ ∀ alarm, query.Selects alarm → other.Selects alarm

private theorem neverNarrows_of_extends {s t : Instant}
    (wider : (secondAfter s).Extends (secondAfter t)) : NeverNarrows s t := by
  intro filters inputs configuration query compiled
  obtain ⟨gates, usable, accepted, rfl⟩ := compile_eq_ok.mp compiled
  have widens : ((RangeInputs.through { inputs with toEventTime := s } gates).queryOf
      filters).Widens
        ((RangeInputs.through { inputs with toEventTime := t } gates).queryOf filters) := by
    rw [inputs.through_toEventTime gates s, inputs.through_toEventTime gates t]
    split
    · exact queryOf_widens wider filters
    · exact .refl _
  refine ⟨_, compile_eq_ok.mpr ⟨gates, usable, ?_, rfl⟩, widens, fun alarm => widens.selects⟩
  intro filter member checked
  have own := accepted filter member checked
  rw [inputs.through_toEventTime gates s] at own
  rw [inputs.through_toEventTime gates t]
  split at own
  · next shown =>
      rw [if_pos shown]
      exact own
  · next hidden => rwa [if_neg hidden]

/-- The upper bound of the event time alone. -/
def Filter.upperBound : Filter where
  attr := .eventTime
  name := BrowseName.toEventTime
  condition := .range .toEventTime
  checked := true

def Query.endingBefore (limit : Instant) : Query where
  groups := [{ attr := .eventTime, clauses := [.before limit] }]

private theorem compile_upperBound (inputs : RangeInputs) :
    compile [.upperBound] inputs .builtin =
      .ok (.endingBefore (secondAfter inputs.toEventTime)) := by
  refine compile_eq_ok.mpr ⟨_, rfl, ?_, rfl⟩
  intro filter member _
  obtain rfl := List.mem_singleton.mp member
  rfl

private theorem selects_endingBefore {limit : Instant} {alarm : Alarm} :
    (Query.endingBefore limit).Selects alarm ↔ alarm.time.IsBefore limit.queryText := by
  simp [Query.Selects, Query.endingBefore, Clause.Holds]

private theorem extends_of_neverNarrows {s t : Instant} (wider : NeverNarrows s t) :
    (secondAfter s).Extends (secondAfter t) := by
  intro time before
  have first := compile_upperBound { RangeInputs.initialAt .unixEpoch with toEventTime := s }
  have second := compile_upperBound { RangeInputs.initialAt .unixEpoch with toEventTime := t }
  obtain ⟨other, compiled, _, selects⟩ := wider _ _ _ _ first
  obtain rfl := Except.ok.inj (compiled.symm.trans second)
  let alarm : Alarm := { time, severity := 0, meets := fun _ => True }
  exact selects_endingBefore.mp (selects alarm (selects_endingBefore.mpr before))

theorem neverNarrows_iff {s t : Instant} (ordered : s ≤ t) :
    NeverNarrows s t ↔ ¬ s.truncated.Overtakes t.truncated := by
  rw [← Instant.extends_secondAfter_iff ordered]
  exact ⟨extends_of_neverNarrows, neverNarrows_of_extends⟩

/-- A later instant has a later bound exactly if it is not overtaken, and then no query selects
fewer alarms with it.  Queries write instants in steps of a hundred nanoseconds, so some query
selects fewer alarms exactly if the instants are overtaken in such steps. -/
theorem bound_mono_iff {s t : Instant} (ordered : s ≤ t) :
    (secondAfter s ≤ secondAfter t ↔ ¬ s.Overtakes t) ∧
      (secondAfter s ≤ secondAfter t → NeverNarrows s t) ∧
      (NeverNarrows s t ↔ ¬ s.truncated.Overtakes t.truncated) := by
  refine ⟨Instant.secondAfter_le_iff ordered, fun later => ?_, neverNarrows_iff ordered⟩
  exact (neverNarrows_iff ordered).mpr
    (mt Instant.Overtakes.of_truncated ((Instant.secondAfter_le_iff ordered).mp later))

namespace Instant

/-- An instant of the last second of 2016, or of the leap second behind it. -/
def endOf2016 (nano : Nat) (nano_lt : nano < 2000000000) : Instant :=
  { endOfLeapSecond with nano, nano_lt }

/-- An instant of one of the last two seconds of all. -/
def endOfTime (second nano : Nat) (last : second = 86398 ∨ second = 86399)
    (nano_lt : nano < 1000000000) : Instant where
  day := 95745398
  second
  nano
  firstDay_le := by decide
  day_lt := by decide
  second_lt := by omega
  nano_lt := by omega

end Instant

open Instant in
/-- A part of the leap second that is greater than the part of the second in front of it. -/
theorem bound_mono_iff_leapSecond :
    let s := endOf2016 200000000 (by decide)
    let t := endOf2016 1500000000 (by decide)
    s.queryText = "2016-12-31T23:59:59.2000000Z" ∧ t.queryText = "2016-12-31T23:59:60.5000000Z" ∧
      s ≤ t ∧ ¬ s.Overtakes t ∧ NeverNarrows s t := by
  intro s t
  have ordered : s ≤ t := by decide
  have later : secondAfter s ≤ secondAfter t := by decide
  obtain ⟨monotone, widens, _⟩ := bound_mono_iff ordered
  exact ⟨by decide, by decide, ordered, monotone.mp later, widens later⟩

open Instant in
/-- The bound of a leap second overtaken by that of the second in front of it, and a bound in the
last second of all overtaken by that of the second in front of that. -/
theorem not_bound_mono :
    (let s := endOf2016 900000000 (by decide)
      let t := endOf2016 1100000000 (by decide)
      s.queryText = "2016-12-31T23:59:59.9000000Z" ∧ t.queryText = "2016-12-31T23:59:60.1000000Z" ∧
        s ≤ t ∧ (secondAfter s).queryText = "2017-01-01T00:00:00.9000000Z" ∧
        (secondAfter t).queryText = "2017-01-01T00:00:00.1000000Z" ∧
        ¬ secondAfter s ≤ secondAfter t ∧ ¬ NeverNarrows s t) ∧
    (let s := endOfTime 86398 900000000 (by decide) (by decide)
      let t := endOfTime 86399 100000000 (by decide) (by decide)
      s.queryText = "+262142-12-31T23:59:58.9000000Z" ∧
        t.queryText = "+262142-12-31T23:59:59.1000000Z" ∧
        s ≤ t ∧ (secondAfter s).queryText = "+262142-12-31T23:59:59.9000000Z" ∧
        (secondAfter t).queryText = "+262142-12-31T23:59:59.1000000Z" ∧
        ¬ secondAfter s ≤ secondAfter t ∧ ¬ NeverNarrows s t) := by
  constructor
  · intro s t
    have ordered : s ≤ t := by decide
    have overtaken : s.truncated.Overtakes t.truncated :=
      .leapSecond (by decide) (by decide) (by decide) (by decide) (by decide)
    refine ⟨by decide, by decide, ordered, by decide, by decide, by decide, ?_⟩
    exact fun widens => (neverNarrows_iff ordered).mp widens overtaken
  · intro s t
    have ordered : s ≤ t := by decide
    have overtaken : s.truncated.Overtakes t.truncated :=
      .finalSecond (by decide) (by decide) (by decide)
    refine ⟨by decide, by decide, ordered, by decide, by decide, by decide, ?_⟩
    exact fun widens => (neverNarrows_iff ordered).mp widens overtaken

end AlarmView
