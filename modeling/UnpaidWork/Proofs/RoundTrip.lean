import UnpaidWork.Proofs.Contents
import UnpaidWork.Proofs.Records

/-!
Reading undoes writing for everything that goes over the wire. A value comes
back with its durations settle toward zero to whole minutes, and the same if they
were whole, as long as all its leap seconds end a minute; and what came back is
written like the value itself. An action is kept whole until its kind is known, so
its fields have to be free of faults at their depth; and an outcome names its kind
before its plan, so the plan is never kept.
-/
namespace UnpaidWork.Wire
open Json

/-! The records -/

section Fields
variable {σ α : Type} {levels : Nat} {settle : σ → σ} {name : String} {f : Format α}

/-- A field that is read as it was written. -/
theorem plain_faithful {get : σ → α} (faithful : f.Faithful 0 id)
    (same : ∀ record, get (settle record) = get record) :
    (required name get f).Faithful levels settle get :=
  field_faithful none none faithful (Nat.zero_le _) same

/-- A field that is read as it was written and may be null. -/
theorem optional_faithful {get : σ → Option α} (faithful : f.Faithful 0 id)
    (present : ∀ value, (f.write value).doc ≠ .null)
    (same : ∀ record, get (settle record) = get record) :
    (optional name get f).Faithful levels settle get :=
  field_faithful (some none) none (nullable_faithful faithful present) (Nat.zero_le _)
    fun record => by rw [same, Option.map_id, id]

/-- A field that may come back changed. -/
theorem required_faithful {get : σ → α} {settleField : α → α} {fieldLevels : Nat}
    (faithful : f.Faithful fieldLevels settleField) (order : fieldLevels ≤ levels)
    (same : ∀ record, get (settle record) = settleField (get record)) :
    (required name get f).Faithful levels settle get :=
  field_faithful none none faithful order same

end Fields

theorem frequency_faithful : frequency.Faithful 0 id :=
  variants_faithful fun value => by cases value <;> rfl

theorem triggerType_faithful : triggerType.Faithful 0 id :=
  variants_faithful fun value => by cases value <;> rfl

theorem retainReason_faithful : retainReason.Faithful 0 id :=
  variants_faithful fun value => by cases value <;> rfl

theorem allocation_faithful : allocation.Faithful 1 Allocation.contents.settle := by
  refine record_faithful ?_ (by decide)
  refine .seq (.seq (.seq (.seq (.seq (.seq (.seq (.seq (.map _ ?_) ?_) ?_) ?_) ?_) ?_) ?_) ?_) ?_
  · exact plain_faithful int64_faithful fun _ => rfl
  · exact optional_faithful text_faithful (fun _ => nofun) fun _ => rfl
  · exact plain_faithful text_faithful fun _ => rfl
  · exact plain_faithful frequency_faithful fun _ => rfl
  · exact plain_faithful weekday_faithful fun _ => rfl
  · exact plain_faithful date_faithful fun _ => rfl
  · exact optional_faithful date_faithful (fun _ => nofun) fun _ => rfl
  · exact required_faithful timeOfDay_faithful (Nat.zero_le _) fun _ => rfl
  · exact required_faithful timeOfDay_faithful (Nat.zero_le _) fun _ => rfl

theorem existingAppointment_faithful :
    existingAppointment.Faithful 1 ExistingAppointment.contents.settle := by
  refine record_faithful ?_ (by decide)
  refine .seq (.seq (.seq (.seq (.seq (.seq (.seq (.map _ ?_) ?_) ?_) ?_) ?_) ?_) ?_) ?_
  · exact plain_faithful int64_faithful fun _ => rfl
  · exact plain_faithful text_faithful fun _ => rfl
  · exact plain_faithful date_faithful fun _ => rfl
  · exact required_faithful timeOfDay_faithful (Nat.zero_le _) fun _ => rfl
  · exact required_faithful timeOfDay_faithful (Nat.zero_le _) fun _ => rfl
  · exact plain_faithful boolean_faithful fun _ => rfl
  · exact field_faithful _ _ (nullable_faithful minutes_faithful fun _ => nofun) (Nat.zero_le _)
      fun _ => rfl
  · exact optional_faithful int64_faithful (fun _ => nofun) fun _ => rfl

theorem requiredAppointmentFields_faithful :
    requiredAppointmentFields.Faithful 0 RequiredAppointment.contents.settle fun r => r := by
  refine .seq (.seq (.seq (.seq (.map _ ?_) ?_) ?_) ?_) ?_
  · exact plain_faithful date_faithful fun _ => rfl
  · exact required_faithful timeOfDay_faithful (Nat.zero_le _) fun _ => rfl
  · exact required_faithful timeOfDay_faithful (Nat.zero_le _) fun _ => rfl
  · exact plain_faithful text_faithful fun _ => rfl
  · exact plain_faithful int64_faithful fun _ => rfl

theorem requiredAppointment_faithful : requiredAppointment.Faithful 1 RequiredAppointment.contents.settle :=
  record_faithful requiredAppointmentFields_faithful (by decide)

theorem trigger_faithful : trigger.Faithful 1 id := by
  refine record_faithful (.seq (.map _ ?_) ?_) (by decide)
  · exact plain_faithful triggerType_faithful fun _ => rfl
  · exact plain_faithful text_faithful fun _ => rfl

theorem request_faithful : request.Faithful 3 Request.contents.settle := by
  refine record_faithful ?_ (by decide)
  refine .seq (.seq (.seq (.seq (.seq (.map _ ?_) ?_) ?_) ?_) ?_) ?_
  · exact plain_faithful date_faithful fun _ => rfl
  · exact required_faithful trigger_faithful (by decide) fun _ => rfl
  · exact required_faithful minutes_faithful (Nat.zero_le _) fun _ => rfl
  · exact required_faithful (listOf_faithful allocation_faithful) (Nat.le_refl _)
      fun _ => rfl
  · exact required_faithful (listOf_faithful existingAppointment_faithful) (Nat.le_refl _)
      fun _ => rfl
  · exact required_faithful nonWorkingDates_faithful (by decide) fun _ => rfl

theorem requirementDetails_faithful : requirementDetails.Faithful 3 RequirementDetails.contents.settle := by
  refine record_faithful (.seq (.seq (.seq (.map _ ?_) ?_) ?_) ?_) (by decide)
  · exact required_faithful minutes_faithful (Nat.zero_le _) fun _ => rfl
  · exact required_faithful (listOf_faithful allocation_faithful) (Nat.le_refl _)
      fun _ => rfl
  · exact required_faithful (listOf_faithful existingAppointment_faithful) (Nat.le_refl _)
      fun _ => rfl
  · exact required_faithful nonWorkingDates_faithful (by decide) fun _ => rfl

theorem schedule_faithful : schedule.Faithful 3 Schedule.contents.settle := by
  refine record_faithful (.seq (.seq (.map _ ?_) ?_) ?_) (by decide)
  · exact required_faithful (listOf_faithful requiredAppointment_faithful) (Nat.le_refl _)
      fun _ => rfl
  · exact required_faithful (listOf_faithful existingAppointment_faithful) (Nat.le_refl _)
      fun _ => rfl
  · exact required_faithful minutes_faithful (Nat.zero_le _) fun _ => rfl

theorem config_faithful : config.Faithful 1 id := by
  refine record_faithful (.seq (.seq (.map _ ?_) ?_) ?_) (by decide)
  · exact field_faithful _ _ uint32_faithful (Nat.zero_le _) fun _ => rfl
  · exact field_faithful _ _ boolean_faithful (Nat.zero_le _) fun _ => rfl
  · exact field_faithful _ _ uint64_faithful (Nat.zero_le _) fun _ => rfl

theorem creationRequest_faithful : creationRequest.Faithful 3 CreationRequest.contents.settle := by
  refine record_faithful (.seq (.seq (.seq (.map _ ?_) ?_) ?_) ?_) (by decide)
  · exact plain_faithful text_faithful fun _ => rfl
  · exact plain_faithful int64_faithful fun _ => rfl
  · exact plain_faithful text_faithful fun _ => rfl
  · exact required_faithful (listOf_faithful requiredAppointment_faithful) (Nat.le_refl _)
      fun _ => rfl

/-! Actions and outcomes -/

theorem retentionFields_faithful :
    retentionFields.Faithful 1 (Prod.map ExistingAppointment.contents.settle id) fun r => r := by
  refine .seq (.map _ ?_) ?_
  · exact required_faithful existingAppointment_faithful (Nat.le_refl _) fun _ => rfl
  · exact plain_faithful retainReason_faithful fun _ => rfl

section Tagged
variable {σ : Type} {fields : Fields σ σ} {levels : Nat} {settle get : σ → σ}

/-- An action is read by the kind that it names, from the fields beside the kind. -/
theorem readAction_docMembers (faithful : fields.Faithful levels settle get) {kindName : String}
    {kind : ActionKind} (known : named actionKinds kindName = .ok kind)
    (distinct : (actionKey :: fields.names).Nodup) {p : Place} (record : σ)
    (room : p.depth + (levels + 1) ≤ deepest) :
    readAction p
        (Value.object ((actionKey, .string kindName) :: fields.write record)).doc =
      readActionFields p (.object (docMembers (fields.write record)) .closed) kind := by
  rw [← faithful.names record] at distinct
  have kept := faithful.kept p.inner.depth record (by dsimp only [Place.inner]; omega)
  have others : otherProblems [actionKey] (fun value => value.keptFault? p.inner.depth)
      (docMembers ((actionKey, .string kindName) :: fields.write record)) .closed = .ok () :=
    otherProblems_eq_ok fun entry listed => by
      rcases List.mem_cons.mp listed with own | beside
      · rw [own]
        exact .inl List.mem_cons_self
      · exact .inr (kept entry beside)
  obtain ⟨index, found⟩ : ∃ index, withName actionKey
      (docMembers ((actionKey, .string kindName) :: fields.write record)) =
        [(index, (Value.string kindName).doc)] :=
    exists_withName distinct List.mem_cons_self
  have kindRead : (required actionKey (fun _ : Unit => ActionKind.create)
      ⟨fun _ => .null, readName actionKinds⟩).fromMembers p.inner
        (docMembers ((actionKey, .string kindName) :: fields.write record)) = .ok kind :=
    field_fromMembers found known
  have beside : (docMembers ((actionKey, .string kindName) :: fields.write record)).filter
      (fun member => member.name? ≠ some actionKey) = docMembers (fields.write record) := by
    rw [docMembers, List.filter_cons_of_neg (by simp [Member.name?, Member.key])]
    refine List.filter_eq_self.mpr fun member listed => ?_
    obtain ⟨entry, inFields, rfl⟩ := mem_docMembers listed
    refine decide_eq_true fun same => (List.nodup_cons.mp distinct).1 ?_
    rw [← Option.some.inj same]
    exact List.mem_map_of_mem inFields
  simp only [Value.doc, readAction, others, kindRead, beside]
  rfl

/-- Together with its kind an action is written the same where its fields are. -/
theorem write_tagged (faithful : fields.Faithful levels settle get) (kindName : String)
    (record : σ) : Value.object ((actionKey, .string kindName) :: fields.write (settle record)) =
      Value.object ((actionKey, .string kindName) :: fields.write record) := by
  rw [faithful.write]

/-- Together with its kind an action is free of faults where its fields are. -/
theorem keptFault?_tagged (faithful : fields.Faithful levels settle get) (kindName : String)
    {depth : Nat} (record : σ) (room : depth + (levels + 1) ≤ deepest) :
    (Value.object ((actionKey, .string kindName) :: fields.write record)).doc.keptFault? depth =
      none := by
  refine keptFault?_object (by omega) fun entry listed => ?_
  rcases List.mem_cons.mp listed with own | beside
  · rw [own]
    rfl
  · exact faithful.kept (depth + 1) record (by omega) entry beside

end Tagged

theorem action_faithful : action.Faithful 2 Action.contents.settle where
  read p value room := by
    cases value with
    | create r =>
      have few : p.depth + (0 + 1) ≤ deepest := by omega
      have fields := readRecord_docMembers requiredAppointmentTitle
        requiredAppointmentFields_faithful (by decide) r (show p.kept.depth + _ ≤ _ from few)
      have read := readAction_docMembers requiredAppointmentFields_faithful
        (rfl : named actionKinds "CREATE_APPOINTMENT" = .ok .create) (by decide) r few
      rw [readActionFields, fields] at read
      exact read
    | retain a reason =>
      have fields := readRecord_docMembers "struct variant SchedulingAction::RetainAppointment"
        retentionFields_faithful (by decide) (a, reason) (show p.kept.depth + _ ≤ _ from room)
      have read := readAction_docMembers retentionFields_faithful
        (rfl : named actionKinds "RETAIN_APPOINTMENT" = .ok .retain) (by decide) (a, reason) room
      rw [readActionFields, fields] at read
      exact read
  write value := by
    cases value with
    | create r => exact write_tagged requiredAppointmentFields_faithful _ r
    | retain a reason => exact write_tagged retentionFields_faithful _ (a, reason)
  kept depth value room := by
    cases value with
    | create r => exact keptFault?_tagged requiredAppointmentFields_faithful _ r (by omega)
    | retain a reason => exact keptFault?_tagged retentionFields_faithful _ (a, reason) room

theorem plan_faithful : plan.Faithful 4 Plan.contents.settle := by
  refine record_faithful (.seq (.map _ ?_) ?_) (by decide)
  · exact required_faithful (listOf_faithful action_faithful) (Nat.le_refl _) fun _ => rfl
  · exact required_faithful minutes_faithful (Nat.zero_le _) fun _ => rfl

theorem outcomeKind_faithful : outcomeKind.Faithful 0 id :=
  variants_faithful fun value => by cases value <;> rfl

section Outcome
variable {p : Place} {o : Outcome}

theorem readOutcome_object {entries : List (String × Value)}
    (known : ∀ entry ∈ entries, entry.1 ∈ [outcomeKey, planKey])
    (read : outcomeOfMembers p.inner (docMembers entries) = .ok o) :
    readOutcome p (Value.object entries).doc = .ok o := by
  have others : otherProblems [outcomeKey, planKey] Doc.skippedFault? (docMembers entries)
      .closed = .ok () := otherProblems_eq_ok fun entry listed => .inl (known entry listed)
  simp only [Value.doc, readOutcome, others, read]
  rfl

/-- An outcome without a plan is read by its kind alone. -/
theorem outcomeOfMembers_alone {kind : OutcomeKind} (alone : outcomeAlone kind = .ok o)
    (room : p.depth ≤ deepest) :
    outcomeOfMembers p (docMembers [(outcomeKey, outcomeKind.write kind)]) = .ok o := by
  have kinds : withName outcomeKey (docMembers [(outcomeKey, outcomeKind.write kind)]) =
      [(0, (outcomeKind.write kind).doc)] := rfl
  have plans : withName planKey (docMembers [(outcomeKey, outcomeKind.write kind)]) = [] := rfl
  simp only [outcomeOfMembers, kinds, plans, List.head?_cons, List.head?_nil,
    outcomeKind_faithful.read p kind room, id, alone]
  rfl

/-- The plan of an outcome is read where it stands, after the kind. -/
theorem outcomeOfMembers_plan {given found : Plan}
    (read : plan.read p (plan.write given).doc = .ok found) (room : p.depth ≤ deepest) :
    outcomeOfMembers p (docMembers [(outcomeKey, outcomeKind.write .insufficient),
      (planKey, plan.write given)]) = .ok (.existingAppointmentsInsufficient found) := by
  have kinds : withName outcomeKey (docMembers [(outcomeKey, outcomeKind.write .insufficient),
      (planKey, plan.write given)]) = [(0, (outcomeKind.write .insufficient).doc)] := rfl
  have plans : withName planKey (docMembers [(outcomeKey, outcomeKind.write .insufficient),
      (planKey, plan.write given)]) = [(1, (plan.write given).doc)] := rfl
  simp only [outcomeOfMembers, kinds, plans, List.head?_cons,
    outcomeKind_faithful.read p .insufficient room, id, readOutcomePlan, read]
  rfl

theorem outcome_faithful : outcome.Faithful 5 Outcome.contents.settle where
  read p value room := by
    have inner : p.inner.depth + 4 ≤ deepest := by
      dsimp only [Place.inner]
      omega
    cases value with
    | requirementAlreadySatisfied =>
      exact readOutcome_object (by simp)
        (outcomeOfMembers_alone (rfl : outcomeAlone .alreadySatisfied = _) (by omega))
    | existingAppointmentsSufficient =>
      exact readOutcome_object (by simp)
        (outcomeOfMembers_alone (rfl : outcomeAlone .sufficient = _) (by omega))
    | existingAppointmentsInsufficient given =>
      exact readOutcome_object (by simp)
        (outcomeOfMembers_plan (plan_faithful.read p.inner given inner) (by omega))
  write value := by
    cases value with
    | existingAppointmentsInsufficient given =>
      change Value.object [_, (planKey, plan.write (Plan.contents.settle given))] = _
      rw [plan_faithful.write]
      rfl
    | _ => rfl
  kept depth value room := by
    have kind (kind : OutcomeKind) : (outcomeKind.write kind).doc.keptFault? (depth + 1) = none :=
      outcomeKind_faithful.kept (depth + 1) kind (by omega)
    cases value with
    | existingAppointmentsInsufficient given =>
      have own := plan_faithful.kept (depth + 1) given (by omega)
      exact keptFault?_object (by omega) (List.forall_mem_cons.mpr
        ⟨kind .insufficient, List.forall_mem_singleton.mpr own⟩)
    | requirementAlreadySatisfied =>
      exact keptFault?_object (by omega) (List.forall_mem_singleton.mpr (kind .alreadySatisfied))
    | existingAppointmentsSufficient =>
      exact keptFault?_object (by omega) (List.forall_mem_singleton.mpr (kind .sufficient))

end Outcome

/-! The whole wire format -/

/-- Reading undoes writing. What is read is the value with its times settled and its
durations cut. So only the durations are cut if all its leap seconds end a minute,
and it is the value itself if besides all its durations are whole minutes. In any
case it is written with the very same text. -/
structure Format.RoundTrips {α : Type} (f : Format α) (contents : Contents α) : Prop where
  back : ∀ value,
    f.readText (f.writeText value) = .ok (contents.change TimeOfDay.settled Duration.cut value)
  cut : ∀ value, (∀ t ∈ contents.times value, t.LeapEndsMinute) →
    f.readText (f.writeText value) = .ok (contents.change id Duration.cut value)
  whole : ∀ value, (∀ t ∈ contents.times value, t.LeapEndsMinute) →
    (∀ d ∈ contents.durations value, d.IsWhole) → f.readText (f.writeText value) = .ok value
  again : ∀ value, ∃ found, f.readText (f.writeText value) = .ok found ∧
    f.writeText found = f.writeText value

theorem Format.Faithful.roundTrips {α : Type} {f : Format α} {levels : Nat} {c : Contents α}
    (faithful : f.Faithful levels c.settle) (few : levels ≤ deepest) : f.RoundTrips c := by
  have back (value : α) : f.readText (f.writeText value) = .ok (c.settle value) := by
    have room : Place.outermost.depth + levels ≤ deepest := by
      rw [Place.outermost, Nat.zero_add]
      exact few
    rw [Format.readText, Format.writeText, ofText_write]
    simp only [faithful.read .outermost value room]
    rfl
  refine ⟨back, fun value ends => ?_, fun value ends whole => ?_, fun value => ?_⟩
  · rw [back, Contents.settle_eq_cut ends]
  · rw [back, Contents.settle_eq_self ends whole]
  · refine ⟨c.settle value, back value, ?_⟩
    rw [Format.writeText, Format.writeText, faithful.write]

/-- A format without times and durations reads back exactly what it writes. -/
theorem Format.Faithful.roundTrips_exact {α : Type} {f : Format α} {levels : Nat}
    (faithful : f.Faithful levels id) (few : levels ≤ deepest) : f.RoundTrips .empty :=
  faithful.roundTrips (c := .empty) few

/-- Reading undoes writing over the whole wire format: for what goes over the
wire as a whole and for every type inside. -/
theorem reading_undoes_writing :
    request.RoundTrips Request.contents ∧
    schedule.RoundTrips Schedule.contents ∧
    plan.RoundTrips Plan.contents ∧
    outcome.RoundTrips Outcome.contents ∧
    requirementDetails.RoundTrips RequirementDetails.contents ∧
    creationRequest.RoundTrips CreationRequest.contents ∧
    config.RoundTrips .empty ∧
    action.RoundTrips Action.contents ∧
    existingAppointment.RoundTrips ExistingAppointment.contents ∧
    requiredAppointment.RoundTrips RequiredAppointment.contents ∧
    allocation.RoundTrips Allocation.contents ∧
    trigger.RoundTrips .empty ∧
    nonWorkingDates.RoundTrips .empty ∧
    frequency.RoundTrips .empty ∧
    triggerType.RoundTrips .empty ∧
    retainReason.RoundTrips .empty ∧
    minutes.RoundTrips Duration.contents ∧
    date.RoundTrips .empty ∧
    timeOfDay.RoundTrips TimeOfDay.contents ∧
    weekday.RoundTrips .empty := by
  refine ⟨?_, ?_, ?_, ?_, ?_, ?_, ?_, ?_, ?_, ?_, ?_, ?_, ?_, ?_, ?_, ?_, ?_, ?_, ?_, ?_⟩
  · exact request_faithful.roundTrips (by decide)
  · exact schedule_faithful.roundTrips (by decide)
  · exact plan_faithful.roundTrips (by decide)
  · exact outcome_faithful.roundTrips (by decide)
  · exact requirementDetails_faithful.roundTrips (by decide)
  · exact creationRequest_faithful.roundTrips (by decide)
  · exact config_faithful.roundTrips_exact (by decide)
  · exact action_faithful.roundTrips (by decide)
  · exact existingAppointment_faithful.roundTrips (by decide)
  · exact requiredAppointment_faithful.roundTrips (by decide)
  · exact allocation_faithful.roundTrips (by decide)
  · exact trigger_faithful.roundTrips_exact (by decide)
  · exact nonWorkingDates_faithful.roundTrips_exact (by decide)
  · exact frequency_faithful.roundTrips_exact (Nat.zero_le _)
  · exact triggerType_faithful.roundTrips_exact (Nat.zero_le _)
  · exact retainReason_faithful.roundTrips_exact (Nat.zero_le _)
  · exact minutes_faithful.roundTrips (c := Duration.contents) (Nat.zero_le _)
  · exact date_faithful.roundTrips_exact (Nat.zero_le _)
  · exact timeOfDay_faithful.roundTrips (c := TimeOfDay.contents) (Nat.zero_le _)
  · exact weekday_faithful.roundTrips_exact (Nat.zero_le _)

/-- A slot to the leap second at the end of a day is read as it was written. Ninety
seconds less than nothing are read as one minute less. -/
theorem a_leap_second_at_midnight_is_read_back :
    let midnight : TimeOfDay := ⟨86399, 1000000000, by decide, by decide⟩
    let ten : TimeOfDay := ⟨36000, 0, by decide, by decide⟩
    let day : Date := ⟨739165, by decide⟩
    let slot : Allocation := ⟨1, none, "A", .weekly, .monday, day, none, ten, midnight⟩
    let r (requirement : Duration) : Request :=
      ⟨day, ⟨.manual, ""⟩, requirement, [slot], [], .empty⟩
    let ninetySecondsLess : Duration := ⟨-90000000000, by decide⟩
    let oneMinuteLess : Duration := ⟨-60000000000, by decide⟩
    midnight ∈ Request.contents.times (r ninetySecondsLess) ∧
      (∀ t ∈ Request.contents.times (r ninetySecondsLess), t.LeapEndsMinute) ∧
      request.readText (request.writeText (r ninetySecondsLess)) = .ok (r oneMinuteLess) :=
  ⟨by decide, by decide, reading_undoes_writing.1.cut _ (by decide)⟩

/-- A slot from a leap second after 23:56:04, which no minute ends with, to 23:57:00.
Its start is written as the second after, and so the slot that is read starts later:
it is a second shorter. -/
theorem a_stray_leap_second_is_read_as_the_next_second :
    let finish : TimeOfDay := ⟨86220, 0, by decide, by decide⟩
    let stray : TimeOfDay := ⟨86164, 1333333333, by decide, by decide⟩
    let next : TimeOfDay := ⟨86165, 333333333, by decide, by decide⟩
    let day : Date := ⟨739165, by decide⟩
    let slot (start : TimeOfDay) : Allocation :=
      ⟨1, none, "A", .weekly, .monday, day, none, start, finish⟩
    let r (start : TimeOfDay) : Request := ⟨day, ⟨.manual, ""⟩, .zero, [slot start], [], .empty⟩
    toString stray = "23:56:05.333333333" ∧
      (∀ d ∈ (r stray).stated, d.IsWhole) ∧
      request.readText (request.writeText (r stray)) = .ok (r next) ∧
      (slot stray).duration.nanos = 55666666667 ∧ (slot next).duration.nanos = 54666666667 ∧
      request.readText (request.writeText (r stray)) ≠
        .ok (Request.contents.change id Duration.cut (r stray)) := by
  have trips : request.RoundTrips Request.contents := request_faithful.roundTrips (by decide)
  refine ⟨by decide, by decide, trips.back _, by decide, by decide, fun same => ?_⟩
  rw [trips.back] at same
  have starts := congrArg (fun r : Request => r.allocations.map Allocation.startTime)
    (Except.ok.inj same)
  exact absurd starts (by decide)

end UnpaidWork.Wire
