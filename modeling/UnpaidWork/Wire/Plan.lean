import UnpaidWork.Plan
import UnpaidWork.Wire.Records

/-!
Plans and outcomes on the wire. An action is one object that holds its kind
beside the fields of that kind, so the fields are kept whole until the kind is
known. An outcome holds its name and, under a key of its own, the plan.
-/
namespace UnpaidWork.Wire

open Json

/-- The written names of the reasons. -/
def retainReasonName : RetainReason → String
  | .required => "REQUIRED"
  | .forced => "FORCED"
  | .surplus => "SURPLUS"

/-- Reasons by name. -/
def retainReason : Format RetainReason :=
  variants retainReasonName [.required, .forced, .surplus]

/-- The fields of an action that retains an appointment. -/
def retentionFields :
    Fields (ExistingAppointment × RetainReason) (ExistingAppointment × RetainReason) :=
  Prod.mk
    <$> required "appointment" Prod.fst existingAppointment
    <*> required "reason" Prod.snd retainReason

/-- The two kinds of action. -/
inductive ActionKind where
  | create
  | retain

/-- The kinds of action by name. -/
def actionKinds : List (String × ActionKind) :=
  [("CREATE_APPOINTMENT", .create), ("RETAIN_APPOINTMENT", .retain)]

/-- The key of an action's kind. -/
def actionKey : String := "action"

/-- Writes an action, its kind first. -/
def writeAction : Action → Value
  | .create r =>
    .object ((actionKey, .string "CREATE_APPOINTMENT") :: requiredAppointmentFields.write r)
  | .retain a reason =>
    .object ((actionKey, .string "RETAIN_APPOINTMENT") :: retentionFields.write (a, reason))

/-- Reads the fields of an action from a document that was kept whole. -/
def readActionFields (p : Place) (doc : Doc) : ActionKind → Except Fault Action
  | .create =>
    (readRecord requiredAppointmentTitle requiredAppointmentFields p.kept doc).map .create
  | .retain =>
    (readRecord "struct variant SchedulingAction::RetainAppointment" retentionFields p.kept doc).map
      fun (appointment, reason) => .retain appointment reason

/-- Reads an action: from an object, or from a list that starts with its kind. -/
def readAction (p : Place) (doc : Doc) : Except Fault Action :=
  match doc with
  | .object members closing => do
    let kind : Fields Unit ActionKind :=
      required actionKey (fun _ => .create) ⟨fun _ => .null, readName actionKinds⟩
    let others :=
      otherProblems [actionKey] (fun value => value.keptFault? p.inner.depth) members closing
    let found ← (others.both (kind.fromMembers p.inner members)).settle (·.2)
    let fields := members.filter fun member => member.name? ≠ some actionKey
    readActionFields p (.object fields .closed) found
  | .list [] closing => .error ((closing.listFault? .kept).getD (.missingField actionKey))
  | .list (first :: rest) closing => do
    let found ← readName actionKinds p.inner first
    match (keptItems? p.inner.depth rest).or (closing.listFault? .kept) with
    | some fault => .error fault
    | none => readActionFields p (.list rest .closed) found
  | _ => .error (refuse "internally tagged enum SchedulingAction" doc)

/-- Actions. -/
def action : Format Action := ⟨writeAction, readAction⟩

/-- Plans. -/
def plan : Format Plan :=
  record "struct SchedulePlan" <|
    Plan.mk
      <$> required "actions" Plan.actions (listOf action)
      <*> required "shortfall" Plan.shortfall minutes

/-- The three kinds of outcome. -/
inductive OutcomeKind where
  | alreadySatisfied | sufficient | insufficient

/-- The written names of the kinds of outcome. -/
def outcomeKindName : OutcomeKind → String
  | .alreadySatisfied => "REQUIREMENT_ALREADY_SATISFIED"
  | .sufficient => "EXISTING_APPOINTMENTS_SUFFICIENT"
  | .insufficient => "EXISTING_APPOINTMENTS_INSUFFICIENT"

/-- The kinds of outcome in their order. -/
def outcomeKinds : List OutcomeKind := [.alreadySatisfied, .sufficient, .insufficient]

/-- Kinds of outcome by name. -/
def outcomeKind : Format OutcomeKind := variants outcomeKindName outcomeKinds

/-- The key of an outcome's kind. -/
def outcomeKey : String := "outcome"

/-- The key of an outcome's plan. -/
def planKey : String := "plan"

/-- What messages call an outcome. -/
def outcomeTitle : String := "adjacently tagged enum SchedulerOutcome"

/-- Writes an outcome; only the last kind has a plan. -/
def writeOutcome : Outcome → Value
  | .requirementAlreadySatisfied => .object [(outcomeKey, outcomeKind.write .alreadySatisfied)]
  | .existingAppointmentsSufficient => .object [(outcomeKey, outcomeKind.write .sufficient)]
  | .existingAppointmentsInsufficient p =>
    .object [(outcomeKey, outcomeKind.write .insufficient), (planKey, plan.write p)]

/-- Reads what stands beside the kind of an outcome: nothing, or its plan. -/
def readOutcomePlan (kind : OutcomeKind) (p : Place) (doc : Doc) : Except Fault Outcome :=
  let without (outcome : Outcome) : Except Fault Outcome :=
    match doc with
    | .null => .ok outcome
    | _ => .error (refuse s!"unit variant SchedulerOutcome::{outcome.name}" doc)
  match kind with
  | .alreadySatisfied => without .requirementAlreadySatisfied
  | .sufficient => without .existingAppointmentsSufficient
  | .insufficient => (plan.read p doc).map .existingAppointmentsInsufficient

/-- The outcome of a kind that came without a plan. -/
def outcomeAlone (kind : OutcomeKind) : Except Fault Outcome :=
  match kind with
  | .alreadySatisfied => .ok .requirementAlreadySatisfied
  | .sufficient => .ok .existingAppointmentsSufficient
  | .insufficient => .error (.missingField planKey)

/-- The problem that a key occurs again, if it does. -/
def repetition (name : String) : List (Nat × Doc) → Placed Unit
  | _ :: (again, _) :: _ => .error (again, .duplicateField name)
  | _ => .ok ()

/-- Reads the members of an outcome. A plan that comes before its kind is kept
whole, and read when the kind is met. -/
def outcomeOfMembers (p : Place) (members : List Member) : Placed Outcome :=
  let kinds := withName outcomeKey members
  let plans := withName planKey members
  let repeated := (repetition outcomeKey kinds).both (repetition planKey plans)
  let keptPlan : Placed Unit :=
    match kinds.head?, plans.head? with
    | some (kindIndex, _), some (planIndex, doc) =>
      if kindIndex < planIndex then .ok () else problem planIndex (doc.keptFault? p.depth)
    | none, some (planIndex, doc) => problem planIndex (doc.keptFault? p.depth)
    | _, none => .ok ()
  let outcome : Placed Outcome :=
    match kinds with
    | [] => .error (members.length + 1, .missingField outcomeKey)
    | (kindIndex, kindDoc) :: _ =>
      match outcomeKind.read p kindDoc, plans.head? with
      | .error fault, _ => .error (kindIndex, fault)
      | .ok kind, none => placed (members.length + 1) (outcomeAlone kind)
      | .ok kind, some (planIndex, planDoc) =>
        if kindIndex < planIndex then placed planIndex (readOutcomePlan kind p planDoc)
        else placed kindIndex (readOutcomePlan kind p.kept planDoc)
  match (repeated.both keptPlan).both outcome with
  | .ok (_, found) => .ok found
  | .error e => .error e

/-- Reads an outcome: from an object, or from a list of its kind and its plan.
In a list the kind is a bare name. -/
def readOutcome (p : Place) (doc : Doc) : Except Fault Outcome :=
  match doc with
  | .object members closing =>
    let others := otherProblems [outcomeKey, planKey] Doc.skippedFault? members closing
    (others.both (outcomeOfMembers p.inner members)).settle (·.2)
  | .list items closing => do
    let short (length : Nat) : Fault :=
      (closing.listFault? .kept).getD (.wrongLength length outcomeTitle)
    match items with
    | [] => .error (short 0)
    | kindDoc :: rest =>
      let kind ← readName (byName outcomeKindName outcomeKinds) p.inner kindDoc
      match rest with
      | [] => .error (short 1)
      | planDoc :: _ =>
        let outcome ← readOutcomePlan kind p.inner planDoc
        match endProblem p 2 items closing with
        | some fault => .error fault
        | none => .ok outcome
  | _ => .error (refuse outcomeTitle doc)

/-- Outcomes. -/
def outcome : Format Outcome := ⟨writeOutcome, readOutcome⟩

end UnpaidWork.Wire
