import UnpaidWork.Plan
import UnpaidWork.Request
import UnpaidWork.Wire.Records

/-!
The report that each run leaves: for whom it ran and why, and its outcome in
numbers. Runs have ids of 128 bits, written as thirty-two hexadecimal digits in
five groups.
-/
namespace UnpaidWork

/-- The id of one run. -/
structure RunId where
  bits : BitVec 128
  deriving DecidableEq

namespace RunId

/-- The lengths of the groups of digits. -/
def groups : List Nat := [8, 4, 4, 4, 12]

/-- Digits with a hyphen after each of the groups but the last. -/
def hyphenate : List Nat → List Char → List Char
  | [], digits => digits
  | [_], digits => digits
  | size :: rest, digits => digits.take size ++ '-' :: hyphenate rest (digits.drop size)

/-- The written form. -/
def text (id : RunId) : String :=
  let digits := Nat.toDigits 16 id.bits.toNat
  String.ofList (hyphenate groups (List.replicate (32 - digits.length) '0' ++ digits))

end RunId

/-- One run in numbers. -/
structure Report where
  runId : RunId
  crn : String
  requirementId : Int64
  triggerType : TriggerType
  outcome : String
  creationsPlanned : Nat
  retainedRequired : Nat
  retainedForced : Nat
  retainedSurplus : Nat
  shortfallMinutes : Int
  dryRun : Bool

namespace Report

/-- The report on an outcome. An outcome without a plan counts nothing. -/
def ofOutcome (runId : RunId) (crn : String) (requirementId : Int64) (triggerType : TriggerType)
    (outcome : Outcome) (dryRun : Bool) : Report :=
  let count (measure : Plan → Nat) : Nat := (outcome.plan?.map measure).getD 0
  { runId := runId
    crn := crn
    requirementId := requirementId
    triggerType := triggerType
    outcome := outcome.name
    creationsPlanned := count fun plan => plan.creations.length
    retainedRequired := count (·.countRetained .required)
    retainedForced := count (·.countRetained .forced)
    retainedSurplus := count (·.countRetained .surplus)
    shortfallMinutes := (outcome.plan?.map fun plan => plan.shortfall.wholeMinutes).getD 0
    dryRun := dryRun }

/-- The report without the id of its run. -/
def anonymous (r : Report) : List (String × Json.Value) :=
  [("crn", .string r.crn),
    ("requirement_id", .integer r.requirementId.toInt),
    ("trigger_type", Wire.triggerType.write r.triggerType),
    ("outcome", .string r.outcome),
    ("creations_planned", .integer r.creationsPlanned),
    ("retained_required", .integer r.retainedRequired),
    ("retained_forced", .integer r.retainedForced),
    ("retained_surplus", .integer r.retainedSurplus),
    ("shortfall_minutes", .integer r.shortfallMinutes),
    ("dry_run", .bool r.dryRun)]

/-- The whole report as a JSON object. -/
def properties (r : Report) : Json.Value :=
  .object (("run_id", .string r.runId.text) :: r.anonymous)

end Report
end UnpaidWork
