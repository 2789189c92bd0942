import UnpaidWork.Report

/-!
What a run tells its log while it goes on. Each kind of event has a level, a
message and fields; durations are shown in whole minutes. The log leaves out
the ids of runs, so equal runs leave equal logs.
-/
namespace UnpaidWork

/-- Something that a run tells its log. -/
inductive Event where
  | calculationStarted (today : Date) (trigger : Trigger) (allocations existing : Nat)
  | remainingComputed (requirement assumedAttended credited : Duration)
  | requirementMet (remaining : Duration)
  | horizonPassed (today : Date) (maxHorizonDays : UInt32) (remaining : Duration)
  | nothingPossible (day : Date) (remaining : Duration)
  | bookingKept (day : Date) (appointmentId : Int64)
  | appointmentNeeded (day : Date) (allocation : String) (length : Duration)
  | simulated (required forced : Nat) (scheduled shortfall : Duration)
  | alreadyBooked (appointmentId : Int64)
  | existingSufficient
  | outOfAllocations (shortfall : Duration)
  | existingInsufficient (creations : Nat) (shortfall : Duration)
  | runStarted (crn : String) (requirementId : Int64) (dryRun : Bool)
  | allocationIgnored (cause : Invalid)
  | nothingCreated (plan : Plan)
  | creating (crn projectCode : String) (count : Nat)
  | reported (report : Report)
  | leaseLapsed (key : String)
  | releaseFailed (crn error : String)

/-- How much an event matters. -/
inductive Level where
  | debug | info | warn
  deriving DecidableEq

/-- The name of a level in the log. -/
def Level.name : Level → String
  | .debug => "DEBUG"
  | .info => "INFO"
  | .warn => "WARN"

namespace Event

/-- The level of an event. -/
def level : Event → Level
  | .calculationStarted .. | .requirementMet _ | .existingSufficient | .existingInsufficient ..
  | .runStarted .. | .nothingCreated _ | .creating .. | .reported _ => .info
  | .horizonPassed .. | .outOfAllocations _ | .allocationIgnored _ | .releaseFailed .. => .warn
  | .remainingComputed .. | .nothingPossible .. | .bookingKept .. | .appointmentNeeded ..
  | .simulated .. | .alreadyBooked _ | .leaseLapsed _ => .debug

/-- The message of an event. -/
def message : Event → String
  | .calculationStarted .. => "開始排程計算"
  | .remainingComputed .. => "計算剩餘時數"
  | .requirementMet _ => "要求時數已滿足"
  | .horizonPassed .. => "超過排程上限，停止模擬並回報缺口"
  | .nothingPossible .. => "沒有分配能再產生預約"
  | .bookingKept .. => "當天已有預約，強制保留"
  | .appointmentNeeded .. => "需要預約"
  | .simulated .. => "排程模擬完成"
  | .alreadyBooked _ => "需要的預約已存在"
  | .existingSufficient => "既有預約足夠"
  | .outOfAllocations _ => "可用分配不足以滿足要求時數"
  | .existingInsufficient .. => "既有預約不足"
  | .runStarted .. => "開始排程"
  | .allocationIgnored _ => "忽略格式錯誤的分配"
  | .nothingCreated plan => "試運行，不建立預約\n" ++ plan.text
  | .creating .. => "建立預約"
  | .reported _ => "排程結果"
  | .leaseLapsed _ => "鎖租期已過，重新取得"
  | .releaseFailed .. => "釋放個案鎖失敗"

/-- A field that holds whole minutes. -/
def minutes (d : Duration) : Json.Value := .integer d.wholeMinutes

/-- A field that holds a count. -/
def count (n : Nat) : Json.Value := .integer n

/-- A field that holds an id. -/
def id (n : Int64) : Json.Value := .integer n.toInt

/-- A field that holds a date. -/
def day (d : Date) : Json.Value := .string (toString d)

/-- The fields of an event. -/
def fields : Event → List (String × Json.Value)
  | .calculationStarted today trigger allocations existing =>
    [("today", day today), ("trigger", .string trigger.triggerType.name),
      ("description", .string trigger.description), ("allocations", count allocations),
      ("existing", count existing)]
  | .remainingComputed requirement assumedAttended credited =>
    [("requirement", minutes requirement), ("assumed_attended", minutes assumedAttended),
      ("credited", minutes credited)]
  | .requirementMet remaining => [("remaining", minutes remaining)]
  | .horizonPassed today maxHorizonDays remaining =>
    [("today", day today), ("max_horizon_days", count maxHorizonDays.toNat),
      ("remaining", minutes remaining)]
  | .nothingPossible date remaining => [("day", day date), ("remaining", minutes remaining)]
  | .bookingKept date appointmentId => [("day", day date), ("appointment_id", id appointmentId)]
  | .appointmentNeeded date allocation length =>
    [("day", day date), ("allocation", .string allocation), ("minutes", minutes length)]
  | .simulated required forced scheduled shortfall =>
    [("required", count required), ("forced", count forced), ("scheduled", minutes scheduled),
      ("shortfall", minutes shortfall)]
  | .alreadyBooked appointmentId => [("appointment_id", id appointmentId)]
  | .existingSufficient => []
  | .outOfAllocations shortfall => [("shortfall", minutes shortfall)]
  | .existingInsufficient creations shortfall =>
    [("create", count creations), ("shortfall", minutes shortfall)]
  | .runStarted crn requirementId dryRun =>
    [("crn", .string crn), ("requirement_id", id requirementId), ("dry_run", .bool dryRun)]
  | .allocationIgnored cause => [("error", .string cause.message)]
  | .nothingCreated _ => []
  | .creating crn projectCode number =>
    [("crn", .string crn), ("project_code", .string projectCode), ("count", count number)]
  | .reported report =>
    [("crn", .string report.crn), ("outcome", .string report.outcome),
      ("creations", count report.creationsPlanned),
      ("shortfall", .integer report.shortfallMinutes), ("dry_run", .bool report.dryRun),
      ("properties", .object report.anonymous)]
  | .leaseLapsed key => [("key", .string key)]
  | .releaseFailed crn error => [("crn", .string crn), ("error", .string error)]

/-- An event as a line of the log. -/
def json (e : Event) : Json.Value :=
  .list [.string e.level.name, .string e.message, .object e.fields]

end Event
end UnpaidWork
