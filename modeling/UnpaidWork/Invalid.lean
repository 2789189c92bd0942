import UnpaidWork.Date.Text
import UnpaidWork.Json.Fault
import UnpaidWork.TimeOfDay.Text

/-!
What makes an allocation, an appointment or a configuration unusable. Each
cause carries what its message needs to name it.
-/
namespace UnpaidWork

/-- Why a value cannot be scheduled with. -/
inductive Invalid where
  /-- An allocation ends on or before the day it starts. -/
  | allocationDates (id : Int64) (startDate endDate : Date)
  /-- The slot of an allocation takes no time. -/
  | allocationTimes (id : Int64) (startTime endTime : TimeOfDay)
  /-- An appointment ends before it starts. -/
  | appointmentTimes (id : Int64) (startTime endTime : TimeOfDay)
  /-- The text of a configuration cannot be read. -/
  | configText (fault : Json.Fault)
  /-- The configuration allows no day at all. -/
  | noHorizon
  /-- The configuration lets a lease end at once. -/
  | noLease

/-- The text that reports the cause. -/
def Invalid.message : Invalid → String
  | .allocationDates id startDate endDate =>
    s!"無效的分配 {id.toInt}: 結束日期 {endDate} 必須晚於起始日期 {startDate}"
  | .allocationTimes id startTime endTime =>
    s!"無效的分配 {id.toInt}: 開始時間 {startTime} 必須早於結束時間 {endTime}"
  | .appointmentTimes id startTime endTime =>
    s!"無效的預約 {id.toInt}: 開始時間 {startTime} 晚於結束時間 {endTime}"
  | .configText fault => s!"無效的配置: {fault.message}"
  | .noHorizon => "無效的配置: max_horizon_days 必須大於 0"
  | .noLease => "無效的配置: lock_lease_seconds 必須大於 0"

end UnpaidWork
