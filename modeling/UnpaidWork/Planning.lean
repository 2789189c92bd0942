import UnpaidWork.Plan
import UnpaidWork.Traced

/-!
From a schedule to a plan. Each required appointment is met by an existing one
that is exactly it, or else created; no existing appointment meets two, and the
forced ones meet none. Then follow the forced retentions, and last the coming
appointments that neither is.
-/
namespace UnpaidWork

/-- Meets or creates required appointments, one after the other. Existing
appointments whose ids are `taken` stay out of it. -/
def settle (existing : List ExistingAppointment) :
    List Int64 → List RequiredAppointment → List Action × List Int64
  | taken, [] => ([], taken)
  | taken, r :: rest =>
    match existing.find? fun a => r.isMetBy a && !taken.contains a.id with
    | some a =>
      let (actions, taken) := settle existing (a.id :: taken) rest
      (.retain a .required :: actions, taken)
    | none =>
      let (actions, taken) := settle existing taken rest
      (.create r :: actions, taken)

/-- The plan that carries out a schedule. -/
def Request.plan (r : Request) (s : Schedule) : Plan :=
  let (settled, taken) :=
    settle r.existingAppointments (s.forcedRetentions.map (·.id)) s.requiredAppointments
  let forced := s.forcedRetentions.map fun a => Action.retain a .forced
  let surplus := (r.upcomingUnresolved.filter fun a => !taken.contains a.id).map
    fun a => Action.retain a .surplus
  ⟨settled ++ forced ++ surplus, s.shortfall⟩

/-- What is told about a plan: each required appointment that exists already. -/
def Plan.foundEvents (p : Plan) : List Event :=
  p.retentions.filterMap fun (a, reason) =>
    if reason = .required then some (.alreadyBooked a.id) else none

end UnpaidWork
