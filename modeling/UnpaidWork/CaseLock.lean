import UnpaidWork.Traced

/-!
The lock that keeps two runs from the same case. A lease on a key is granted
for a time and told by a token of its own; it ends when it is released with
that token or when its time has passed, whichever is first. A token that is no
longer the one of its key releases nothing. Times are milliseconds of one clock.
-/
namespace UnpaidWork

/-- What a holder returns to release a lease. -/
structure LockToken where
  key : String
  token : Nat
  deriving DecidableEq

/-- A lease: its token, and the time at which it has ended. -/
structure Lease where
  token : Nat
  expiresAt : Nat
  deriving DecidableEq

/-- The leases granted and not released, at most one for a key. -/
structure CaseLock where
  leases : List (String × Lease)

namespace CaseLock

/-- A lock without leases. -/
def empty : CaseLock := ⟨[]⟩

/-- The lease on a key, even if its time has passed. -/
def lease? (lock : CaseLock) (key : String) : Option Lease :=
  (lock.leases.find? fun (held, _) => held = key).map (·.2)

/-- The lock without a lease on the key. -/
def erase (lock : CaseLock) (key : String) : CaseLock :=
  ⟨lock.leases.filter fun (held, _) => held ≠ key⟩

/-- The lock with this lease on the key and no other. -/
def insert (lock : CaseLock) (key : String) (lease : Lease) : CaseLock :=
  ⟨(key, lease) :: (lock.erase key).leases⟩

/-- The first millisecond that the clock cannot tell: 2^63 - 1 seconds. -/
def clockEnd : Nat := 9223372036854775807000

/-- Grants a lease from `now` on, if the clock can tell its end. -/
def grant (lock : CaseLock) (now length : Nat) (key : String) (token : Nat) :
    Except Overflow (Option LockToken × CaseLock) :=
  if now + length < clockEnd then .ok (some ⟨key, token⟩, lock.insert key ⟨token, now + length⟩)
  else .error .leaseEnd

/-- Tries to lease a key at `now` for a length of time, with a fresh token. It
is refused while another lease on the key has not ended. -/
def acquire (lock : CaseLock) (now length : Nat) (key : String) (token : Nat) :
    Traced (Option LockToken × CaseLock) :=
  match lock.lease? key with
  | none => .attempt (lock.grant now length key token)
  | some held =>
    if now < held.expiresAt then pure (none, lock)
    else do
      .tell (.leaseLapsed key)
      .attempt (lock.grant now length key token)

/-- Ends the lease that the token was given for, if it still is the one of its key. -/
def release (lock : CaseLock) (token : LockToken) : CaseLock :=
  match lock.lease? token.key with
  | some held => if held.token = token.token then lock.erase token.key else lock
  | none => lock

@[simp] theorem lease?_empty (key : String) : empty.lease? key = none := rfl

theorem lease?_erase (lock : CaseLock) (key other : String) :
    (lock.erase key).lease? other = if other = key then none else lock.lease? other := by
  simp only [erase, lease?, List.find?_filter]
  split
  · rename_i same
    subst same
    simp
  · rename_i different
    have agree : (fun entry : String × Lease => decide (entry.1 ≠ key) && decide (entry.1 = other))
        = fun entry => decide (entry.1 = other) := by
      funext entry
      by_cases found : entry.1 = other <;> simp [found, different]
    simp_all

theorem lease?_insert (lock : CaseLock) (key other : String) (lease : Lease) :
    (lock.insert key lease).lease? other = if other = key then some lease else lock.lease? other := by
  have others := lock.lease?_erase key other
  simp only [lease?] at others
  simp only [insert, lease?, List.find?_cons]
  by_cases same : other = key
  · subst same
    simp
  · rw [if_neg same] at others ⊢
    simp [Ne.symm same, others]

end CaseLock
end UnpaidWork
