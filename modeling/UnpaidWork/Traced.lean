import UnpaidWork.Event

/-!
Calculations that tell their log what they do, and that an overflow may stop.
What was told before the overflow stays told. The result of a calculation does
not depend on what it tells, so statements about results need no log.
-/
namespace UnpaidWork

/-- What a calculation tells, in order, and what it results in. -/
structure Traced (α : Type) where
  events : List Event
  result : Except Overflow α

namespace Traced

/-- Goes on with the result, unless there is none. -/
def andThen {α β : Type} (x : Traced α) (f : α → Traced β) : Traced β :=
  match x.result with
  | .ok value => ⟨x.events ++ (f value).events, (f value).result⟩
  | .error cause => ⟨x.events, .error cause⟩

instance : Monad Traced where
  pure value := ⟨[], .ok value⟩
  bind := andThen

/-- Tells one event. -/
def tell (e : Event) : Traced Unit := ⟨[e], .ok ()⟩

/-- Tells several events. -/
def tellAll (events : List Event) : Traced Unit := ⟨events, .ok ()⟩

/-- Tells nothing, and stops if there is no value. -/
def attempt {α : Type} (x : Except Overflow α) : Traced α := ⟨[], x⟩

@[simp] theorem result_pure {α : Type} (a : α) : (pure a : Traced α).result = .ok a := rfl

@[simp] theorem result_tell (e : Event) : (tell e).result = .ok () := rfl

@[simp] theorem result_tellAll (events : List Event) : (tellAll events).result = .ok () := rfl

@[simp] theorem result_attempt {α : Type} (x : Except Overflow α) : (attempt x).result = x := rfl

/-- The result of two calculations in a row depends on their results alone. -/
@[simp] theorem result_bind {α β : Type} (x : Traced α) (f : α → Traced β) :
    (x >>= f).result = x.result.bind fun a => (f a).result := by
  change (andThen x f).result = _
  unfold andThen
  cases x.result <;> rfl

@[simp] theorem result_map {α β : Type} (f : α → β) (x : Traced α) :
    (f <$> x).result = x.result.map f := by
  change (andThen x fun a => pure (f a)).result = _
  unfold andThen
  cases x.result <;> rfl

end Traced
end UnpaidWork
