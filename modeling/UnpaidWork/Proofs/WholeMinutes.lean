import UnpaidWork.Proofs.Lengths
import UnpaidWork.Proofs.RoundTrip

/-!
What reading gives. A property of all that a format reads carries over to the
lists, the fields and the records made of it. A duration is read as whole minutes
only, so everything that is read states whole minutes.
-/
namespace UnpaidWork
open Json

/-! What reading gives -/

namespace Wire
variable {σ α β : Type} {P : α → Prop} {R : β → Prop} {f : Format α}

/-- Everything that the format reads has the property. -/
def Format.Gives (f : Format α) (P : α → Prop) : Prop :=
  ∀ p doc value, f.read p doc = .ok value → P value

/-- Everything that is read from the fields has the property. -/
structure Fields.Gives (fields : Fields σ α) (P : α → Prop) : Prop where
  members : ∀ p members value, fields.fromMembers p members = .ok value → P value
  items : ∀ p whole first items value, fields.fromItems p whole first items = .ok value → P value

theorem gives_of_readText {text : List Char} {value : α} (gives : f.Gives P)
    (read : f.readText text = .ok value) : P value := by
  simp only [Format.readText] at read
  split at read
  · cases read
  · rename_i found own
    split at read
    · cases read
    · cases read
      exact gives _ _ _ own

/-- Only whole minutes can be read. -/
theorem minutes_gives : minutes.Gives Duration.IsWhole := by
  intro p doc d read
  obtain ⟨count, -, found⟩ := bind_eq_ok.mp read
  split at found
  · rename_i minutes own
    cases found
    exact ⟨_, (Duration.ofNanos?_eq_some.mp own).trans (Int.mul_comm _ _)⟩
  · cases found

theorem nullable_gives (gives : f.Gives P) : (nullable f).Gives fun o => ∀ value ∈ o, P value := by
  intro p doc o read value some
  simp only [nullable] at read
  split at read
  · cases read
    cases some
  · obtain ⟨found, own, same⟩ := map_eq_ok.mp read
    rw [← same] at some
    cases some
    exact gives p _ _ own

theorem mapM_gives {items : List Doc} {values : List α} {p : Place} (gives : f.Gives P)
    (read : items.mapM (f.read p) = .ok values) : ∀ value ∈ values, P value := by
  induction items generalizing values with
  | nil =>
    cases read
    exact fun value member => absurd member List.not_mem_nil
  | cons item rest ih =>
    rw [List.mapM_cons] at read
    obtain ⟨first, own, others⟩ := bind_eq_ok.mp read
    obtain ⟨more, later, same⟩ := bind_eq_ok.mp others
    cases same
    exact List.forall_mem_cons.mpr ⟨gives p item first own, ih later⟩

theorem listOf_gives (gives : f.Gives P) :
    (listOf f).Gives fun values => ∀ value ∈ values, P value := by
  intro p doc values read
  simp only [listOf] at read
  split at read
  · obtain ⟨found, own, ended⟩ := bind_eq_ok.mp read
    split at ended
    · cases ended
    · cases ended
      exact mapM_gives gives own
  · cases read

theorem placed_eq_ok {place : Nat} {x : Except Fault α} {value : α}
    (read : placed place x = .ok value) : x = .ok value := by
  cases x with
  | ok => cases read; rfl
  | error => cases read

theorem Placed.both_eq_ok {x : Placed α} {y : Placed β} {a : α} {b : β}
    (read : x.both y = .ok (a, b)) : x = .ok a ∧ y = .ok b := by
  cases x <;> cases y <;> cases read
  exact ⟨rfl, rfl⟩

theorem settle_eq_ok {x : Placed α} {g : α → β} {value : β} (read : x.settle g = .ok value) :
    ∃ found, x = .ok found ∧ g found = value := by
  cases x with
  | ok found =>
    cases read
    exact ⟨found, rfl, rfl⟩
  | error => cases read

theorem Fields.Gives.any (fields : Fields σ α) : fields.Gives fun _ => True :=
  ⟨fun _ _ _ _ => trivial, fun _ _ _ _ _ _ => trivial⟩

/-- A field gives what its format gives, or one of its values for want of it. -/
theorem field_gives {name : String} {get : σ → α} {absent short : Option α} (gives : f.Gives P)
    (absence : ∀ value ∈ absent, P value) (shortness : ∀ value ∈ short, P value) :
    (field name get f absent short).Gives P := by
  constructor
  · intro p members value read
    simp only [field] at read
    split at read
    · split at read
      · cases read
        exact absence _ rfl
      · cases read
    · exact gives p _ value (placed_eq_ok read)
    · split at read <;> cases read
  · intro p whole first items value read
    simp only [field] at read
    split at read
    · exact gives p _ value (placed_eq_ok read)
    · split at read
      · cases read
        exact shortness _ rfl
      · cases read

theorem required_gives {name : String} {get : σ → α} (gives : f.Gives P) :
    (required name get f).Gives P :=
  field_gives gives (fun _ none => nomatch none) fun _ none => nomatch none

theorem Fields.Gives.map {fields : Fields σ α} {make : α → β}
    (makes : ∀ value, P value → R (make value)) (gives : fields.Gives P) :
    (make <$> fields).Gives R := by
  constructor
  · intro p members made read
    obtain ⟨value, own, rfl⟩ := map_eq_ok.mp read
    exact makes value (gives.members p members value own)
  · intro p whole first items made read
    obtain ⟨value, own, rfl⟩ := map_eq_ok.mp read
    exact makes value (gives.items p whole first items value own)

theorem Fields.Gives.seq {functions : Fields σ (α → β)} {arguments : Fields σ α}
    (makes : functions.Gives fun make => ∀ value, P value → R (make value))
    (gives : arguments.Gives P) : (functions <*> arguments).Gives R := by
  constructor
  · intro p members made read
    obtain ⟨⟨make, value⟩, own, rfl⟩ := map_eq_ok.mp read
    obtain ⟨front, back⟩ := Placed.both_eq_ok own
    exact makes.members _ _ _ front value (gives.members _ _ _ back)
  · intro p whole first items made read
    obtain ⟨⟨make, value⟩, own, rfl⟩ := map_eq_ok.mp read
    obtain ⟨front, back⟩ := Placed.both_eq_ok own
    exact makes.items _ _ _ _ _ front value (gives.items _ _ _ _ _ back)

theorem record_gives {title : String} {fields : Fields α α} (gives : fields.Gives P) :
    (record title fields).Gives P := by
  intro p doc value read
  simp only [record, readRecord] at read
  split at read
  · obtain ⟨⟨_, found⟩, own, same⟩ := settle_eq_ok read
    cases same
    exact gives.members _ _ _ (Placed.both_eq_ok own).2
  · obtain ⟨⟨found, _⟩, own, same⟩ := settle_eq_ok read
    cases same
    exact gives.items _ _ _ _ _ (Placed.both_eq_ok own).1
  · cases read

/-! Requests -/

theorem existingAppointment_gives :
    existingAppointment.Gives fun a => ∀ d ∈ a.stated, d.IsWhole := by
  have credit : (withDefault "minutes_credited" ExistingAppointment.credit (nullable minutes)
      none).Gives fun credit => ∀ d ∈ credit, d.IsWhole :=
    field_gives (nullable_gives minutes_gives) (by simp) (by simp)
  -- The credit is the only duration; the other fields may be anything.
  refine record_gives (.seq (.seq (.seq (.seq (.seq (.seq (.seq (.map ?_ (.any _)) (.any _))
    (.any _)) (.any _)) (.any _)) (.any _)) credit) (.any _))
  intro _ _ _ _ _ _ _ _ _ _ _ _ credit whole _ _ d states
  exact whole d (Option.mem_toList.mp states)

/-- All durations in a request that was read are whole minutes. -/
theorem request_gives : request.Gives fun r => ∀ d ∈ r.stated, d.IsWhole := by
  refine record_gives (.seq (.seq (.seq (.seq (.seq (.map ?_ (.any _)) (.any _))
    (required_gives minutes_gives)) (.any _))
    (required_gives (listOf_gives existingAppointment_gives))) (.any _))
  intro _ _ _ _ requirement whole _ _ appointments others _ _
  refine List.forall_mem_cons.mpr ⟨whole, fun d states => ?_⟩
  obtain ⟨a, member, own⟩ := List.mem_flatMap.mp states
  exact others a member d own

end Wire
end UnpaidWork
