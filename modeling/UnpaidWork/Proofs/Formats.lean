import UnpaidWork.Wire.Fields
import UnpaidWork.Wire.Times
import UnpaidWork.Wire.Variant
import UnpaidWork.Proofs.DateText
import UnpaidWork.Proofs.JsonText
import UnpaidWork.Proofs.TimeText

/-!
Formats that read back what they write. A value comes back the same, except
that durations are cut to whole minutes and times are settled, and writing it once
more makes no difference. The depth matters only where a document is kept whole before it is
read, which allows no more than a certain number of levels; so each format is
told how many levels of lists and objects its values have at most.
-/
namespace UnpaidWork
open Json

namespace Duration

/-- A minute has so many nanoseconds. -/
def minute : Int := 60000000000

/-- Whole minutes are cut toward zero. -/
theorem wholeMinutes_mul (d : Duration) :
    (0 ≤ d.nanos → 0 ≤ d.wholeMinutes * minute ∧ d.wholeMinutes * minute ≤ d.nanos) ∧
      (d.nanos ≤ 0 → d.nanos ≤ d.wholeMinutes * minute ∧ d.wholeMinutes * minute ≤ 0) := by
  constructor
  · intro positive
    rw [wholeMinutes, Int.tdiv_eq_ediv_of_nonneg positive, minute]
    omega
  · intro negative
    have turned : d.nanos.tdiv 60000000000 = -((-d.nanos) / 60000000000) := by
      rw [← Int.tdiv_eq_ediv_of_nonneg (by omega), Int.neg_tdiv, Int.neg_neg]
    rw [wholeMinutes, turned, minute]
    omega

/-- The duration of the whole minutes, cut toward zero. -/
def cut (d : Duration) : Duration where
  nanos := d.wholeMinutes * minute
  bounded := by
    have within := d.bounded
    have toward := d.wholeMinutes_mul
    rcases Int.le_total 0 d.nanos with positive | negative
    · have := toward.1 positive
      omega
    · have := toward.2 negative
      omega

/-- The duration has no part below a minute. -/
def IsWhole (d : Duration) : Prop := minute ∣ d.nanos

instance (d : Duration) : Decidable d.IsWhole := inferInstanceAs (Decidable (minute ∣ d.nanos))

theorem cut_eq_self {d : Duration} (whole : d.IsWhole) : d.cut = d :=
  Duration.ext (Int.tdiv_mul_cancel whole)

@[simp] theorem wholeMinutes_cut (d : Duration) : d.cut.wholeMinutes = d.wholeMinutes :=
  Int.mul_tdiv_cancel d.wholeMinutes (by decide : minute ≠ 0)

/-- The minutes of every duration are few enough to be written. -/
theorem wholeMinutes_bounds (d : Duration) :
    -9223372036854775808 ≤ d.wholeMinutes ∧ d.wholeMinutes ≤ 9223372036854775807 := by
  have within := d.cut.bounded
  simp only [cut, minute, limit] at within
  omega

theorem ofMinutes?_wholeMinutes (d : Duration) : ofMinutes? d.wholeMinutes = some d.cut := by
  rw [ofMinutes?, ofNanos?_eq_some]
  rfl

end Duration

namespace NonWorkingDates

/-- A date after all others is put at the end. -/
theorem place_last {d : Date} {dates : List Date} (later : ∀ e ∈ dates, e < d) :
    place d dates = dates ++ [d] := by
  induction dates with
  | nil => rfl
  | cons x rest ih =>
    have before := later x List.mem_cons_self
    rw [Date.lt_iff] at before
    rw [place, if_neg (by rw [Date.lt_iff]; omega), if_neg (by rintro rfl; omega),
      ih fun e member => later e (List.mem_cons_of_mem x member), List.cons_append]

theorem insertAll_ascending (s : NonWorkingDates) {dates : List Date}
    (ascending : (s.dates ++ dates).Pairwise (· < ·)) :
    (s.insertAll dates).dates = s.dates ++ dates := by
  induction dates generalizing s with
  | nil => exact (List.append_nil _).symm
  | cons d rest ih =>
    have last : (s.insert d).dates = s.dates ++ [d] := place_last fun e member =>
      (List.pairwise_append.mp ascending).2.2 e member d List.mem_cons_self
    rw [← List.singleton_append, ← List.append_assoc, ← last] at ascending
    have inserted := ih (s.insert d) ascending
    rw [last, List.append_assoc, List.singleton_append] at inserted
    exact inserted

theorem ext {s t : NonWorkingDates} (same : s.dates = t.dates) : s = t := by
  cases s
  cases t
  cases same
  rfl

/-- A set of dates is the set of its dates in ascending order. -/
theorem ofList_dates (s : NonWorkingDates) : ofList s.dates = s :=
  ext (insertAll_ascending empty s.ascending)

end NonWorkingDates

namespace Json
variable {n : Int}

/-- The integers that a numeral can stand for. -/
structure InRange (n : Int) : Prop where
  low : -9223372036854775808 ≤ n
  high : n ≤ 18446744073709551615

theorem value_integerNumeral (within : InRange n) :
    (integerNumeral n).value = .ok (.integer n) := by
  have low := within.low
  have high := within.high
  have size : Text.digitsValue (Nat.toDigits 10 n.natAbs) = n.natAbs :=
    Text.digitsValue_toDigits _
  unfold Numeral.value integerNumeral
  simp only [size, Option.isNone_none, Bool.and_true, Bool.true_and]
  by_cases negative : n < 0
  · rw [if_neg (by simp [negative]), if_pos (by simp [negative]; omega)]
    congr 2
    omega
  · rw [if_pos (by simp [negative]; omega)]
    congr 2
    omega

theorem keptFault?_integer (within : InRange n) (depth : Nat) :
    (Value.integer n).doc.keptFault? depth = none := by
  rw [Value.doc, Doc.keptFault?, value_integerNumeral within]

section Kept
variable {depth : Nat} {items : List Value} {members : List (String × Value)}

theorem keptItems?_eq_none (kept : ∀ item ∈ items, item.doc.keptFault? depth = none) :
    keptItems? depth (docItems items) = none := by
  induction items with
  | nil => rfl
  | cons item rest ih =>
    rw [docItems, keptItems?, kept item List.mem_cons_self, Option.none_or]
    exact ih fun other member => kept other (List.mem_cons_of_mem item member)

theorem keptMembers?_eq_none (kept : ∀ member ∈ members, member.2.doc.keptFault? depth = none) :
    keptMembers? depth (docMembers members) = none := by
  induction members with
  | nil => rfl
  | cons member rest ih =>
    obtain ⟨name, value⟩ := member
    have own : value.doc.keptFault? depth = none := kept _ List.mem_cons_self
    rw [docMembers, keptMembers?, own, Doc.keyFault?, Option.none_or, Option.none_or]
    exact ih fun other member => kept other (List.mem_cons_of_mem _ member)

theorem keptFault?_list (room : depth < deepest)
    (kept : ∀ item ∈ items, item.doc.keptFault? (depth + 1) = none) :
    (Value.list items).doc.keptFault? depth = none := by
  rw [Value.doc, Doc.keptFault?, if_neg (Nat.not_le.mpr room), keptItems?_eq_none kept,
    Option.none_or]
  rfl

theorem keptFault?_object (room : depth < deepest)
    (kept : ∀ member ∈ members, member.2.doc.keptFault? (depth + 1) = none) :
    (Value.object members).doc.keptFault? depth = none := by
  rw [Value.doc, Doc.keptFault?, if_neg (Nat.not_le.mpr room), keptMembers?_eq_none kept,
    Option.none_or]
  rfl

end Kept
end Json

namespace Wire

/-- What a format writes it reads back as `settle` tells, with durations cut and times
settled, and then it writes the same; and it reads the document as well if that is kept
whole before. -/
structure Format.Faithful {α : Type} (f : Format α) (levels : Nat) (settle : α → α) : Prop where
  read : ∀ (p : Place) (value : α), p.depth + levels ≤ deepest →
    f.read p (f.write value).doc = .ok (settle value)
  write : ∀ value, f.write (settle value) = f.write value
  kept : ∀ (depth : Nat) (value : α), depth + levels ≤ deepest →
    (f.write value).doc.keptFault? depth = none

variable {α : Type} {f : Format α} {levels : Nat} {settle : α → α}

/-! Single values -/

theorem boolean_faithful : boolean.Faithful 0 id where
  read _ _ _ := rfl
  write _ := rfl
  kept _ _ _ := rfl

theorem text_faithful : text.Faithful 0 id where
  read _ _ _ := rfl
  write _ := rfl
  kept _ _ _ := rfl

theorem readInteger_integer (kind : String) {low high n : Int} (within : InRange n)
    (above : low ≤ n) (below : n ≤ high) :
    readInteger kind low high (Value.integer n).doc = .ok n := by
  rw [Value.doc, readInteger, value_integerNumeral within]
  exact if_pos ⟨above, below⟩

theorem readInt64 {n : Int} (low : -9223372036854775808 ≤ n) (high : n ≤ 9223372036854775807)
    (p : Place) : int64.read p (Value.integer n).doc = .ok (Int64.ofInt n) := by
  have read : readInteger "i64" (-9223372036854775808) 9223372036854775807
      (Value.integer n).doc = .ok n := readInteger_integer _ ⟨low, by omega⟩ low high
  simp only [int64, read]
  rfl

theorem int64_faithful : int64.Faithful 0 id where
  read p n _ := by
    have low := n.le_toInt
    have high := n.toInt_lt
    have read : int64.read p (Value.integer n.toInt).doc = .ok (Int64.ofInt n.toInt) :=
      readInt64 (by omega) (by omega) p
    rwa [Int64.ofInt_toInt] at read
  write _ := rfl
  kept depth n _ := by
    have low := n.le_toInt
    have high := n.toInt_lt
    exact keptFault?_integer ⟨by omega, by omega⟩ depth

/-- Unsigned integers are read back if they are bounded as their format says. -/
theorem unsigned_faithful {kind : String} {high : Nat} {toNat : α → Nat} {ofNat : Nat → α}
    (fits : high ≤ 18446744073709551615) (bounded : ∀ n, toNat n ≤ high)
    (back : ∀ n, ofNat (toNat n) = n) : (unsigned kind high toNat ofNat).Faithful 0 id where
  read p n _ := by
    have below := bounded n
    have read : readInteger kind 0 high (Value.integer (toNat n)).doc = .ok (toNat n) :=
      readInteger_integer _ ⟨by omega, by omega⟩ (by omega) (by omega)
    simp only [unsigned, read, Except.map, Int.toNat_natCast, back, id]
  write _ := rfl
  kept depth n _ := by
    have below := bounded n
    exact keptFault?_integer ⟨by omega, by omega⟩ depth

theorem uint32_faithful : uint32.Faithful 0 id :=
  unsigned_faithful (by decide) (fun n => Nat.le_of_lt_succ n.toNat_lt) fun _ => UInt32.ofNat_toNat

theorem uint64_faithful : uint64.Faithful 0 id :=
  unsigned_faithful (by decide) (fun n => Nat.le_of_lt_succ n.toNat_lt) fun _ => UInt64.ofNat_toNat

/-- A duration comes back as its whole minutes. -/
theorem minutes_faithful : minutes.Faithful 0 Duration.cut where
  read p d _ := by
    obtain ⟨low, high⟩ := d.wholeMinutes_bounds
    have count : (Int64.ofInt d.wholeMinutes).toInt = d.wholeMinutes :=
      Int64.toInt_ofInt_of_le low (by omega)
    simp only [minutes, readInt64 low high, bind, Except.bind, count, d.ofMinutes?_wholeMinutes]
  write d := by
    simp only [minutes, d.wholeMinutes_cut]
  kept depth d _ := by
    obtain ⟨low, high⟩ := d.wholeMinutes_bounds
    exact keptFault?_integer ⟨low, by omega⟩ depth

/-- Strings that are understood where they are written are read back, as the value
that is meant by them. -/
theorem parsed_faithful (kind : String) {print : α → String} {parse : String → Except Fault α}
    (back : ∀ value, parse (print value) = .ok (settle value))
    (same : ∀ value, print (settle value) = print value) :
    (parsed kind print parse).Faithful 0 settle where
  read _ value _ := back value
  write value := congrArg Value.string (same value)
  kept _ _ _ := rfl

theorem date_faithful : date.Faithful 0 id := by
  refine parsed_faithful _ (fun d => ?_) fun _ => rfl
  change (Date.ofText (String.ofList d.text).toList).mapError _ = _
  rw [String.toList_ofList, d.ofText_text]
  rfl

theorem timeOfDay_faithful : timeOfDay.Faithful 0 TimeOfDay.settled := by
  refine parsed_faithful _ (fun t => ?_) fun t => congrArg String.ofList t.text_settled
  change (TimeOfDay.ofText (String.ofList t.text).toList).mapError _ = _
  rw [String.toList_ofList, t.ofText_text]
  rfl

theorem weekday_faithful : weekday.Faithful 0 id := by
  refine parsed_faithful _ (fun w => ?_) fun _ => rfl
  rw [w.ofName?_shortName]
  rfl

/-- An enumeration is read back if every member is known by its name. -/
theorem variants_faithful {name : α → String} {members : List α}
    (known : ∀ value, (byName name members).lookup (name value) = some value) :
    (variants name members).Faithful 0 id where
  read p value _ := by
    have found : named (byName name members) (name value) = .ok value := by
      rw [named, known]
    simp only [variants, Value.doc, readVariantKept, readVariantInText, found, ite_self, id]
  write _ := rfl
  kept _ _ _ := rfl

/-! Values made of others -/

/-- A value that may be missing is read back if what is written is never null. -/
theorem nullable_faithful (faithful : f.Faithful levels settle)
    (present : ∀ value, (f.write value).doc ≠ .null) :
    (nullable f).Faithful levels (Option.map settle) where
  read p value room := by
    cases value with
    | none => rfl
    | some value =>
      have read := faithful.read p value room
      have doc := present value
      simp only [nullable]
      rw [read]
      rfl
  write value := by
    cases value with
    | none => rfl
    | some value => exact faithful.write value
  kept depth value room := by
    cases value with
    | none => rfl
    | some value => exact faithful.kept depth value room

theorem Format.Faithful.mapM (faithful : f.Faithful levels settle) {p : Place} (values : List α)
    (room : p.depth + levels ≤ deepest) :
    (docItems (values.map f.write)).mapM (f.read p) = .ok (values.map settle) := by
  induction values with
  | nil => rfl
  | cons value rest ih =>
    rw [List.map_cons, docItems, List.mapM_cons, faithful.read p value room, ih]
    rfl

theorem listOf_faithful (faithful : f.Faithful levels settle) :
    (listOf f).Faithful (levels + 1) (List.map settle) where
  read p values room := by
    have inner : p.inner.depth + levels ≤ deepest := by
      dsimp only [Place.inner]
      omega
    simp only [listOf, Value.doc, faithful.mapM values inner, bind, Except.bind,
      Closing.listFault?]
  write values := by
    simp only [listOf, List.map_map]
    congr 1
    exact List.map_congr_left fun value _ => faithful.write value
  kept depth values room := by
    refine keptFault?_list (by omega) fun item member => ?_
    obtain ⟨value, -, rfl⟩ := List.mem_map.mp member
    exact faithful.kept (depth + 1) value (by omega)

theorem nonWorkingDates_faithful : nonWorkingDates.Faithful 1 id where
  read p s room := by
    have read := (listOf_faithful date_faithful).read p s.dates room
    simp only [nonWorkingDates, read, Except.map, List.map_id, s.ofList_dates, id]
  write _ := rfl
  kept depth s room := (listOf_faithful date_faithful).kept depth s.dates room

end Wire
end UnpaidWork
