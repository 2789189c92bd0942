import UnpaidWork.Proofs.Formats

/-!
Records that read back what they write. Every field finds its own member again,
because the names of a record are all different, and no other member is met. So
the fields of a record come back one by one, however they are put together.
-/
namespace UnpaidWork
open Json

namespace Json

theorem docMembers_append (entries others : List (String × Value)) :
    docMembers (entries ++ others) = docMembers entries ++ docMembers others := by
  induction entries with
  | nil => rfl
  | cons entry rest ih =>
    rw [List.cons_append, docMembers, docMembers, ih, List.cons_append]

theorem mem_docMembers {entries : List (String × Value)} {member : Member}
    (listed : member ∈ docMembers entries) :
    ∃ entry ∈ entries, member = .entry (.string (.ok entry.1)) entry.2.doc := by
  induction entries with
  | nil => cases listed
  | cons entry rest ih =>
    rcases List.mem_cons.mp listed with rfl | later
    · exact ⟨entry, List.mem_cons_self, rfl⟩
    · obtain ⟨found, inRest, same⟩ := ih later
      exact ⟨found, List.mem_cons_of_mem entry inRest, same⟩

end Json

namespace Wire

/-! Finding members by name -/

section Names
variable {name : String} {value : Value} {entries : List (String × Value)}

/-- A member with its position, as the value found by a name. -/
def found? (name : String) : Member × Nat → Option (Nat × Doc)
  | (member, index) => if member.name? = some name then some (index, member.value) else none

theorem withName_eq_filterMap (members : List Member) :
    withName name members = members.zipIdx.filterMap (found? name) := rfl

theorem filterMap_found?_eq_nil (other : name ∉ entries.map Prod.fst) (start : Nat) :
    ((docMembers entries).zipIdx start).filterMap (found? name) = [] := by
  refine List.filterMap_eq_nil_iff.mpr fun (member, index) listed => ?_
  obtain ⟨entry, inEntries, rfl⟩ := mem_docMembers (List.fst_mem_of_mem_zipIdx listed)
  refine if_neg fun same => other ?_
  cases same
  exact List.mem_map_of_mem inEntries

/-- Where all names are different, each finds the one member that it names. -/
theorem exists_withName (distinct : (entries.map Prod.fst).Nodup)
    (listed : (name, value) ∈ entries) :
    ∃ index, withName name (docMembers entries) = [(index, value.doc)] := by
  obtain ⟨before, after, rfl⟩ := List.append_of_mem listed
  rw [List.map_append, List.map_cons, List.nodup_append] at distinct
  obtain ⟨-, later, apart⟩ := distinct
  have notBefore : name ∉ before.map Prod.fst := fun member =>
    apart name member name List.mem_cons_self rfl
  have notAfter : name ∉ after.map Prod.fst := (List.nodup_cons.mp later).1
  refine ⟨(docMembers before).length, ?_⟩
  rw [withName_eq_filterMap, docMembers_append, docMembers, List.zipIdx_append, List.zipIdx_cons,
    List.filterMap_append, List.filterMap_cons, filterMap_found?_eq_nil notBefore,
    filterMap_found?_eq_nil notAfter]
  simp [found?, Member.name?, Member.key, Member.value]

/-- Members that are known, or that pass the check, are no problem. -/
theorem otherProblems_eq_ok {known : List String} {check : Doc → Option Fault}
    (settled : ∀ entry ∈ entries, entry.1 ∈ known ∨ check entry.2.doc = none) :
    otherProblems known check (docMembers entries) .closed = .ok () := by
  unfold otherProblems
  dsimp only
  rw [List.findSome?_eq_none_iff.mpr]
  · rfl
  · rintro ⟨member, index⟩ listed
    obtain ⟨entry, inEntries, rfl⟩ := mem_docMembers (List.fst_mem_of_mem_zipIdx listed)
    simp only [Member.key, Member.name?, Member.value, Doc.keyFault?, Option.map_eq_none_iff]
    split
    · rfl
    · exact (settled entry inEntries).resolve_left ‹_›

end Names

section Fields
variable {σ α β : Type} {levels : Nat} {settle : σ → σ}

/-- The fields of a record find what they write, settled: `get` tells what they
hold together. -/
structure Fields.Faithful (fields : Fields σ α) (levels : Nat) (settle : σ → σ) (get : σ → α) :
    Prop where
  names : ∀ record, (fields.write record).map Prod.fst = fields.names
  read : ∀ (p : Place) (record : σ) (entries : List (String × Value)),
    (entries.map Prod.fst).Nodup → fields.write record ⊆ entries → p.depth + levels ≤ deepest →
      fields.fromMembers p (docMembers entries) = .ok (get (settle record))
  write : ∀ record, fields.write (settle record) = fields.write record
  kept : ∀ (depth : Nat) (record : σ), depth + levels ≤ deepest →
    ∀ entry ∈ fields.write record, entry.2.doc.keptFault? depth = none

/-- A field takes over the only value that its name finds. -/
theorem field_fromMembers {name : String} {get : σ → α} {f : Format α} {absent short : Option α}
    {p : Place} {members : List Member} {index : Nat} {doc : Doc} {value : α}
    (found : withName name members = [(index, doc)]) (read : f.read p doc = .ok value) :
    (field name get f absent short).fromMembers p members = .ok value := by
  simp only [field, found, read, placed]

/-- A field of a record is as faithful as its format. -/
theorem field_faithful {name : String} {get : σ → α} {f : Format α} {settleField : α → α}
    {fieldLevels : Nat} (absent short : Option α) (faithful : f.Faithful fieldLevels settleField)
    (order : fieldLevels ≤ levels) (same : ∀ record, get (settle record) = settleField (get record)) :
    (field name get f absent short).Faithful levels settle get where
  names _ := rfl
  read p record entries distinct listed room := by
    obtain ⟨index, found⟩ := exists_withName distinct (listed List.mem_cons_self)
    rw [same]
    exact field_fromMembers found (faithful.read p (get record) (by omega))
  write record := by
    simp only [field, same, faithful.write]
  kept depth record room entry listed := by
    cases List.mem_singleton.mp listed
    exact faithful.kept depth (get record) (by omega)

theorem Fields.Faithful.map {fields : Fields σ α} {get : σ → α} (make : α → β)
    (faithful : fields.Faithful levels settle get) :
    (make <$> fields).Faithful levels settle fun record => make (get record) where
  names := faithful.names
  read p record entries distinct listed room := by
    change (fields.fromMembers p _).map make = _
    rw [faithful.read p record entries distinct listed room]
    rfl
  write := faithful.write
  kept := faithful.kept

theorem Fields.Faithful.seq {functions : Fields σ (α → β)} {arguments : Fields σ α}
    {make : σ → α → β} {get : σ → α} (first : functions.Faithful levels settle make)
    (second : arguments.Faithful levels settle get) :
    (functions <*> arguments).Faithful levels settle fun record => make record (get record) where
  names record := by
    change (functions.write record ++ arguments.write record).map Prod.fst = _
    rw [List.map_append, first.names, second.names]
    rfl
  read p record entries distinct listed room := by
    change ((functions.fromMembers p _).both (arguments.fromMembers p _)).map _ = _
    obtain ⟨own, others⟩ := List.append_subset.mp listed
    rw [first.read p record entries distinct own room,
      second.read p record entries distinct others room]
    rfl
  write record := by
    change functions.write _ ++ arguments.write _ = functions.write _ ++ arguments.write _
    rw [first.write, second.write]
  kept depth record room entry listed := by
    rcases List.mem_append.mp listed with own | other
    · exact first.kept depth record room entry own
    · exact second.kept depth record room entry other

end Fields

section Record
variable {α : Type} {fields : Fields α α} {levels : Nat} {settle : α → α}

/-- A record is read back from its members. -/
theorem readRecord_docMembers (title : String) (faithful : fields.Faithful levels settle fun r => r)
    (distinct : fields.names.Nodup) {p : Place} (record : α)
    (room : p.depth + (levels + 1) ≤ deepest) :
    readRecord title fields p (.object (docMembers (fields.write record)) .closed) =
      .ok (settle record) := by
  have inner : p.inner.depth + levels ≤ deepest := by
    dsimp only [Place.inner]
    omega
  have others : otherProblems fields.names Doc.skippedFault? (docMembers (fields.write record))
      .closed = .ok () :=
    otherProblems_eq_ok fun entry listed =>
      .inl (faithful.names record ▸ List.mem_map_of_mem listed)
  have own := faithful.read p.inner record (fields.write record)
    ((faithful.names record).symm ▸ distinct) (List.Subset.refl _) inner
  simp only [readRecord, others, own]
  rfl

/-- A record of faithful fields with different names is faithful. -/
theorem record_faithful {title : String} (faithful : fields.Faithful levels settle fun r => r)
    (distinct : fields.names.Nodup) :
    (record title fields).Faithful (levels + 1) settle where
  read p value room := readRecord_docMembers title faithful distinct value room
  write value := by
    simp only [record, faithful.write]
  kept depth value room :=
    keptFault?_object (by omega) (faithful.kept (depth + 1) value (by omega))

end Record
end Wire
end UnpaidWork
