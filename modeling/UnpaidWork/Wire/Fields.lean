import UnpaidWork.Wire.Format

/-!
Records on the wire. A record is written as an object with its fields in their
order. It is read from an object, by name and in any order, or from a list, by
position. Every field is looked up on its own; of all the problems found, the
one that comes first in the text is reported.
-/
namespace UnpaidWork.Wire

open Json

/-- A value, or a problem and how far into the text it lies. -/
abbrev Placed (α : Type) := Except (Nat × Fault) α

/-- A problem at one place of the text. -/
def placed {α : Type} (place : Nat) : Except Fault α → Placed α
  | .ok value => .ok value
  | .error fault => .error (place, fault)

/-- Both values, or the problem that comes first; of two at one place, the left one. -/
def Placed.both {α β : Type} : Placed α → Placed β → Placed (α × β)
  | .ok a, .ok b => .ok (a, b)
  | .ok _, .error e => .error e
  | .error e, .ok _ => .error e
  | .error e, .error e' => .error (if e'.1 < e.1 then e' else e)

/-- What is made of the value, or the problem without its place. -/
def Placed.settle {α β : Type} (f : α → β) : Placed α → Except Fault β
  | .ok value => .ok (f value)
  | .error (_, fault) => .error fault

/-- Nothing, unless there is a problem. -/
def problem (place : Nat) : Option Fault → Placed Unit
  | none => .ok ()
  | some fault => .error (place, fault)

/-- Some fields of a record `σ`, which together hold an `α`. -/
structure Fields (σ α : Type) where
  names : List String
  write : σ → List (String × Value)
  /-- Reads the fields from the members of an object. -/
  fromMembers : Place → List Member → Placed α
  /-- Reads the fields from the items of a list, the first of them from a given
  position; the text names the record that is too short. -/
  fromItems : Place → String → Nat → List Doc → Placed α

/-- The positions and values of the members with a name. -/
def withName (name : String) (members : List Member) : List (Nat × Doc) :=
  members.zipIdx.filterMap fun (member, index) =>
    if member.name? = some name then some (index, member.value) else none

/-- A field. `absent` is its value in an object without it, `short` its value in
a list that ends before it; a field without them has to be there. -/
def field {σ α : Type} (name : String) (get : σ → α) (f : Format α) (absent short : Option α) :
    Fields σ α where
  names := [name]
  write record := [(name, f.write (get record))]
  fromMembers p members :=
    match withName name members with
    | [] =>
      match absent with
      | some value => .ok value
      | none => .error (members.length + 1, .missingField name)
    | [(index, doc)] => placed index (f.read p doc)
    | (index, doc) :: (again, _) :: _ =>
      match f.read p doc with
      | .ok _ => .error (again, .duplicateField name)
      | .error fault => .error (index, fault)
  fromItems p whole first items :=
    match items[first]? with
    | some doc => placed first (f.read p doc)
    | none =>
      match short with
      | some value => .ok value
      | none => .error (items.length + 1, .wrongLength first whole)

/-- A field that has to be there. -/
def required {σ α : Type} (name : String) (get : σ → α) (f : Format α) : Fields σ α :=
  field name get f none none

/-- A field that may be null, and that an object may leave out. -/
def optional {σ α : Type} (name : String) (get : σ → Option α) (f : Format α) :
    Fields σ (Option α) :=
  field name get (nullable f) (some none) none

/-- A field with a value for want of it. -/
def withDefault {σ α : Type} (name : String) (get : σ → α) (f : Format α) (value : α) :
    Fields σ α :=
  field name get f (some value) (some value)

instance {σ : Type} : Functor (Fields σ) where
  map f fields :=
    { names := fields.names
      write := fields.write
      fromMembers := fun p members => (fields.fromMembers p members).map f
      fromItems := fun p whole first items => (fields.fromItems p whole first items).map f }

instance {σ : Type} : Seq (Fields σ) where
  seq functions arguments :=
    let arguments := arguments ()
    { names := functions.names ++ arguments.names
      write := fun record => functions.write record ++ arguments.write record
      fromMembers := fun p members =>
        ((functions.fromMembers p members).both (arguments.fromMembers p members)).map
          fun (f, a) => f a
      fromItems := fun p whole first items =>
        ((functions.fromItems p whole first items).both
          (arguments.fromItems p whole (first + functions.names.length) items)).map
            fun (f, a) => f a }

/-- The first problem in the keys of an object, in the members that are not
among the known ones, which `check` inspects, or at its end. -/
def otherProblems (known : List String) (check : Doc → Option Fault) (members : List Member)
    (closing : Closing) : Placed Unit :=
  let ofMember (member : Member) : Option Fault :=
    match member.key.keyFault? .kept, member.name? with
    | some fault, _ => some fault
    | none, some name => if name ∈ known then none else check member.value
    | none, none => none
  match members.zipIdx.findSome? fun (member, index) => (ofMember member).map (index, ·) with
  | some e => .error e
  | none => problem members.length (closing.objectFault? .kept)

/-- The problem at the end of a list of which `wanted` items were read. -/
def endProblem (p : Place) (wanted : Nat) (items : List Doc) (closing : Closing) : Option Fault :=
  if items.length < wanted then closing.listFault? .kept
  else if p.keptWhole then
    if items.length = wanted then none
    else some (.wrongLength items.length
      (if wanted = 1 then "1 element in sequence" else s!"{wanted} elements in sequence"))
  else if items.length = wanted then
    match closing with
    | .closed => none
    | .ended => some .endInList
    | .trailingComma => some .trailingComma
    | .endedAfterComma | .noComma => some .trailingText
  else some .trailingText

/-- Reads a record, which messages call by its title. -/
def readRecord {σ α : Type} (title : String) (fields : Fields σ α) (p : Place) (doc : Doc) :
    Except Fault α :=
  match doc with
  | .object members closing =>
    let others := otherProblems fields.names Doc.skippedFault? members closing
    (others.both (fields.fromMembers p.inner members)).settle (·.2)
  | .list items closing =>
    let wanted := fields.names.length
    let whole := s!"{title} with {wanted} elements"
    let ending := problem items.length (endProblem p wanted items closing)
    ((fields.fromItems p.inner whole 0 items).both ending).settle (·.1)
  | _ => .error (refuse title doc)

/-- A record that is called by its title in messages. -/
def record {α : Type} (title : String) (fields : Fields α α) : Format α where
  write value := .object (fields.write value)
  read := readRecord title fields

end UnpaidWork.Wire
