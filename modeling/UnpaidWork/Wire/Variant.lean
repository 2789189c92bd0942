import UnpaidWork.Wire.Format

/-!
Enumerations on the wire. A member is written as its name; it may also be read
from an object whose only key is the name, with an empty value.
-/
namespace UnpaidWork.Wire

open Json

/-- The member with a name. -/
def named {α : Type} (known : List (String × α)) (name : String) : Except Fault α :=
  match known.lookup name with
  | some value => .ok value
  | none => .error (.unknownVariant name (known.map (·.1)))

/-- Reads a name that stands for its member alone. Inside a document that was
kept whole the position of the member may stand for its name. -/
def readName {α : Type} (known : List (String × α)) (p : Place) (doc : Doc) : Except Fault α :=
  match doc with
  | .string (.ok name) => named known name
  | .number numeral =>
    match p.keptWhole, numeral.value with
    | true, .ok (.integer (.ofNat n)) =>
      match known[n]? with
      | some (_, value) => .ok value
      | none =>
        .error (.integerOutOfRange n s!"variant index 0 <= i < {known.length}")
    | _, _ => .error (refuse "variant identifier" doc)
  | _ => .error (refuse "variant identifier" doc)

/-- Reads the empty value beside the name of a member. -/
def readEmpty (p : Place) (doc : Doc) : Except Fault Unit :=
  match doc with
  | .null => .ok ()
  | .object [] .closed => if p.keptWhole then .ok () else .error (refuse "unit" doc)
  | _ => .error (refuse "unit" doc)

/-- Reads the name of a member as the key of an object. -/
def readNameKey {α : Type} (known : List (String × α)) (key : Doc) : Except Fault α :=
  match key with
  | .string (.ok name) => named known name
  | _ => .error ((key.keyFault? .kept).getD .keyNotString)

/-- Reads a member straight from the text. -/
def readVariantInText {α : Type} (known : List (String × α)) (p : Place) :
    Doc → Except Fault α
  | .string (.ok name) => named known name
  | .string (.error fault) => .error fault
  | .broken (.string kept _) => .error kept
  | .broken .absent => .error .endInValue
  | .broken (.colon atEnd) => .error ((Damage.colon atEnd).fault .kept)
  | .object [] .ended => .error .endInObject
  | .object (entry :: others) closing => do
    let value ← readNameKey known entry.key
    readEmpty p.inner entry.value
    match others, closing with
    | [], .closed => .ok value
    | [], .ended => .error .endInObject
    | _, _ => .error .noValue
  | _ => .error .noValue

/-- Reads a member out of a document that was kept whole. -/
def readVariantKept {α : Type} (known : List (String × α)) (p : Place) (doc : Doc) :
    Except Fault α :=
  match doc with
  | .string (.ok name) => named known name
  | .object [entry] _ => do
    let value ← readNameKey known entry.key
    readEmpty p.inner entry.value
    return value
  | .object _ _ => .error .notSingleKey
  | _ => .error (refuse "string or map" doc)

/-- Members beside their names. -/
def byName {α : Type} (name : α → String) (members : List α) : List (String × α) :=
  members.map fun member => (name member, member)

/-- An enumeration by the names of its members. -/
def variants {α : Type} (name : α → String) (members : List α) : Format α where
  write value := .string (name value)
  read p doc :=
    let known := byName name members
    if p.keptWhole then readVariantKept known p doc else readVariantInText known p doc

end UnpaidWork.Wire
