import UnpaidWork.Json.Reader
import UnpaidWork.Json.Value

/-!
Formats: how values of a type are written as JSON and read from a document.
Reading is strict about the kind of each value and finds the first problem in
the order of the text. A value is read either straight from the text or from a
document that was kept whole first, because what it is was told only later;
the two differ in how enumerations and surplus values are treated.
-/
namespace UnpaidWork.Wire

open Json

/-- Where a value is read. -/
structure Place where
  /-- The value comes out of a document that was kept whole, which has no faults left. -/
  keptWhole : Bool
  /-- The lists and objects around the value. -/
  depth : Nat

/-- The outermost value of a text. -/
def Place.outermost : Place := ⟨false, 0⟩

/-- A value inside the list or object at this place. -/
def Place.inner (p : Place) : Place := { p with depth := p.depth + 1 }

/-- A value of the document kept at this place. -/
def Place.kept (p : Place) : Place := { p with keptWhole := true }

/-- Reads a value out of a document. -/
abbrev Reads (α : Type) := Place → Doc → Except Fault α

/-- How values are written and read. -/
structure Format (α : Type) where
  write : α → Value
  read : Reads α

/-- The fault of a document where something else was expected. A value that is
itself damaged is refused for its damage. -/
def refuse (expected : String) : Doc → Fault
  | .null => .wrongKind .null expected
  | .bool b => .wrongKind (.bool b) expected
  | .number numeral =>
    match numeral.value with
    | .ok (.integer n) => .wrongKind (.integer n) expected
    | .ok (.float x) => .wrongKind (.float (floatText x)) expected
    | .error fault => fault
  | .string (.ok s) => .wrongKind (.string s) expected
  | .string (.error fault) => fault
  | .list _ _ => .wrongKind .list expected
  | .object _ _ => .wrongKind .object expected
  | .broken damage => damage.fault .kept

/-- The value of a whole text in a format. -/
def Format.readText {α : Type} (f : Format α) (text : List Char) : Except Fault α :=
  let source := Source.ofText text
  match f.read .outermost source.doc with
  | .error fault => .error fault
  | .ok value => if source.trailing then .error .trailingText else .ok value

/-- The text of a value in a format. -/
def Format.writeText {α : Type} (f : Format α) (value : α) : List Char := (f.write value).write

/-- Truth values. -/
def boolean : Format Bool where
  write := .bool
  read _
    | .bool b => .ok b
    | doc => .error (refuse "a boolean" doc)

/-- Text. -/
def text : Format String where
  write := .string
  read _
    | .string (.ok s) => .ok s
    | doc => .error (refuse "a string" doc)

/-- Reads an integer from `low` to `high`, called `kind` in messages. -/
def readInteger (kind : String) (low high : Int) (doc : Doc) : Except Fault Int :=
  match doc with
  | .number numeral =>
    match numeral.value with
    | .ok (.integer n) => if low ≤ n ∧ n ≤ high then .ok n else .error (.integerOutOfRange n kind)
    | _ => .error (refuse kind doc)
  | _ => .error (refuse kind doc)

/-- Signed integers of 64 bits. -/
def int64 : Format Int64 where
  write n := .integer n.toInt
  read _ doc :=
    (readInteger "i64" (-9223372036854775808) 9223372036854775807 doc).map Int64.ofInt

/-- Unsigned integers up to `high`, called `kind` in messages. -/
def unsigned {α : Type} (kind : String) (high : Nat) (toNat : α → Nat) (ofNat : Nat → α) :
    Format α where
  write n := .integer (toNat n)
  read _ doc := (readInteger kind 0 high doc).map fun n => ofNat n.toNat

/-- Unsigned integers of 32 bits. -/
def uint32 : Format UInt32 := unsigned "u32" 4294967295 UInt32.toNat UInt32.ofNat

/-- Unsigned integers of 64 bits. -/
def uint64 : Format UInt64 := unsigned "u64" 18446744073709551615 UInt64.toNat UInt64.ofNat

/-- A value, or null for none. -/
def nullable {α : Type} (f : Format α) : Format (Option α) where
  write
    | some value => f.write value
    | none => .null
  read p
    | .null => .ok none
    | doc => (f.read p doc).map some

/-- Lists. -/
def listOf {α : Type} (f : Format α) : Format (List α) where
  write values := .list (values.map f.write)
  read p
    | .list items closing => do
      let values ← items.mapM (f.read p.inner)
      match closing.listFault? .kept with
      | some fault => .error fault
      | none => .ok values
    | doc => .error (refuse "a sequence" doc)

/-- Strings that `parse` understands, called `kind` in messages. -/
def parsed {α : Type} (kind : String) (print : α → String) (parse : String → Except Fault α) :
    Format α where
  write value := .string (print value)
  read _
    | .string (.ok s) => parse s
    | doc => .error (refuse kind doc)

end UnpaidWork.Wire
