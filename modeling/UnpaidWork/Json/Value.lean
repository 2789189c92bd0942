import UnpaidWork.Json.Strings
import UnpaidWork.Json.Doc
import UnpaidWork.Text.Scan

/-!
JSON values as this library writes them: numbers are integers, and the members
of an object keep the order in which they were listed. The written form has no
white space. `Value.doc` is the document that a reader of the written form gets.
-/
namespace UnpaidWork.Json

/-- A JSON value without fractions. -/
inductive Value where
  | null
  | bool (value : Bool)
  | integer (value : Int)
  | string (value : String)
  | list (items : List Value)
  | object (members : List (String × Value))

instance : Inhabited Value := ⟨.null⟩

/-- An integer in decimal digits. -/
def writeInteger (n : Int) : List Char :=
  if n < 0 then '-' :: Nat.toDigits 10 n.natAbs else Nat.toDigits 10 n.natAbs

mutual

/-- The written form of a value. -/
def Value.write : Value → List Char
  | .null => ['n', 'u', 'l', 'l']
  | .bool true => ['t', 'r', 'u', 'e']
  | .bool false => ['f', 'a', 'l', 's', 'e']
  | .integer n => writeInteger n
  | .string s => writeString s
  | .list [] => ['[', ']']
  | .list (item :: rest) => '[' :: (item.write ++ writeItems rest)
  | .object [] => ['{', '}']
  | .object ((name, value) :: rest) =>
    '{' :: (writeString name ++ ':' :: (value.write ++ writeMembers rest))

/-- The values of a list after the first, and its end. -/
def writeItems : List Value → List Char
  | [] => [']']
  | item :: rest => ',' :: (item.write ++ writeItems rest)

/-- The members of an object after the first, and its end. -/
def writeMembers : List (String × Value) → List Char
  | [] => ['}']
  | (name, value) :: rest =>
    ',' :: (writeString name ++ ':' :: (value.write ++ writeMembers rest))

end

/-- The text of a value. -/
def Value.text (v : Value) : String := String.ofList v.write

/-- The numeral of an integer. -/
def integerNumeral (n : Int) : Numeral :=
  ⟨n < 0, Nat.toDigits 10 n.natAbs, none, none⟩

mutual

/-- The document that reading the written form yields. -/
def Value.doc : Value → Doc
  | .null => .null
  | .bool b => .bool b
  | .integer n => .number (integerNumeral n)
  | .string s => .string (.ok s)
  | .list items => .list (docItems items) .closed
  | .object members => .object (docMembers members) .closed

/-- The documents of the values of a list. -/
def docItems : List Value → List Doc
  | [] => []
  | item :: rest => item.doc :: docItems rest

/-- The documents of the members of an object. -/
def docMembers : List (String × Value) → List Member
  | [] => []
  | (name, value) :: rest => .entry (.string (.ok name)) value.doc :: docMembers rest

end

end UnpaidWork.Json
