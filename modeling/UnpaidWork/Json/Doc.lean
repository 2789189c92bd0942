import UnpaidWork.Json.Number

/-!
A JSON text as far as it can be read. The tree holds the values in the order of
the text; where the text is damaged, the tree says how and ends. Whoever reads
a value out of the tree meets the damage at its place, so the first problem of
a text is found in one walk, whatever kind of value was expected. A value that
is skipped is held to slightly different rules than one that is kept.
-/
namespace UnpaidWork.Json

/-- Whether a value is kept, or only skipped because nobody asked for it. -/
inductive Reading where
  | kept
  | skipped
  deriving DecidableEq

/-- How a value is damaged; `atEnd` tells that the text ends there. -/
inductive Damage where
  /-- The text ends before the value. -/
  | absent
  /-- A character that starts no value. -/
  | stray
  /-- A word that is not `null`, `true` or `false`. -/
  | word (atEnd : Bool)
  | numeral (atEnd : Bool)
  /-- A string, with the first fault met by a reader that keeps it and by one that skips it. -/
  | string (kept skipped : Fault)
  /-- The colon before the value is missing. -/
  | colon (atEnd : Bool)
  deriving DecidableEq

/-- The fault that a damaged value is refused for. -/
def Damage.fault : Damage → Reading → Fault
  | .absent, _ => .endInValue
  | .stray, _ => .noValue
  | .word atEnd, _ => if atEnd then .endInValue else .badWord
  | .numeral atEnd, .kept => if atEnd then .endInValue else .badNumber
  | .numeral _, .skipped => .badNumber
  | .string kept _, .kept => kept
  | .string _ skipped, .skipped => skipped
  | .colon atEnd, _ => if atEnd then .endInObject else .noColon

/-- How a list or an object ends. -/
inductive Closing where
  | closed
  /-- The text ends after a value, or before the first. -/
  | ended
  /-- The text ends after a comma. -/
  | endedAfterComma
  /-- The bracket follows a comma. -/
  | trailingComma
  /-- Something else follows a value. -/
  | noComma
  deriving DecidableEq

/-- The fault at the end of a list, if there is one. -/
def Closing.listFault? : Closing → Reading → Option Fault
  | .closed, _ => none
  | .ended, _ => some .endInList
  | .endedAfterComma, _ => some .endInValue
  | .trailingComma, .kept => some .trailingComma
  | .trailingComma, .skipped => some .noValue
  | .noComma, _ => some .noListComma

/-- The fault at the end of an object, if there is one. -/
def Closing.objectFault? : Closing → Reading → Option Fault
  | .closed, _ => none
  | .ended, _ => some .endInObject
  | .endedAfterComma, .kept => some .endInValue
  | .endedAfterComma, .skipped => some .endInObject
  | .trailingComma, .kept => some .trailingComma
  | .trailingComma, .skipped => some .keyNotString
  | .noComma, _ => some .noObjectComma

mutual

/-- A value of a JSON text, or the damage found in its place. A string that is
well formed may still hold half characters, which a reader that keeps it refuses. -/
inductive Doc where
  | null
  | bool (value : Bool)
  | number (value : Numeral)
  | string (value : Except Fault String)
  | list (items : List Doc) (closing : Closing)
  | object (members : List Member) (closing : Closing)
  | broken (damage : Damage)

/-- A key and its value. A key that is no string is the last of its object. -/
inductive Member where
  | entry (key value : Doc)

end

/-- The key of a member, as the value that stands there. -/
def Member.key : Member → Doc
  | .entry key _ => key

/-- The value of a member. -/
def Member.value : Member → Doc
  | .entry _ value => value

/-- The key of a member, if it is a string that can be kept. -/
def Member.name? (m : Member) : Option String :=
  match m.key with
  | .string (.ok name) => some name
  | _ => none

/-- The fault of the string at the place of a key, if it cannot be a key. -/
def Doc.keyFault? : Doc → Reading → Option Fault
  | .string (.ok _), _ => none
  | .string (.error fault), .kept => some fault
  | .string (.error _), .skipped => none
  | .broken (.string kept skipped), reading => some ((Damage.string kept skipped).fault reading)
  | _, _ => some .keyNotString

mutual

/-- The first fault that a reader meets who skips the value. -/
def Doc.skippedFault? : Doc → Option Fault
  | .null | .bool _ | .number _ | .string _ => none
  | .list items closing => (skippedItems? items).or (closing.listFault? .skipped)
  | .object members closing => (skippedMembers? members).or (closing.objectFault? .skipped)
  | .broken damage => some (damage.fault .skipped)

/-- The first fault in the values of a list that is skipped. -/
def skippedItems? : List Doc → Option Fault
  | [] => none
  | item :: rest => item.skippedFault?.or (skippedItems? rest)

/-- The first fault in the members of an object that is skipped. -/
def skippedMembers? : List Member → Option Fault
  | [] => none
  | .entry key value :: rest =>
    ((key.keyFault? .skipped).or value.skippedFault?).or (skippedMembers? rest)

end

/-- The levels of lists and objects that a kept value may be nested in, one less than the limit. -/
def deepest : Nat := 127

mutual

/-- The first fault that a reader meets who keeps the whole value, `depth` levels down. -/
def Doc.keptFault? (depth : Nat) : Doc → Option Fault
  | .null | .bool _ => none
  | .number numeral =>
    match numeral.value with
    | .ok _ => none
    | .error fault => some fault
  | .string (.ok _) => none
  | .string (.error fault) => some fault
  | .list items closing =>
    if deepest ≤ depth then some .tooDeep
    else (keptItems? (depth + 1) items).or (closing.listFault? .kept)
  | .object members closing =>
    if deepest ≤ depth then some .tooDeep
    else (keptMembers? (depth + 1) members).or (closing.objectFault? .kept)
  | .broken damage => some (damage.fault .kept)

/-- The first fault in the values of a list that is kept. -/
def keptItems? (depth : Nat) : List Doc → Option Fault
  | [] => none
  | item :: rest => (item.keptFault? depth).or (keptItems? depth rest)

/-- The first fault in the members of an object that is kept. -/
def keptMembers? (depth : Nat) : List Member → Option Fault
  | [] => none
  | .entry key value :: rest =>
    ((key.keyFault? .kept).or (value.keptFault? depth)).or (keptMembers? depth rest)

end

end UnpaidWork.Json
