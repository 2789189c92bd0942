import UnpaidWork.Text.Quoted
import UnpaidWork.Text.Scan

/-!
Everything a JSON text can be refused for, with one message for each cause: a
text that is no JSON, a value of the wrong kind, and a value that its place
does not admit.
-/
namespace UnpaidWork.Json

/-- What a value was found to be, where something else was expected. -/
inductive Found where
  | null
  | bool (value : Bool)
  | integer (value : Int)
  /-- A number with a fraction, an exponent or too many digits, by its shortest form. -/
  | float (shortest : String)
  | string (value : String)
  | list
  | object
  deriving DecidableEq

/-- How a message names what was found. -/
def Found.describe : Found → String
  | .null => "null"
  | .bool value => s!"boolean `{value}`"
  | .integer value => s!"integer `{value}`"
  | .float shortest => s!"floating point `{shortest}`"
  | .string value => "string " ++ Text.quoted value
  | .list => "sequence"
  | .object => "map"

/-- Why a JSON text is refused. -/
inductive Fault where
  /-- The text ends where a value should be, or inside a word or a number. -/
  | endInValue
  | endInList
  | endInObject
  | endInString
  /-- No value starts like this. -/
  | noValue
  /-- A word other than `null`, `true` and `false`. -/
  | badWord
  | noColon
  | noListComma
  | noObjectComma
  | trailingComma
  /-- The text goes on after the value. -/
  | trailingText
  | keyNotString
  | badNumber
  | numberOutOfRange
  | badEscape
  | controlCharacter
  /-- The escape of a second half without the first, or of a first half followed by another first. -/
  | loneSurrogate
  /-- The escape of the first half of a character without the second. -/
  | unfinishedSurrogate
  /-- Lists and objects are nested too deep. -/
  | tooDeep
  | missingField (name : String)
  | duplicateField (name : String)
  | wrongKind (found : Found) (expected : String)
  | integerOutOfRange (value : Int) (expected : String)
  | notSingleKey
  | wrongLength (length : Nat) (expected : String)
  | unknownVariant (name : String) (known : List String)
  /-- More minutes than a duration can hold. -/
  | minutesOutOfRange (minutes : Int)
  | noWeekday
  /-- A string that is no date or no time. -/
  | unreadable (cause : Text.ScanFault)
  deriving DecidableEq

/-- The variants a message offers instead of an unknown one. -/
def offered : List String → String
  | [] => "there are no variants"
  | [only] => s!"expected `{only}`"
  | [first, second] => s!"expected `{first}` or `{second}`"
  | many => "expected one of " ++ String.intercalate ", " (many.map fun name => s!"`{name}`")

/-- The text that reports a fault. -/
def Fault.message : Fault → String
  | .endInValue => "EOF while parsing a value"
  | .endInList => "EOF while parsing a list"
  | .endInObject => "EOF while parsing an object"
  | .endInString => "EOF while parsing a string"
  | .noValue => "expected value"
  | .badWord => "expected ident"
  | .noColon => "expected `:`"
  | .noListComma => "expected `,` or `]`"
  | .noObjectComma => "expected `,` or `\x7d`"
  | .trailingComma => "trailing comma"
  | .trailingText => "trailing characters"
  | .keyNotString => "key must be a string"
  | .badNumber => "invalid number"
  | .numberOutOfRange => "number out of range"
  | .badEscape => "invalid escape"
  | .controlCharacter => "control character (\\u0000-\\u001F) found while parsing a string"
  | .loneSurrogate => "lone leading surrogate in hex escape"
  | .unfinishedSurrogate => "unexpected end of hex escape"
  | .tooDeep => "recursion limit exceeded"
  | .missingField name => s!"missing field `{name}`"
  | .duplicateField name => s!"duplicate field `{name}`"
  | .wrongKind found expected => s!"invalid type: {found.describe}, expected {expected}"
  | .integerOutOfRange value expected =>
    s!"invalid value: {(Found.integer value).describe}, expected {expected}"
  | .notSingleKey => "invalid value: map, expected map with a single key"
  | .wrongLength length expected => s!"invalid length {length}, expected {expected}"
  | .unknownVariant name known => s!"unknown variant `{name}`, {offered known}"
  | .minutesOutOfRange minutes => s!"分鐘數超出範圍: {minutes}"
  | .noWeekday => "short or long weekday names expected"
  | .unreadable cause => cause.message

end UnpaidWork.Json
