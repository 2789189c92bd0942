import UnpaidWork.Json.Fault

/-!
Strings of a JSON text, without the opening quotation mark. Skipping a string
only looks for its end; keeping it also puts escaped characters together, which
for those written as two halves needs both. Writing escapes the quotation mark,
the backslash and the control characters, and nothing else.
-/
namespace UnpaidWork.Json

/-- The value of a hexadecimal digit. -/
def hexDigit? (c : Char) : Option Nat :=
  if '0' ≤ c ∧ c ≤ '9' then some (c.toNat - '0'.toNat)
  else if 'a' ≤ c ∧ c ≤ 'f' then some (c.toNat - 'a'.toNat + 10)
  else if 'A' ≤ c ∧ c ≤ 'F' then some (c.toNat - 'A'.toNat + 10)
  else none

/-- The value of four hexadecimal digits. -/
def hexUnit? (a b c d : Char) : Option Nat := do
  let a ← hexDigit? a
  let b ← hexDigit? b
  let c ← hexDigit? c
  let d ← hexDigit? d
  return ((a * 16 + b) * 16 + c) * 16 + d

/-- The fault of an escape by number with fewer than four characters after it:
the text counts as ended unless they take four bytes. -/
def shortEscapeFault (rest : List Char) : Fault :=
  if (rest.map Char.utf8Size).foldl (· + ·) 0 < 4 then .endInString else .badEscape

/-- The character that a letter stands for after a backslash. -/
def escapedChar? (c : Char) : Option Char :=
  if c = '"' ∨ c = '\\' ∨ c = '/' then some c
  else if c = 'b' then some '\x08'
  else if c = 'f' then some '\x0c'
  else if c = 'n' then some '\n'
  else if c = 'r' then some '\r'
  else if c = 't' then some '\t'
  else none

/-- What follows the closing quotation mark of a string. -/
def skipString : List Char → Except Fault (List Char)
  | [] => .error .endInString
  | '"' :: rest => .ok rest
  | '\\' :: 'u' :: a :: b :: c :: d :: rest =>
    match hexUnit? a b c d with
    | some _ => skipString rest
    | none => .error .badEscape
  | '\\' :: 'u' :: rest => .error (shortEscapeFault rest)
  | '\\' :: c :: rest =>
    match escapedChar? c with
    | some _ => skipString rest
    | none => .error .badEscape
  | c :: rest =>
    if c = '\\' then .error .endInString
    else if c.toNat < 0x20 then .error .controlCharacter
    else skipString rest

/-- The first halves of characters written as two. -/
def isFirstHalf (n : Nat) : Bool := 0xD800 ≤ n && n ≤ 0xDBFF

/-- The second halves of characters written as two. -/
def isSecondHalf (n : Nat) : Bool := 0xDC00 ≤ n && n ≤ 0xDFFF

/-- The character with these two halves. -/
def joinHalves (first second : Nat) : Char :=
  Char.ofNat ((first - 0xD800) * 0x400 + (second - 0xDC00) + 0x10000)

/-- The characters of a string up to its closing quotation mark. -/
def keepString : List Char → Except Fault (List Char)
  | [] => .error .endInString
  | '"' :: _ => .ok []
  | '\\' :: 'u' :: a :: b :: c :: d :: rest =>
    match hexUnit? a b c d with
    | none => .error .badEscape
    | some first =>
      if isSecondHalf first then .error .loneSurrogate
      else if isFirstHalf first then
        match rest with
        | '\\' :: 'u' :: a :: b :: c :: d :: rest =>
          match hexUnit? a b c d with
          | none => .error .badEscape
          | some second =>
            if isSecondHalf second then
              (keepString rest).map (joinHalves first second :: ·)
            else .error .loneSurrogate
        | '\\' :: 'u' :: rest => .error (shortEscapeFault rest)
        | ['\\'] | [] => .error .endInString
        | _ => .error .unfinishedSurrogate
      else (keepString rest).map (Char.ofNat first :: ·)
  | '\\' :: 'u' :: rest => .error (shortEscapeFault rest)
  | '\\' :: c :: rest =>
    match escapedChar? c with
    | some plain => (keepString rest).map (plain :: ·)
    | none => .error .badEscape
  | c :: rest =>
    if c = '\\' then .error .endInString
    else if c.toNat < 0x20 then .error .controlCharacter
    else (keepString rest).map (c :: ·)

/-- A character as it is written inside a string. -/
def writeChar (c : Char) : List Char :=
  if c = '"' then ['\\', '"']
  else if c = '\\' then ['\\', '\\']
  else if c = '\x08' then ['\\', 'b']
  else if c = '\x0c' then ['\\', 'f']
  else if c = '\n' then ['\\', 'n']
  else if c = '\r' then ['\\', 'r']
  else if c = '\t' then ['\\', 't']
  else if c.toNat < 0x20 then
    ['\\', 'u', '0', '0', Nat.digitChar (c.toNat / 16), Nat.digitChar (c.toNat % 16)]
  else [c]

/-- A string as it is written, with its quotation marks. -/
def writeString (s : String) : List Char :=
  '"' :: (s.toList.flatMap writeChar ++ ['"'])

end UnpaidWork.Json
