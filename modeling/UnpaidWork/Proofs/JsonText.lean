import UnpaidWork.Json.Reader
import UnpaidWork.Json.Value
import UnpaidWork.Proofs.Decimals

/-!
What is written as JSON is read back as the document it stands for. A string
comes back character by character; a number ends before whatever may follow a
value; and lists and objects come back by induction on the value, each reader
with at least one step for every character of the text.
-/
namespace UnpaidWork.Json
open Text

/-! Strings -/

/-- How a character stands inside a string: after a backslash by a letter, by
its number, or as it is. -/
inductive Stands (c : Char) : List Char → Prop
  | letter {letter : Char} (escaped : escapedChar? letter = some c) (other : letter ≠ 'u') :
      Stands c ['\\', letter]
  | number (control : c.toNat < 32) :
      Stands c ['\\', 'u', '0', '0', Nat.digitChar (c.toNat / 16), Nat.digitChar (c.toNat % 16)]
  | plain (noQuote : c ≠ '"') (noBackslash : c ≠ '\\') (visible : ¬ c.toNat < 32) : Stands c [c]

theorem writeChar_stands (c : Char) : Stands c (writeChar c) := by
  have short {d letter : Char} (escaped : escapedChar? letter = some d) (other : letter ≠ 'u')
      (same : c = d) : Stands c ['\\', letter] := .letter (same ▸ escaped) other
  unfold writeChar
  split
  · exact short rfl (by decide) ‹_›
  · rename_i noQuote
    split
    · exact short rfl (by decide) ‹_›
    · rename_i noBackslash
      iterate 5
        split
        · exact short rfl (by decide) ‹_›
      split
      · rename_i control
        exact .number control
      · rename_i visible
        exact .plain noQuote noBackslash visible

theorem hexDigit?_digitChar : ∀ n < 16, hexDigit? (Nat.digitChar n) = some n := by
  decide

/-- The escape of a control character by its number. -/
theorem hexUnit?_control {n : Nat} (control : n < 32) :
    hexUnit? '0' '0' (Nat.digitChar (n / 16)) (Nat.digitChar (n % 16)) = some n := by
  have high := hexDigit?_digitChar (n / 16) (by omega)
  have low := hexDigit?_digitChar (n % 16) (by omega)
  have zero : hexDigit? '0' = some 0 := rfl
  simp only [hexUnit?, zero, high, low, bind, Option.bind, pure]
  congr 1
  omega

variable {c : Char} {text rest : List Char}

/-- Skipping a string passes a character that stands in it. -/
theorem Stands.skip (stands : Stands c text) : skipString (text ++ rest) = skipString rest := by
  cases stands with
  | letter escaped other =>
    rw [List.cons_append, List.singleton_append, skipString]
    · rw [escaped]
    · exact fun _ _ _ _ _ same _ => other same
    · exact other
  | number control =>
    simp only [List.cons_append, List.nil_append]
    rw [skipString, hexUnit?_control control]
  | plain noQuote noBackslash visible =>
    rw [List.singleton_append, skipString, if_neg noBackslash, if_neg visible]
    · exact noQuote
    · exact fun _ _ _ _ _ same _ => noBackslash same
    · exact fun _ same _ => noBackslash same
    · exact fun _ _ same _ => noBackslash same

/-- Keeping a string takes up a character that stands in it. -/
theorem Stands.keep (stands : Stands c text) :
    keepString (text ++ rest) = (keepString rest).map (c :: ·) := by
  cases stands with
  | letter escaped other =>
    rw [List.cons_append, List.singleton_append, keepString]
    · rw [escaped]
    · exact fun _ _ _ _ _ same _ => other same
    · exact other
  | number control =>
    have first : isFirstHalf c.toNat = false := by
      simp only [isFirstHalf, Bool.and_eq_false_iff, decide_eq_false_iff_not]
      omega
    have second : isSecondHalf c.toNat = false := by
      simp only [isSecondHalf, Bool.and_eq_false_iff, decide_eq_false_iff_not]
      omega
    simp only [List.cons_append, List.nil_append]
    rw [keepString, hexUnit?_control control]
    simp only [first, second, Bool.false_eq_true, if_false, Char.ofNat_toNat]
  | plain noQuote noBackslash visible =>
    rw [List.singleton_append, keepString, if_neg noBackslash, if_neg visible]
    · exact noQuote
    · exact fun _ _ _ _ _ same _ => noBackslash same
    · exact fun _ same _ => noBackslash same
    · exact fun _ _ same _ => noBackslash same

theorem skipString_flatMap (chars rest : List Char) :
    skipString (chars.flatMap writeChar ++ '"' :: rest) = .ok rest := by
  induction chars with
  | nil => rfl
  | cons c others ih => rw [List.flatMap_cons, List.append_assoc, (writeChar_stands c).skip, ih]

theorem keepString_flatMap (chars rest : List Char) :
    keepString (chars.flatMap writeChar ++ '"' :: rest) = .ok chars := by
  induction chars with
  | nil => rfl
  | cons c others ih =>
    rw [List.flatMap_cons, List.append_assoc, (writeChar_stands c).keep, ih]
    rfl

/-- A string is read back from its text without the first quotation mark. -/
theorem readString_write (s : String) (rest : List Char) :
    readString (s.toList.flatMap writeChar ++ '"' :: rest) = (.string (.ok s), some rest) := by
  rw [readString, skipString_flatMap, keepString_flatMap]
  simp [Except.map]

/-! Numbers -/

/-- What may follow a value: nothing, or one of three marks, none of which goes
on with a number. -/
def MayFollow (rest : List Char) : Prop := ∀ c ∈ rest.head?, c = ',' ∨ c = ']' ∨ c = '}'

theorem MayFollow.cases (follows : MayFollow rest) : rest = [] ∨
    ∃ c after, rest = c :: after ∧ (c = ',' ∨ c = ']' ∨ c = '}') := by
  cases rest with
  | nil => exact .inl rfl
  | cons c after => exact .inr ⟨c, after, rfl, follows c (by simp)⟩

theorem MayFollow.noDigitFirst (follows : MayFollow rest) : NoDigitFirst rest := by
  intro c first
  rcases follows c first with rfl | rfl | rfl <;> rfl

theorem readFraction_none (follows : MayFollow rest) : readFraction rest = .ok (none, rest) := by
  rcases follows.cases with rfl | ⟨c, after, rfl, rfl | rfl | rfl⟩ <;> rfl

theorem readExponent_none (follows : MayFollow rest) : readExponent rest = .ok (none, rest) := by
  rcases follows.cases with rfl | ⟨c, after, rfl, rfl | rfl | rfl⟩ <;> rfl

/-- Only the number zero is written with a zero in front. -/
theorem toDigits_head {n : Nat} (zero : (Nat.toDigits 10 n).head? = some '0') : n = 0 := by
  induction n using Nat.strongRecOn with
  | ind n ih =>
    rw [Nat.toDigits_eq_if (by decide)] at zero
    split at zero
    · simpa [Nat.digitChar_eq_zero] using zero
    · obtain ⟨c, more, shape, -⟩ := (digits_toDigits (n / 10)).exists_cons
      have := ih (n / 10) (by omega) (by simpa [shape] using zero)
      omega

theorem readMagnitude_toDigits (negative : Bool) (n : Nat) (follows : MayFollow rest) :
    readMagnitude negative (Nat.toDigits 10 n ++ rest) =
      .ok (⟨negative, Nat.toDigits 10 n, none, none⟩, rest) := by
  have digits := digits_toDigits n
  have ends := follows.noDigitFirst
  have noZero : ¬ ((Nat.toDigits 10 n).head? = some '0' ∧ Nat.toDigits 10 n ≠ ['0']) := by
    rintro ⟨zero, other⟩
    rw [toDigits_head zero] at other
    exact other rfl
  have part : partDigits (Nat.toDigits 10 n ++ rest) = (Nat.toDigits 10 n, rest) := by
    rw [partDigits, digits.takeWhile_append ends, digits.dropWhile_append ends]
  have whole : readWhole (Nat.toDigits 10 n ++ rest) = .ok (Nat.toDigits 10 n, rest) := by
    rw [readWhole, readDigits, part]
    have someDigits : (Nat.toDigits 10 n).isEmpty = false := by
      simp [Nat.toDigits_ne_nil]
    simp only [someDigits]
    exact if_neg noZero
  simp only [readMagnitude, bind, Except.bind, whole, readFraction_none follows,
    readExponent_none follows]
  rfl

theorem readNumber_toDigits (negative : Bool) (n : Nat) (follows : MayFollow rest) :
    readNumber negative (Nat.toDigits 10 n ++ rest) =
      (.number ⟨negative, Nat.toDigits 10 n, none, none⟩, some rest) := by
  rw [readNumber, readMagnitude_toDigits negative n follows]

/-! Values -/

theorem skipSpace_cons (visible : isSpace c = false) : skipSpace (c :: rest) = c :: rest := by
  rw [skipSpace, List.dropWhile_cons_of_neg (by simp [visible])]

/-- A character that starts a value: it is neither white space nor the end of a list. -/
structure StartsValue (c : Char) : Prop where
  visible : isSpace c = false
  noList : c ≠ ']'

theorem startsValue_of_isDigit (digit : c.isDigit = true) : StartsValue c := by
  constructor
  · cases space : isSpace c with
    | false => rfl
    | true =>
      simp only [isSpace, Bool.or_eq_true, beq_iff_eq] at space
      rcases space with ((rfl | rfl) | rfl) | rfl <;> cases digit
  · rintro rfl
    cases digit

theorem write_starts (v : Value) : ∃ c text, v.write = c :: text ∧ StartsValue c := by
  have start {c : Char} {text : List Char} (starts : StartsValue c) :
      ∃ c' text', c :: text = c' :: text' ∧ StartsValue c' := ⟨c, text, rfl, starts⟩
  cases v with
  | null => exact start ⟨rfl, by decide⟩
  | bool b => cases b <;> exact start ⟨rfl, by decide⟩
  | integer n =>
    simp only [Value.write, writeInteger]
    split
    · exact start ⟨rfl, by decide⟩
    · obtain ⟨c, more, shape, digit⟩ := (digits_toDigits n.natAbs).exists_cons
      rw [shape]
      exact start (startsValue_of_isDigit digit)
  | string s => exact start ⟨rfl, by decide⟩
  | list items => cases items <;> exact start ⟨rfl, by decide⟩
  | object members => cases members <;> exact start ⟨rfl, by decide⟩

theorem readValue_integer (n : Int) (steps : Nat) (follows : MayFollow rest) :
    readValue (steps + 1) (writeInteger n ++ rest) =
      (.number (integerNumeral n), some rest) := by
  unfold writeInteger integerNumeral
  split
  · rename_i negative
    rw [List.cons_append, readValue, skipSpace_cons rfl]
    simp only [negative, decide_true]
    exact readNumber_toDigits true n.natAbs follows
  · rename_i positive
    have read := readNumber_toDigits false n.natAbs follows
    obtain ⟨c, more, shape, digit⟩ := (digits_toDigits n.natAbs).exists_cons
    have other {d : Char} (noDigit : d.isDigit = false) : c ≠ d := by
      rintro rfl
      rw [digit] at noDigit
      cases noDigit
    simp only [positive, decide_false]
    rw [shape] at read ⊢
    rw [List.cons_append] at read ⊢
    rw [readValue, skipSpace_cons (startsValue_of_isDigit digit).visible]
    dsimp only
    rw [if_neg (other rfl), if_neg (other rfl), if_neg (other rfl), if_neg (other rfl),
      if_neg (other rfl), if_pos digit, read]

theorem readValue_string (s : String) (steps : Nat) (rest : List Char) :
    readValue (steps + 1) (writeString s ++ rest) = (.string (.ok s), some rest) := by
  rw [writeString, List.cons_append, List.append_assoc, List.singleton_append, readValue,
    skipSpace_cons rfl]
  exact readString_write s rest

/-- The values of a list with its end, without the comma before the first. -/
def itemsText (items : List Value) : List Char := (writeItems items).tail

/-- The members of an object with its end, without the comma before the first. -/
def membersText (members : List (String × Value)) : List Char := (writeMembers members).tail

theorem mayFollow_writeItems (items : List Value) (rest : List Char) :
    MayFollow (writeItems items ++ rest) := by
  cases items <;> simp [writeItems, MayFollow]

theorem mayFollow_writeMembers (members : List (String × Value)) (rest : List Char) :
    MayFollow (writeMembers members ++ rest) := by
  cases members <;> simp [writeMembers, MayFollow]

theorem onward_comma {bracket : Char} (other : bracket ≠ ',') (starts : StartsValue c)
    (noBracket : c ≠ bracket) : onward bracket (',' :: c :: rest) = .more (c :: rest) := by
  rw [onward, skipSpace_cons rfl]
  dsimp only
  rw [if_neg (Ne.symm other), if_pos rfl, skipSpace_cons starts.visible]
  exact if_neg noBracket

theorem inside_more {bracket : Char} (starts : StartsValue c) (noBracket : c ≠ bracket) :
    inside bracket (c :: rest) = .more (c :: rest) := by
  rw [inside, skipSpace_cons starts.visible]
  exact if_neg noBracket

theorem length_write_pos (v : Value) : 0 < v.write.length := by
  obtain ⟨c, text, shape, -⟩ := write_starts v
  simp [shape]

theorem length_writeItems_pos (items : List Value) : 0 < (writeItems items).length := by
  cases items <;> simp [writeItems]

theorem length_writeMembers_pos (members : List (String × Value)) :
    0 < (writeMembers members).length := by
  cases members <;> simp [writeMembers]

/-- After a value of a list comes the next one, or the end. -/
theorem onward_writeItems (items : List Value) (rest : List Char) :
    onward ']' (writeItems items ++ rest) =
      if items = [] then .finish .closed (some rest) else .more (itemsText items ++ rest) := by
  cases items with
  | nil => rfl
  | cons item others =>
    obtain ⟨c, text, shape, starts⟩ := write_starts item
    simp only [itemsText, writeItems, shape, List.cons_append, List.tail_cons]
    exact onward_comma (by decide) starts starts.noList

/-- After a member of an object comes the next one, or the end. -/
theorem onward_writeMembers (members : List (String × Value)) (rest : List Char) :
    onward '}' (writeMembers members ++ rest) =
      if members = [] then .finish .closed (some rest)
      else .more (membersText members ++ rest) := by
  cases members with
  | nil => rfl
  | cons member others =>
    obtain ⟨name, value⟩ := member
    simp only [membersText, writeMembers, writeString, List.cons_append, List.tail_cons]
    exact onward_comma (by decide) ⟨rfl, by decide⟩ (by decide)

-- The inductions are on the value, and the steps need only be as many as the text has
-- characters: each reader spends one step where it goes in, and before that it has
-- passed a bracket, a comma or a quotation mark, which the text inside lacks.

mutual

/-- A value is read back from its text, whatever may follow it. -/
theorem readValue_write : ∀ (v : Value) (steps : Nat) (rest : List Char),
    v.write.length ≤ steps → MayFollow rest →
      readValue steps (v.write ++ rest) = (v.doc, some rest)
  | v, 0, rest, enough, _ => by
    have := length_write_pos v
    omega
  | .null, steps + 1, rest, _, _ => rfl
  | .bool true, steps + 1, rest, _, _ => rfl
  | .bool false, steps + 1, rest, _, _ => rfl
  | .integer n, steps + 1, rest, _, follows => readValue_integer n steps follows
  | .string s, steps + 1, rest, _, _ => readValue_string s steps rest
  | .list [], steps + 1, rest, _, _ => rfl
  | .list (item :: others), steps + 1, rest, enough, _ => by
    have items := readItems_write (item :: others) steps rest (List.cons_ne_nil _ _)
      (Nat.le_of_succ_le_succ enough)
    obtain ⟨c, text, shape, starts⟩ := write_starts item
    simp only [Value.write, Value.doc, itemsText, writeItems, List.tail_cons, shape,
      List.cons_append] at items ⊢
    rw [readValue, skipSpace_cons rfl]
    simp only [Char.reduceEq, if_false, if_true]
    rw [if_neg (by decide), inside_more starts starts.noList]
    dsimp only
    rw [items]
  | .object [], steps + 1, rest, _, _ => rfl
  | .object (member :: others), steps + 1, rest, enough, _ => by
    have members := readMembers_write (member :: others) steps rest (List.cons_ne_nil _ _)
      (Nat.le_of_succ_le_succ enough)
    obtain ⟨name, value⟩ := member
    simp only [Value.write, Value.doc, membersText, writeMembers, List.tail_cons, writeString,
      List.cons_append] at members ⊢
    rw [readValue, skipSpace_cons rfl]
    simp only [Char.reduceEq, if_false, if_true]
    rw [if_neg (by decide), inside_more ⟨rfl, by decide⟩ (by decide)]
    dsimp only
    rw [members]

/-- Some values are read back up to the end of their list. -/
theorem readItems_write : ∀ (items : List Value) (steps : Nat) (rest : List Char),
    items ≠ [] → (itemsText items).length ≤ steps →
      readItems steps (itemsText items ++ rest) = ((docItems items, .closed), some rest)
  | [], _, _, nonempty, _ => absurd rfl nonempty
  | item :: others, steps, rest, _, enough => by
    have ends := length_writeItems_pos others
    simp only [itemsText, writeItems, List.tail_cons, List.length_append] at enough
    obtain ⟨steps, rfl⟩ : ∃ fewer, steps = fewer + 1 := ⟨steps - 1, by omega⟩
    have value := readValue_write item steps (writeItems others ++ rest) (by omega)
      (mayFollow_writeItems others rest)
    rw [itemsText, writeItems, List.tail_cons, List.append_assoc, readItems, value]
    dsimp only
    rw [onward_writeItems]
    cases others with
    | nil => rfl
    | cons next more =>
      have later := readItems_write (next :: more) steps rest (List.cons_ne_nil _ _)
        (by rw [itemsText, List.length_tail]; omega)
      rw [if_neg (List.cons_ne_nil _ _)]
      dsimp only
      rw [later]
      rfl

/-- Some members are read back up to the end of their object. -/
theorem readMembers_write : ∀ (members : List (String × Value)) (steps : Nat) (rest : List Char),
    members ≠ [] → (membersText members).length ≤ steps →
      readMembers steps (membersText members ++ rest) =
        ((docMembers members, .closed), some rest)
  | [], _, _, nonempty, _ => absurd rfl nonempty
  | (name, value) :: others, steps, rest, _, enough => by
    have ends := length_writeMembers_pos others
    have quotes : 2 ≤ (writeString name).length := by simp [writeString]
    simp only [membersText, writeMembers, List.tail_cons, List.length_append, List.length_cons]
      at enough
    obtain ⟨steps, rfl⟩ : ∃ fewer, steps = fewer + 3 := ⟨steps - 3, by omega⟩
    have key := readValue_string name steps
      (':' :: (value.write ++ (writeMembers others ++ rest)))
    have own := readValue_write value (steps + 1) (writeMembers others ++ rest) (by omega)
      (mayFollow_writeMembers others rest)
    have member : readMember (steps + 2) (writeString name ++
        ':' :: (value.write ++ (writeMembers others ++ rest))) =
          (.entry (.string (.ok name)) value.doc, some (writeMembers others ++ rest)) := by
      rw [readMember, key]
      dsimp only
      rw [skipSpace_cons rfl]
      dsimp only
      rw [if_pos rfl, own]
    rw [membersText, writeMembers, List.tail_cons, List.append_assoc, List.cons_append,
      List.append_assoc, readMembers, member]
    dsimp only
    rw [onward_writeMembers]
    cases others with
    | nil => rfl
    | cons next more =>
      have later := readMembers_write (next :: more) (steps + 2) rest (List.cons_ne_nil _ _)
        (by rw [membersText, List.length_tail]; omega)
      rw [if_neg (List.cons_ne_nil _ _)]
      dsimp only
      rw [later]
      rfl

end

/-- The document of a written value, with nothing after it. -/
theorem ofText_write (v : Value) : Source.ofText v.write = ⟨v.doc, false⟩ := by
  have read := readValue_write v (3 * v.write.length + 3) [] (by omega) (by simp [MayFollow])
  rw [List.append_nil] at read
  rw [Source.ofText, read]
  rfl

end UnpaidWork.Json
