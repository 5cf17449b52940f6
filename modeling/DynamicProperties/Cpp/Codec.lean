import DynamicProperties.Cpp.Snapshot

/-!
# The collection codec

The second half of `value.cpp`: `escapeJson`, `JsonParser`,
`encodeCollectionJson` and `decodeCollectionJson`.

Two conversions of the C library are a parameter: how an output stream prints a
double with 17 digits, and `strtod`.  A parser is a function of the remaining
text and the position; every failing path throws its message with the position,
as `JsonParser::fail` does.  The recursion of the parser is bounded by a fuel that
starts above what a document of that length can use: every two levels consume at
least one byte.
-/

namespace DynamicProperties.Cpp

open Std

/-- The conversions of the C library the codec calls. -/
structure NumberFormat where
  /-- `out << std::setprecision(17) << value`. -/
  print17 : Double → ByteString
  /-- `std::strtod`: the value, and what the conversion left unread. -/
  strtod : ByteString → Double × ByteString

/-! ## Encoding -/

def hexDigit (n : UInt8) : UInt8 := if n < 10 then 0x30 + n else 0x61 + (n - 10)

/-- One byte of `escapeJson`. -/
def escapeByte (c : UInt8) : ByteString :=
  if c = 0x22 then [0x5C, 0x22]
  else if c = 0x5C then [0x5C, 0x5C]
  else if c = 0x08 then text "\\b"
  else if c = 0x0C then text "\\f"
  else if c = 0x0A then text "\\n"
  else if c = 0x0D then text "\\r"
  else if c = 0x09 then text "\\t"
  else if c < 0x20 then text "\\u00" ++ [hexDigit (c >>> 4), hexDigit (c &&& 0x0F)]
  else [c]

def escapeJson (value : ByteString) : ByteString := value.flatMap escapeByte

/-- An escaped string between quotes. -/
def quoted (value : ByteString) : ByteString := [0x22] ++ escapeJson value ++ [0x22]

/-- A member name and the colon after it, for a fixed field. -/
def field (name : String) : ByteString := quoted (text name) ++ text ":"

section Encode

variable (format : NumberFormat)

def encodeValue : DynamicPropertyValue → ByteString
  | .bool entry => if entry then text "true" else text "false"
  | .number entry => format.print17 entry
  | .string entry => quoted entry
  | .vector3 entry =>
      text "[" ++ format.print17 entry.x ++ text "," ++ format.print17 entry.y ++ text ","
        ++ format.print17 entry.z ++ text "]"

def encodeProperty (key : ByteString) (value : DynamicPropertyValue) : ByteString :=
  quoted key ++ text ":\x7b" ++ field "type" ++ quoted (valueTypeName value) ++ text ","
    ++ field "value" ++ encodeValue format value ++ text "\x7d"

def encodeCollectionJson (ref : CollectionRef) (properties : DynamicPropertyMap)
    (revision : UInt64) : ByteString :=
  text "\x7b" ++ field "schema" ++ text "1," ++ field "target" ++ quoted (describeTarget ref.target)
    ++ text "," ++ field "collection" ++ quoted ref.collection ++ text "," ++ field "revision"
    ++ decimal revision ++ text "," ++ field "properties" ++ text "\x7b"
    ++ (text ",").intercalate (properties.toList.map fun entry =>
        encodeProperty format entry.1 entry.2)
    ++ text "\x7d\x7d"

end Encode

/-! ## Parsing -/

/-- `JsonValue`; an object's members are in key order, each key once. -/
inductive JsonValue where
  | null
  | bool (value : Bool)
  | number (value : Double)
  | string (value : ByteString)
  | array (elements : List JsonValue)
  | object (members : List (ByteString × JsonValue))

/-- The parser's `text_` from `pos_` on, and `pos_`. -/
structure Cursor where
  rest : ByteString
  pos : Nat

abbrev Parser (α : Type) := Cursor → Except ByteString (α × Cursor)

/-- `JsonParser::fail`. -/
def parseFail {α : Type} (message : String) (cursor : Cursor) : Except ByteString α :=
  .error (text message ++ text " at byte " ++ text (toString cursor.pos))

/-- Move past the first `n` bytes. -/
def Cursor.advance (cursor : Cursor) (n : Nat) : Cursor :=
  ⟨cursor.rest.drop n, cursor.pos + n⟩

def isSpace (c : UInt8) : Bool := c = 0x20 || c = 0x0A || c = 0x0D || c = 0x09

def isDigit (c : UInt8) : Bool := 0x30 ≤ c && c ≤ 0x39

def skipSpace (cursor : Cursor) : Cursor :=
  cursor.advance (cursor.rest.takeWhile isSpace).length

/-- The loop that skips digits. -/
def skipDigits (cursor : Cursor) : Cursor :=
  cursor.advance (cursor.rest.takeWhile isDigit).length

def take : Parser UInt8 := fun cursor =>
  match cursor.rest with
  | [] => parseFail "unexpected end of document" cursor
  | c :: _ => .ok (c, cursor.advance 1)

/-- `consume`: the cursor after `value`, if the text continues with it. -/
def consume (value : ByteString) (cursor : Cursor) : Option Cursor :=
  if value.isPrefixOf cursor.rest then some (cursor.advance value.length) else none

/-- `hex`, with `none` for -1. -/
def hexValue (c : UInt8) : Option UInt32 :=
  if 0x30 ≤ c && c ≤ 0x39 then some (c - 0x30).toUInt32
  else if 0x61 ≤ c && c ≤ 0x66 then some (10 + (c - 0x61)).toUInt32
  else if 0x41 ≤ c && c ≤ 0x46 then some (10 + (c - 0x41)).toUInt32
  else none

/-- The loop of `parseUnicodeCodeUnit` with `n` digits to go. -/
def parseHexDigits : Nat → UInt32 → Parser UInt32
  | 0, code => fun cursor => .ok (code, cursor)
  | n + 1, code => fun cursor =>
      match cursor.rest with
      | [] => parseFail "short unicode escape" cursor
      | c :: _ =>
          match hexValue c with
          | none => parseFail "invalid unicode escape" (cursor.advance 1)
          | some digit => parseHexDigits n ((code <<< 4) ||| digit) (cursor.advance 1)

def parseUnicodeCodeUnit : Parser UInt32 := parseHexDigits 4 0

/-- The `u` escape, after its letter: one code unit, or a surrogate pair. -/
def parseUnicodeEscape : Parser ByteString := fun cursor => do
  let (codePoint, cursor) ← parseUnicodeCodeUnit cursor
  if 0xD800 ≤ codePoint ∧ codePoint ≤ 0xDBFF then
    match consume (text "\\u") cursor with
    | none => parseFail "high surrogate must be followed by low surrogate" cursor
    | some cursor => do
        let (low, cursor) ← parseUnicodeCodeUnit cursor
        if low < 0xDC00 ∨ 0xDFFF < low then parseFail "invalid low surrogate" cursor
        else
          .ok (appendUtf8 [] ((0x10000 : UInt32) + ((codePoint - 0xD800) <<< 10) + (low - 0xDC00)),
            cursor)
  else if 0xDC00 ≤ codePoint ∧ codePoint ≤ 0xDFFF then
    parseFail "lone low surrogate" cursor
  else .ok (appendUtf8 [] codePoint, cursor)

/-- The `switch` over escapes, after the backslash. -/
def parseEscape : Parser ByteString := fun cursor => do
  let (escaped, cursor) ← take cursor
  if escaped = 0x22 then .ok ([0x22], cursor)
  else if escaped = 0x5C then .ok ([0x5C], cursor)
  else if escaped = 0x2F then .ok ([0x2F], cursor)
  else if escaped = 0x62 then .ok ([0x08], cursor)
  else if escaped = 0x66 then .ok ([0x0C], cursor)
  else if escaped = 0x6E then .ok ([0x0A], cursor)
  else if escaped = 0x72 then .ok ([0x0D], cursor)
  else if escaped = 0x74 then .ok ([0x09], cursor)
  else if escaped = 0x75 then parseUnicodeEscape cursor
  else parseFail "invalid string escape" cursor

/-- The loop of `parseString`; each round consumes at least one byte. -/
def parseStringLoop : Nat → ByteString → Parser ByteString
  | 0, _ => parseFail "unterminated string"
  | fuel + 1, out => fun cursor =>
      match cursor.rest with
      | [] => parseFail "unterminated string" cursor
      | c :: _ =>
          let cursor := cursor.advance 1
          if c = 0x22 then
            if !isValidUtf8 out then parseFail "invalid UTF-8 in string" cursor
            else .ok (out, cursor)
          else if c ≠ 0x5C then
            if c < 0x20 then parseFail "control character in string" cursor
            else parseStringLoop fuel (out ++ [c]) cursor
          else do
            let (bytes, cursor) ← parseEscape cursor
            parseStringLoop fuel (out ++ bytes) cursor

def parseString : Parser ByteString := fun cursor => do
  let (c, cursor) ← take cursor
  if c ≠ 0x22 then parseFail "expected string" cursor
  else parseStringLoop (cursor.rest.length + 1) [] cursor

/-- A non-empty run of digits. -/
def requireDigits (message : String) (cursor : Cursor) : Except ByteString Cursor :=
  match cursor.rest with
  | c :: _ => if isDigit c then .ok (skipDigits cursor) else parseFail message cursor
  | [] => parseFail message cursor

/-- The integer part: a zero, or digits that do not start with one. -/
def skipInteger (cursor : Cursor) : Except ByteString Cursor :=
  match cursor.rest with
  | [] => parseFail "invalid number" cursor
  | c :: _ => if c = 0x30 then .ok (cursor.advance 1) else requireDigits "invalid number" cursor

def skipFraction (cursor : Cursor) : Except ByteString Cursor :=
  match consume (text ".") cursor with
  | none => .ok cursor
  | some cursor => requireDigits "invalid fraction" cursor

def skipExponent (cursor : Cursor) : Except ByteString Cursor :=
  match cursor.rest with
  | c :: _ =>
      if c = 0x65 ∨ c = 0x45 then
        let cursor := cursor.advance 1
        let cursor := ((consume (text "+") cursor).orElse fun _ => consume (text "-") cursor).getD
          cursor
        requireDigits "invalid exponent" cursor
      else .ok cursor
  | [] => .ok cursor

def parseNumber (format : NumberFormat) : Parser Double := fun start => do
  let cursor := (consume (text "-") start).getD start
  let cursor ← skipInteger cursor
  let cursor ← skipFraction cursor
  let cursor ← skipExponent cursor
  let (value, unread) := format.strtod (start.rest.take (cursor.pos - start.pos))
  if !unread.isEmpty || !value.isFinite then parseFail "invalid finite number" cursor
  else .ok (value, cursor)

/-- `std::map::emplace`: `none` for a key that is already there. -/
def emplace (key : ByteString) (value : JsonValue) :
    List (ByteString × JsonValue) → Option (List (ByteString × JsonValue))
  | [] => some [(key, value)]
  | (k, v) :: rest =>
      match compare key k with
      | .lt => some ((key, value) :: (k, v) :: rest)
      | .eq => none
      | .gt => (emplace key value rest).map ((k, v) :: ·)

mutual

/-- `parseValue`, with the brackets of objects and arrays. -/
def parseValue (format : NumberFormat) : Nat → Parser JsonValue
  | 0 => parseFail "expected value"
  | fuel + 1 => fun cursor =>
      let cursor := skipSpace cursor
      match cursor.rest with
      | [] => parseFail "expected value" cursor
      | c :: _ =>
          if c = 0x7B then
            let inner := skipSpace (cursor.advance 1)
            match consume (text "\x7d") inner with
            | some cursor => .ok (.object [], cursor)
            | none => do
                let (members, cursor) ← parseMembers format fuel [] inner
                .ok (.object members, cursor)
          else if c = 0x5B then
            let inner := skipSpace (cursor.advance 1)
            match consume (text "]") inner with
            | some cursor => .ok (.array [], cursor)
            | none => do
                let (elements, cursor) ← parseElements format fuel [] inner
                .ok (.array elements, cursor)
          else if c = 0x22 then do
            let (value, cursor) ← parseString cursor
            .ok (.string value, cursor)
          else if c = 0x2D || isDigit c then do
            let (value, cursor) ← parseNumber format cursor
            .ok (.number value, cursor)
          else
            match consume (text "true") cursor with
            | some cursor => .ok (.bool true, cursor)
            | none =>
                match consume (text "false") cursor with
                | some cursor => .ok (.bool false, cursor)
                | none =>
                    match consume (text "null") cursor with
                    | some cursor => .ok (.null, cursor)
                    | none => parseFail "invalid value" cursor

/-- The loop of `parseObject`. -/
def parseMembers (format : NumberFormat) :
    Nat → List (ByteString × JsonValue) → Parser (List (ByteString × JsonValue))
  | 0, _ => parseFail "expected object key"
  | fuel + 1, members => fun cursor => do
      let cursor := skipSpace cursor
      if cursor.rest.head? ≠ some 0x22 then parseFail "expected object key" cursor
      else
        let (key, cursor) ← parseString cursor
        let (colon, cursor) ← take (skipSpace cursor)
        if colon ≠ 0x3A then parseFail "expected colon" cursor
        else
          let (value, cursor) ← parseValue format fuel cursor
          match emplace key value members with
          | none => parseFail "duplicate object key" cursor
          | some members => do
              let (separator, cursor) ← take (skipSpace cursor)
              if separator = 0x7D then .ok (members, cursor)
              else if separator ≠ 0x2C then parseFail "expected comma" cursor
              else parseMembers format fuel members cursor

/-- The loop of `parseArray`. -/
def parseElements (format : NumberFormat) :
    Nat → List JsonValue → Parser (List JsonValue)
  | 0, _ => parseFail "expected value"
  | fuel + 1, elements => fun cursor => do
      let (value, cursor) ← parseValue format fuel cursor
      let elements := elements ++ [value]
      let (separator, cursor) ← take (skipSpace cursor)
      if separator = 0x5D then .ok (elements, cursor)
      else if separator ≠ 0x2C then parseFail "expected comma" cursor
      else parseElements format fuel elements cursor

end

/-- `JsonParser(text).parse()` with a bound on the recursion. -/
def parseWithin (format : NumberFormat) (fuel : Nat) (document : ByteString) :
    Except ByteString JsonValue := do
  let (value, cursor) ← parseValue format fuel (skipSpace ⟨document, 0⟩)
  let cursor := skipSpace cursor
  if !cursor.rest.isEmpty then parseFail "trailing data" cursor else .ok value

/-- `JsonParser(text).parse()`: an opening bracket takes two levels of the recursion,
so this bound is never reached. -/
def parseJson (format : NumberFormat) (document : ByteString) : Except ByteString JsonValue :=
  parseWithin format (2 * document.length + 2) document

/-! ## Decoding -/

/-- `member`. -/
def member (members : List (ByteString × JsonValue)) (key : String) : Option JsonValue :=
  members.lookup (text key)

/-- The double `1.0`. -/
def doubleOne : Double := ⟨0x3FF0000000000000⟩

def allowedRootFields : List ByteString :=
  [text "schema", text "target", text "collection", text "revision", text "properties"]

/-- The value of a property entry, by its declared type. -/
def decodeTyped (type : ByteString) (value : JsonValue) :
    Except ByteString DynamicPropertyValue :=
  if type = text "bool" then
    match value with
    | .bool value => .ok (.bool value)
    | _ => .error (text "bool property has wrong value type")
  else if type = text "number" then
    match value with
    | .number value =>
        if value.isFinite then .ok (.number value)
        else .error (text "number property has wrong value type")
    | _ => .error (text "number property has wrong value type")
  else if type = text "string" then
    match value with
    | .string value => .ok (.string value)
    | _ => .error (text "string property has wrong value type")
  else if type = text "vector3" then
    match value with
    | .array [x, y, z] =>
        match x, y, z with
        | .number x, .number y, .number z => .ok (.vector3 ⟨x, y, z⟩)
        | _, _, _ => .error (text "vector3 coordinates must be numbers")
    | _ => .error (text "vector3 must have three coordinates")
  else .error (text "unknown property type: " ++ type)

def decodeEntry (encoded : JsonValue) : Except ByteString DynamicPropertyValue :=
  match encoded with
  | .object entry =>
      match entry.length, member entry "type", member entry "value" with
      | 2, some type, some value =>
          match type with
          | .string type => decodeTyped type value
          | _ => .error (text "property entry requires type and value")
      | _, _, _ => .error (text "property entry must contain only type and value")
  | _ => .error (text "property entry must be an object")

/-- The loop over the properties, in key order. -/
def decodeProperties : List (ByteString × JsonValue) → DynamicPropertyMap →
    Except ByteString DynamicPropertyMap
  | [], result => .ok result
  | (key, encoded) :: rest, result => do
      let value ← decodeEntry encoded
      decodeProperties rest (result.insertIfNew key value)

def decodeCollectionJson (format : NumberFormat) (document : ByteString) :
    Except ByteString DynamicPropertyMap := do
  match ← parseJson format document with
  | .object root =>
      match root.find? fun entry => !allowedRootFields.contains entry.1 with
      | some unknown => .error (text "unknown root field: " ++ unknown.1)
      | none =>
          match member root "schema" with
          | some (.number schema) =>
              if schema ≠ doubleOne then .error (text "schema must be 1")
              else
                match member root "properties" with
                | some (.object properties) => decodeProperties properties ∅
                | _ => .error (text "properties must be an object")
          | _ => .error (text "schema must be 1")
  | _ => .error (text "root must be an object")

end DynamicProperties.Cpp
