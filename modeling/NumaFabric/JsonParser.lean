import NumaFabric.FaultState
import NumaFabric.JsonValue

/-! The JSON parser: helpers that skip whitespace before they look at a character, and
the recursive descent over values. -/
namespace NumaFabric
open FaultState

/-- The throw sites, one constructor per text. -/
inductive JsonError
  | unexpectedEnd | unexpectedToken | malformedLiteral | unterminatedString | badEscape
  | badUnicodeEscape | badEscapeChar | controlChar | leadingZero | badNumber | badFraction
  | badExponent | badNumberValue | expectedArrayComma | expectedKey | expectedColon
  | expectedObjectComma | trailingGarbage
  deriving DecidableEq, Repr

def JsonError.what : JsonError → ByteString
  | unexpectedEnd => ascii "unexpected end of JSON"
  | unexpectedToken => ascii "unexpected token in JSON"
  | malformedLiteral => ascii "malformed literal"
  | unterminatedString => ascii "unterminated string"
  | badEscape => ascii "bad escape"
  | badUnicodeEscape => ascii "bad unicode escape"
  | badEscapeChar => ascii "bad escape char"
  | controlChar => ascii "control char in string"
  | leadingZero => ascii "leading zero in number"
  | badNumber => ascii "bad number"
  | badFraction => ascii "bad fraction"
  | badExponent => ascii "bad exponent"
  | badNumberValue => ascii "bad number value"
  | expectedArrayComma => ascii "expected ',' in array"
  | expectedKey => ascii "expected string key"
  | expectedColon => ascii "expected ':'"
  | expectedObjectComma => ascii "expected ',' in object"
  | trailingGarbage => ascii "trailing garbage after JSON value"

inductive JsonFault
  | thrown (e : JsonError)
  /-- The bound on the recursion ran out; the one that `parse` gives never does. -/
  | exhausted
  deriving DecidableEq, Repr

/-- The state is what is left of `s` behind `i`. -/
abbrev Parser (α : Type) := Fault JsonFault ByteString α

namespace JsonParser
open Json (isSpace isDigit isDigit19)

def fail {α : Type} (e : JsonError) : Parser α := throw (.thrown e)

def skip (s : ByteString) : ByteString := s.dropWhile isSpace

def ws : Parser Unit := modify skip

def eof : Parser Bool := do
  ws
  return (← get).isEmpty

def peek : Parser U8 := do
  ws
  return (← get).headD 0

/-- The helper `get`. -/
def getChar : Parser U8 := fun s =>
  match skip s with
  | [] => .error (.thrown .unexpectedEnd) []
  | c :: rest => .ok c rest

def consume (c : U8) : Parser Bool := fun s =>
  match skip s with
  | [] => .ok false []
  | b :: rest => if b = c then .ok true rest else .ok false (b :: rest)

def expect : ByteString → Parser Unit
  | [] => pure ()
  | c :: lit => do
    throwIf ((← getChar) != c) (.thrown .malformedLiteral)
    expect lit

/-- The cases of the `switch` that stand for one byte. -/
def escapeByte (e : U8) : Option U8 :=
  if e = 0x22 then some 0x22
  else if e = 0x5C then some 0x5C
  else if e = 0x2F then some 0x2F
  else if e = 0x6E then some 0x0A
  else if e = 0x74 then some 0x09
  else if e = 0x72 then some 0x0D
  else if e = 0x62 then some 0x08
  else if e = 0x66 then some 0x0C
  else none

/-- The lambda `hex`; `none` is a throw. -/
def hex (h : U8) : Option U32 :=
  if isDigit h then some ((h - 0x30).setWidth 32)
  else if 0x61 ≤ h ∧ h ≤ 0x66 then some ((h - 0x61 + 10).setWidth 32)
  else if 0x41 ≤ h ∧ h ≤ 0x46 then some ((h - 0x41 + 10).setWidth 32)
  else none

/-- The loop over four digits. -/
def codePoint (digits : ByteString) : Option U32 :=
  digits.foldlM (fun cp h => (hex h).map (cp * 16 + ·)) 0

/-- The loop of `parse_string`, behind the opening quote. -/
def stringLoop : ByteString → ByteString → EStateM.Result JsonFault ByteString ByteString
  | [], _ => .error (.thrown .unterminatedString) []
  | c :: s, out =>
    if c = 0x22 then .ok out s
    else if c = 0x5C then
      match s with
      | [] => .error (.thrown .badEscape) []
      | e :: s =>
        match escapeByte e with
        | some b => stringLoop s (out ++ [b])
        | none =>
          if e = 0x75 then
            match s with
            | h₁ :: h₂ :: h₃ :: h₄ :: s =>
              match codePoint [h₁, h₂, h₃, h₄] with
              | some cp => stringLoop s (out ++ Json.utf8 cp)
              | none => .error (.thrown .badUnicodeEscape) s
            | s => .error (.thrown .badUnicodeEscape) s
          else .error (.thrown .badEscapeChar) s
    else if c < 0x20 then .error (.thrown .controlChar) s
    else stringLoop s (out ++ [c])

def stringBody : Parser ByteString := fun s => stringLoop s []

def parseString : Parser ByteString := do
  let _ ← getChar
  stringBody

/-- One digit at least, and every digit behind it. -/
def digits (first : U8 → Bool) (e : JsonError) : Parser Unit := fun s =>
  match s with
  | [] => .error (.thrown e) []
  | d :: rest => if first d then .ok () (rest.dropWhile isDigit) else .error (.thrown e) (d :: rest)

def integerPart : Parser Unit := do
  if ← consume 0x30 then
    throwIf ((← get).head?.any isDigit) (.thrown .leadingZero)
  else
    digits isDigit19 .badNumber

def fractionPart : Parser Unit := fun s =>
  match s with
  | [] => .ok () []
  | c :: rest => if c = 0x2E then digits isDigit .badFraction rest else .ok () (c :: rest)

def skipSign : ByteString → ByteString
  | [] => []
  | c :: rest => if c = 0x2B ∨ c = 0x2D then rest else c :: rest

def exponentPart : Parser Unit := fun s =>
  match s with
  | [] => .ok () []
  | c :: rest =>
    if c = 0x65 ∨ c = 0x45 then (digits isDigit .badExponent).run (skipSign rest)
    else .ok () (c :: rest)

variable {D : Type} (F : Doubles D)

def parseNumber : Parser (Json D) := do
  ws
  let start ← get
  let _ ← consume 0x2D
  integerPart
  fractionPart
  exponentPart
  match F.stod (start.take (start.length - (← get).length)) with
  | some d => return .number d
  | none => fail .badNumberValue

def parseArray (loop : Parser (List (Json D))) : Parser (Json D) := do
  let _ ← getChar
  if ← consume 0x5D then return .array []
  else return .array (← loop)

def parseObject (loop : Parser (List (ByteString × Json D))) : Parser (Json D) := do
  let _ ← getChar
  if ← consume 0x7D then return .object []
  else return .object (← loop)

mutual

def parseValue : ℕ → Parser (Json D)
  | 0 => throw .exhausted
  | n + 1 => do
    ws
    let c ← peek
    if c = 0x22 then return .string (← parseString)
    else if c = 0x7B then parseObject (objectLoop n [])
    else if c = 0x5B then parseArray (arrayLoop n [])
    else if c = 0x74 then
      expect (ascii "true")
      return .bool true
    else if c = 0x66 then
      expect (ascii "false")
      return .bool false
    else if c = 0x6E then
      expect (ascii "null")
      return .null
    else if c = 0x2D ∨ isDigit c then parseNumber F
    else fail .unexpectedToken

def arrayLoop : ℕ → List (Json D) → Parser (List (Json D))
  | 0, _ => throw .exhausted
  | n + 1, a => do
    let v ← parseValue n
    if ← consume 0x5D then return a ++ [v]
    else
      throwIf (!(← consume 0x2C)) (.thrown .expectedArrayComma)
      arrayLoop n (a ++ [v])

def objectLoop : ℕ → List (ByteString × Json D) → Parser (List (ByteString × Json D))
  | 0, _ => throw .exhausted
  | n + 1, o => do
    ws
    throwIf ((← peek) != 0x22) (.thrown .expectedKey)
    let key ← parseString
    throwIf (!(← consume 0x3A)) (.thrown .expectedColon)
    let v ← parseValue n
    if ← consume 0x7D then return Json.assign key v o
    else
      throwIf (!(← consume 0x2C)) (.thrown .expectedObjectComma)
      objectLoop n (Json.assign key v o)

end

def parseText (n : ℕ) : Parser (Json D) := do
  let v ← parseValue F n
  throwIf (!(← eof)) (.thrown .trailingGarbage)
  return v

end JsonParser

/-- `Json::parse`; every second call of the recursion is behind a character it took. -/
def Json.parse {D : Type} (F : Doubles D) (text : ByteString) : Except JsonFault (Json D) :=
  match (JsonParser.parseText F (2 * text.length + 1)).run text with
  | .ok v _ => .ok v
  | .error e _ => .error e

end NumaFabric
