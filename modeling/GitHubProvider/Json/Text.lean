/- Compact JSON text: writing a value, reading one back. -/

import GitHubProvider.Json.Value
import Mathlib

/-!
Writing follows the compact form: no white space, members in the order they are
held, control characters escaped. Reading accepts white space between tokens,
keeps the last of two members with one key, and holds members by key. The fuel
of the readers is a bound on the length of what they read. An escaped surrogate
is not read.
-/

set_option autoImplicit false
set_option relaxedAutoImplicit false

namespace GitHubProvider.Json

def writeChar (c : Char) : List Char :=
  if c = '"' then ['\\', '"']
  else if c = '\\' then ['\\', '\\']
  else if c = '\x08' then ['\\', 'b']
  else if c = '\t' then ['\\', 't']
  else if c = '\n' then ['\\', 'n']
  else if c = '\x0c' then ['\\', 'f']
  else if c = '\r' then ['\\', 'r']
  else if c.toNat < 32 then
    ['\\', 'u', '0', '0', Nat.digitChar (c.toNat / 16), Nat.digitChar (c.toNat % 16)]
  else [c]

def writeString (s : String) : List Char := '"' :: s.toList.flatMap writeChar ++ ['"']

def writeNumber : Number → List Char
  | .posInt n => Nat.toDigits 10 n.toNat
  | .negInt n => '-' :: Nat.toDigits 10 n.toInt.natAbs
  | .float literal => literal.toList

mutual

def writeValue : Value → List Char
  | .null => "null".toList
  | .bool true => "true".toList
  | .bool false => "false".toList
  | .number n => writeNumber n
  | .string s => writeString s
  | .array [] => ['[', ']']
  | .array (item :: items) => '[' :: (writeValue item ++ writeItems items)
  | .object [] => ['{', '}']
  | .object ((key, value) :: members) =>
      '{' :: (writeString key ++ ':' :: (writeValue value ++ writeMembers members))

def writeItems : List Value → List Char
  | [] => [']']
  | item :: items => ',' :: (writeValue item ++ writeItems items)

def writeMembers : List (String × Value) → List Char
  | [] => ['}']
  | (key, value) :: members =>
      ',' :: (writeString key ++ ':' :: (writeValue value ++ writeMembers members))

end

def isSpace (c : Char) : Bool := c == ' ' || c == '\n' || c == '\t' || c == '\r'

def skipSpace (text : List Char) : List Char := text.dropWhile isSpace

def hexValue (c : Char) : Option Nat :=
  if '0' ≤ c ∧ c ≤ '9' then some (c.toNat - 48)
  else if 'a' ≤ c ∧ c ≤ 'f' then some (c.toNat - 87)
  else if 'A' ≤ c ∧ c ≤ 'F' then some (c.toNat - 55)
  else none

def readHex (a b c d : Char) : Option Char := do
  let n := (← hexValue a) * 4096 + (← hexValue b) * 256 + (← hexValue c) * 16 + (← hexValue d)
  if 0xD800 ≤ n ∧ n ≤ 0xDFFF then none else some (Char.ofNat n)

def readEscape (c : Char) : Option Char :=
  if c = '"' ∨ c = '\\' ∨ c = '/' then some c
  else if c = 'b' then some '\x08'
  else if c = 't' then some '\t'
  else if c = 'n' then some '\n'
  else if c = 'f' then some '\x0c'
  else if c = 'r' then some '\r'
  else none

/-- The characters of a string after its opening quote, up to the closing one. -/
def readChars : List Char → Option (List Char × List Char)
  | [] => none
  | c :: rest =>
      if c = '"' then some ([], rest)
      else if c = '\\' then
        match rest with
        | 'u' :: h₃ :: h₂ :: h₁ :: h₀ :: rest =>
            match readHex h₃ h₂ h₁ h₀, readChars rest with
            | some x, some (xs, rest) => some (x :: xs, rest)
            | _, _ => none
        | e :: rest =>
            match readEscape e, readChars rest with
            | some x, some (xs, rest) => some (x :: xs, rest)
            | _, _ => none
        | [] => none
      else if c.toNat < 32 then none
      else (readChars rest).map fun p => (c :: p.1, p.2)

def isNumberChar (c : Char) : Bool :=
  c.isDigit || c == '.' || c == 'e' || c == 'E' || c == '+' || c == '-'

/-- An integer of 64 bits, or a float in the grammar of JSON numbers. -/
def numberOf (literal : List Char) : Option Number :=
  let digits := if literal.head? = some '-' then literal.tail else literal
  if digits = [] ∨ (digits.head? = some '0' ∧ ∃ c ∈ digits.tail.head?, c.isDigit) then none
  else if digits.all Char.isDigit then
    let n := Nat.ofDigitChars 10 digits 0
    if literal.head? = some '-' then
      if 0 < n ∧ n ≤ 2 ^ 63 then some (.negInt (Int64.ofInt (-n)))
      else some (.float (.ofList literal))
    else if n < 2 ^ 64 then some (.posInt (UInt64.ofNat n))
    else some (.float (.ofList literal))
  else
    let whole := digits.takeWhile Char.isDigit
    let rest := digits.dropWhile Char.isDigit
    let fraction := if rest.head? = some '.' then rest.tail.takeWhile Char.isDigit else []
    let exponent := if rest.head? = some '.' then rest.tail.dropWhile Char.isDigit else rest
    let power := exponent.tail.dropWhile fun c => c == '+' || c == '-'
    if whole = [] ∨ (rest.head? = some '.' ∧ fraction = []) then none
    else if exponent = [] then some (.float (.ofList literal))
    else if (exponent.head? = some 'e' ∨ exponent.head? = some 'E') ∧
        exponent.tail.length ≤ power.length + 1 ∧ power ≠ [] ∧ power.all Char.isDigit then
      some (.float (.ofList literal))
    else none

def readNumber (text : List Char) : Option (Value × List Char) :=
  (numberOf (text.takeWhile isNumberChar)).map fun n =>
    (.number n, text.dropWhile isNumberChar)

/-- Insert a member where its key belongs; a member with the same key gives way. -/
def insertMember (key : String) (value : Value) :
    List (String × Value) → List (String × Value)
  | [] => [(key, value)]
  | (k, v) :: rest =>
      if key < k then (key, value) :: (k, v) :: rest
      else if key = k then (key, value) :: rest
      else (k, v) :: insertMember key value rest

def readWord (text : List Char) : Option (Value × List Char) :=
  if let some rest := text.dropPrefix? "null".toList then some (.null, rest)
  else if let some rest := text.dropPrefix? "true".toList then some (.bool true, rest)
  else if let some rest := text.dropPrefix? "false".toList then some (.bool false, rest)
  else none

mutual

def readValue : Nat → List Char → Option (Value × List Char)
  | 0, _ => none
  | fuel + 1, text =>
      match skipSpace text with
      | [] => none
      | c :: rest =>
          if c = '"' then (readChars rest).map fun p => (.string (.ofList p.1), p.2)
          else if c = '[' then
            if (skipSpace rest).head? = some ']' then some (.array [], (skipSpace rest).tail)
            else match readValue fuel rest with
              | some (item, rest) =>
                  (readItems fuel rest).map fun p => (.array (item :: p.1), p.2)
              | none => none
          else if c = '{' then
            if (skipSpace rest).head? = some '}' then some (.object [], (skipSpace rest).tail)
            else match readMember fuel rest with
              | some (member, rest) =>
                  (readMembers fuel [member] rest).map fun p => (.object p.1, p.2)
              | none => none
          else if c.isDigit ∨ c = '-' then readNumber (c :: rest)
          else readWord (c :: rest)

def readItems : Nat → List Char → Option (List Value × List Char)
  | 0, _ => none
  | fuel + 1, text =>
      match skipSpace text with
      | [] => none
      | c :: rest =>
          if c = ']' then some ([], rest)
          else if c = ',' then
            match readValue fuel rest with
            | some (item, rest) => (readItems fuel rest).map fun p => (item :: p.1, p.2)
            | none => none
          else none

def readMember : Nat → List Char → Option ((String × Value) × List Char)
  | 0, _ => none
  | fuel + 1, text =>
      match skipSpace text with
      | [] => none
      | c :: rest =>
          if c = '"' then
            match readChars rest with
            | some (key, rest) =>
                if (skipSpace rest).head? = some ':' then
                  (readValue fuel (skipSpace rest).tail).map fun p => ((.ofList key, p.1), p.2)
                else none
            | none => none
          else none

/-- The members after those already held, up to the closing brace. -/
def readMembers : Nat → List (String × Value) → List Char →
    Option (List (String × Value) × List Char)
  | 0, _, _ => none
  | fuel + 1, held, text =>
      match skipSpace text with
      | [] => none
      | c :: rest =>
          if c = '}' then some (held, rest)
          else if c = ',' then
            match readMember fuel rest with
            | some (member, rest) => readMembers fuel (insertMember member.1 member.2 held) rest
            | none => none
          else none

end

/-- A whole text: one value, and nothing but white space after it. -/
def read (text : List Char) : Option Value :=
  match readValue (text.length + 1) text with
  | some (value, rest) => if skipSpace rest = [] then some value else none
  | none => none

def write (value : Value) : List Char := writeValue value

end GitHubProvider.Json
