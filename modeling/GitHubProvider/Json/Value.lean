/- JSON values as `serde_json` holds them, and what is asked of a JSON library. -/

import Mathlib.Data.List.Basic

set_option autoImplicit false
set_option relaxedAutoImplicit false

namespace GitHubProvider.Json

/-- A number is an integer of 64 bits or, failing that, a float. A float is kept
as its literal, since nothing here computes with one. -/
inductive Number where
  | posInt (n : UInt64)
  | negInt (n : Int64)
  | float (literal : String)
  deriving DecidableEq

/-- `serde_json::Value`. The members of an object are in the order of their keys,
as the `BTreeMap` behind `serde_json::Map` holds them. -/
inductive Value where
  | null
  | bool (b : Bool)
  | number (n : Number)
  | string (s : String)
  | array (items : List Value)
  | object (members : List (String × Value))

namespace Value

def get : Value → String → Option Value
  | .object members, key => members.lookup key
  | _, _ => none

def asStr : Value → Option String
  | .string s => some s
  | _ => none

def asBool : Value → Option Bool
  | .bool b => some b
  | _ => none

def asU64 : Value → Option UInt64
  | .number (.posInt n) => some n
  | _ => none

def asArray : Value → Option (List Value)
  | .array items => some items
  | _ => none

def asObject : Value → Option (List (String × Value))
  | .object members => some members
  | _ => none

def strAt (value : Value) (key : String) : Option String := (value.get key).bind asStr

end Value

/-- What is asked of `serde_json`: reading a text, reading bytes, and writing. The
error of `fromSlice` is its message, which a refusal repeats. -/
class SerdeJson where
  fromStr : String → Option Value
  fromSlice : List UInt8 → Except String Value
  toString : Value → String

end GitHubProvider.Json
