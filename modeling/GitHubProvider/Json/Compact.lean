/- A JSON library computed by the compact codec. -/

import GitHubProvider.Json.RoundTrip
import GitHubProvider.Text.Utf8

set_option autoImplicit false
set_option relaxedAutoImplicit false

namespace GitHubProvider.Json

def readSlice (bytes : List UInt8) : Except String Value :=
  match Text.decode bytes with
  | none => .error "invalid unicode code point"
  | some text =>
      match read text.toList with
      | none => .error "expected value"
      | some value => .ok value

/-- What is asked of `serde_json`, as the compact codec does it. -/
abbrev compact : SerdeJson where
  fromStr text := read text.toList
  fromSlice := readSlice
  toString value := String.ofList (write value)

theorem compact_fromStr_toString (v : Value) (hv : Plain v) :
    compact.fromStr (compact.toString v) = some v := by
  show read (String.ofList (write v)).toList = some v
  rw [String.toList_ofList]
  exact read_write v hv

theorem compact_fromSlice_toString (v : Value) (hv : Plain v) :
    compact.fromSlice (Text.encode (compact.toString v)) = .ok v := by
  have text : read (compact.toString v).toList = some v := compact_fromStr_toString v hv
  show readSlice (Text.encode (compact.toString v)) = .ok v
  simp only [readSlice, Text.decode_encode, text]

theorem newline_not_mem_compact_toString (v : Value) (hv : Plain v) :
    '\n' ∉ (compact.toString v).toList := by
  show '\n' ∉ (String.ofList (write v)).toList
  rw [String.toList_ofList]
  exact newline_not_mem_write v hv

end GitHubProvider.Json
