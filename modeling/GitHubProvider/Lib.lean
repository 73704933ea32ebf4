/- The protocol constants, the refusal codes, and byte buffers. -/

import GitHubProvider.Text.Chars

set_option autoImplicit false
set_option relaxedAutoImplicit false

namespace GitHubProvider

def providerProtocolVersion : UInt32 := 1

def providerName : String := "github"

/-- `CARGO_PKG_NAME` and `CARGO_PKG_VERSION`, as the manifest states them. -/
def packageName : String := "nostdb-provider-github"

def packageVersion : String := "0.1.6"

inductive ProviderCode where
  | protocolUnsupported
  | requestInvalid
  | locatorInvalid
  | credentialRequired
  | credentialRejected
  | sourceUnavailable
  | limitExceeded
  deriving DecidableEq, Repr

def ProviderCode.asStr : ProviderCode → String
  | .protocolUnsupported => "PROVIDER_PROTOCOL_UNSUPPORTED"
  | .requestInvalid => "PROVIDER_REQUEST_INVALID"
  | .locatorInvalid => "PROVIDER_LOCATOR_INVALID"
  | .credentialRequired => "PROVIDER_CREDENTIAL_REQUIRED"
  | .credentialRejected => "PROVIDER_CREDENTIAL_REJECTED"
  | .sourceUnavailable => "PROVIDER_SOURCE_UNAVAILABLE"
  | .limitExceeded => "PROVIDER_LIMIT_EXCEEDED"

theorem ProviderCode.asStr_injective : Function.Injective ProviderCode.asStr := by
  intro a b h
  cases a <;> cases b <;> first | rfl | exact absurd h (by decide)

/-- A `Vec<u8>`, which never holds more than `isize::MAX` bytes. -/
@[ext] structure Bytes where
  toList : List UInt8
  length_lt : toList.length < 2 ^ 63
  deriving DecidableEq

namespace Bytes

def empty : Bytes := ⟨[], by decide⟩

def len (bytes : Bytes) : UInt64 := UInt64.ofNat bytes.toList.length

@[simp] theorem toList_empty : empty.toList = [] := rfl

@[simp] theorem toNat_len (bytes : Bytes) : bytes.len.toNat = bytes.toList.length := by
  have h := bytes.length_lt
  exact UInt64.toNat_ofNat_of_lt' (by unfold UInt64.size; omega)

end Bytes

/-- A `BTreeMap`, of which only insertion and lookup are used: each key at most once. -/
abbrev BTreeMap (κ ν : Type) [DecidableEq κ] := AList fun _ : κ => ν

namespace BTreeMap

variable {κ ν : Type} [DecidableEq κ]

/-- `Iterator::collect`: of several entries under one key the last is kept. -/
def collect (entries : List (κ × ν)) : BTreeMap κ ν :=
  entries.foldl (fun collected entry => collected.insert entry.1 entry.2) ∅

theorem lookup_collect (entries : List (κ × ν)) (key : κ) :
    (collect entries).lookup key =
      (entries.filterMap fun entry => if entry.1 = key then some entry.2 else none).getLast? := by
  induction entries using List.reverseRecOn with
  | nil => rfl
  | append_singleton entries entry ih =>
      have last : collect (entries ++ [entry]) = (collect entries).insert entry.1 entry.2 := by
        simp only [collect, List.foldl_append, List.foldl_cons, List.foldl_nil]
      rw [last]
      by_cases same : entry.1 = key
      · subst same
        simp
      · simp [AList.lookup_insert_ne (Ne.symm same), same, ih]

end BTreeMap

end GitHubProvider
