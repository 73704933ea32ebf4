/- UTF-8, between texts and lists of bytes. -/

import Mathlib

set_option autoImplicit false
set_option relaxedAutoImplicit false

namespace GitHubProvider.Text

/-- `str::as_bytes`. -/
def encode (text : String) : List UInt8 := text.toList.flatMap String.utf8EncodeChar

/-- `std::str::from_utf8`: nothing when the bytes are not UTF-8. -/
def decode (bytes : List UInt8) : Option String :=
  bytes.toByteArray.utf8Decode?.map fun chars => String.ofList chars.toList

@[simp] theorem decode_encode (text : String) : decode (encode text) = some text := by
  have bytes : (encode text).toByteArray = text.toList.utf8Encode := rfl
  rw [decode, bytes, List.utf8Decode?_utf8Encode]
  simp

private theorem newline_mem_utf8EncodeChar {c : Char} (h : 10 ∈ String.utf8EncodeChar c) :
    c = '\n' := by
  have small (n : Nat) (hn : n < 256) (heq : 10 = UInt8.ofNat n) : n = 10 := by
    have := congrArg UInt8.toNat heq
    rw [UInt8.toNat_ofNat_of_lt' hn] at this
    exact this.symm
  unfold String.utf8EncodeChar at h
  dsimp only at h
  -- every byte of a longer encoding has its top bit set
  split_ifs at h <;> simp only [List.mem_cons, List.not_mem_nil, or_false] at h
  · have value := small _ (by omega) h
    exact Char.ext (UInt32.toNat_inj.mp value)
  · rcases h with h | h <;> · have := small _ (by omega) h; omega
  · rcases h with h | h | h <;> · have := small _ (by omega) h; omega
  · rcases h with h | h | h | h <;> · have := small _ (by omega) h; omega

theorem newline_not_mem_encode {text : String} (h : '\n' ∉ text.toList) : 10 ∉ encode text := by
  intro hmem
  obtain ⟨c, hc, hbyte⟩ := List.mem_flatMap.mp hmem
  exact h (newline_mem_utf8EncodeChar hbyte ▸ hc)

end GitHubProvider.Text
