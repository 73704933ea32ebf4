/- White space, ASCII case and hexadecimal digits, as the source's standard library has them. -/

import Mathlib
import GitHubProvider.Text.Pieces

set_option autoImplicit false
set_option relaxedAutoImplicit false

namespace GitHubProvider.Text

/-- The Unicode `White_Space` property, which is what `str::trim` removes. -/
def isWhitespace (c : Char) : Bool :=
  let n := c.toNat
  (0x09 ≤ n && n ≤ 0x0D) || n == 0x20 || n == 0x85 || n == 0xA0 || n == 0x1680 ||
    (0x2000 ≤ n && n ≤ 0x200A) || n == 0x2028 || n == 0x2029 || n == 0x202F || n == 0x205F ||
    n == 0x3000

/-- `str::trim`. -/
def trimText (text : String) : String := String.ofList (trim isWhitespace text.toList)

/-- `str::to_ascii_lowercase`. -/
def toAsciiLowercase (text : String) : String := String.ofList (text.toList.map Char.toLower)

theorem toLower_eq_iff {c s : Char} (hs : s.isAlpha = false) : c.toLower = s ↔ c = s := by
  constructor
  · rintro rfl
    rw [Char.isAlpha_toLower_eq_isAlpha] at hs
    have hupper : ¬ c.isUpper := by
      intro h
      simp [Char.isAlpha, h] at hs
    exact (Char.toLower_eq_of_not_isUpper hupper).symm
  · rintro rfl
    have hupper : ¬ c.isUpper := by
      intro h
      simp [Char.isAlpha, h] at hs
    exact Char.toLower_eq_of_not_isUpper hupper

theorem mem_map_toLower_iff {s : Char} {text : List Char} (hs : s.isAlpha = false) :
    s ∈ text.map Char.toLower ↔ s ∈ text := by
  simp only [List.mem_map, toLower_eq_iff hs, exists_eq_right]

theorem map_toLower_idempotent (text : List Char) :
    (text.map Char.toLower).map Char.toLower = text.map Char.toLower := by
  simp only [List.map_map, List.map_inj_left, Function.comp_apply,
    Char.toLower_toLower_eq_toLower, implies_true]

/-- Bytes as `{byte:02x}` writes them, one after another. -/
def lowerHex (bytes : List UInt8) : List Char :=
  bytes.flatMap fun byte => [Nat.digitChar (byte.toNat / 16), Nat.digitChar (byte.toNat % 16)]

theorem digitChar_inj {m n : Nat} (hm : m < 16) (hn : n < 16)
    (h : Nat.digitChar m = Nat.digitChar n) : m = n := by
  interval_cases m <;> interval_cases n <;> first | rfl | cases h

theorem lowerHex_injective : Function.Injective lowerHex := by
  intro bytes
  induction bytes with
  | nil =>
      intro others h
      cases others with
      | nil => rfl
      | cons other others => cases h
  | cons byte bytes ih =>
      intro others h
      cases others with
      | nil => cases h
      | cons other others =>
          simp only [lowerHex, List.flatMap_cons, List.cons_append, List.nil_append,
            List.cons.injEq] at h
          obtain ⟨high, low, rest⟩ := h
          have size := byte.toNat_lt
          have size' := other.toNat_lt
          have quotients := digitChar_inj (by omega) (by omega) high
          have remainders := digitChar_inj (by omega) (by omega) low
          have same : byte = other := UInt8.toNat_inj.mp (by omega)
          rw [same, ih rest]

end GitHubProvider.Text
