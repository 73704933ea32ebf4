/- Streams of frames: a header up to a delimiter, and as much content as it declares. -/

import GitHubProvider.Text.Pieces
import Mathlib.Data.List.Forall2

/-!
A header may not contain the delimiter; the content may contain anything, since
its extent is known before it is looked at. A stream of frames is then read back
frame by frame, whatever the contents look like.
-/

set_option autoImplicit false
set_option relaxedAutoImplicit false

namespace GitHubProvider.Framing

variable {α η : Type} [DecidableEq α]

/-- How frames are read: what a header is, and how much content it declares. -/
structure Format (α η : Type) where
  delimiter : α
  header : List α → Option η
  extent : η → Option Nat

namespace Format

variable (format : Format α η)

def next (stream : List α) : Option ((η × List α) × List α) := do
  let (head, rest) ← Text.splitOnce format.delimiter stream
  let header ← format.header head
  let extent ← format.extent header
  if extent ≤ rest.length then some ((header, rest.take extent), rest.drop extent) else none

/-- The frames of a stream that is nothing but frames. Each takes up at least its
delimiter, so there are no more of them than there are symbols. -/
def frames : Nat → List α → Option (List (η × List α))
  | _, [] => some []
  | 0, _ :: _ => none
  | fuel + 1, stream => do
      let (frame, rest) ← format.next stream
      let later ← frames fuel rest
      return frame :: later

def unframe (stream : List α) : Option (List (η × List α)) := format.frames stream.length stream

/-- The chunk is the frame as it is written. -/
structure Encodes (chunk : List α) (frame : η × List α) : Prop where
  written : ∃ head, chunk = head ++ format.delimiter :: frame.2 ∧ format.delimiter ∉ head ∧
    format.header head = some frame.1
  declared : format.extent frame.1 = some frame.2.length

variable {format}

omit [DecidableEq α] in
theorem Encodes.ne_nil {chunk : List α} {frame : η × List α} (h : format.Encodes chunk frame) :
    chunk ≠ [] := by
  obtain ⟨head, rfl, -⟩ := h.written
  simp

theorem Encodes.next {chunk : List α} {frame : η × List α} (h : format.Encodes chunk frame)
    (rest : List α) : format.next (chunk ++ rest) = some (frame, rest) := by
  obtain ⟨⟨head, rfl, bare, header⟩, declared⟩ := h
  have fits : frame.2.length ≤ (frame.2 ++ rest).length := by
    rw [List.length_append]
    omega
  rw [Format.next, List.append_assoc, List.cons_append, Text.splitOnce_append _ bare]
  simp only [Option.bind_eq_bind, Option.bind_some, header, declared, if_pos fits,
    List.take_left, List.drop_left]

omit [DecidableEq α] in
theorem Encodes.replace {head content content' : List α} {header : η}
    (h : format.Encodes (head ++ format.delimiter :: content) (header, content))
    (alike : content'.length = content.length) :
    format.Encodes (head ++ format.delimiter :: content') (header, content') := by
  obtain ⟨⟨found, written, bare, read⟩, declared⟩ := h
  obtain rfl : head = found := List.append_cancel_right written
  exact ⟨⟨head, rfl, bare, read⟩, declared.trans (congrArg some alike.symm)⟩

private theorem frames_flatten {chunks : List (List α)} {contents : List (η × List α)}
    (h : List.Forall₂ format.Encodes chunks contents) {fuel : Nat}
    (enough : chunks.flatten.length ≤ fuel) :
    format.frames fuel chunks.flatten = some contents := by
  induction h generalizing fuel with
  | nil => cases fuel <;> rfl
  | @cons chunk frame chunks contents encodes _ ih =>
      obtain ⟨x, xs, rfl⟩ := List.exists_cons_of_ne_nil encodes.ne_nil
      simp only [List.flatten_cons, List.length_append, List.length_cons] at enough
      cases fuel with
      | zero => omega
      | succ fuel =>
          have rest : format.frames fuel chunks.flatten = some contents := ih (by omega)
          have first := encodes.next chunks.flatten
          simp only [List.flatten_cons, List.cons_append] at first ⊢
          simp only [frames, first, rest, Option.bind_eq_bind, Option.bind_some, Option.pure_def]

/-- Frames written one after another are read back, and nothing is left over. -/
theorem unframe_flatten {chunks : List (List α)} {contents : List (η × List α)}
    (h : List.Forall₂ format.Encodes chunks contents) :
    format.unframe chunks.flatten = some contents :=
  frames_flatten h (Nat.le_refl _)

theorem Encodes.next_cut {chunk : List α} {frame : η × List α} (h : format.Encodes chunk frame)
    {count : Nat} (short : count < chunk.length) : format.next (chunk.take count) = none := by
  obtain ⟨⟨head, rfl, bare, header⟩, declared⟩ := h
  rw [List.length_append, List.length_cons] at short
  by_cases early : count ≤ head.length
  · have unended : Text.splitOnce format.delimiter
        ((head ++ format.delimiter :: frame.2).take count) = none := by
      rw [List.take_append_of_le_length early]
      exact Text.splitOnce_eq_none_iff.mpr fun mem => bare (List.mem_of_mem_take mem)
    rw [Format.next, unended]
    rfl
  · have rest : (head ++ format.delimiter :: frame.2).take count =
        head ++ format.delimiter :: frame.2.take (count - head.length - 1) := by
      rw [List.take_append, List.take_of_length_le (by omega)]
      obtain ⟨more, hmore⟩ : ∃ more, count - head.length = more + 1 :=
        ⟨count - head.length - 1, by omega⟩
      rw [hmore, List.take_succ_cons, Nat.add_sub_cancel]
    have lacking : ¬frame.2.length ≤ (frame.2.take (count - head.length - 1)).length := by
      rw [List.length_take]
      omega
    rw [rest, Format.next, Text.splitOnce_append _ bare]
    simp only [Option.bind_eq_bind, Option.bind_some, header, declared, if_neg lacking]

private theorem frames_take {chunks : List (List α)} {contents : List (η × List α)}
    (h : List.Forall₂ format.Encodes chunks contents) {count fuel : Nat}
    (enough : (chunks.flatten.take count).length ≤ fuel) {found : List (η × List α)}
    (read : format.frames fuel (chunks.flatten.take count) = some found) :
    ∃ whole, found = contents.take whole ∧
      chunks.flatten.take count = (chunks.take whole).flatten := by
  induction h generalizing count fuel found with
  | nil =>
      rw [List.flatten_nil, List.take_nil] at read
      cases fuel <;> obtain rfl := Option.some.inj read <;> exact ⟨0, rfl, by simp⟩
  | @cons chunk frame chunks contents encodes _ ih =>
      by_cases reaches : chunk.length ≤ count
      · have rest : (chunk :: chunks).flatten.take count =
            chunk ++ chunks.flatten.take (count - chunk.length) := by
          rw [List.flatten_cons, List.take_append, List.take_of_length_le reaches]
        have first := encodes.next (chunks.flatten.take (count - chunk.length))
        rw [rest] at read enough
        obtain ⟨x, xs, rfl⟩ := List.exists_cons_of_ne_nil encodes.ne_nil
        rw [List.length_append] at enough
        have symbol : (x :: xs).length = xs.length + 1 := rfl
        cases fuel with
        | zero => omega
        | succ fuel =>
            simp only [List.cons_append] at read first
            simp only [frames, first, Option.bind_eq_bind, Option.bind_some,
              Option.bind_eq_some_iff, Option.pure_def, Option.some.injEq] at read
            obtain ⟨later, hlater, rfl⟩ := read
            obtain ⟨whole, rfl, same⟩ := ih (by omega) hlater
            refine ⟨whole + 1, rfl, ?_⟩
            rw [rest, same]
            rfl
      · have broken : (chunk :: chunks).flatten.take count = chunk.take count := by
          rw [List.flatten_cons, List.take_append_of_le_length (by omega)]
        have nothing := encodes.next_cut (Nat.lt_of_not_le reaches)
        rw [broken] at read ⊢
        cases taken : chunk.take count with
        | nil =>
            rw [taken] at read
            cases fuel <;> obtain rfl := Option.some.inj read <;> exact ⟨0, rfl, rfl⟩
        | cons x xs =>
            rw [taken] at read nothing
            cases fuel with
            | zero => cases read
            | succ fuel =>
                simp only [frames, nothing, Option.bind_eq_bind, Option.bind_none] at read
                cases read

/-- Of a stream of frames that is cut anywhere, only whole frames are ever read. -/
theorem unframe_take {chunks : List (List α)} {contents : List (η × List α)}
    (h : List.Forall₂ format.Encodes chunks contents) {count : Nat} {found : List (η × List α)}
    (read : format.unframe (chunks.flatten.take count) = some found) :
    ∃ whole, found = contents.take whole ∧
      chunks.flatten.take count = (chunks.take whole).flatten :=
  frames_take h (Nat.le_refl _) read

end Format

end GitHubProvider.Framing
