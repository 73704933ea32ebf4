/- Cutting a list at a separator, and trimming its ends. -/

import Mathlib.Data.List.Basic
import Mathlib.Data.List.DropRight

set_option autoImplicit false
set_option relaxedAutoImplicit false

namespace GitHubProvider.Text

variable {α : Type} [DecidableEq α]

def splitOnce (separator : α) : List α → Option (List α × List α)
  | [] => none
  | x :: xs =>
      if x = separator then some ([], xs)
      else (splitOnce separator xs).map fun sides => (x :: sides.1, sides.2)

/-- At most `n` pieces; the last one keeps every further separator. -/
def splitn (separator : α) : Nat → List α → List (List α)
  | 0, _ => []
  | 1, text => [text]
  | n + 2, text =>
      match splitOnce separator text with
      | none => [text]
      | some (piece, rest) => piece :: splitn separator (n + 1) rest

/-- What stands before the first separator, or everything. -/
def upTo (separator : α) (text : List α) : List α := ((splitOnce separator text).getD (text, [])).1

def trim (p : α → Bool) (text : List α) : List α := (text.dropWhile p).rdropWhile p

def endsIn (p : α → Bool) (text : List α) : Bool := text.getLast?.any p

theorem splitOnce_eq_some_iff {separator : α} {text before after : List α} :
    splitOnce separator text = some (before, after) ↔
      text = before ++ separator :: after ∧ separator ∉ before := by
  induction text generalizing before with
  | nil => simp [splitOnce]
  | cons x xs ih =>
      by_cases hx : x = separator
      · subst x
        simp only [splitOnce, if_pos, Option.some.injEq, Prod.mk.injEq]
        constructor
        · intro h
          obtain ⟨rfl, rfl⟩ := h
          simp
        · intro h
          obtain ⟨htext, hfresh⟩ := h
          cases before with
          | nil => simpa using htext
          | cons y ys =>
              simp only [List.cons_append, List.cons.injEq] at htext
              exact absurd htext.1 fun h => hfresh (by simp [h])
      · simp only [splitOnce, if_neg hx, Option.map_eq_some_iff, Prod.mk.injEq]
        constructor
        · intro h
          obtain ⟨⟨rest, after'⟩, hsplit, rfl, rfl⟩ := h
          obtain ⟨rfl, hfresh⟩ := ih.mp hsplit
          exact ⟨rfl, by simp [hfresh, Ne.symm hx]⟩
        · intro h
          obtain ⟨htext, hfresh⟩ := h
          cases before with
          | nil => exact absurd (by simpa using congrArg List.head? htext) hx
          | cons y ys =>
              simp only [List.cons_append, List.cons.injEq] at htext
              obtain ⟨rfl, rfl⟩ := htext
              exact ⟨(ys, after), ih.mpr ⟨rfl, fun h => hfresh (by simp [h])⟩, rfl, rfl⟩

theorem splitOnce_eq_none_iff {separator : α} {text : List α} :
    splitOnce separator text = none ↔ separator ∉ text := by
  induction text with
  | nil => simp [splitOnce]
  | cons x xs ih =>
      by_cases hx : x = separator
      · simp [splitOnce, hx]
      · simp [splitOnce, hx, ih, Ne.symm hx]

theorem splitOnce_append {separator : α} {before : List α} (after : List α)
    (h : separator ∉ before) :
    splitOnce separator (before ++ separator :: after) = some (before, after) :=
  splitOnce_eq_some_iff.mpr ⟨rfl, h⟩

theorem separated_inj {separator : α} {front front' back back' : List α} (h : separator ∉ front)
    (h' : separator ∉ front') :
    front ++ separator :: back = front' ++ separator :: back' ↔ front = front' ∧ back = back' := by
  constructor
  · intro same
    have cut := splitOnce_append back h
    rw [same, splitOnce_append back' h'] at cut
    obtain ⟨fronts, backs⟩ := Prod.mk.inj (Option.some.inj cut)
    exact ⟨fronts.symm, backs.symm⟩
  · intro same
    obtain ⟨rfl, rfl⟩ := same
    rfl

theorem separator_not_mem_upTo (separator : α) (text : List α) :
    separator ∉ upTo separator text := by
  unfold upTo
  cases h : splitOnce separator text with
  | none => exact splitOnce_eq_none_iff.mp h
  | some sides => exact (splitOnce_eq_some_iff.mp h).2

theorem mem_of_mem_upTo {separator x : α} {text : List α} (h : x ∈ upTo separator text) :
    x ∈ text := by
  unfold upTo at h
  cases cut : splitOnce separator text with
  | none => simpa [cut] using h
  | some sides =>
      rw [cut] at h
      rw [(splitOnce_eq_some_iff.mp cut).1]
      exact List.mem_append_left _ h

theorem upTo_append {separator : α} {before : List α} (after : List α) (h : separator ∉ before) :
    upTo separator (before ++ separator :: after) = before := by
  rw [upTo, splitOnce_append after h, Option.getD_some]

theorem upTo_eq_self {separator : α} {text : List α} (h : separator ∉ text) :
    upTo separator text = text := by
  rw [upTo, splitOnce_eq_none_iff.mpr h, Option.getD_none]

theorem splitOnce_append_snd {separator : α} {front : List α} (back : List α)
    (h : separator ∉ front) :
    (splitOnce separator (front ++ back)).map Prod.snd =
      (splitOnce separator back).map Prod.snd := by
  induction front with
  | nil => rfl
  | cons x front ih =>
      simp only [List.mem_cons, not_or] at h
      rw [List.cons_append, splitOnce, if_neg (Ne.symm h.1), Option.map_map, ← ih h.2]
      rfl

theorem upTo_append_of_not_mem {separator : α} {front : List α} (back : List α)
    (h : separator ∉ front) : upTo separator (front ++ back) = front ++ upTo separator back := by
  cases cut : splitOnce separator back with
  | none =>
      have none_front : separator ∉ front ++ back := by
        simp [h, splitOnce_eq_none_iff.mp cut]
      rw [upTo_eq_self none_front, upTo_eq_self (splitOnce_eq_none_iff.mp cut)]
  | some sides =>
      obtain ⟨before, after⟩ := sides
      obtain ⟨rfl, fresh⟩ := splitOnce_eq_some_iff.mp cut
      have free : separator ∉ front ++ before := by
        simp [h, fresh]
      rw [upTo_append after fresh, ← List.append_assoc, upTo_append after free]

theorem splitn_getD {separator : α} {n i : Nat} (text : List α) (h : i < n) :
    (splitn separator (n + 1) text).getD i [] = (text.splitOn separator).getD i [] := by
  induction n generalizing i text with
  | zero => omega
  | succ n ih =>
      cases cut : splitOnce separator text with
      | none =>
          have whole : text.splitOn separator = [text] :=
            List.splitOn_eq_singleton (splitOnce_eq_none_iff.mp cut)
          simp only [splitn, cut, whole]
      | some sides =>
          obtain ⟨piece, rest⟩ := sides
          obtain ⟨rfl, fresh⟩ := splitOnce_eq_some_iff.mp cut
          rw [List.splitOn_append_cons_self_of_not_mem fresh]
          simp only [splitn, cut]
          cases i with
          | zero => rfl
          | succ i => exact ih rest (by omega)

omit [DecidableEq α] in
theorem mem_intercalate_cons {separator x : α} {piece : List α} {pieces : List (List α)} :
    x ∈ [separator].intercalate (piece :: pieces) ↔
      x ∈ piece ∨ ∃ next ∈ pieces, x = separator ∨ x ∈ next := by
  induction pieces generalizing piece with
  | nil => simp [List.intercalate]
  | cons next pieces ih =>
      rw [List.intercalate_cons_cons]
      simp only [List.mem_append, ih, List.mem_cons, List.not_mem_nil, false_or, exists_eq_or_imp,
        or_assoc]

theorem mem_of_mem_splitOn {separator x : α} {text piece : List α}
    (hpiece : piece ∈ text.splitOn separator) (hx : x ∈ piece) : x ∈ text := by
  have joined : [separator].intercalate (text.splitOn separator) = text :=
    List.intercalate_splitOn separator
  rw [← joined]
  cases hsplit : text.splitOn separator with
  | nil => simp [hsplit] at hpiece
  | cons first rest =>
      rw [mem_intercalate_cons]
      rw [hsplit] at hpiece
      rcases List.mem_cons.mp hpiece with rfl | hrest
      · exact .inl hx
      · exact .inr ⟨piece, hrest, .inr hx⟩

theorem separator_not_mem_splitOn {separator : α} {text piece : List α}
    (hpiece : piece ∈ text.splitOn separator) : separator ∉ piece := by
  induction text generalizing piece with
  | nil => simp_all
  | cons x xs ih =>
      rw [List.splitOn_cons_eq_if_modifyHead] at hpiece
      split at hpiece
      · rcases List.mem_cons.mp hpiece with rfl | hrest
        · exact List.not_mem_nil
        · exact ih hrest
      · rename_i hx
        cases hsplit : xs.splitOn separator with
        | nil => exact absurd hsplit (List.splitOn_ne_nil separator xs)
        | cons first rest =>
            rw [hsplit] at hpiece ih
            simp only [List.modifyHead_cons, List.mem_cons] at hpiece
            rcases hpiece with rfl | hrest
            · have hfirst := ih List.mem_cons_self
              simp only [beq_iff_eq] at hx
              simp [hfirst, Ne.symm hx]
            · exact ih (List.mem_cons_of_mem _ hrest)

omit [DecidableEq α] in
theorem rdropWhile_eq_self_iff_endsIn {p : α → Bool} {text : List α} :
    text.rdropWhile p = text ↔ endsIn p text = false := by
  rw [List.rdropWhile_eq_self_iff, endsIn]
  cases h : text.getLast? with
  | none => simp [List.getLast?_eq_none_iff.mp h]
  | some last =>
      have hne : text ≠ [] := by rintro rfl; simp at h
      have hlast : text.getLast hne = last := by
        simpa [List.getLast?_eq_some_getLast hne] using h
      constructor
      · intro hnot
        simpa [hlast] using hnot hne
      · intro hnot _
        simpa [hlast] using hnot

omit [DecidableEq α] in
theorem rdropWhile_append {p : α → Bool} {front back : List α} (h : endsIn p front = false) :
    (front ++ back).rdropWhile p = front ++ back.rdropWhile p := by
  induction back using List.reverseRecOn with
  | nil => simpa using rdropWhile_eq_self_iff_endsIn.mpr h
  | append_singleton rest x ih =>
      rw [← List.append_assoc, List.rdropWhile_concat, List.rdropWhile_concat]
      split
      · exact ih
      · rw [List.append_assoc]

omit [DecidableEq α] in
theorem mem_rdropWhile_iff {p : α → Bool} {x : α} {text : List α} (hx : p x = false) :
    x ∈ text.rdropWhile p ↔ x ∈ text := by
  have dropped : x ∉ text.rtakeWhile p := fun h => by
    have := List.mem_rtakeWhile_imp h
    simp [hx] at this
  calc x ∈ text.rdropWhile p ↔ x ∈ text.rdropWhile p ++ text.rtakeWhile p := by
        rw [List.mem_append, or_iff_left dropped]
    _ ↔ x ∈ text := by rw [List.rdropWhile_append_rtakeWhile]

omit [DecidableEq α] in
theorem endsIn_trim (p : α → Bool) (text : List α) : endsIn p (trim p text) = false :=
  rdropWhile_eq_self_iff_endsIn.mp (List.rdropWhile_idempotent p _)

omit [DecidableEq α] in
theorem endsIn_append {p : α → Bool} {front back : List α} (h : back ≠ []) :
    endsIn p (front ++ back) = endsIn p back := by
  unfold endsIn
  rw [List.getLast?_append_of_ne_nil front h]

omit [DecidableEq α] in
theorem trim_append {p : α → Bool} {x : α} {front back : List α} (hx : p x = false)
    (h : endsIn p (x :: front) = false) :
    trim p (x :: front ++ back) = x :: front ++ back.rdropWhile p := by
  unfold trim
  rw [List.cons_append, List.dropWhile_cons_of_neg (by simp [hx]), ← List.cons_append]
  exact rdropWhile_append h

omit [DecidableEq α] in
theorem trim_padded {p : α → Bool} {x : α} {left front back : List α}
    (hleft : ∀ y ∈ left, p y = true) (hx : p x = false) (h : endsIn p (x :: front) = false) :
    trim p (left ++ (x :: front ++ back)) = x :: front ++ back.rdropWhile p := by
  rw [← trim_append hx h, trim, trim, List.dropWhile_append_of_pos hleft]

omit [DecidableEq α] in
theorem endsIn_append_cons {p : α → Bool} {x : α} (front back : List α) :
    endsIn p (front ++ x :: back) = endsIn p (x :: back) :=
  endsIn_append (List.cons_ne_nil x back)

theorem rdropWhile_append_replicate (x : α) (stem : List α) (k : Nat) :
    (stem ++ List.replicate k x).rdropWhile (· == x) = stem.rdropWhile (· == x) := by
  induction k with
  | zero => rw [List.replicate_zero, List.append_nil]
  | succ k ih =>
      rw [List.replicate_succ', ← List.append_assoc,
        List.rdropWhile_concat_pos _ _ _ (by simp), ih]

theorem rdropWhile_eq_iff_stem {x : α} {first second : List α} :
    first.rdropWhile (· == x) = second.rdropWhile (· == x) ↔
      ∃ stem j k, first = stem ++ List.replicate j x ∧ second = stem ++ List.replicate k x := by
  constructor
  · intro same
    have tail (text : List α) :
        text = text.rdropWhile (· == x) ++
          List.replicate (text.rtakeWhile (· == x)).length x := by
      have repeated : text.rtakeWhile (· == x) =
          List.replicate (text.rtakeWhile (· == x)).length x :=
        List.eq_replicate_of_mem fun y hy => by simpa using List.mem_rtakeWhile_imp hy
      rw [← repeated, List.rdropWhile_append_rtakeWhile]
    exact ⟨_, _, _, tail first, same ▸ tail second⟩
  · intro h
    obtain ⟨stem, j, k, rfl, rfl⟩ := h
    rw [rdropWhile_append_replicate, rdropWhile_append_replicate]

end GitHubProvider.Text
