/- What is written is read back: compact JSON text determines the value. -/

import GitHubProvider.Json.Text

set_option autoImplicit false
set_option relaxedAutoImplicit false

namespace GitHubProvider.Json

private theorem readChars_quote (rest : List Char) :
    readChars ('"' :: rest) = some ([], rest) := by
  rw [readChars.eq_def]
  simp

private theorem readChars_plain {c : Char} (hcontrol : ¬ c.toNat < 32) (hquote : c ≠ '"')
    (hslash : c ≠ '\\') (rest : List Char) :
    readChars (c :: rest) = (readChars rest).map fun p => (c :: p.1, p.2) := by
  rw [readChars.eq_def]
  simp only [hquote, hslash, hcontrol, if_false]

private theorem hexValue_digitChar : ∀ d < 16, hexValue (Nat.digitChar d) = some d := by
  decide

private theorem readHex_control {c : Char} (hc : c.toNat < 32) :
    readHex '0' '0' (Nat.digitChar (c.toNat / 16)) (Nat.digitChar (c.toNat % 16)) = some c := by
  have zero : hexValue '0' = some 0 := rfl
  have value : 0 * 4096 + 0 * 256 + c.toNat / 16 * 16 + c.toNat % 16 = c.toNat := by omega
  have small : ¬ (0xD800 ≤ c.toNat ∧ c.toNat ≤ 0xDFFF) := by omega
  simp only [readHex, zero, hexValue_digitChar _ (show c.toNat / 16 < 16 by omega),
    hexValue_digitChar _ (show c.toNat % 16 < 16 by omega), Option.bind_eq_bind, Option.bind_some,
    value, small, if_false, Char.ofNat_toNat]

private theorem readChars_writeChar (c : Char) (rest : List Char) :
    readChars (writeChar c ++ rest) = (readChars rest).map fun p => (c :: p.1, p.2) := by
  have short (e : Char) (he : e ≠ 'u') (hread : readEscape e = some c) :
      readChars ('\\' :: e :: rest) = (readChars rest).map fun p => (c :: p.1, p.2) := by
    cases h : readChars rest <;> simp [readChars, he, hread, h]
  unfold writeChar
  split_ifs with hquote hslash hb ht hn hf hr hcontrol
  · exact short '"' (by decide) (by rw [hquote]; rfl)
  · exact short '\\' (by decide) (by rw [hslash]; rfl)
  · exact short 'b' (by decide) (by rw [hb]; rfl)
  · exact short 't' (by decide) (by rw [ht]; rfl)
  · exact short 'n' (by decide) (by rw [hn]; rfl)
  · exact short 'f' (by decide) (by rw [hf]; rfl)
  · exact short 'r' (by decide) (by rw [hr]; rfl)
  · cases h : readChars rest <;> simp [readChars, readHex_control hcontrol, h]
  · exact readChars_plain hcontrol hquote hslash rest

private theorem readChars_flatMap (s rest : List Char) :
    readChars (s.flatMap writeChar ++ '"' :: rest) = some (s, rest) := by
  induction s with
  | nil => exact readChars_quote rest
  | cons c s ih =>
      rw [List.flatMap_cons, List.append_assoc, readChars_writeChar, ih]
      rfl

private theorem readChars_string (s : String) (rest : List Char) :
    readChars (s.toList.flatMap writeChar ++ ['"'] ++ rest) = some (s.toList, rest) := by
  rw [List.append_assoc, List.singleton_append]
  exact readChars_flatMap s.toList rest

def NumberEnds (rest : List Char) : Prop := ∀ c ∈ rest.head?, isNumberChar c = false

private theorem takeWhile_number {literal rest : List Char}
    (hliteral : ∀ c ∈ literal, isNumberChar c = true) (hrest : NumberEnds rest) :
    (literal ++ rest).takeWhile isNumberChar = literal ∧
      (literal ++ rest).dropWhile isNumberChar = rest := by
  rw [List.takeWhile_append_of_pos hliteral, List.dropWhile_append_of_pos hliteral]
  cases rest with
  | nil => simp
  | cons c rest =>
      have hc : isNumberChar c = false := hrest c (by simp)
      simp [hc]

private theorem digits_head (n : Nat) :
    ∃ c rest, Nat.toDigits 10 n = c :: rest ∧ c.isDigit = true := by
  cases h : Nat.toDigits 10 n with
  | nil => exact absurd h Nat.toDigits_ne_nil
  | cons c rest =>
      have hc : c ∈ Nat.toDigits 10 n := by simp [h]
      exact ⟨c, rest, rfl, Nat.isDigit_of_mem_toDigits (by decide) (by decide) hc⟩

private theorem digits_leading (n : Nat) :
    ¬((Nat.toDigits 10 n).head? = some '0' ∧
      ∃ c ∈ (Nat.toDigits 10 n).tail.head?, c.isDigit) := by
  induction n using Nat.strong_induction_on with
  | _ n ih =>
      rcases Nat.lt_or_ge n 10 with hlt | hge
      · rw [Nat.toDigits_of_lt_base hlt]
        simp
      · rw [Nat.toDigits_of_base_le (by decide) hge]
        have before := ih (n / 10) (by omega)
        have positive : 0 < n / 10 := by omega
        cases h : Nat.toDigits 10 (n / 10) with
        | nil => exact absurd h Nat.toDigits_ne_nil
        | cons c rest =>
            rw [h] at before
            intro h
            obtain ⟨hzero, -⟩ := h
            obtain rfl : c = '0' := by simpa using hzero
            cases rest with
            | nil =>
                have value := Nat.ofDigitChars_ten_toDigits (n := n / 10)
                rw [h] at value
                simp [Nat.ofDigitChars_cons] at value
                omega
            | cons d rest =>
                have hd : d ∈ Nat.toDigits 10 (n / 10) := by simp [h]
                exact before ⟨rfl, d, by simp,
                  Nat.isDigit_of_mem_toDigits (by decide) (by decide) hd⟩

private theorem numberOf_posInt (n : UInt64) :
    numberOf (Nat.toDigits 10 n.toNat) = some (.posInt n) := by
  obtain ⟨c, rest, hdigits, hc⟩ := digits_head n.toNat
  have hsign : (Nat.toDigits 10 n.toNat).head? ≠ some '-' := by
    rw [hdigits]
    rintro h
    obtain rfl : c = '-' := by simpa using h
    simp at hc
  have hall : (Nat.toDigits 10 n.toNat).all Char.isDigit = true := by
    simp only [List.all_eq_true]
    exact fun d hd => Nat.isDigit_of_mem_toDigits (by decide) (by decide) hd
  have hbound : n.toNat < 2 ^ 64 := n.toNat_lt
  unfold numberOf
  simp only [if_neg hsign, Nat.toDigits_ne_nil, digits_leading, false_or, if_false, hall, if_true,
    Nat.ofDigitChars_ten_toDigits, hbound, UInt64.ofNat_toNat]

private theorem numberOf_negInt (n : Int64) (hn : n.toInt < 0) :
    numberOf ('-' :: Nat.toDigits 10 n.toInt.natAbs) = some (.negInt n) := by
  have hall : (Nat.toDigits 10 n.toInt.natAbs).all Char.isDigit = true := by
    simp only [List.all_eq_true]
    exact fun d hd => Nat.isDigit_of_mem_toDigits (by decide) (by decide) hd
  have hlow : -2 ^ 63 ≤ n.toInt := n.le_toInt
  have hbound : 0 < n.toInt.natAbs ∧ n.toInt.natAbs ≤ 2 ^ 63 := by omega
  have hback : -(n.toInt.natAbs : Int) = n.toInt := by omega
  unfold numberOf
  simp only [List.head?_cons, if_true, List.tail_cons, Nat.toDigits_ne_nil, digits_leading,
    false_or, if_false, hall, Nat.ofDigitChars_ten_toDigits, hbound, and_self, hback,
    Int64.ofInt_toInt]

def Number.Plain : Number → Prop
  | .posInt _ => True
  | .negInt n => n.toInt < 0
  | .float _ => False

mutual

/-- A value whose text determines it: no floats, no negative number that is not
below zero, and the members of every object in the order of their keys. -/
def Plain : Value → Prop
  | .number n => n.Plain
  | .array items => PlainItems items
  | .object members => members.Pairwise (fun a b => a.1 < b.1) ∧ PlainMembers members
  | _ => True

def PlainItems : List Value → Prop
  | [] => True
  | item :: items => Plain item ∧ PlainItems items

def PlainMembers : List (String × Value) → Prop
  | [] => True
  | (_, value) :: members => Plain value ∧ PlainMembers members

end

private theorem skipSpace_cons {c : Char} (hc : isSpace c = false) (rest : List Char) :
    skipSpace (c :: rest) = c :: rest := by
  simp [skipSpace, hc]

private theorem isSpace_of_isDigit {c : Char} (hc : c.isDigit = true) : isSpace c = false := by
  by_contra h
  simp only [isSpace, Bool.or_eq_true, beq_iff_eq, Bool.not_eq_false] at h
  rcases h with ((rfl | rfl) | rfl) | rfl <;> simp at hc

private theorem writeNumber_shape {n : Number} (hn : n.Plain) :
    numberOf (writeNumber n) = some n ∧ (∀ c ∈ writeNumber n, isNumberChar c = true) ∧
      ∃ c rest, writeNumber n = c :: rest ∧ (c.isDigit ∨ c = '-') := by
  have digits : ∀ m, ∀ c ∈ Nat.toDigits 10 m, isNumberChar c = true := by
    intro m c hc
    have h := Nat.isDigit_of_mem_toDigits (by decide) (by decide) hc
    simp [isNumberChar, h]
  cases n with
  | posInt n =>
      obtain ⟨c, rest, hdigits, hc⟩ := digits_head n.toNat
      exact ⟨numberOf_posInt n, digits _, c, rest, hdigits, .inl hc⟩
  | negInt n =>
      refine ⟨numberOf_negInt n hn, ?_, '-', _, rfl, .inr rfl⟩
      intro c hc
      rcases List.mem_cons.mp hc with rfl | hc
      · decide
      · exact digits _ c hc
  | float literal => exact hn.elim

private theorem writeValue_head {v : Value} (hv : Plain v) :
    ∃ c rest, writeValue v = c :: rest ∧ isSpace c = false ∧ c ≠ ']' := by
  cases v with
  | null => exact ⟨'n', _, rfl, by decide, by decide⟩
  | bool b => cases b <;> exact ⟨_, _, rfl, by decide, by decide⟩
  | number n =>
      obtain ⟨-, -, c, rest, hwrite, hc⟩ := writeNumber_shape hv
      refine ⟨c, rest, by simpa [writeValue] using hwrite, ?_, ?_⟩
      · rcases hc with hc | rfl
        · exact isSpace_of_isDigit hc
        · decide
      · rintro rfl
        simp at hc
  | string s => exact ⟨'"', _, by rw [writeValue]; rfl, by decide, by decide⟩
  | array items => cases items <;> exact ⟨'[', _, by rw [writeValue], by decide, by decide⟩
  | object members =>
      rcases members with _ | ⟨⟨key, value⟩, members⟩ <;>
        exact ⟨'{', _, by rw [writeValue], by decide, by decide⟩

private theorem insertMember_last {key : String} {value : Value}
    {held : List (String × Value)} (h : ∀ m ∈ held, m.1 < key) :
    insertMember key value held = held ++ [(key, value)] := by
  induction held with
  | nil => rfl
  | cons m held ih =>
      have hm : m.1 < key := h m (by simp)
      have rest := ih fun m' hm' => h m' (by simp [hm'])
      simp only [insertMember, if_neg (lt_asymm hm), if_neg (ne_of_gt hm), rest,
        List.cons_append]

private theorem readMember_write (key : String) {value : Value} {text rest : List Char}
    {fuel : Nat} (h : readValue fuel text = some (value, rest)) :
    readMember (fuel + 1) (writeString key ++ ':' :: text) = some ((key, value), rest) := by
  have hkey : readChars (key.toList.flatMap writeChar ++ ['"'] ++ ':' :: text) =
      some (key.toList, ':' :: text) := readChars_string key _
  have hquote : skipSpace ('"' :: (key.toList.flatMap writeChar ++ ['"'] ++ ':' :: text)) =
      '"' :: (key.toList.flatMap writeChar ++ ['"'] ++ ':' :: text) :=
    skipSpace_cons (by decide) _
  have hcolon : skipSpace (':' :: text) = ':' :: text := skipSpace_cons (by decide) _
  simp only [readMember, writeString, List.cons_append, hquote, if_true, hkey, hcolon,
    List.head?_cons, List.tail_cons, h, Option.map_some, String.ofList_toList]

private theorem readWord_write (rest : List Char) :
    readWord ("null".toList ++ rest) = some (.null, rest) ∧
      readWord ("true".toList ++ rest) = some (.bool true, rest) ∧
      readWord ("false".toList ++ rest) = some (.bool false, rest) := by
  refine ⟨?_, ?_, ?_⟩ <;> simp [readWord, List.dropPrefix?]

private theorem numberEnds_writeItems (items : List Value) (rest : List Char) :
    NumberEnds (writeItems items ++ rest) := by
  cases items <;> simp [writeItems, NumberEnds, isNumberChar]

private theorem numberEnds_writeMembers (members : List (String × Value)) (rest : List Char) :
    NumberEnds (writeMembers members ++ rest) := by
  rcases members with _ | ⟨⟨key, value⟩, members⟩ <;> simp [writeMembers, NumberEnds, isNumberChar]

private theorem readValue_number {n : Number} (hn : Plain (.number n)) {rest : List Char}
    (hrest : NumberEnds rest) (fuel : Nat) :
    readValue (fuel + 1) (writeValue (.number n) ++ rest) = some (.number n, rest) := by
  obtain ⟨hn, hchars, c, text, hwrite, hc⟩ := writeNumber_shape hn
  obtain ⟨htake, hdrop⟩ := takeWhile_number hchars hrest
  have hspace : isSpace c = false := by
    rcases hc with hc | rfl
    · exact isSpace_of_isDigit hc
    · decide
  have hquote : c ≠ '"' := by
    intro same
    simp [same] at hc
  have hopen : c ≠ '[' := by
    intro same
    simp [same] at hc
  have hbrace : c ≠ '{' := by
    intro same
    simp [same] at hc
  have hnumber : readNumber (writeNumber n ++ rest) = some (.number n, rest) := by
    simp only [readNumber, htake, hdrop, hn, Option.map_some]
  rw [hwrite] at hnumber
  simp only [writeValue, readValue, hwrite, List.cons_append, skipSpace_cons hspace, hquote,
    hopen, hbrace, hc, if_true, if_false]
  exact hnumber

private theorem readValue_array {item : Value} {items : List Value} (hitem : Plain item)
    {rest : List Char} {fuel : Nat}
    (first : readValue fuel (writeValue item ++ (writeItems items ++ rest)) =
      some (item, writeItems items ++ rest))
    (others : readItems fuel (writeItems items ++ rest) = some (items, rest)) :
    readValue (fuel + 1) (writeValue (.array (item :: items)) ++ rest) =
      some (.array (item :: items), rest) := by
  obtain ⟨c, text, hwrite, hspace, hclose⟩ := writeValue_head hitem
  have hskip : skipSpace (writeValue item ++ (writeItems items ++ rest)) =
      writeValue item ++ (writeItems items ++ rest) := by
    rw [hwrite]
    exact skipSpace_cons hspace _
  have hhead : (writeValue item ++ (writeItems items ++ rest)).head? ≠ some ']' := by
    rw [hwrite]
    simpa using hclose
  have hbracket := skipSpace_cons (c := '[') (by decide)
    (writeValue item ++ (writeItems items ++ rest))
  simp only [writeValue, readValue, List.cons_append, List.append_assoc, hbracket, hskip, hhead,
    first, others, Option.map_some, if_true, if_false, Char.reduceEq]

private theorem readValue_object {key : String} {value : Value} {members : List (String × Value)}
    {rest : List Char} {fuel : Nat}
    (first : readMember fuel
        (writeString key ++ ':' :: (writeValue value ++ (writeMembers members ++ rest))) =
      some ((key, value), writeMembers members ++ rest))
    (others : readMembers fuel [(key, value)] (writeMembers members ++ rest) =
      some ((key, value) :: members, rest)) :
    readValue (fuel + 1) (writeValue (.object ((key, value) :: members)) ++ rest) =
      some (.object ((key, value) :: members), rest) := by
  have hbrace := skipSpace_cons (c := '{') (by decide)
    (writeString key ++ ':' :: (writeValue value ++ (writeMembers members ++ rest)))
  have hskip : skipSpace
      (writeString key ++ ':' :: (writeValue value ++ (writeMembers members ++ rest))) =
      writeString key ++ ':' :: (writeValue value ++ (writeMembers members ++ rest)) :=
    skipSpace_cons (by decide) _
  have hhead : (writeString key ++
      ':' :: (writeValue value ++ (writeMembers members ++ rest))).head? ≠ some '}' := by
    simp [writeString]
  simp only [writeValue, readValue, List.cons_append, List.append_assoc, hbrace, hskip, hhead,
    first, others, Option.map_some, if_true, if_false, Char.reduceEq]

mutual

private theorem readValue_write : ∀ v : Value, Plain v → ∀ rest, NumberEnds rest → ∀ fuel,
    (writeValue v).length ≤ fuel → readValue fuel (writeValue v ++ rest) = some (v, rest)
  | v, hv, rest, hrest, 0, hfuel => by
      obtain ⟨c, text, hwrite, -, -⟩ := writeValue_head hv
      simp [hwrite] at hfuel
  | .null, _, rest, _, fuel + 1, _ => by
      have h := (readWord_write rest).1
      simp only [writeValue, readValue]
      simpa [skipSpace, isSpace] using h
  | .bool true, _, rest, _, fuel + 1, _ => by
      have h := (readWord_write rest).2.1
      simp only [writeValue, readValue]
      simpa [skipSpace, isSpace] using h
  | .bool false, _, rest, _, fuel + 1, _ => by
      have h := (readWord_write rest).2.2
      simp only [writeValue, readValue]
      simpa [skipSpace, isSpace] using h
  | .number n, hv, rest, hrest, fuel + 1, _ => readValue_number hv hrest fuel
  | .string s, _, rest, _, fuel + 1, _ => by
      have h := readChars_string s rest
      have hquote := skipSpace_cons (c := '"') (by decide)
        (s.toList.flatMap writeChar ++ ['"'] ++ rest)
      simp only [writeValue, writeString, readValue, List.cons_append, hquote, if_true, h,
        Option.map_some, String.ofList_toList]
  | .array [], _, rest, _, fuel + 1, _ => by
      simp [writeValue, readValue, skipSpace, isSpace]
  | .array (item :: items), hv, rest, _, fuel + 1, hfuel => by
      obtain ⟨hitem, hitems⟩ : Plain item ∧ PlainItems items := by
        simpa [Plain, PlainItems] using hv
      simp only [writeValue, List.length_cons, List.length_append] at hfuel
      have first := readValue_write item hitem (writeItems items ++ rest)
        (numberEnds_writeItems items rest) fuel (by omega)
      have others := readItems_write items hitems rest fuel (by omega)
      exact readValue_array hitem first others
  | .object [], _, rest, _, fuel + 1, _ => by
      simp [writeValue, readValue, skipSpace, isSpace]
  | .object ((key, value) :: members), hv, rest, _, fuel + 1, hfuel => by
      obtain ⟨hsorted, hvalue, hmembers⟩ :
          ((key, value) :: members).Pairwise (fun a b => a.1 < b.1) ∧ Plain value ∧
            PlainMembers members := by simpa [Plain, PlainMembers] using hv
      simp only [writeValue, List.length_cons, List.length_append, writeString] at hfuel
      obtain ⟨fuel, rfl⟩ : ∃ n, fuel = n + 1 := ⟨fuel - 1, by omega⟩
      have first := readMember_write key (readValue_write value hvalue
        (writeMembers members ++ rest)
        (numberEnds_writeMembers members rest) fuel (by omega))
      have others := readMembers_write members hmembers [(key, value)] rest (fuel + 1)
        (by omega) (by simpa using hsorted)
      exact readValue_object first (by simpa using others)

private theorem readItems_write : ∀ items : List Value, PlainItems items → ∀ rest fuel,
    (writeItems items).length ≤ fuel →
    readItems fuel (writeItems items ++ rest) = some (items, rest)
  | items, _, rest, 0, hfuel => by cases items <;> simp [writeItems] at hfuel
  | [], _, rest, fuel + 1, _ => by simp [writeItems, readItems, skipSpace, isSpace]
  | item :: items, hitems, rest, fuel + 1, hfuel => by
      obtain ⟨hitem, hitems⟩ : Plain item ∧ PlainItems items := by simpa [PlainItems] using hitems
      simp only [writeItems, List.length_cons, List.length_append] at hfuel
      have first := readValue_write item hitem (writeItems items ++ rest)
        (numberEnds_writeItems items rest) fuel (by omega)
      have others := readItems_write items hitems rest fuel (by omega)
      have hcomma := skipSpace_cons (c := ',') (by decide)
        (writeValue item ++ (writeItems items ++ rest))
      simp only [writeItems, readItems, List.cons_append, List.append_assoc, hcomma, first, others,
        Option.map_some, if_true, if_false, Char.reduceEq]

private theorem readMembers_write : ∀ members : List (String × Value), PlainMembers members →
    ∀ held rest fuel, (writeMembers members).length ≤ fuel →
    (held ++ members).Pairwise (fun a b => a.1 < b.1) →
    readMembers fuel held (writeMembers members ++ rest) = some (held ++ members, rest)
  | members, _, held, rest, 0, hfuel, _ => by
      rcases members with _ | ⟨⟨k, v⟩, ms⟩ <;> simp [writeMembers] at hfuel
  | [], _, held, rest, fuel + 1, _, _ => by
      simp [writeMembers, readMembers, skipSpace, isSpace]
  | (key, value) :: members, hmembers, held, rest, fuel + 1, hfuel, hsorted => by
      obtain ⟨hvalue, hmembers⟩ : Plain value ∧ PlainMembers members := by
        simpa [PlainMembers] using hmembers
      simp only [writeMembers, List.length_cons, List.length_append, writeString] at hfuel
      obtain ⟨fuel, rfl⟩ : ∃ n, fuel = n + 1 := ⟨fuel - 1, by omega⟩
      have first := readMember_write key (readValue_write value hvalue
        (writeMembers members ++ rest)
        (numberEnds_writeMembers members rest) fuel (by omega))
      have hlast : insertMember key value held = held ++ [(key, value)] := by
        apply insertMember_last
        intro m hm
        exact (List.pairwise_append.mp hsorted).2.2 m hm (key, value) (by simp)
      have others := readMembers_write members hmembers (held ++ [(key, value)]) rest (fuel + 1)
        (by omega) (by simpa using hsorted)
      have hcomma := skipSpace_cons (c := ',') (by decide)
        (writeString key ++ ':' :: (writeValue value ++ (writeMembers members ++ rest)))
      rw [writeMembers, readMembers]
      simp only [List.cons_append, List.append_assoc, hcomma, first, hlast, others, if_true,
        if_false, Char.reduceEq, List.nil_append]

end

theorem read_write (v : Value) (hv : Plain v) : read (write v) = some v := by
  have h := readValue_write v hv [] (by simp [NumberEnds]) ((writeValue v).length + 1) (by omega)
  rw [List.append_nil] at h
  simp [read, write, h, skipSpace]

private theorem newline_not_mem_writeChar (c : Char) : '\n' ∉ writeChar c := by
  have digit : ∀ d < 16, '\n' ≠ Nat.digitChar d := by decide
  unfold writeChar
  split_ifs with _ _ _ _ hn _ _ hcontrol
  · decide
  · decide
  · decide
  · decide
  · decide
  · decide
  · decide
  · simp [digit _ (show c.toNat / 16 < 16 by omega), digit _ (show c.toNat % 16 < 16 by omega)]
  · simpa using Ne.symm hn

private theorem newline_not_mem_writeString (s : String) : '\n' ∉ writeString s := by
  simp [writeString, newline_not_mem_writeChar]

mutual

private theorem newline_not_mem_writeValue : ∀ v : Value, Plain v → '\n' ∉ writeValue v
  | .null, _ => by decide
  | .bool true, _ => by decide
  | .bool false, _ => by decide
  | .number n, hv => by
      intro h
      exact absurd ((writeNumber_shape hv).2.1 '\n' (by simpa [writeValue] using h)) (by decide)
  | .string s, _ => by simpa [writeValue] using newline_not_mem_writeString s
  | .array [], _ => by simp [writeValue]
  | .array (item :: items), hv => by
      obtain ⟨hitem, hitems⟩ : Plain item ∧ PlainItems items := by
        simpa [Plain, PlainItems] using hv
      simp [writeValue, newline_not_mem_writeValue item hitem,
        newline_not_mem_writeItems items hitems]
  | .object [], _ => by simp [writeValue]
  | .object ((key, value) :: members), hv => by
      obtain ⟨-, hvalue, hmembers⟩ :
          ((key, value) :: members).Pairwise (fun a b => a.1 < b.1) ∧ Plain value ∧
            PlainMembers members := by simpa [Plain, PlainMembers] using hv
      simp [writeValue, newline_not_mem_writeString, newline_not_mem_writeValue value hvalue,
        newline_not_mem_writeMembers members hmembers]

private theorem newline_not_mem_writeItems : ∀ items : List Value, PlainItems items →
    '\n' ∉ writeItems items
  | [], _ => by simp [writeItems]
  | item :: items, hitems => by
      obtain ⟨hitem, hitems⟩ : Plain item ∧ PlainItems items := by simpa [PlainItems] using hitems
      simp [writeItems, newline_not_mem_writeValue item hitem,
        newline_not_mem_writeItems items hitems]

private theorem newline_not_mem_writeMembers : ∀ members : List (String × Value),
    PlainMembers members → '\n' ∉ writeMembers members
  | [], _ => by simp [writeMembers]
  | (key, value) :: members, hmembers => by
      obtain ⟨hvalue, hmembers⟩ : Plain value ∧ PlainMembers members := by
        simpa [PlainMembers] using hmembers
      simp [writeMembers, newline_not_mem_writeString, newline_not_mem_writeValue value hvalue,
        newline_not_mem_writeMembers members hmembers]

end

theorem newline_not_mem_write (v : Value) (hv : Plain v) : '\n' ∉ write v :=
  newline_not_mem_writeValue v hv

private theorem getLast_writeMembers (members : List (String × Value)) :
    (writeMembers members).getLast? = some '}' := by
  induction members with
  | nil => simp [writeMembers]
  | cons member members ih =>
      obtain ⟨key, value⟩ := member
      simp [writeMembers, ih, List.getLast?_append, List.getLast?_cons]

theorem write_object_braces (members : List (String × Value)) :
    (∃ rest, write (.object members) = '{' :: rest) ∧
      (write (.object members)).getLast? = some '}' := by
  rcases members with _ | ⟨⟨key, value⟩, members⟩
  · exact ⟨⟨_, by rw [write, writeValue]⟩, by simp [write, writeValue]⟩
  · refine ⟨⟨_, by rw [write, writeValue]⟩, ?_⟩
    simp [write, writeValue, getLast_writeMembers, List.getLast?_append, List.getLast?_cons]

end GitHubProvider.Json
