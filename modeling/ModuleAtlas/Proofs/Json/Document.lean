import ModuleAtlas.Json.Writer
import ModuleAtlas.Proofs.Json.Number

/-!
# Documents are read back

What is written for a value is read as that value, with nothing left over (`parse_document_append`).
A string is read code point for code point, whatever has to be escaped in it, and the layout is blank
space that the reader skips. The only thing that a value can get wrong is a number whose literal is
none.
-/

namespace ModuleAtlas.Json

variable {blank rest : List Char} {c : Char} {depth fuel : ℕ}
  {value item : Value} {items : List Value} {fields : List (Option String × Value)}

/-! ## Strings -/

theorem hexDigit?_lowerHexDigit : ∀ n < 16, hexDigit? (lowerHexDigit n) = some n := by decide

/-- The escape of a character is read as its code point. -/
theorem readCodes_escape (c : Char) (chars : List Char) : readCodes (escape c ++ chars)
    = (readCodes chars).map fun (codes, rest) => (c.toNat :: codes, rest) := by
  have hhex : c.toNat < 0x20 →
      hexValue? ['0', '0', lowerHexDigit (c.toNat / 16), lowerHexDigit (c.toNat % 16)]
        = some c.toNat := by
    intro hc
    have hhigh := hexDigit?_lowerHexDigit (c.toNat / 16) (by omega)
    have hlow := hexDigit?_lowerHexDigit (c.toNat % 16) (by omega)
    have hzero : hexDigit? '0' = some 0 := by decide
    simp only [hexValue?, List.foldlM_cons, List.foldlM_nil, hzero, hhigh, hlow, Option.map_some,
      Option.bind_eq_bind, Option.bind_some, Option.pure_def, Option.some.injEq]
    omega
  unfold escape
  split
  case h_8 hquote hslash _ _ _ _ _ =>
    split
    · rename_i hc
      simp only [List.cons_append, List.nil_append, readCodes, hhex hc]
      cases readCodes chars <;> rfl
    · rename_i hc
      rw [List.singleton_append, readCodes]
      · rw [if_neg hc]
        cases readCodes chars <;> rfl
      all_goals simp_all
  -- the one-letter escapes
  all_goals cases hchars : readCodes chars <;> simp [readCodes, escaped?, hchars]

theorem readCodes_flatMap_escape (chars rest : List Char) :
    readCodes (chars.flatMap escape ++ '"' :: rest) = some (chars.map Char.toNat, rest) := by
  induction chars with
  | nil => rfl
  | cons c chars ih =>
    rw [List.flatMap_cons, List.append_assoc, readCodes_escape, ih]
    rfl

/-- No character is half of a surrogate pair. -/
theorem not_surrogate (c : Char) :
    isHighSurrogate c.toNat = false ∧ isLowSurrogate c.toNat = false := by
  have hvalid := c.valid
  have hnat : c.toNat = c.val.toNat := rfl
  unfold isHighSurrogate isLowSurrogate
  rcases hvalid with hlow | ⟨hhigh, -⟩
  · simp; omega
  · simp; omega

theorem charsOfCodes?_map_toNat (chars : List Char) :
    charsOfCodes? (chars.map Char.toNat) = some chars := by
  induction chars with
  | nil => rfl
  | cons c chars ih =>
    obtain ⟨hhigh, hlow⟩ := not_surrogate c
    cases chars with
    | nil => simp [charsOfCodes?, hhigh, hlow]
    | cons d chars =>
      rw [List.map_cons] at ih
      simp [charsOfCodes?, hhigh, hlow, ih]

/-- What is written after the opening quote of a string. -/
def inside (text : Option String) : List Char :=
  text.elim "\\ud800\"".toList fun text => text.toList.flatMap escape ++ ['"']

theorem toList_quoted (text : Option String) : (quoted text).toList = '"' :: inside text := by
  cases text with
  | none => rfl
  | some text => simp [quoted, quote, inside]

/-- A string is read as the text it was written for, code point for code point. -/
theorem readString_inside (text : Option String) (rest : List Char) :
    readString (inside text ++ rest) = some (text, rest) := by
  cases text with
  | none => rfl
  | some text =>
    simp only [inside, Option.elim_some, List.append_assoc, List.singleton_append]
    rw [readString, readCodes_flatMap_escape]
    simp only [Option.map_some, charsOfCodes?_map_toNat, String.ofList_toList]

/-! ## Blank space -/

/-- Nothing but blank space. -/
def IsBlankSpace (chars : List Char) : Prop := ∀ c ∈ chars, isBlank c = true

/-- The text goes on with something that cannot stand in a number, or it ends. -/
def EndsNumber (rest : List Char) : Prop := ∀ c ∈ rest.head?, isNumberChar c = false

theorem isBlankSpace_newLine (depth : ℕ) : IsBlankSpace (newLine depth).toList := by
  intro c hc
  rw [newLine, String.toList_ofList] at hc
  rcases List.mem_cons.mp hc with rfl | hc
  · rfl
  · rw [List.eq_of_mem_replicate hc]
    rfl

theorem skipBlank_append (hblank : IsBlankSpace blank) (chars : List Char) :
    skipBlank (blank ++ chars) = skipBlank chars := List.dropWhile_append_of_pos hblank

theorem skipBlank_cons (hc : isBlank c = false) (chars : List Char) :
    skipBlank (c :: chars) = c :: chars := List.dropWhile_cons_of_neg (by simp [hc])

theorem not_isNumberChar_of_isBlank (hc : isBlank c = true) : isNumberChar c = false := by
  simp only [isBlank, Bool.or_eq_true, beq_iff_eq] at hc
  rcases hc with ((rfl | rfl) | rfl) | rfl <;> rfl

theorem endsNumber_append (hblank : IsBlankSpace blank) (hrest : EndsNumber rest) :
    EndsNumber (blank ++ rest) := by
  cases blank with
  | nil => exact hrest
  | cons c blank =>
    intro d hd
    obtain rfl : c = d := by simpa using hd
    exact not_isNumberChar_of_isBlank (hblank c List.mem_cons_self)

theorem readValue_append (hblank : IsBlankSpace blank) (fuel : ℕ) (chars : List Char) :
    readValue fuel (blank ++ chars) = readValue fuel chars := by
  cases fuel with
  | zero => rfl
  | succ fuel => rw [readValue, readValue, skipBlank_append hblank]

theorem readItems_append (hblank : IsBlankSpace blank) (fuel : ℕ) (chars : List Char) :
    readItems fuel (blank ++ chars) = readItems fuel chars := by
  cases fuel with
  | zero => rfl
  | succ fuel => rw [readItems, readItems, readValue_append hblank]

theorem readKey_append (hblank : IsBlankSpace blank) (chars : List Char) :
    readKey (blank ++ chars) = readKey chars := by
  rw [readKey, readKey, skipBlank_append hblank]

theorem readFields_append (hblank : IsBlankSpace blank) (fuel : ℕ) (chars : List Char) :
    readFields fuel (blank ++ chars) = readFields fuel chars := by
  cases fuel with
  | zero => rfl
  | succ fuel => rw [readFields, readFields, readKey_append hblank]

/-! ## Numbers -/

theorem readNumber_append {literal : List Char} (hliteral : isNumber literal = true)
    (hrest : EndsNumber rest) :
    readNumber (literal ++ rest) = some (.number (String.ofList literal), rest) := by
  obtain ⟨htake, hdrop⟩ := Text.takeWhile_run (isNumberChar_of_isNumber hliteral) hrest
  rw [readNumber, htake, hdrop, if_pos hliteral]

/-! ## Values -/

/-- All number literals in a value are numbers. -/
inductive Value.WellFormed : Value → Prop where
  | null : WellFormed .null
  | boolean (value : Bool) : WellFormed (.boolean value)
  | number {literal : String} (hliteral : isNumber literal.toList = true) :
    WellFormed (.number literal)
  | string (text : Option String) : WellFormed (.string text)
  | array {items : List Value} (hitems : ∀ item ∈ items, WellFormed item) :
    WellFormed (.array items)
  | object {fields : List (Option String × Value)} (hfields : ∀ field ∈ fields, WellFormed field.2) :
    WellFormed (.object fields)

/-- Whatever is written after a value, the value is read back and the rest is left over. -/
def Value.ReadsBack (value : Value) : Prop :=
  ∀ depth fuel rest, (pretty depth value).toList.length < fuel → EndsNumber rest →
    readValue fuel ((pretty depth value).toList ++ rest) = some (value, rest)

theorem ne_of_isNumberChar (hc : isNumberChar c = true) : isBlank c = false ∧ c ≠ '"' ∧ c ≠ '[' ∧
    c ≠ '\x7b' ∧ c ≠ 't' ∧ c ≠ 'f' ∧ c ≠ 'n' ∧ c ≠ ']' := by
  refine ⟨?_, ?_, ?_, ?_, ?_, ?_, ?_, ?_⟩
  · by_contra hblank
    rw [Bool.not_eq_false] at hblank
    rw [not_isNumberChar_of_isBlank hblank] at hc
    cases hc
  all_goals
    rintro rfl
    revert hc
    decide

theorem ne_nil_of_isNumber {literal : List Char} (hliteral : isNumber literal = true) :
    literal ≠ [] := by
  obtain ⟨sign, whole, fraction, exponent, hparts, rfl⟩ := isNumber_iff.mp hliteral
  simp [isWhole_ne_nil hparts.hwhole]

theorem readsBack_number {literal : String} (hliteral : isNumber literal.toList = true) :
    (Value.number literal).ReadsBack := by
  intro depth fuel rest hfuel hrest
  have hread := readNumber_append hliteral hrest
  obtain ⟨c, tail, hcons⟩ := List.exists_cons_of_ne_nil (ne_nil_of_isNumber hliteral)
  have hc := isNumberChar_of_isNumber hliteral c (hcons ▸ List.mem_cons_self)
  obtain ⟨hblank, hstart⟩ := ne_of_isNumberChar hc
  rw [String.ofList_toList, hcons] at hread
  cases fuel with
  | zero => exact absurd hfuel (Nat.not_lt_zero _)
  | succ fuel =>
    rw [pretty, hcons, List.cons_append, readValue, skipBlank_cons hblank]
    split <;> simp_all

theorem toList_pretty_array (depth : ℕ) (item : Value) (items : List Value) :
    (pretty depth (.array (item :: items))).toList = '[' :: ((newLine (depth + 1)).toList ++
      ((pretty (depth + 1) item).toList ++ ((prettyItems (depth + 1) items).toList ++
        ((newLine depth).toList ++ [']'])))) := by
  simp [pretty]

theorem toList_pretty_object (depth : ℕ) (key : Option String) (value : Value)
    (fields : List (Option String × Value)) :
    (pretty depth (.object ((key, value) :: fields))).toList = '\x7b' ::
      ((newLine (depth + 1)).toList ++ ((quoted key).toList ++ ':' :: ' ' ::
        ((pretty (depth + 1) value).toList ++ ((prettyFields (depth + 1) fields).toList ++
          ((newLine depth).toList ++ ['\x7d']))))) := by
  simp [pretty]

/-- A value begins with neither blank space nor the end of an array. -/
theorem exists_cons_pretty (hvalue : value.WellFormed) (depth : ℕ) :
    ∃ c tail, (pretty depth value).toList = c :: tail ∧ isBlank c = false ∧ c ≠ ']' := by
  cases hvalue with
  | null => exact ⟨'n', ['u', 'l', 'l'], by simp [pretty], rfl, by decide⟩
  | boolean value =>
    cases value with
    | true => exact ⟨'t', ['r', 'u', 'e'], by simp [pretty], rfl, by decide⟩
    | false => exact ⟨'f', ['a', 'l', 's', 'e'], by simp [pretty], rfl, by decide⟩
  | @number literal hliteral =>
    obtain ⟨c, tail, hcons⟩ := List.exists_cons_of_ne_nil (ne_nil_of_isNumber hliteral)
    obtain ⟨hblank, hstart⟩ :=
      ne_of_isNumberChar (isNumberChar_of_isNumber hliteral c (hcons ▸ List.mem_cons_self))
    exact ⟨c, tail, by rw [pretty, hcons], hblank, hstart.2.2.2.2.2.2⟩
  | string text => exact ⟨'"', _, by rw [pretty, toList_quoted], rfl, by decide⟩
  | @array items _ =>
    cases items with
    | nil => exact ⟨'[', [']'], by simp [pretty], rfl, by decide⟩
    | cons item items => exact ⟨'[', _, toList_pretty_array depth item items, rfl, by decide⟩
  | @object fields _ =>
    cases fields with
    | nil => exact ⟨'\x7b', ['\x7d'], by simp [pretty], rfl, by decide⟩
    | cons field fields =>
      exact ⟨'\x7b', _, toList_pretty_object depth field.1 field.2 fields, rfl, by decide⟩

theorem endsNumber_cons (hc : isNumberChar c = false) (rest : List Char) : EndsNumber (c :: rest) := by
  intro d hd
  obtain rfl : c = d := by simpa using hd
  exact hc

/-- The items of an array are read up to its end. -/
theorem readItems_pretty (depth : ℕ) (rest : List Char) (hitem : item.ReadsBack)
    (hitems : ∀ other ∈ items, other.ReadsBack) (hblank : IsBlankSpace blank)
    (hfuel : (pretty depth item).toList.length + (prettyItems depth items).toList.length + 1 < fuel) :
    readItems fuel ((pretty depth item).toList ++
      ((prettyItems depth items).toList ++ (blank ++ ']' :: rest))) = some (item :: items, rest) := by
  induction items generalizing item fuel with
  | nil =>
    obtain ⟨fuel, rfl⟩ : ∃ more, fuel = more + 1 := ⟨fuel - 1, by omega⟩
    have hread := hitem depth fuel (blank ++ ']' :: rest) (by omega)
      (endsNumber_append hblank (endsNumber_cons rfl rest))
    have hend : skipBlank (blank ++ ']' :: rest) = ']' :: rest := by
      rw [skipBlank_append hblank, skipBlank_cons rfl]
    rw [prettyItems, String.toList_empty, List.nil_append, readItems, hread]
    simp only [Option.bind_eq_bind, Option.bind_some, hend]
  | cons next items ih =>
    obtain ⟨hnext, hitems⟩ := List.forall_mem_cons.mp hitems
    obtain ⟨fuel, rfl⟩ : ∃ more, fuel = more + 1 := ⟨fuel - 1, by omega⟩
    have htail : (prettyItems depth (next :: items)).toList ++ (blank ++ ']' :: rest)
        = ',' :: ((newLine depth).toList ++ ((pretty depth next).toList ++
          ((prettyItems depth items).toList ++ (blank ++ ']' :: rest)))) := by
      simp [prettyItems]
    have hlength : (pretty depth next).toList.length + (prettyItems depth items).toList.length
        < (prettyItems depth (next :: items)).toList.length := by
      simp only [prettyItems, String.toList_append, List.length_append, String.reduceToList,
        List.length_singleton]
      omega
    have hread := hitem depth fuel _ (by omega) (endsNumber_cons (c := ',') rfl
      ((newLine depth).toList ++ ((pretty depth next).toList ++
        ((prettyItems depth items).toList ++ (blank ++ ']' :: rest)))))
    have hrest : readItems fuel _ = some (next :: items, rest) := ih hnext hitems (by omega)
    rw [htail, readItems, hread]
    simp only [Option.bind_eq_bind, Option.bind_some,
      skipBlank_cons (show isBlank ',' = false from rfl),
      readItems_append (isBlankSpace_newLine depth), hrest, Option.map_some]

theorem readKey_quoted (key : Option String) (chars : List Char) :
    readKey ((quoted key).toList ++ ':' :: chars) = some (key, chars) := by
  rw [toList_quoted, List.cons_append, readKey, skipBlank_cons rfl]
  simp only [readString_inside, Option.bind_eq_bind, Option.bind_some,
    skipBlank_cons (show isBlank ':' = false from rfl)]

/-- The fields of an object are read up to its end. -/
theorem readFields_pretty (depth : ℕ) (key : Option String) (rest : List Char)
    (hvalue : value.ReadsBack) (hfields : ∀ field ∈ fields, field.2.ReadsBack)
    (hblank : IsBlankSpace blank)
    (hfuel : (pretty depth value).toList.length + (prettyFields depth fields).toList.length + 1
      < fuel) :
    readFields fuel ((quoted key).toList ++ ':' :: ' ' :: ((pretty depth value).toList ++
      ((prettyFields depth fields).toList ++ (blank ++ '\x7d' :: rest))))
        = some ((key, value) :: fields, rest) := by
  have hspace : IsBlankSpace [' '] := by simp [IsBlankSpace, isBlank]
  induction fields generalizing key value fuel with
  | nil =>
    obtain ⟨fuel, rfl⟩ : ∃ more, fuel = more + 1 := ⟨fuel - 1, by omega⟩
    have hread := hvalue depth fuel (blank ++ '\x7d' :: rest) (by omega)
      (endsNumber_append hblank (endsNumber_cons rfl rest))
    rw [← readValue_append hspace, List.singleton_append] at hread
    have hend : skipBlank (blank ++ '\x7d' :: rest) = '\x7d' :: rest := by
      rw [skipBlank_append hblank, skipBlank_cons rfl]
    rw [prettyFields, String.toList_empty, List.nil_append, readFields, readKey_quoted]
    simp only [Option.bind_eq_bind, Option.bind_some, hread, hend]
  | cons next fields ih =>
    obtain ⟨nextKey, nextValue⟩ := next
    obtain ⟨hnext, hfields⟩ := List.forall_mem_cons.mp hfields
    obtain ⟨fuel, rfl⟩ : ∃ more, fuel = more + 1 := ⟨fuel - 1, by omega⟩
    have htail : (prettyFields depth ((nextKey, nextValue) :: fields)).toList ++
          (blank ++ '\x7d' :: rest)
        = ',' :: ((newLine depth).toList ++ ((quoted nextKey).toList ++ ':' :: ' ' ::
          ((pretty depth nextValue).toList ++ ((prettyFields depth fields).toList ++
            (blank ++ '\x7d' :: rest))))) := by
      simp [prettyFields]
    have hlength : (pretty depth nextValue).toList.length + (prettyFields depth fields).toList.length
        < (prettyFields depth ((nextKey, nextValue) :: fields)).toList.length := by
      simp only [prettyFields, String.toList_append, List.length_append, String.reduceToList,
        List.length_singleton]
      omega
    have hread := hvalue depth fuel _ (by omega) (endsNumber_cons (c := ',') rfl
      ((newLine depth).toList ++ ((quoted nextKey).toList ++ ':' :: ' ' ::
        ((pretty depth nextValue).toList ++ ((prettyFields depth fields).toList ++
          (blank ++ '\x7d' :: rest))))))
    rw [← readValue_append hspace, List.singleton_append] at hread
    have hnext : nextValue.ReadsBack := hnext
    have hrest : readFields fuel ((quoted nextKey).toList ++ _)
      = some ((nextKey, nextValue) :: fields, rest) := ih nextKey hnext hfields (by omega)
    rw [htail, readFields, readKey_quoted]
    simp only [Option.bind_eq_bind, Option.bind_some, hread,
      skipBlank_cons (show isBlank ',' = false from rfl), readFields_append (isBlankSpace_newLine depth),
      hrest, Option.map_some]

theorem readsBack_array (hvalue : item.WellFormed) (hitem : item.ReadsBack)
    (hitems : ∀ other ∈ items, other.ReadsBack) : (Value.array (item :: items)).ReadsBack := by
  rintro depth (_ | fuel) rest hfuel -
  · exact absurd hfuel (Nat.not_lt_zero _)
  rw [toList_pretty_array] at hfuel ⊢
  simp only [List.length_cons, List.length_append] at hfuel
  have hread := readItems_pretty (depth + 1) rest hitem hitems (isBlankSpace_newLine depth)
    (show _ < fuel by omega)
  -- an array with an item does not end at once
  obtain ⟨c, tail, hcons, hblank, hc⟩ := exists_cons_pretty hvalue (depth + 1)
  have hhead : (skipBlank ((newLine (depth + 1)).toList ++ ((pretty (depth + 1) item).toList ++
      ((prettyItems (depth + 1) items).toList ++ ((newLine depth).toList ++ ']' :: rest))))).head?
        ≠ some ']' := by
    rw [skipBlank_append (isBlankSpace_newLine _), hcons, List.cons_append, skipBlank_cons hblank]
    simpa using hc
  simp only [List.cons_append, List.append_assoc, List.nil_append]
  rw [readValue, skipBlank_cons rfl]
  simp only [if_neg hhead, readItems_append (isBlankSpace_newLine _), hread, Option.map_some]

theorem readsBack_object {key : Option String} (hvalue : value.ReadsBack)
    (hfields : ∀ field ∈ fields, field.2.ReadsBack) :
    (Value.object ((key, value) :: fields)).ReadsBack := by
  rintro depth (_ | fuel) rest hfuel -
  · exact absurd hfuel (Nat.not_lt_zero _)
  rw [toList_pretty_object] at hfuel ⊢
  simp only [List.length_cons, List.length_append] at hfuel
  have hread := readFields_pretty (depth + 1) key rest hvalue hfields (isBlankSpace_newLine depth)
    (show _ < fuel by omega)
  -- an object with a field does not end at once
  have hhead : (skipBlank ((newLine (depth + 1)).toList ++ ((quoted key).toList ++ ':' :: ' ' ::
      ((pretty (depth + 1) value).toList ++ ((prettyFields (depth + 1) fields).toList ++
        ((newLine depth).toList ++ '\x7d' :: rest)))))).head? ≠ some '\x7d' := by
    rw [skipBlank_append (isBlankSpace_newLine _), toList_quoted, List.cons_append,
      skipBlank_cons rfl]
    simp
  simp only [List.cons_append, List.append_assoc, List.nil_append]
  rw [readValue, skipBlank_cons rfl]
  simp only [if_neg hhead, readFields_append (isBlankSpace_newLine _), hread, Option.map_some]

/-- A value without false numbers is read back from what is written for it. -/
theorem Value.WellFormed.readsBack (hvalue : value.WellFormed) : value.ReadsBack := by
  induction hvalue with
  | number hliteral => exact readsBack_number hliteral
  | null =>
    rintro depth (_ | fuel) rest hfuel -
    · exact absurd hfuel (Nat.not_lt_zero _)
    · simp [pretty, readValue, skipBlank, isBlank]
  | boolean value =>
    rintro depth (_ | fuel) rest hfuel -
    · exact absurd hfuel (Nat.not_lt_zero _)
    · cases value <;> simp [pretty, readValue, skipBlank, isBlank]
  | string text =>
    rintro depth (_ | fuel) rest hfuel -
    · exact absurd hfuel (Nat.not_lt_zero _)
    · rw [pretty, toList_quoted, List.cons_append, readValue, skipBlank_cons rfl]
      simp only [readString_inside, Option.map_some]
  | @array items hitems ih =>
    cases items with
    | nil =>
      rintro depth (_ | fuel) rest hfuel -
      · exact absurd hfuel (Nat.not_lt_zero _)
      · simp [pretty, readValue, skipBlank, isBlank]
    | cons item items =>
      obtain ⟨hitem, hrest⟩ := List.forall_mem_cons.mp ih
      exact readsBack_array (hitems item List.mem_cons_self) hitem hrest
  | @object fields hfields ih =>
    cases fields with
    | nil =>
      rintro depth (_ | fuel) rest hfuel -
      · exact absurd hfuel (Nat.not_lt_zero _)
      · simp [pretty, readValue, skipBlank, isBlank]
    | cons field fields =>
      obtain ⟨hvalue, hrest⟩ := List.forall_mem_cons.mp ih
      exact readsBack_object hvalue hrest

/-- A document is read as the value it was written for, whatever blank space follows it. -/
theorem parse_document_append (hvalue : value.WellFormed) {tail : String}
    (htail : IsBlankSpace tail.toList) : parse (document value ++ tail) = some value := by
  unfold document
  have hlength : (pretty 0 value).toList.length < (pretty 0 value ++ tail).length + 1 := by
    rw [← String.length_toList, String.toList_append, List.length_append]
    omega
  have hends : EndsNumber tail.toList := by
    rw [← List.append_nil tail.toList]
    exact endsNumber_append htail (by simp [EndsNumber])
  have hread := hvalue.readsBack 0 _ tail.toList hlength hends
  have hblank : skipBlank tail.toList = [] := by
    rw [← List.append_nil tail.toList, skipBlank_append htail]
    rfl
  rw [parse, String.toList_append, hread]
  simp only [hblank, List.isEmpty_nil, if_true]

end ModuleAtlas.Json
