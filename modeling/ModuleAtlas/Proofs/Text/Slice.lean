import Mathlib.Data.List.Basic
import ModuleAtlas.Text.Slice

/-!
# What a slice of a text is

A slice between two places is what the text has between a front that ends at the one and a front that
ends at the other (`slice?_eq_some_iff`). Two slices that meet make one slice (`slice?_append`).
-/

namespace ModuleAtlas.Text

variable {text piece more : String} {chars front front' rest rest' : List Char} {start mid stop : Nat}

/-! ## Bytes of characters -/

@[simp] theorem byteCount_nil : byteCount [] = 0 := rfl

@[simp] theorem byteCount_cons (c : Char) (chars : List Char) :
    byteCount (c :: chars) = c.utf8Size + byteCount chars := rfl

@[simp] theorem byteCount_append (chars more : List Char) :
    byteCount (chars ++ more) = byteCount chars + byteCount more := by
  induction chars with
  | nil => rw [List.nil_append, byteCount_nil, Nat.zero_add]
  | cons c chars ih => rw [List.cons_append, byteCount_cons, byteCount_cons, ih, Nat.add_assoc]

theorem byteCount_eq_zero_iff : byteCount chars = 0 ↔ chars = [] := by
  cases chars with
  | nil => simp
  | cons c chars =>
    have hsize := c.utf8Size_pos
    simp only [byteCount_cons, reduceCtorEq, iff_false]
    omega

/-- Fronts of one text that take the same number of bytes are the same. -/
theorem append_inj_of_byteCount_eq (h : front ++ rest = front' ++ rest')
    (hbytes : byteCount front = byteCount front') : front = front' ∧ rest = rest' := by
  induction front generalizing front' with
  | nil =>
    obtain rfl := byteCount_eq_zero_iff.mp hbytes.symm
    exact ⟨rfl, h⟩
  | cons c front ih =>
    cases front' with
    | nil => exact absurd (byteCount_eq_zero_iff.mp hbytes) (List.cons_ne_nil c front)
    | cons c' front' =>
      rw [List.cons_append, List.cons_append, List.cons.injEq] at h
      obtain ⟨rfl, h⟩ := h
      rw [byteCount_cons, byteCount_cons, Nat.add_left_cancel_iff] at hbytes
      obtain ⟨rfl, rfl⟩ := ih h hbytes
      exact ⟨rfl, rfl⟩

/-! ## Fronts -/

theorem dropBytes?_eq_some_iff {bytes : Nat} :
    dropBytes? bytes chars = some rest ↔ ∃ front, chars = front ++ rest ∧ byteCount front = bytes := by
  induction chars generalizing bytes with
  | nil =>
    cases bytes with
    | zero => simp [dropBytes?, eq_comm]
    | succ bytes => simp [dropBytes?]
  | cons c chars ih =>
    cases bytes with
    | zero =>
      rw [dropBytes?, Option.some.injEq]
      constructor
      · rintro rfl
        exact ⟨[], rfl, rfl⟩
      · rintro ⟨front, happend, hbytes⟩
        rwa [byteCount_eq_zero_iff.mp hbytes] at happend
    | succ bytes =>
      have hsize := c.utf8Size_pos
      rw [dropBytes?, Option.ite_none_right_eq_some, ih]
      constructor
      · rintro ⟨hle, front, rfl, hbytes⟩
        exact ⟨c :: front, rfl, by rw [byteCount_cons]; omega⟩
      · rintro ⟨front, happend, hbytes⟩
        cases front with
        | nil => cases hbytes
        | cons c' front =>
          rw [List.cons_append, List.cons.injEq] at happend
          obtain ⟨rfl, rfl⟩ := happend
          rw [byteCount_cons] at hbytes
          exact ⟨by omega, front, rfl, by omega⟩

theorem takeBytes?_eq_some_iff {bytes : Nat} :
    takeBytes? bytes chars = some front ↔ ∃ rest, chars = front ++ rest ∧ byteCount front = bytes := by
  induction chars generalizing bytes front with
  | nil =>
    cases bytes with
    | zero => simp +contextual [takeBytes?, eq_comm]
    | succ bytes =>
      simp only [takeBytes?, reduceCtorEq, List.nil_eq_append_iff, false_iff, not_exists, not_and,
        and_imp]
      rintro _ rfl rfl
      exact (Nat.succ_ne_zero bytes).symm
  | cons c chars ih =>
    cases bytes with
    | zero =>
      rw [takeBytes?, Option.some.injEq, eq_comm]
      constructor
      · rintro rfl
        exact ⟨c :: chars, rfl, rfl⟩
      · rintro ⟨-, -, hbytes⟩
        exact byteCount_eq_zero_iff.mp hbytes
    | succ bytes =>
      have hsize := c.utf8Size_pos
      rw [takeBytes?, Option.ite_none_right_eq_some, Option.map_eq_some_iff]
      constructor
      · rintro ⟨hle, inner, hinner, rfl⟩
        obtain ⟨rest, rfl, hbytes⟩ := ih.mp hinner
        exact ⟨rest, rfl, by rw [byteCount_cons]; omega⟩
      · rintro ⟨rest, happend, hbytes⟩
        cases front with
        | nil => cases hbytes
        | cons c' front =>
          rw [List.cons_append, List.cons.injEq] at happend
          obtain ⟨rfl, rfl⟩ := happend
          rw [byteCount_cons] at hbytes
          exact ⟨by omega, front, ih.mpr ⟨rest, rfl, by omega⟩, rfl⟩

/-! ## Slices -/

/-- A slice stands in the text between a front of so many bytes and the rest. -/
theorem slice?_eq_some_iff : slice? text start stop = some piece ↔
    ∃ front rest, text.toList = front ++ (piece.toList ++ rest) ∧ byteCount front = start ∧
      start + byteCount piece.toList = stop := by
  unfold slice?
  rw [Option.ite_none_right_eq_some, Option.bind_eq_some_iff]
  constructor
  · rintro ⟨hle, after, hafter, hpiece⟩
    obtain ⟨front, htext, hfront⟩ := dropBytes?_eq_some_iff.mp hafter
    obtain ⟨chars, hchars, rfl⟩ := Option.map_eq_some_iff.mp hpiece
    obtain ⟨rest, rfl, hbytes⟩ := takeBytes?_eq_some_iff.mp hchars
    rw [String.toList_ofList]
    exact ⟨front, rest, htext, hfront, by omega⟩
  · rintro ⟨front, rest, htext, hfront, rfl⟩
    refine ⟨Nat.le_add_right _ _, _, dropBytes?_eq_some_iff.mpr ⟨front, htext, hfront⟩, ?_⟩
    refine Option.map_eq_some_iff.mpr ⟨piece.toList, takeBytes?_eq_some_iff.mpr ⟨rest, rfl, ?_⟩,
      String.ofList_toList⟩
    omega

/-- A slice that exists has as many bytes as lie between its places. -/
theorem add_byteCount_of_slice? (h : slice? text start stop = some piece) :
    start + byteCount piece.toList = stop := by
  obtain ⟨-, -, -, -, hstop⟩ := slice?_eq_some_iff.mp h
  exact hstop

/-- Two slices that meet make one slice. -/
theorem slice?_append (h : slice? text start mid = some piece)
    (hmore : slice? text mid stop = some more) : slice? text start stop = some (piece ++ more) := by
  obtain ⟨front, rest, htext, rfl, rfl⟩ := slice?_eq_some_iff.mp h
  obtain ⟨front', rest', htext', hmid, rfl⟩ := slice?_eq_some_iff.mp hmore
  rw [htext, ← List.append_assoc] at htext'
  obtain ⟨-, rfl⟩ := append_inj_of_byteCount_eq htext' (by rw [byteCount_append, hmid])
  refine slice?_eq_some_iff.mpr ⟨front, rest', ?_, rfl, ?_⟩
  · rw [htext, String.toList_append, List.append_assoc]
  · rw [String.toList_append, byteCount_append, Nat.add_assoc]

end ModuleAtlas.Text
