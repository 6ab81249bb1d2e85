import Mathlib.Data.List.Basic
import Mathlib.Data.List.TakeWhile
import ModuleAtlas.Json.Reader
import ModuleAtlas.Proofs.Decimal
import ModuleAtlas.Proofs.Text.Split

/-!
# Number literals

`isNumber` decides the grammar of numbers (`isNumber_iff`): a sign, a whole part without a superfluous
zero, places after a point, and a power of ten, all but the whole part being optional. The literals
that are written for counts and for finite floating-point numbers are such numbers.
-/

namespace ModuleAtlas.Json

open Decimal (Scientific Binary)

/-! ## The grammar of numbers -/

/-- Some digits, at least one. -/
def AreDigits (chars : List Char) : Prop := chars ≠ [] ∧ ∀ c ∈ chars, c.isDigit = true

/-- A minus sign or nothing. -/
inductive IsSign : List Char → Prop where
  | positive : IsSign []
  | negative : IsSign ['-']

/-- The places after the point, with the point. -/
inductive IsFraction : List Char → Prop where
  | absent : IsFraction []
  | places {digits : List Char} (hdigits : AreDigits digits) : IsFraction ('.' :: digits)

/-- The power of ten, with its mark. The sign of the exponent may be written in any case. -/
inductive IsExponent : List Char → Prop where
  | absent : IsExponent []
  | power {mark : Char} {sign digits : List Char} (hmark : mark = 'e' ∨ mark = 'E')
    (hsign : sign = [] ∨ sign = ['+'] ∨ sign = ['-']) (hdigits : AreDigits digits) :
    IsExponent (mark :: (sign ++ digits))

/-- The parts of a number. -/
structure IsNumeral (sign whole fraction exponent : List Char) : Prop where
  hsign : IsSign sign
  hwhole : isWhole whole = true
  hdigits : ∀ c ∈ whole, c.isDigit = true
  hfraction : IsFraction fraction
  hexponent : IsExponent exponent

variable {chars literal sign whole fraction exponent digits : List Char} {n : ℕ}

theorem IsExponent.head_not_digit (h : IsExponent exponent) :
    ∀ c ∈ exponent.head?, c.isDigit = false := by
  cases h with
  | absent => simp
  | power hmark => rcases hmark with rfl | rfl <;> simp

theorem IsFraction.head_not_digit (hfraction : IsFraction fraction) (hexponent : IsExponent exponent) :
    ∀ c ∈ (fraction ++ exponent).head?, c.isDigit = false := by
  cases hfraction with
  | absent => exact hexponent.head_not_digit
  | places => simp

/-- The power of ten at the end of a literal. -/
def isPower (chars : List Char) : Bool :=
  match chars with
  | [] => true
  | mark :: exponent =>
    let sign := exponent.head?
    let digits := if sign = some '+' ∨ sign = some '-' then exponent.drop 1 else exponent
    (mark == 'e' || mark == 'E') && !digits.isEmpty && digits.all Char.isDigit

theorem isPower_iff : isPower chars = true ↔ IsExponent chars := by
  constructor
  · intro h
    cases chars with
    | nil => exact .absent
    | cons mark rest =>
      simp only [isPower, Bool.and_eq_true, Bool.or_eq_true, beq_iff_eq, Bool.not_eq_true',
        List.isEmpty_eq_false_iff, List.all_eq_true] at h
      obtain ⟨⟨hmark, hne⟩, hall⟩ := h
      split at hne
      · rename_i hsign
        rw [if_pos hsign] at hall
        cases rest with
        | nil => simp at hsign
        | cons c rest =>
          simp only [List.head?_cons, Option.some.injEq, List.drop_succ_cons, List.drop_zero]
            at hsign hne hall
          have hsign : [c] = ['+'] ∨ [c] = ['-'] := by simpa using hsign
          exact .power hmark (.inr hsign) ⟨hne, hall⟩
      · rename_i hsign
        rw [if_neg hsign] at hall
        exact .power hmark (.inl rfl) ⟨hne, hall⟩
  · rintro (_ | ⟨hmark, hsign, hne, hall⟩)
    · rfl
    · rename_i mark sign digits
      have hhead : digits.head? ≠ some '+' ∧ digits.head? ≠ some '-' := by
        cases digits with
        | nil => simp
        | cons c digits =>
          have hc := hall c List.mem_cons_self
          constructor <;> rintro h <;> rw [List.head?_cons, Option.some.injEq] at h <;>
            rw [h] at hc <;> exact absurd hc (by decide)
      have hmark : (mark == 'e' || mark == 'E') = true := by simpa using hmark
      rcases hsign with rfl | rfl | rfl <;>
        simp_all [isPower]

theorem isWhole_ne_nil (h : isWhole whole = true) : whole ≠ [] := by
  rintro rfl
  cases h

/-- What stands after the sign of a literal. -/
def unsigned (literal : List Char) : List Char :=
  if literal.head? = some '-' then literal.drop 1 else literal

/-- The digits after a point at the start. -/
def places (tail : List Char) : List Char :=
  if tail.head? = some '.' then (tail.drop 1).takeWhile Char.isDigit else []

/-- What stands after the places. -/
def afterPlaces (tail : List Char) : List Char :=
  if tail.head? = some '.' then (tail.drop 1).dropWhile Char.isDigit else tail

theorem isNumber_eq (literal : List Char) : isNumber literal =
    (isWhole ((unsigned literal).takeWhile Char.isDigit) &&
      (((unsigned literal).dropWhile Char.isDigit).head? != some '.' ||
        !(places ((unsigned literal).dropWhile Char.isDigit)).isEmpty) &&
      isPower (afterPlaces ((unsigned literal).dropWhile Char.isDigit))) := rfl

theorem unsigned_append (hsign : IsSign sign) (hwhole : whole ≠ [])
    (hdigits : ∀ c ∈ whole, c.isDigit = true) (tail : List Char) :
    unsigned (sign ++ (whole ++ tail)) = whole ++ tail := by
  cases hsign with
  | negative => rfl
  | positive =>
    cases whole with
    | nil => exact absurd rfl hwhole
    | cons c whole =>
      have hc : c.isDigit = true := hdigits c List.mem_cons_self
      refine if_neg ?_
      rintro h
      obtain rfl : c = '-' := by simpa using h
      exact absurd hc (by decide)

/-- A literal is a number exactly if it has the parts of one. -/
theorem isNumber_iff : isNumber literal = true ↔ ∃ sign whole fraction exponent,
    IsNumeral sign whole fraction exponent ∧ literal = sign ++ (whole ++ (fraction ++ exponent)) := by
  rw [isNumber_eq]
  simp only [Bool.and_eq_true, Bool.or_eq_true, bne_iff_ne, Bool.not_eq_true',
    List.isEmpty_eq_false_iff, isPower_iff]
  constructor
  · rintro ⟨⟨hwhole, hpoint⟩, hexponent⟩
    set tail := (unsigned literal).dropWhile Char.isDigit with htail
    have hdigits : ∀ c ∈ (unsigned literal).takeWhile Char.isDigit, c.isDigit = true :=
      fun c hc => List.mem_takeWhile_imp hc
    have hunsigned : unsigned literal = (unsigned literal).takeWhile Char.isDigit ++ tail :=
      List.takeWhile_append_dropWhile.symm
    obtain ⟨sign, hsign, hliteral⟩ : ∃ sign, IsSign sign ∧ literal = sign ++ unsigned literal := by
      unfold unsigned
      split
      · rename_i hminus
        rw [List.drop_one]
        exact ⟨['-'], .negative, List.eq_cons_of_mem_head? hminus⟩
      · exact ⟨[], .positive, rfl⟩
    obtain ⟨fraction, hfraction, hparts⟩ :
        ∃ fraction, IsFraction fraction ∧ tail = fraction ++ afterPlaces tail := by
      unfold afterPlaces
      unfold places at hpoint
      split
      · rename_i hhead
        rw [if_pos hhead] at hpoint
        have hne := hpoint.resolve_left fun h => h hhead
        refine ⟨_, .places ⟨hne, fun c hc => List.mem_takeWhile_imp hc⟩, ?_⟩
        rw [List.cons_append, List.takeWhile_append_dropWhile, List.drop_one]
        exact List.eq_cons_of_mem_head? hhead
      · exact ⟨[], .absent, rfl⟩
    refine ⟨sign, _, fraction, _, ⟨hsign, hwhole, hdigits, hfraction, hexponent⟩, ?_⟩
    rw [← hparts, ← hunsigned, ← hliteral]
  · rintro ⟨sign, whole, fraction, exponent, h, rfl⟩
    obtain ⟨htake, hdrop⟩ := Text.takeWhile_run h.hdigits
      (h.hfraction.head_not_digit h.hexponent)
    rw [unsigned_append h.hsign (isWhole_ne_nil h.hwhole) h.hdigits, htake, hdrop]
    obtain ⟨hsign, hwhole, hdigits, hfraction, hexponent⟩ := h
    cases hfraction with
    | absent =>
      have hpoint : ([] ++ exponent).head? ≠ some '.' := by
        rcases hexponent with _ | ⟨rfl | rfl, -, -⟩ <;> simp
      unfold afterPlaces
      rw [if_neg hpoint]
      exact ⟨⟨hwhole, .inl hpoint⟩, hexponent⟩
    | @places digits hplaces =>
      obtain ⟨htake, hdrop⟩ := Text.takeWhile_run hplaces.2 hexponent.head_not_digit
      unfold places afterPlaces
      simp only [List.cons_append, List.head?_cons, if_true, List.drop_succ_cons, List.drop_zero,
        htake, hdrop]
      exact ⟨⟨hwhole, .inr hplaces.1⟩, hexponent⟩

/-- The characters of a number can stand in one. -/
theorem isNumberChar_of_isNumber (h : isNumber literal = true) :
    ∀ c ∈ literal, isNumberChar c = true := by
  obtain ⟨sign, whole, fraction, exponent, hparts, rfl⟩ := isNumber_iff.mp h
  have hdigit : ∀ c : Char, c.isDigit = true → isNumberChar c = true := fun c hc => by
    simp [isNumberChar, hc]
  simp only [List.forall_mem_append]
  refine ⟨?_, fun c hc => hdigit c (hparts.hdigits c hc), ?_, ?_⟩
  · cases hparts.hsign with
    | positive => simp
    | negative => simp [isNumberChar]
  · cases hparts.hfraction with
    | absent => simp
    | places hplaces =>
      exact List.forall_mem_cons.mpr ⟨by decide, fun c hc => hdigit c (hplaces.2 c hc)⟩
  · cases hparts.hexponent with
    | absent => simp
    | power hmark hsign hpower =>
      refine List.forall_mem_cons.mpr ⟨?_, List.forall_mem_append.mpr ⟨?_, ?_⟩⟩
      · rcases hmark with rfl | rfl <;> decide
      · rcases hsign with rfl | rfl | rfl <;> simp [isNumberChar]
      · exact fun c hc => hdigit c (hpower.2 c hc)

/-! ## Digits of natural numbers -/

theorem areDigits_toString (n : ℕ) : AreDigits (toString n).toList := by
  rw [Nat.toString_eq_ofList_toDigits, String.toList_ofList]
  exact ⟨Nat.toDigits_ne_nil, fun c hc => Nat.isDigit_of_mem_toDigits (by decide) (by decide) hc⟩

/-- A number is written without any other characters. -/
theorem not_mem_toString {c : Char} (hc : c.isDigit = false) (n : ℕ) : c ∉ (toString n).toList := by
  intro hmem
  rw [(areDigits_toString n).2 c hmem] at hc
  cases hc

/-- The digits of a number other than zero do not begin with a zero. -/
theorem head?_toDigits_ne_zero (hn : n ≠ 0) : (Nat.toDigits 10 n).head? ≠ some '0' := by
  induction n using Nat.strong_induction_on with
  | _ n ih =>
    rw [Nat.toDigits_eq_if (by decide)]
    split
    · rename_i hlt
      have hdigit : ∀ m < 10, m ≠ 0 → m.digitChar ≠ '0' := by decide
      simpa using hdigit n hlt hn
    · have hne : n / 10 ≠ 0 := by omega
      rw [List.head?_append_of_ne_nil _ Nat.toDigits_ne_nil]
      exact ih (n / 10) (by omega) hne

theorem head?_toString_ne_zero (hn : n ≠ 0) : (toString n).toList.head? ≠ some '0' := by
  rw [Nat.toString_eq_ofList_toDigits, String.toList_ofList]
  exact head?_toDigits_ne_zero hn

/-- Digits are a whole part unless they begin with a zero. -/
theorem isWhole_of_head? (hne : chars ≠ []) (hhead : chars.head? ≠ some '0') :
    isWhole chars = true := by
  cases chars with
  | nil => exact absurd rfl hne
  | cons c chars =>
    have hc : c ≠ '0' := by simpa using hhead
    unfold isWhole
    split <;> simp_all

theorem isWhole_singleton (c : Char) : isWhole [c] = true := by
  by_cases hc : c = '0'
  · rw [hc]
    rfl
  · exact isWhole_of_head? (by simp) (by simpa using hc)

theorem isWhole_toString (n : ℕ) : isWhole (toString n).toList = true := by
  by_cases hn : n = 0
  · rw [hn]
    decide
  · exact isWhole_of_head? (areDigits_toString n).1 (head?_toString_ne_zero hn)

/-- A count is written as a number. -/
theorem isNumber_toString (n : ℕ) : isNumber (toString n).toList = true := by
  refine isNumber_iff.mpr ⟨[], _, [], [], ?_, (by simp : _ = [] ++ ((toString n).toList ++ []))⟩
  exact ⟨.positive, isWhole_toString n, (areDigits_toString n).2, .absent, .absent⟩

/-! ## Decimal numbers -/

theorem areDigits_zeros (n : ℕ) : ∀ c ∈ List.replicate n '0', c.isDigit = true := by
  intro c hc
  rw [List.eq_of_mem_replicate hc]
  rfl

/-- Further digits do not change the beginning of a whole part, but a zero stands alone. -/
theorem isWhole_append_zeros {k : ℕ} (h : n ≠ 0 ∨ k = 0) :
    isWhole ((toString n).toList ++ List.replicate k '0') = true := by
  by_cases hn : n = 0
  · rw [h.resolve_left fun hne => hne hn, List.replicate_zero, List.append_nil]
    exact isWhole_toString n
  · refine isWhole_of_head? (by simp) ?_
    rw [List.head?_append_of_ne_nil _ (areDigits_toString n).1]
    exact head?_toString_ne_zero hn

/-- The power of ten of a literal has a sign of its own if it is negative, and gets one if not. -/
theorem isExponent_point (point : ℤ) : IsExponent ('e' ::
    ((if 0 < point then "+" else "").toList ++ (toString (point - 1)).toList)) := by
  split
  · rename_i hpoint
    obtain ⟨k, hk⟩ : ∃ k : ℕ, point - 1 = k := ⟨_, (Int.toNat_of_nonneg (by omega)).symm⟩
    rw [hk]
    exact .power (.inl rfl) (.inr (.inl rfl)) (areDigits_toString k)
  · rename_i hpoint
    obtain ⟨k, hk⟩ : ∃ k : ℕ, point - 1 = Int.negSucc k := ⟨(-point).toNat, by omega⟩
    have htext : (toString (Int.negSucc k)).toList = ['-'] ++ (toString (k + 1)).toList :=
      String.toList_append
    rw [hk, htext, String.toList_empty, List.nil_append]
    exact .power (.inl rfl) (.inr (.inr rfl)) (areDigits_toString (k + 1))

/-- The digits after the first one, with a point if there are any. -/
theorem isFraction_rest {rest : List Char} (hrest : ∀ c ∈ rest, c.isDigit = true) :
    IsFraction (if rest = [] then [] else '.' :: rest) := by
  split
  · exact .absent
  · rename_i hne
    exact .places ⟨hne, hrest⟩

theorem toList_scientificLiteral (s : Scientific) : (scientificLiteral s).toList =
    let digits := (toString s.digits).toList
    let point : ℤ := digits.length + s.exponent
    if 0 ≤ s.exponent ∧ point ≤ 16 then
      digits ++ List.replicate s.exponent.toNat '0' ++ ['.', '0']
    else if 0 < point ∧ point ≤ 16 then
      digits.take point.toNat ++ '.' :: digits.drop point.toNat
    else if -5 < point ∧ point ≤ 0 then
      '0' :: '.' :: (List.replicate (-point).toNat '0' ++ digits)
    else
      digits.take 1 ++ ((if digits.drop 1 = [] then [] else '.' :: digits.drop 1) ++
        'e' :: ((if 0 < point then "+" else "").toList ++ (toString (point - 1)).toList)) := by
  have hpos : 0 < (toString s.digits).toList.length :=
    List.length_pos_of_ne_nil (areDigits_toString s.digits).1
  have hone : (toString s.digits).toList.length = 1 ↔ (toString s.digits).toList.drop 1 = [] := by
    rw [List.drop_eq_nil_iff]
    omega
  unfold scientificLiteral
  simp only [← String.length_toList, hone]
  split
  · simp
  split
  · simp
  split
  · simp
  · split <;> simp

/-- The literal of decimal digits is a number, unless it would fill up a zero with more zeros. -/
theorem isNumber_scientificLiteral {s : Scientific} (h : s.digits ≠ 0 ∨ s.exponent ≤ 0)
    (hsign : IsSign sign) : isNumber (sign ++ (scientificLiteral s).toList) = true := by
  obtain ⟨hne, hall⟩ := areDigits_toString s.digits
  have hpos := List.length_pos_of_ne_nil hne
  rw [isNumber_iff, toList_scientificLiteral]
  set digits := (toString s.digits).toList with hdigits
  simp only
  split
  · -- all digits stand before the point
    refine ⟨sign, digits ++ List.replicate s.exponent.toNat '0', ['.', '0'], [],
      ⟨hsign, isWhole_append_zeros ?_, ?_, .places ⟨by simp, areDigits_zeros 1⟩, .absent⟩,
      by simp⟩
    · exact h.imp_right fun hle => by omega
    · exact List.forall_mem_append.mpr ⟨hall, areDigits_zeros _⟩
  split
  · -- the point stands among the digits, which are two at least
    set k := (digits.length + s.exponent : ℤ).toNat with hk
    have htake : k ≠ 0 ∧ k < digits.length := by omega
    have hne0 : s.digits ≠ 0 := by
      intro hzero
      have hone : digits.length = 1 := by rw [hdigits, hzero]; rfl
      omega
    refine ⟨sign, digits.take k, '.' :: digits.drop k, [],
      ⟨hsign, isWhole_of_head? ?_ ?_, ?_, .places ⟨?_, ?_⟩, .absent⟩, by simp⟩
    · simp [htake.1, hne]
    · rw [List.head?_take, if_neg htake.1]
      exact head?_toString_ne_zero hne0
    · exact fun c hc => hall c (List.mem_of_mem_take hc)
    · simpa using htake.2
    · exact fun c hc => hall c (List.mem_of_mem_drop hc)
  split
  · -- zeros stand between the point and the digits
    refine ⟨sign, ['0'], _, [], ⟨hsign, rfl, areDigits_zeros 1, .places ⟨?_, ?_⟩, .absent⟩,
      by rw [List.append_nil]; rfl⟩
    · simp [hne]
    · exact List.forall_mem_append.mpr ⟨areDigits_zeros _, hall⟩
  · -- one digit stands before the point, and a power of ten follows
    obtain ⟨first, rest, hcons⟩ := List.exists_cons_of_ne_nil hne
    rw [hcons, List.forall_mem_cons] at hall
    rw [hcons]
    refine ⟨sign, [first], _, _, ⟨hsign, isWhole_singleton first, ?_,
      isFraction_rest hall.2, isExponent_point _⟩, rfl⟩
    exact List.forall_mem_singleton.mpr hall.1

/-! ## Floating-point numbers -/

/-- A floating-point number is neither infinite nor the result of an undefined operation. -/
def IsFinite (x : Float) : Prop :=
  ∃ negative significand exponent, Binary.ofFloat x = .finite negative significand exponent

/-- A finite number has at most `53` binary digits, the last of them at `2 ^ -1074` or above. -/
theorem bounds_of_ofBits {bits : UInt64} {negative : Bool} {significand : ℕ} {exponent : ℤ}
    (h : Binary.ofBits bits = .finite negative significand exponent) :
    significand < 2 ^ 53 ∧ -1074 ≤ exponent := by
  unfold Binary.ofBits at h
  have hfraction : bits.toNat % Nat.pow 2 52 < 2 ^ 52 := Nat.mod_lt _ (by decide)
  simp only at h
  split at h
  · split at h <;> cases h
  split at h
  · cases h
    exact ⟨hfraction.trans (by decide), le_rfl⟩
  · rename_i hfield
    cases h
    have hpow : Nat.pow 2 52 = 2 ^ 52 := rfl
    rw [hpow] at hfraction hfield ⊢
    exact ⟨by omega, by omega⟩

/-- A finite number is written as a number. -/
theorem exists_number_of_isFinite {x : Float} (h : IsFinite x) :
    ∃ literal, Value.float x = .number literal ∧ isNumber literal.toList = true := by
  obtain ⟨negative, significand, exponent, hx⟩ := h
  obtain ⟨hsignificand, hexponent⟩ := bounds_of_ofBits hx
  rw [Value.float, hx]
  refine ⟨_, rfl, ?_⟩
  have hdigits : (Decimal.shortest significand exponent).digits ≠ 0 ∨
      (Decimal.shortest significand exponent).exponent ≤ 0 := by
    by_cases hzero : significand = 0
    · refine .inr ?_
      rw [hzero]
      rfl
    · exact .inl (Decimal.digits_shortest_ne_zero hzero hsignificand hexponent)
  rw [String.toList_append]
  refine isNumber_scientificLiteral hdigits ?_
  cases negative with
  | true => exact .negative
  | false => exact .positive

end ModuleAtlas.Json
