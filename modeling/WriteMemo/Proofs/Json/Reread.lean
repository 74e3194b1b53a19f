import WriteMemo.Proofs.Binary64.Scaled
import WriteMemo.Proofs.Json.Number

namespace WriteMemo.Json

namespace Numeral

-- The digits as one whole number, and the exponent of the power of ten that they count.
def significand (numeral : Numeral) : Nat :=
  Nat.ofDigitChars 10 (numeral.whole ++ numeral.fraction) 0

def scale (numeral : Numeral) : Int := numeral.exponent.getD 0 - numeral.fraction.length

-- The digits are a whole number of 53 bits, and the power of ten that multiplies or divides them is
-- a double.
structure Exact (numeral : Numeral) : Prop where
  significand_lt : numeral.significand < 2 * Binary64.block
  scale_ge : -22 ≤ numeral.scale
  scale_le : numeral.scale ≤ 22

instance : DecidablePred Exact := fun numeral =>
  decidable_of_iff
    (numeral.significand < 2 * Binary64.block ∧ -22 ≤ numeral.scale ∧ numeral.scale ≤ 22)
    ⟨fun ⟨hlt, hge, hle⟩ => ⟨hlt, hge, hle⟩, fun ⟨hlt, hge, hle⟩ => ⟨hlt, hge, hle⟩⟩

theorem le_ofDigitChars (digits : List Char) (value : Nat) :
    value ≤ Nat.ofDigitChars 10 digits value := by
  rw [Nat.ofDigitChars_eq_ofDigitChars_zero]
  exact (Nat.le_mul_of_pos_left value (by positivity)).trans (Nat.le_add_right _ _)

theorem ofDigitChars_lt {digits : List Char} (h : AllDigits digits) :
    Nat.ofDigitChars 10 digits 0 < 10 ^ digits.length := by
  induction digits with
  | nil => decide
  | cons c digits ih =>
      have hrest := ih fun other hother => h other (List.mem_cons_of_mem c hother)
      have hdigit : c.toNat - '0'.toNat ≤ 9 :=
        Nat.sub_le_of_le_add (Char.isDigit_iff_toNat.mp (h c List.mem_cons_self)).2
      rw [Nat.ofDigitChars_cons, Nat.ofDigitChars_eq_ofDigitChars_zero, List.length_cons, pow_succ,
        Nat.mul_zero, Nat.zero_add]
      have hfirst := Nat.mul_le_mul_left (10 ^ digits.length) hdigit
      omega

theorem absorb_of_lt {digits : List Char} {value : Nat}
    (h : Nat.ofDigitChars 10 digits value < naturalLimit) :
    absorb value digits = (Nat.ofDigitChars 10 digits value, []) := by
  induction digits generalizing value with
  | nil => rfl
  | cons c digits ih =>
      rw [Nat.ofDigitChars_cons] at h ⊢
      rw [absorb, if_pos ((le_ofDigitChars digits _).trans_lt h), ih h]

-- As long as the digits fit 64 bits none is dropped.
theorem float?_of_lt {numeral : Numeral} (h : numeral.significand < naturalLimit) :
    numeral.float? = (Binary64.scaled? numeral.significand numeral.scale).map
      fun x => if numeral.negative then x.negate else x := by
  have hsplit : numeral.significand =
      Nat.ofDigitChars 10 numeral.fraction (Nat.ofDigitChars 10 numeral.whole 0) :=
    Nat.ofDigitChars_append 0
  rw [hsplit] at h
  have hwhole := absorb_of_lt ((le_ofDigitChars _ _).trans_lt h)
  have hscale : ((0 : Nat) : Int) - ((numeral.fraction.length - 0 : Nat) : Int) +
      numeral.exponent.getD 0 = numeral.scale := by
    rw [scale]
    omega
  rw [float?, hwhole]
  dsimp only
  rw [absorb_of_lt h, ← hsplit]
  dsimp only [List.length_nil]
  rw [hscale]
  cases numeral.negative with
  | true => rfl
  | false => exact Option.map_id'.symm

theorem integer?_of_not_isWhole {numeral : Numeral} (h : ¬numeral.IsWhole) :
    numeral.integer? = none := by
  refine if_neg fun hform => h ?_
  rw [Bool.and_eq_true, List.isEmpty_iff, Option.isNone_iff_eq_none] at hform
  exact hform

end Numeral

namespace Number

-- What is read where the number was written.
def reread (value : Number) : Number := value.numeral.number?.getD value

theorem number?_numeral_natural (value : Fin naturalLimit) :
    (numeral (.natural value)).number? = some (.natural value) := by
  have hinteger : (numeral (.natural value)).integer? = some (.natural value) := by
    simp [numeral, Numeral.integer?, Numeral.ofDigitChars_naturalText, ofInt?]
  rw [Numeral.number?, hinteger]

theorem number?_numeral_negative (beyond : Fin negativeLimit) :
    (numeral (.negative beyond)).number? = some (.negative beyond) := by
  have hvalue : -((beyond : Int) + 1) = Int.negSucc beyond := (Int.negSucc_eq _).symm
  have hinteger : (numeral (.negative beyond)).integer? = some (.negative beyond) := by
    simp [numeral, Numeral.integer?, Numeral.ofDigitChars_naturalText, hvalue, ofInt?]
  rw [Numeral.number?, hinteger]

-- Zeros that fill up the whole digits count as well, but then there are seventeen digits at most.
theorem significand_positionalNumeral {digits : List Char} {leading : Int}
    (hdigits : Numeral.AllDigits digits) (hleading : leading ≤ 15) :
    (positionalNumeral digits leading).significand ≤
      max (Nat.ofDigitChars 10 digits 0) (10 ^ 17) := by
  cases leading with
  | ofNat leading =>
      simp only [positionalNumeral]
      split
      · next hshort =>
        refine le_max_of_le_right (le_trans (Numeral.ofDigitChars_lt ?_).le
          (Nat.pow_le_pow_right (by decide) ?_))
        · exact List.forall_mem_append.mpr
            ⟨List.forall_mem_append.mpr ⟨hdigits, allDigits_zeros _⟩, allDigits_zeros 1⟩
        · have hlast : leading ≤ 15 := Int.ofNat_le.mp hleading
          simp only [List.length_append, List.length_replicate, List.length_singleton]
          omega
      · rw [Numeral.significand, List.take_append_drop]
        exact le_max_left _ _
  | negSucc gap =>
      refine le_max_of_le_left (le_of_eq ?_)
      exact ofDigitChars_zeros_append digits (gap + 1)

theorem significand_scientificNumeral (digits : List Char) (leading : Int) :
    (scientificNumeral digits leading).significand = Nat.ofDigitChars 10 digits 0 := by
  rw [Numeral.significand, scientificNumeral, List.take_append_drop]

theorem ofDigitChars_withoutTrailingZeros_le (n : Nat) :
    Nat.ofDigitChars 10 (withoutTrailingZeros (naturalText n)) 0 ≤ n := by
  obtain ⟨zeros, hzeros⟩ := exists_trailing_zeros (naturalText n)
  have hvalue := Numeral.ofDigitChars_naturalText n
  rw [hzeros, Nat.ofDigitChars_append] at hvalue
  exact (Numeral.le_ofDigitChars _ _).trans_eq hvalue

theorem significand_decimalNumeral_lt {decimal : Decimal} (hpos : 0 < decimal.digits)
    (hdigits : decimal.digits ≤ 10 ^ 18) :
    (decimalNumeral decimal).significand < naturalLimit := by
  have hsignificant := significant_withoutTrailingZeros hpos
  have hle := (ofDigitChars_withoutTrailingZeros_le decimal.digits).trans hdigits
  refine lt_of_le_of_lt (b := 10 ^ 18) ?_ (by decide)
  unfold decimalNumeral
  dsimp only
  split
  · next hlayout =>
    refine (significand_positionalNumeral hsignificant.allDigits hlayout.2).trans ?_
    exact max_le hle (by decide)
  · rwa [significand_scientificNumeral]

theorem significand_rankNumeral_lt {rank : Nat} (hfinite : rank < Binary64.rankLimit) :
    (rankNumeral rank).significand < naturalLimit := by
  unfold rankNumeral
  split
  · decide
  · next hne =>
    have hpos := Nat.pos_of_ne_zero hne
    exact significand_decimalNumeral_lt (digits_shortest_pos hpos hfinite)
      (Binary64.digits_shortest_le hpos hfinite)

theorem rounds_rankNumeral {rank : Nat} (hfinite : rank < Binary64.rankLimit) :
    Binary64.Rounds rank ((rankNumeral rank).significand *
      Binary64.stepUnits (rankNumeral rank).scale) := by
  have hrounds := (spells_rankNumeral hfinite).rounds
  rwa [Numeral.magnitude, mul_assoc] at hrounds

-- The two largest doubles leave no margin for rounding errors, but their digits happen to fit.
theorem isSome_scaled?_largest : ∀ below < 2,
    (Binary64.scaled? (rankNumeral (Binary64.rankLimit - 1 - below)).significand
      (rankNumeral (Binary64.rankLimit - 1 - below)).scale).isSome := by
  decide +kernel

theorem isSome_scaled?_rankNumeral {rank : Nat} (hfinite : rank < Binary64.rankLimit) :
    (Binary64.scaled? (rankNumeral rank).significand (rankNumeral rank).scale).isSome := by
  have hrounds := rounds_rankNumeral hfinite
  rcases Nat.eq_zero_or_pos rank with rfl | hpos
  · rfl
  · rcases Nat.lt_or_ge (rank + 2) Binary64.rankLimit with hmargin | htop
    · refine Binary64.isSome_scaled?_of_rounds (Nat.pos_of_ne_zero fun hzero => ?_) hmargin hrounds
      have hvalue := hrounds.pos hpos
      rw [hzero, Nat.cast_zero, zero_mul] at hvalue
      exact lt_irrefl 0 hvalue
    · have hbelow : rank = Binary64.rankLimit - 1 - (Binary64.rankLimit - 1 - rank) := by omega
      rw [hbelow]
      exact isSome_scaled?_largest _ (by omega)

theorem float?_numeral (value : Binary64) :
    (numeral (.float value)).float? =
      (Binary64.scaled? (rankNumeral value.rank).significand (rankNumeral value.rank).scale).map
        fun x => if value.negative then x.negate else x :=
  Numeral.float?_of_lt (significand_rankNumeral_lt value.finite)

theorem number?_numeral_float (value : Binary64) :
    (numeral (.float value)).number? = (numeral (.float value)).float?.map .float := by
  rw [Numeral.number?, Numeral.integer?_of_not_isWhole (not_isWhole_float value)]

-- A double is read back as a finite one, and its sign is kept.
theorem exists_reread_float (value : Binary64) :
    ∃ x : Binary64, (numeral (.float value)).number? = some (.float x) ∧
      x.negative = value.negative := by
  obtain ⟨magnitude, hmagnitude⟩ :=
    Option.isSome_iff_exists.mp (isSome_scaled?_rankNumeral value.finite)
  have hpositive := Binary64.negative_scaled? hmagnitude
  rw [number?_numeral_float, float?_numeral, hmagnitude]
  refine ⟨_, rfl, ?_⟩
  cases value.negative with
  | true => exact congrArg (!·) hpositive
  | false => exact hpositive

theorem number?_numeral (value : Number) : value.numeral.number? = some value.reread := by
  cases value with
  | natural value => rw [reread, number?_numeral_natural, Option.getD_some]
  | negative beyond => rw [reread, number?_numeral_negative, Option.getD_some]
  | float value =>
      obtain ⟨x, hx, -⟩ := exists_reread_float value
      rw [reread, hx, Option.getD_some]

-- Whether the number is a whole one of 64 bits.
def IsInteger : Number → Prop
  | .float _ => False
  | _ => True

instance : DecidablePred IsInteger
  | .natural _ | .negative _ => .isTrue trivial
  | .float _ => .isFalse id

theorem reread_of_isInteger {value : Number} (h : value.IsInteger) : value.reread = value := by
  cases value with
  | natural value => rw [reread, number?_numeral_natural, Option.getD_some]
  | negative beyond => rw [reread, number?_numeral_negative, Option.getD_some]
  | float value => cases h

-- Two zeros of different sign would be equal, but reading keeps the sign.
theorem same_reread_iff (value : Number) : value.reread.same value ↔ value.reread = value := by
  cases value with
  | natural value =>
      have hinteger : IsInteger (.natural value) := trivial
      rw [reread_of_isInteger hinteger]
      simp [same]
  | negative beyond =>
      have hinteger : IsInteger (.negative beyond) := trivial
      rw [reread_of_isInteger hinteger]
      simp [same]
  | float value =>
      obtain ⟨x, hx, hsign⟩ := exists_reread_float value
      rw [reread, hx, Option.getD_some]
      obtain ⟨negative, rank, hfinite⟩ := x
      obtain ⟨negative', rank', hfinite'⟩ := value
      obtain rfl : negative = negative' := hsign
      change Binary64.same _ _ = true ↔ _
      simp [Binary64.same]

theorem reread_float_of_exact {value : Binary64} (h : (numeral (.float value)).Exact) :
    reread (.float value) = .float value := by
  obtain ⟨x, hx, hrounds⟩ :=
    Binary64.exists_scaled?_of_exact h.significand_lt h.scale_ge h.scale_le
  have hrank : x.rank = value.rank := hrounds.unique (rounds_rankNumeral value.finite)
  have hpositive := Binary64.negative_scaled? hx
  change Binary64.scaled? (rankNumeral value.rank).significand (rankNumeral value.rank).scale =
    some x at hx
  rw [reread, number?_numeral_float, float?_numeral, hx]
  obtain ⟨negative, rank, hfinite⟩ := value
  obtain ⟨negative', rank', hfinite'⟩ := x
  subst hrank hpositive
  cases negative with
  | true | false => rfl

end Number

end WriteMemo.Json
