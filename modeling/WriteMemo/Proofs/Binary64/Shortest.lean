import Mathlib.Algebra.Order.Field.Power
import Mathlib.Algebra.Order.Floor.Semifield
import Mathlib.Data.Rat.Floor
import Mathlib.Tactic.FieldSimp
import Mathlib.Tactic.NormNum
import WriteMemo.Proofs.Binary64.Rank

namespace WriteMemo

def Decimal.value (decimal : Decimal) : ℚ := decimal.digits * 10 ^ decimal.exponent

namespace Binary64

-- The number of units in one.
def unitCount : Nat := 1 <<< 1074

theorem shiftLeft_eq_mul (number places : Nat) :
    number <<< places = number * (1 <<< places) := by
  rw [Nat.shiftLeft_eq, Nat.shiftLeft_eq, Nat.one_mul]

theorem unitCount_pos : 0 < unitCount :=
  Nat.pos_of_ne_zero (mt (Nat.shiftLeft_eq_zero_iff).mp Nat.one_ne_zero)

theorem decimalUnits_pos (decimal : Decimal) : 0 < (decimalUnits decimal).2 := by
  unfold decimalUnits
  cases decimal.exponent with
  | ofNat n => exact Nat.one_pos
  | negSucc n => exact Nat.pow_pos (by decide)

theorem decimalUnits_div (decimal : Decimal) :
    ((decimalUnits decimal).1 / (decimalUnits decimal).2 : ℚ) = decimal.value * unitCount := by
  have hshift : decimal.digits <<< 1074 = decimal.digits * unitCount := shiftLeft_eq_mul _ _
  unfold decimalUnits Decimal.value
  rw [hshift]
  cases decimal.exponent with
  | ofNat n =>
      simp only [Int.ofNat_eq_natCast, zpow_natCast, Nat.pow_eq]
      push_cast
      ring
  | negSucc n =>
      simp only [zpow_negSucc, Nat.pow_eq]
      push_cast
      ring

theorem decimalReadsBackAs_iff (rank : Nat) (decimal : Decimal) :
    decimalReadsBackAs rank decimal ↔ Rounds rank (decimal.value * unitCount) := by
  rw [← decimalUnits_div]
  exact readsBackAs_iff (decimalUnits_pos decimal)

-- The distance of neighbours on the grid with a given exponent, in units.
def stepUnits (exponent : Int) : ℚ := 10 ^ exponent * unitCount

theorem stepUnits_pos (exponent : Int) : 0 < stepUnits exponent := by
  have hunits : (0 : ℚ) < unitCount := Nat.cast_pos.mpr unitCount_pos
  unfold stepUnits
  positivity

theorem stepUnits_sub (exponent : Int) (digits : Nat) :
    10 ^ digits * stepUnits (exponent - digits) = stepUnits exponent := by
  unfold stepUnits
  rw [zpow_sub₀ (by norm_num), zpow_natCast]
  field_simp

theorem value_mul_unitCount (digits : Nat) (exponent : Int) :
    Decimal.value ⟨digits, exponent⟩ * unitCount = digits * stepUnits exponent := by
  rw [Decimal.value, stepUnits, mul_assoc]

theorem decimalUnits_one (exponent : Int) :
    ((decimalUnits ⟨1, exponent⟩).1 / (decimalUnits ⟨1, exponent⟩).2 : ℚ) = stepUnits exponent := by
  rw [decimalUnits_div, value_mul_unitCount, Nat.cast_one, one_mul]

theorem powerBelow_iff (rank : Nat) (exponent : Int) :
    powerBelow rank exponent ↔ stepUnits exponent ≤ unitsOfRank rank := by
  have hpos : (0 : ℚ) < (decimalUnits ⟨1, exponent⟩).2 := Nat.cast_pos.mpr (decimalUnits_pos _)
  rw [← decimalUnits_one, div_le_iff₀ hpos]
  unfold powerBelow
  norm_cast
  exact decide_eq_true_iff

theorem inSteps_div (rank : Nat) (exponent : Int) :
    ((inSteps rank exponent).1 / (inSteps rank exponent).2 : ℚ) =
      unitsOfRank rank / stepUnits exponent := by
  rw [← decimalUnits_one, inSteps, div_div_eq_mul_div]
  push_cast
  rfl

-- The value lies between its two neighbours on the grid.
theorem truncated_bounds (rank : Nat) (exponent : Int) :
    (truncated rank exponent).digits * stepUnits exponent ≤ unitsOfRank rank ∧
      unitsOfRank rank < ((truncated rank exponent).digits + 1 : Nat) * stepUnits exponent := by
  have hdigits : (truncated rank exponent).digits =
      ⌊(unitsOfRank rank / stepUnits exponent : ℚ)⌋₊ := by
    rw [← inSteps_div, Nat.floor_div_natCast, Nat.floor_natCast]
    rfl
  have hnonneg : (0 : ℚ) ≤ unitsOfRank rank / stepUnits exponent :=
    div_nonneg (Nat.cast_nonneg _) (stepUnits_pos exponent).le
  rw [hdigits, ← le_div_iff₀ (stepUnits_pos exponent), ← div_lt_iff₀ (stepUnits_pos exponent)]
  push_cast
  exact ⟨Nat.floor_le hnonneg, Nat.lt_floor_add_one _⟩

theorem truncated_eq (rank : Nat) (exponent : Int) :
    truncated rank exponent =
      ⟨(inSteps rank exponent).1 / (inSteps rank exponent).2, exponent⟩ :=
  rfl

theorem roundHalfEven_cases (num den : Nat) :
    roundHalfEven num den = num / den ∨ roundHalfEven num den = num / den + 1 := by
  unfold roundHalfEven
  grind

-- What the grid offers is one of the two neighbours, and it reads back.
theorem decimalReadsBackAs_of_onGrid? {rank : Nat} {exponent : Int} {decimal : Decimal}
    (h : onGrid? rank exponent = some decimal) : decimalReadsBackAs rank decimal := by
  rw [onGrid?, truncated_eq] at h
  generalize inSteps rank exponent = steps at h
  cases hbelow : decimalReadsBackAs rank ⟨steps.1 / steps.2, exponent⟩ <;>
    cases habove : decimalReadsBackAs rank ⟨steps.1 / steps.2 + 1, exponent⟩ <;>
    simp only [hbelow, habove, Option.some.injEq, reduceCtorEq] at h
  · rw [← h, habove]
  · rw [← h, hbelow]
  · rcases roundHalfEven_cases steps.1 steps.2 with heq | heq
    · rw [← h, heq, hbelow]
    · rw [← h, heq, habove]

theorem onGrid?_ne_none {rank : Nat} {exponent : Int}
    (h : decimalReadsBackAs rank (truncated rank exponent) ∨
      decimalReadsBackAs rank ⟨(truncated rank exponent).digits + 1, exponent⟩) :
    onGrid? rank exponent ≠ none := by
  rw [onGrid?]
  cases hbelow : decimalReadsBackAs rank (truncated rank exponent) <;>
    cases habove : decimalReadsBackAs rank ⟨(truncated rank exponent).digits + 1, exponent⟩ <;>
    simp_all

-- Sixteen places behind the first digit, the grid is finer than the doubles around the value.
theorem stepUnits_lt_spacing {rank : Nat} {exponent : Int}
    (h : 10 ^ 16 * stepUnits exponent ≤ unitsOfRank (rank + 1)) :
    stepUnits exponent < spacing rank := by
  have hunits : (unitsOfRank (rank + 1) : ℚ) ≤ 2 * block * spacing rank := by
    exact_mod_cast unitsOfRank_succ_le rank
  have hblock : (2 * block : ℚ) < 10 ^ 16 := by
    norm_num [block, Nat.shiftLeft_eq]
  have hspacing : (0 : ℚ) < spacing rank := Nat.cast_pos.mpr (spacing_pos rank)
  have hlt : (2 * block * spacing rank : ℚ) < 10 ^ 16 * spacing rank :=
    mul_lt_mul_of_pos_right hblock hspacing
  linarith

-- One of the neighbours is less than half a step away.
theorem onGrid?_fine {rank : Nat} {exponent : Int}
    (h : 10 ^ 16 * stepUnits exponent ≤ unitsOfRank (rank + 1)) :
    onGrid? (rank + 1) exponent ≠ none := by
  have hstep := stepUnits_lt_spacing h
  have hbelow : (unitsOfRank (rank + 1) : ℚ) = unitsOfRank rank + spacing rank := by
    exact_mod_cast unitsOfRank_succ rank
  have habove : (unitsOfRank (rank + 1 + 1) : ℚ) = unitsOfRank (rank + 1) + spacing (rank + 1) := by
    exact_mod_cast unitsOfRank_succ (rank + 1)
  have hspacing : (spacing rank : ℚ) ≤ spacing (rank + 1) := by
    exact_mod_cast spacing_le_succ rank
  obtain ⟨hlow, hhigh⟩ := truncated_bounds (rank + 1) exponent
  refine onGrid?_ne_none ?_
  rw [decimalReadsBackAs_iff, decimalReadsBackAs_iff]
  have htruncated : (truncated (rank + 1) exponent).value * unitCount =
      (truncated (rank + 1) exponent).digits * stepUnits exponent :=
    value_mul_unitCount _ _
  rw [htruncated, value_mul_unitCount]
  push_cast at hhigh ⊢
  by_cases hnear : 2 * (unitsOfRank (rank + 1) -
      (truncated (rank + 1) exponent).digits * stepUnits exponent) < spacing rank
  · refine .inl (rounds_of_lt ?_ ?_)
    · rw [Nat.add_sub_cancel]
      linarith
    · linarith
  · refine .inr (rounds_of_lt ?_ ?_)
    · rw [Nat.add_sub_cancel]
      linarith
    · linarith

theorem rounds_shortestFrom {rank : Nat} {leading : Int} {more behind place : Nat}
    (hfirst : behind ≤ place) (hlast : place < behind + more)
    (h : onGrid? rank (leading - place) ≠ none) :
    Rounds rank ((shortestFrom rank leading more behind).value * unitCount) := by
  induction more generalizing behind with
  | zero => omega
  | succ more ih =>
      rw [shortestFrom]
      split
      · next hgrid =>
        exact (decimalReadsBackAs_iff _ _).mp (decimalReadsBackAs_of_onGrid? hgrid)
      · next hgrid =>
        have hne : behind ≠ place := by
          rintro rfl
          exact h hgrid
        exact ih (by omega) (by omega)

theorem log2_lt_of_lt_shiftLeft {number places : Nat} (hzero : number ≠ 0)
    (h : number < 1 <<< places) : number.log2 < places := by
  rwa [Nat.log2_lt hzero, ← Nat.one_shiftLeft]

theorem unitsOfRank_rankLimit : unitsOfRank rankLimit = 1 <<< 2098 := by
  decide +kernel

theorem unitsOfRank_ne_zero {rank : Nat} (hpos : 0 < rank) : unitsOfRank rank ≠ 0 :=
  Nat.ne_zero_of_lt (strictMono_unitsOfRank hpos)

theorem log2_unitsOfRank_mem {rank : Nat} (hpos : 0 < rank) (hfinite : rank < rankLimit) :
    (unitsOfRank rank).log2 ∈ List.range 2098 :=
  List.mem_range.mpr (log2_lt_of_lt_shiftLeft (unitsOfRank_ne_zero hpos)
    (unitsOfRank_rankLimit ▸ strictMono_unitsOfRank hfinite))

-- A power of ten with the exponent before the guessed one is at most the power of two that the
-- guess was made from.
theorem powerBelow_log2 : ∀ binary ∈ List.range 2098,
    (decimalUnits ⟨1, ((binary : Nat) - 1074 : Int) * 30103 / 100000 - 1⟩).1 ≤
      (1 <<< binary) *
        (decimalUnits ⟨1, ((binary : Nat) - 1074 : Int) * 30103 / 100000 - 1⟩).2 := by
  decide +kernel

theorem powerBelow_leadingExponent {rank : Nat} (hpos : 0 < rank) (hfinite : rank < rankLimit) :
    powerBelow rank (leadingExponent rank) := by
  rw [leadingExponent]
  split
  · assumption
  · split
    · assumption
    · rw [powerBelow, decide_eq_true_eq]
      refine (powerBelow_log2 _ (log2_unitsOfRank_mem hpos hfinite)).trans
        (Nat.mul_le_mul_right _ ?_)
      rw [Nat.one_shiftLeft]
      exact Nat.log2_self_le (unitsOfRank_ne_zero hpos)

-- The second power of ten after the guessed one exceeds the next power of two.
theorem powerAbove_log2 : ∀ binary ∈ List.range 2098,
    (1 <<< (binary + 1)) *
        (decimalUnits ⟨1, ((binary : Nat) - 1074 : Int) * 30103 / 100000 + 1 + 1⟩).2 ≤
      (decimalUnits ⟨1, ((binary : Nat) - 1074 : Int) * 30103 / 100000 + 1 + 1⟩).1 := by
  decide +kernel

theorem not_powerBelow_leadingExponent {rank : Nat} (hpos : 0 < rank) (hfinite : rank < rankLimit) :
    ¬powerBelow rank (leadingExponent rank + 1) := by
  rw [leadingExponent]
  split
  · rw [powerBelow, decide_eq_true_eq, Nat.not_le]
    refine lt_of_lt_of_le ?_ (powerAbove_log2 _ (log2_unitsOfRank_mem hpos hfinite))
    refine Nat.mul_lt_mul_of_pos_right ?_ (decimalUnits_pos _)
    rw [Nat.one_shiftLeft]
    exact Nat.lt_log2_self
  · split
    · assumption
    · rwa [Int.sub_add_cancel]

-- The search ends with a decimal that rounds to the rank.
theorem rounds_shortest {rank : Nat} (hpos : 0 < rank) (hfinite : rank < rankLimit) :
    Rounds rank ((shortest rank).value * unitCount) := by
  have hleading := (powerBelow_iff rank _).mp (powerBelow_leadingExponent hpos hfinite)
  rw [← stepUnits_sub _ 16] at hleading
  obtain ⟨below, rfl⟩ := Nat.exists_eq_succ_of_ne_zero hpos.ne'
  exact rounds_shortestFrom (Nat.zero_le 16) (by decide) (onGrid?_fine hleading)

-- On the grid that ends so many places behind the first digit, the neighbour below has no more
-- digits than that.
theorem digits_truncated_lt {rank : Nat} (hpos : 0 < rank) (hfinite : rank < rankLimit)
    (behind : Nat) :
    (truncated rank (leadingExponent rank - behind)).digits < 10 ^ (behind + 1) := by
  have hstep := stepUnits_pos (leadingExponent rank - behind)
  have habove := not_powerBelow_leadingExponent hpos hfinite
  rw [powerBelow_iff, not_le, ← stepUnits_sub _ (behind + 1)] at habove
  have hexponent :
      leadingExponent rank + 1 - (behind + 1 : Nat) = leadingExponent rank - behind := by omega
  rw [hexponent] at habove
  have hlt := (truncated_bounds rank (leadingExponent rank - behind)).1.trans_lt habove
  exact_mod_cast lt_of_mul_lt_mul_right hlt hstep.le

theorem digits_onGrid?_le {rank : Nat} {exponent : Int} {decimal : Decimal}
    (h : onGrid? rank exponent = some decimal) :
    decimal.digits ≤ (truncated rank exponent).digits + 1 := by
  rw [onGrid?, truncated_eq] at h
  rw [truncated_eq]
  generalize inSteps rank exponent = steps at h
  have hround := roundHalfEven_cases steps.1 steps.2
  dsimp only at h
  split at h <;> cases h
  all_goals simp only
  all_goals omega

theorem digits_shortestFrom_le {rank : Nat} (hpos : 0 < rank) (hfinite : rank < rankLimit)
    (more behind : Nat) :
    (shortestFrom rank (leadingExponent rank) more behind).digits ≤ 10 ^ (behind + more + 1) := by
  induction more generalizing behind with
  | zero => exact (digits_truncated_lt hpos hfinite behind).le
  | succ more ih =>
      rw [shortestFrom]
      split
      · next hgrid =>
        refine (digits_onGrid?_le hgrid).trans
          (Nat.succ_le_of_lt ((digits_truncated_lt hpos hfinite behind).trans_le ?_))
        exact Nat.pow_le_pow_right (by decide) (by omega)
      · have hplaces : behind + (more + 1) + 1 = behind + 1 + more + 1 := by omega
        rw [hplaces]
        exact ih (behind + 1)

theorem digits_shortest_le {rank : Nat} (hpos : 0 < rank) (hfinite : rank < rankLimit) :
    (shortest rank).digits ≤ 10 ^ 18 :=
  digits_shortestFrom_le hpos hfinite 17 0

end Binary64

end WriteMemo
