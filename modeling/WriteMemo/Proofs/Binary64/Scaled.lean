import WriteMemo.Binary64.Scaled
import WriteMemo.Proofs.Binary64.Nearest

namespace WriteMemo.Binary64

theorem exists_ofRatio? {num den : Nat} (hden : 0 < den)
    (h : (num / den * unitCount : ℚ) < overflowUnits) :
    ∃ x, ofRatio? num den = some x ∧ Rounds x.rank (num / den * unitCount) := by
  have hrounds := rounds_rankOfRatio num hden
  exact ⟨⟨false, rankOfRatio num den, hrounds.lt_rankLimit h⟩, dif_pos _, hrounds⟩

theorem rounds_ofRatio {num den : Nat} (hden : 0 < den)
    (h : (num / den * unitCount : ℚ) < overflowUnits) :
    Rounds (ofRatio num den).rank (num / den * unitCount) := by
  obtain ⟨x, hx, hrounds⟩ := exists_ofRatio? hden h
  rwa [ofRatio, hx]

theorem rounds_ofNat {n : Nat} (h : (n * unitCount : ℚ) < overflowUnits) :
    Rounds (ofNat n).rank (n * unitCount) := by
  have hone : (n / (1 : Nat) * unitCount : ℚ) = n * unitCount := by rw [Nat.cast_one, div_one]
  rw [← hone] at h ⊢
  exact rounds_ofRatio Nat.one_pos h

theorem exists_scaleUp? {x factor : Binary64}
    (h : (x.units * factor.units / unitCount : ℚ) < overflowUnits) :
    ∃ y, x.scaleUp? factor = some y ∧ Rounds y.rank (x.units * factor.units / unitCount) := by
  have hunits : (unitCount : ℚ) ≠ 0 := Nat.cast_ne_zero.mpr unitCount_pos.ne'
  have hden : 1 <<< 2148 = unitCount * unitCount := by decide +kernel
  have hvalue : ((x.units * factor.units : Nat) / (1 <<< 2148 : Nat) * unitCount : ℚ) =
      x.units * factor.units / unitCount := by
    rw [hden]
    push_cast
    field_simp
  rw [← hvalue] at h ⊢
  exact exists_ofRatio? (hden ▸ Nat.mul_pos unitCount_pos unitCount_pos) h

-- Signs are set later.
theorem negative_ofRatio? {num den : Nat} {x : Binary64} (h : ofRatio? num den = some x) :
    x.negative = false := by
  unfold ofRatio? ofRank? at h
  split at h
  · cases h
    rfl
  · cases h

theorem negative_ofRatio (num den : Nat) : (ofRatio num den).negative = false := by
  rw [ofRatio]
  cases h : ofRatio? num den with
  | none => rfl
  | some x => exact negative_ofRatio? h

theorem negative_dividedByTens {x : Binary64} (h : x.negative = false) (exponent : Nat) :
    (x.dividedByTens exponent).negative = false := by
  fun_induction dividedByTens x exponent with
  | case1 => exact negative_ofRatio _ _
  | case2 => exact h
  | case3 x exponent hlarge hzero ih => exact ih (negative_ofRatio _ _)

theorem negative_scaled? {significand : Nat} {exponent : Int} {x : Binary64}
    (h : scaled? significand exponent = some x) : x.negative = false := by
  cases exponent with
  | ofNat power =>
      rw [scaled?, multipliedByTens?] at h
      split at h
      · exact negative_ofRatio? h
      · split at h
        · cases h
          exact negative_ofRatio _ _
        · cases h
  | negSucc power =>
      cases h
      exact negative_dividedByTens (negative_ofRatio _ _) _

-- Whole numbers of 53 bits are doubles.
theorem exists_rank_of_whole {n : Nat} (h : n < 2 * block) :
    ∃ rank, unitsOfRank rank = n * unitCount := by
  rcases Nat.eq_zero_or_pos n with rfl | hpos
  · exact ⟨0, by decide +kernel⟩
  · rw [block_eq, ← pow_succ'] at h
    have hlog : n.log2 < 53 := (Nat.log2_lt hpos.ne').mpr h
    -- The significand is moved up until its first bit counts a block.
    have hnormal : block ≤ n * 2 ^ (52 - n.log2) := by
      have hsplit : 2 ^ 52 = 2 ^ n.log2 * 2 ^ (52 - n.log2) := by
        rw [← pow_add, Nat.add_sub_cancel' (Nat.le_of_lt_succ hlog)]
      rw [block_eq, hsplit]
      exact Nat.mul_le_mul_right _ (Nat.log2_self_le hpos.ne')
    have hfits : n * 2 ^ (52 - n.log2) ≤ 2 * block := by
      have hsplit : 2 * 2 ^ 52 = 2 ^ (n.log2 + 1) * 2 ^ (52 - n.log2) := by
        rw [← pow_add, ← pow_succ']
        congr 1
        omega
      rw [block_eq, hsplit]
      exact Nat.mul_le_mul_right _ Nat.lt_log2_self.le
    have hplaced : Placed (1022 + n.log2) (n * 2 ^ (52 - n.log2)) := ⟨fun _ => hnormal, hfits⟩
    have hplaces : 1074 = 52 - n.log2 + (1022 + n.log2) := by omega
    refine ⟨_, hplaced.unitsOfRank_eq.trans ?_⟩
    rw [unitCount, hplaces, Nat.one_shiftLeft, Nat.mul_assoc, ← pow_add]

theorem lt_overflowUnits {n : Nat} (h : n ≤ unitsOfRank (rankLimit - 1)) :
    (n : ℚ) < overflowUnits := by
  have hle : (n : ℚ) ≤ unitsOfRank (rankLimit - 1) := Nat.cast_le.mpr h
  have hlt : (unitsOfRank (rankLimit - 1) : ℚ) < unitsOfRank rankLimit :=
    Nat.cast_lt.mpr (strictMono_unitsOfRank (by decide))
  unfold overflowUnits
  linarith

-- A whole number of 53 bits and the largest power of ten that is a double leave room.
theorem exact_product_le :
    2 * block * (10 ^ 22 * unitCount) ≤ unitsOfRank (rankLimit - 1) := by
  decide +kernel

theorem units_ofNat {n : Nat} (h : n < 2 * block) : (ofNat n).units = n * unitCount := by
  obtain ⟨rank, hrank⟩ := exists_rank_of_whole h
  have hle : n * unitCount ≤ unitsOfRank (rankLimit - 1) :=
    le_trans (Nat.mul_le_mul h.le (Nat.le_mul_of_pos_left _ (by decide))) exact_product_le
  have hrounds := rounds_ofNat (by exact_mod_cast lt_overflowUnits hle)
  have hexact := rounds_unitsOfRank rank
  rw [hrank, Nat.cast_mul] at hexact
  rw [units, hrounds.unique hexact, hrank]

theorem units_powerOfTen :
    ∀ exponent ≤ 22, (powerOfTen exponent).units = 10 ^ exponent * unitCount := by
  decide +kernel

theorem stepUnits_mono {exponent other : Int} (h : exponent ≤ other) :
    stepUnits exponent ≤ stepUnits other := by
  unfold stepUnits
  gcongr
  norm_num

theorem stepUnits_natCast (power : Nat) : stepUnits power = (10 ^ power * unitCount : Nat) := by
  rw [stepUnits, zpow_natCast]
  push_cast
  rfl

-- Only the last step rounds.
theorem exists_scaled?_of_exact {significand : Nat} {exponent : Int}
    (hsignificand : significand < 2 * block) (hlow : -22 ≤ exponent) (hhigh : exponent ≤ 22) :
    ∃ x, scaled? significand exponent = some x ∧
      Rounds x.rank (significand * stepUnits exponent) := by
  have hunits : (unitCount : ℚ) ≠ 0 := Nat.cast_ne_zero.mpr unitCount_pos.ne'
  have hfinite : significand * stepUnits exponent < overflowUnits := by
    have hle : significand * stepUnits exponent ≤
        (2 * block * (10 ^ 22 * unitCount) : Nat) := by
      rw [Nat.cast_mul, ← stepUnits_natCast]
      exact mul_le_mul (Nat.cast_le.mpr hsignificand.le) (stepUnits_mono hhigh)
        (stepUnits_pos exponent).le (Nat.cast_nonneg _)
    exact hle.trans_lt (lt_overflowUnits exact_product_le)
  cases exponent with
  | ofNat power =>
      have hpower : power ≤ 22 := Int.ofNat_le.mp hhigh
      have hvalue : (significand * stepUnits (Int.ofNat power) : ℚ) =
          (ofNat significand).units * (powerOfTen power).units / unitCount := by
        rw [units_ofNat hsignificand, units_powerOfTen power hpower, Int.ofNat_eq_natCast,
          stepUnits_natCast]
        push_cast
        field_simp
      rw [scaled?, multipliedByTens?, if_pos (hpower.trans (by decide))]
      rw [hvalue] at hfinite ⊢
      exact exists_scaleUp? hfinite
  | negSucc power =>
      have hpower : power + 1 ≤ 22 := by omega
      have hdivisor : 0 < (powerOfTen (power + 1)).units := by
        rw [units_powerOfTen _ hpower]
        exact Nat.mul_pos (by positivity) unitCount_pos
      have hvalue : (significand * stepUnits (Int.negSucc power) : ℚ) =
          (ofNat significand).units / (powerOfTen (power + 1)).units * unitCount := by
        rw [units_ofNat hsignificand, units_powerOfTen _ hpower, stepUnits, zpow_negSucc]
        push_cast
        field_simp
      refine ⟨_, rfl, ?_⟩
      rw [dividedByTens, if_pos (hpower.trans (by decide))]
      rw [hvalue] at hfinite ⊢
      exact rounds_ofRatio hdivisor hfinite

theorem block_lt_of_rounds {rank : Nat} {value : ℚ} (h : Rounds rank value)
    (hvalue : (unitCount : ℚ) ≤ value) : block < rank := by
  refine Nat.lt_of_not_le fun hle => ?_
  have hsmall : unitsOfRank block + unitsOfRank (block + 1) < 2 * unitCount := by decide +kernel
  have hunits : unitsOfRank rank ≤ unitsOfRank block := strictMono_unitsOfRank.monotone hle
  have hnext : unitsOfRank (rank + 1) ≤ unitsOfRank (block + 1) :=
    strictMono_unitsOfRank.monotone (Nat.succ_le_succ hle)
  have hlt : (unitsOfRank rank + unitsOfRank (rank + 1) : ℚ) < 2 * unitCount := by
    exact_mod_cast (by omega : unitsOfRank rank + unitsOfRank (rank + 1) < 2 * unitCount)
  linarith [h.le.2]

-- A factor that is not below one becomes larger by one part in 2^53 at most when it is rounded.
theorem units_ofNat_le {n : Nat} (hpos : 0 < n) (h : (n * unitCount : ℚ) < overflowUnits) :
    (2 * block * (ofNat n).units : ℚ) ≤ (2 * block + 1) * (n * unitCount) := by
  have hrounds := rounds_ofNat h
  refine hrounds.units_le (block_lt_of_rounds hrounds ?_)
  exact_mod_cast Nat.le_mul_of_pos_left unitCount hpos

-- The values that round to the third rank from the top, made larger twice, stay in range.
theorem overflow_margin :
    (2 * block + 1) ^ 2 * (unitsOfRank (rankLimit - 3) + unitsOfRank (rankLimit - 2)) <
      (2 * block) ^ 2 * (unitsOfRank (rankLimit - 1) + unitsOfRank rankLimit) := by
  decide +kernel

theorem Rounds.lt_overflowUnits {rank : Nat} {value : ℚ} (h : Rounds rank value)
    (hrank : rank < rankLimit - 1) : value < overflowUnits := by
  have hunits : (unitsOfRank rank : ℚ) < unitsOfRank (rankLimit - 1) :=
    Nat.cast_lt.mpr (strictMono_unitsOfRank hrank)
  have hnext : (unitsOfRank (rank + 1) : ℚ) ≤ unitsOfRank rankLimit :=
    Nat.cast_le.mpr (strictMono_unitsOfRank.monotone (by omega))
  unfold overflowUnits
  linarith [h.le.2]

theorem overflowUnits_lt_stepUnits : overflowUnits < stepUnits (topPower + 1 : Nat) := by
  have hunits : unitsOfRank (rankLimit - 1) + unitsOfRank rankLimit <
      2 * (10 ^ (topPower + 1) * unitCount) := by decide +kernel
  rw [stepUnits_natCast, overflowUnits, div_lt_iff₀ two_pos, mul_comm]
  exact_mod_cast hunits

-- Two factors that are each larger than exact by one part in a base at most.
theorem quotient_lt_of_relative {base unit x y a b margin limit : ℚ} (hbase : 0 < base)
    (hunit : 0 < unit) (hy : 0 ≤ y) (ha : 0 ≤ a) (hfirst : base * x ≤ (base + 1) * a)
    (hsecond : base * y ≤ (base + 1) * b) (hmargin : 2 * (a * b / unit) ≤ margin)
    (hroom : (base + 1) ^ 2 * margin < base ^ 2 * (2 * limit)) : x * y / unit < limit := by
  have hproduct := mul_le_mul hfirst hsecond (mul_nonneg hbase.le hy)
    (mul_nonneg (add_nonneg hbase.le zero_le_one) ha)
  have hscaled := mul_le_mul_of_nonneg_left hmargin (sq_nonneg (base + 1))
  have hquotient : base ^ 2 * (x * y / unit) ≤ (base + 1) ^ 2 * (a * b / unit) := by
    rw [← mul_div_assoc, ← mul_div_assoc]
    exact div_le_div_of_nonneg_right (by linarith) hunit.le
  refine lt_of_mul_lt_mul_left ?_ (sq_nonneg base)
  linarith

theorem Rounds.le_margin {rank : Nat} {value : ℚ} (h : Rounds rank value)
    (hrank : rank + 2 < rankLimit) :
    2 * value ≤ (unitsOfRank (rankLimit - 3) + unitsOfRank (rankLimit - 2) : Nat) := by
  have hunits : unitsOfRank rank ≤ unitsOfRank (rankLimit - 3) :=
    strictMono_unitsOfRank.monotone (by omega)
  have hnext : unitsOfRank (rank + 1) ≤ unitsOfRank (rankLimit - 2) :=
    strictMono_unitsOfRank.monotone (by omega)
  refine h.le.2.trans ?_
  exact_mod_cast Nat.add_le_add hunits hnext

-- The rounding errors of the two factors do not carry the product over the limit.
theorem product_lt_overflowUnits {rank significand power : Nat} (hpos : 0 < significand)
    (hrank : rank + 2 < rankLimit) (h : Rounds rank (significand * stepUnits power)) :
    ((ofNat significand).units * (powerOfTen power).units / unitCount : ℚ) < overflowUnits := by
  have hunits : (0 : ℚ) < unitCount := Nat.cast_pos.mpr unitCount_pos
  have hblock : (0 : ℚ) < 2 * block := mul_pos two_pos (Nat.cast_pos.mpr block_pos)
  have hpower : 0 < Nat.pow 10 power := Nat.pow_pos (by decide)
  have hlimit := h.lt_overflowUnits (by omega)
  have hmargin := h.le_margin hrank
  have hsteps : stepUnits power = (Nat.pow 10 power * unitCount : Nat) := stepUnits_natCast power
  have hfactor : (2 * block * (ofNat significand).units : ℚ) ≤
      (2 * block + 1) * (significand * unitCount) := by
    refine units_ofNat_le hpos (lt_of_le_of_lt ?_ hlimit)
    rw [hsteps]
    exact_mod_cast Nat.mul_le_mul_left _ (Nat.le_mul_of_pos_left _ hpower)
  have hfactor' : (2 * block * (powerOfTen power).units : ℚ) ≤
      (2 * block + 1) * (Nat.pow 10 power * unitCount) := by
    refine units_ofNat_le hpower (lt_of_le_of_lt ?_ hlimit)
    rw [hsteps]
    exact_mod_cast Nat.le_mul_of_pos_left _ hpos
  have hvalue : (significand * stepUnits power : ℚ) =
      significand * unitCount * (Nat.pow 10 power * unitCount) / unitCount := by
    rw [hsteps]
    push_cast
    field_simp
  have hroom : ((2 * block + 1) ^ 2 *
      (unitsOfRank (rankLimit - 3) + unitsOfRank (rankLimit - 2) : Nat) : ℚ) <
      (2 * block) ^ 2 * (2 * overflowUnits) := by
    rw [overflowUnits, mul_div_cancel₀ _ two_ne_zero]
    exact_mod_cast overflow_margin
  rw [hvalue] at hmargin
  exact quotient_lt_of_relative hblock hunits (Nat.cast_nonneg _)
    (mul_nonneg (Nat.cast_nonneg _) hunits.le) hfactor hfactor' hmargin hroom

-- A decimal nearest to a double is read as a finite one.
theorem isSome_scaled?_of_rounds {rank significand : Nat} {exponent : Int}
    (hpos : 0 < significand) (hrank : rank + 2 < rankLimit)
    (h : Rounds rank (significand * stepUnits exponent)) :
    (scaled? significand exponent).isSome := by
  cases exponent with
  | ofNat power =>
      have htop : power ≤ topPower := by
        refine Nat.le_of_lt_succ (Nat.lt_of_not_le fun hle => ?_)
        have hlimit := h.lt_overflowUnits (by omega)
        have hsteps := stepUnits_mono (Int.ofNat_le.mpr hle)
        have hone : (1 : ℚ) ≤ significand := Nat.one_le_cast.mpr hpos
        have hvalue := le_mul_of_one_le_left (stepUnits_pos (Int.ofNat power)).le hone
        exact absurd (hlimit.trans overflowUnits_lt_stepUnits) (not_lt.mpr (hsteps.trans hvalue))
      obtain ⟨x, hx, -⟩ := exists_scaleUp? (product_lt_overflowUnits hpos hrank h)
      rw [scaled?, multipliedByTens?, if_pos htop, hx]
      rfl
  | negSucc power => rfl

end WriteMemo.Binary64
