import Mathlib.Data.Nat.Cast.Order.Field
import WriteMemo.Proofs.Binary64.Shortest

namespace WriteMemo.Binary64

theorem block_eq : block = 2 ^ 52 := rfl

-- The whole number nearest to a rational. A rational in the middle belongs to the even one.
def NearestWhole (whole : Nat) (value : ℚ) : Prop :=
  if whole % 2 = 0 then (2 * whole - 1 : ℚ) ≤ 2 * value ∧ 2 * value ≤ 2 * whole + 1
  else (2 * whole - 1 : ℚ) < 2 * value ∧ 2 * value < 2 * whole + 1

theorem nearestWhole_of_lt {whole : Nat} {value : ℚ} (hlow : (2 * whole - 1 : ℚ) < 2 * value)
    (hhigh : 2 * value < 2 * whole + 1) : NearestWhole whole value := by
  unfold NearestWhole
  split
  · exact ⟨hlow.le, hhigh.le⟩
  · exact ⟨hlow, hhigh⟩

theorem nearestWhole_of_even {whole : Nat} {value : ℚ} (heven : whole % 2 = 0)
    (hlow : (2 * whole - 1 : ℚ) ≤ 2 * value) (hhigh : 2 * value ≤ 2 * whole + 1) :
    NearestWhole whole value := by
  unfold NearestWhole
  rw [if_pos heven]
  exact ⟨hlow, hhigh⟩

theorem nearestWhole_roundHalfEven (num : Nat) {den : Nat} (hden : 0 < den) :
    NearestWhole (roundHalfEven num den) (num / den) := by
  have hpos : (0 : ℚ) < den := Nat.cast_pos.mpr hden
  -- The part behind the point, twice.
  obtain ⟨part, hpart⟩ : ∃ part : ℚ, part = 2 * (num % den : Nat) / den := ⟨_, rfl⟩
  have hvalue : 2 * (num / den : ℚ) = 2 * (num / den : Nat) + part := by
    have hnum : (num : ℚ) = den * (num / den : Nat) + (num % den : Nat) := by
      exact_mod_cast (Nat.div_add_mod num den).symm
    rw [hpart, hnum]
    field_simp
  have hnonneg : 0 ≤ part := hpart ▸ div_nonneg (by positivity) hpos.le
  have htwo : part < 2 := by
    have hrest : ((num % den : Nat) : ℚ) < den := Nat.cast_lt.mpr (Nat.mod_lt num hden)
    rw [hpart, div_lt_iff₀ hpos]
    linarith
  unfold roundHalfEven
  dsimp only
  split
  · next h =>
    have hless : part < 1 := by
      rw [hpart, div_lt_one hpos]
      exact_mod_cast h
    exact nearestWhole_of_lt (by linarith) (by linarith)
  · next h =>
    split
    · next h' =>
      have hmore : 1 < part := by
        rw [hpart, one_lt_div hpos]
        exact_mod_cast h'
      exact nearestWhole_of_lt (by push_cast; linarith) (by push_cast; linarith)
    · next h' =>
      have htie : part = 1 := by
        rw [hpart, div_eq_one_iff_eq hpos.ne']
        exact_mod_cast Nat.le_antisymm (Nat.not_lt.mp h') (Nat.not_lt.mp h)
      rcases Nat.mod_two_eq_zero_or_one (num / den) with heven | hodd
      · rw [heven, Nat.add_zero]
        exact nearestWhole_of_even heven (by linarith) (by linarith)
      · rw [hodd]
        exact nearestWhole_of_even (by omega) (by push_cast; linarith) (by push_cast; linarith)

-- A significand of 53 bits and the number of bits behind it make a rank. Below a block the
-- significand has fewer bits, and then none may stand behind it.
structure Placed (shift significand : Nat) : Prop where
  normal : 0 < shift → block ≤ significand
  fits : significand ≤ 2 * block

variable {shift significand : Nat}

-- The first significand that needs a bit more carries into the next block, where it is right too.
theorem Placed.unitsOfRank_eq (h : Placed shift significand) :
    unitsOfRank (shift * block + significand) = significand * 2 ^ shift := by
  obtain ⟨hnormal, hfits⟩ := h
  rcases Nat.lt_or_ge significand block with hlt | hge
  · obtain rfl : shift = 0 := by omega
    rw [Nat.zero_mul, Nat.zero_add, (unitsOfRank_first hlt).1, Nat.pow_zero, Nat.mul_one]
  · rcases Nat.eq_or_lt_of_le hfits with rfl | hlt
    · have hrank : shift * block + 2 * block = block * (shift + 1 + 1) + 0 := by ring
      rw [hrank, (unitsOfRank_later block_pos (shift + 1)).1, pow_succ]
      ring
    · have hrank : shift * block + significand = block * (shift + 1) + (significand - block) := by
        rw [Nat.mul_succ, Nat.mul_comm]
        omega
      rw [hrank, (unitsOfRank_later (by omega) shift).1, Nat.add_sub_cancel' hge]

theorem Placed.spacing_ge (h : Placed shift significand) :
    2 ^ shift ≤ spacing (shift * block + significand) := by
  refine Nat.pow_le_pow_right Nat.two_pos ?_
  rw [Nat.mul_comm, Nat.mul_add_div block_pos]
  rcases Nat.eq_zero_or_pos shift with rfl | hpos
  · exact Nat.zero_le _
  · have hblocks := Nat.div_pos (h.normal hpos) block_pos
    omega

-- A significand that is not the least one under its shift has its predecessor under the same shift.
theorem Placed.unitsOfRank_pred (h : Placed shift significand) (hpos : 0 < significand)
    (hleast : 0 < shift → block < significand) :
    unitsOfRank (shift * block + significand - 1) + 2 ^ shift = significand * 2 ^ shift := by
  have hpred : Placed shift (significand - 1) :=
    ⟨fun hshift => Nat.le_sub_one_of_lt (hleast hshift), (Nat.sub_le _ 1).trans h.fits⟩
  rw [Nat.add_sub_assoc hpos, hpred.unitsOfRank_eq, ← Nat.succ_mul, Nat.succ_eq_add_one,
    Nat.sub_add_cancel hpos]

theorem Placed.le_unitsOfRank_succ (h : Placed shift significand) :
    significand * 2 ^ shift + 2 ^ shift ≤ unitsOfRank (shift * block + significand + 1) := by
  rw [unitsOfRank_succ, h.unitsOfRank_eq]
  exact Nat.add_le_add_left h.spacing_ge _

theorem mod_two_placed (shift significand : Nat) :
    (shift * block + significand) % 2 = significand % 2 := by
  have heven : 2 ∣ shift * block := Dvd.dvd.mul_left (by decide) shift
  omega

-- A value that is not below its rank is nearer to the rank than to the one before.
theorem rounds_of_le {rank : Nat} {value : ℚ} (hvalue : (unitsOfRank rank : ℚ) ≤ value)
    (hhigh : 2 * value ≤ unitsOfRank rank + unitsOfRank (rank + 1))
    (hodd : rank % 2 ≠ 0 → 2 * value < unitsOfRank rank + unitsOfRank (rank + 1)) :
    Rounds rank value := by
  have hpred : (unitsOfRank (rank - 1) : ℚ) ≤ unitsOfRank rank :=
    Nat.cast_le.mpr (strictMono_unitsOfRank.monotone (Nat.sub_le rank 1))
  unfold Rounds
  split
  · exact ⟨by linarith, hhigh⟩
  · next hparity =>
    have hlt : (unitsOfRank (rank - 1) : ℚ) < unitsOfRank rank :=
      Nat.cast_lt.mpr (strictMono_unitsOfRank (by omega))
    exact ⟨by linarith, hodd hparity⟩

-- The value is nearest to a significand, and it is not below the least one under the shift.
theorem Placed.rounds (h : Placed shift significand) {value : ℚ}
    (hleast : (significand : ℚ) ≤ value / 2 ^ shift ∨
      0 < significand ∧ (0 < shift → block < significand))
    (hnear : NearestWhole significand (value / 2 ^ shift)) :
    Rounds (shift * block + significand) value := by
  have hscale : (0 : ℚ) < 2 ^ shift := by positivity
  obtain ⟨quotient, rfl⟩ : ∃ quotient, value = quotient * 2 ^ shift :=
    ⟨value / 2 ^ shift, (div_mul_cancel₀ value hscale.ne').symm⟩
  rw [mul_div_cancel_right₀ _ hscale.ne'] at hleast hnear
  have hunits : (unitsOfRank (shift * block + significand) : ℚ) = significand * 2 ^ shift := by
    exact_mod_cast h.unitsOfRank_eq
  have hsucc : (significand * 2 ^ shift + 2 ^ shift : ℚ) ≤
      unitsOfRank (shift * block + significand + 1) := by
    exact_mod_cast h.le_unitsOfRank_succ
  unfold NearestWhole at hnear
  rcases hleast with habove | ⟨hpos, hmore⟩
  · refine rounds_of_le ?_ ?_ fun hodd => ?_
    · rw [hunits]
      exact mul_le_mul_of_nonneg_right habove hscale.le
    · have hhigh : 2 * quotient ≤ 2 * significand + 1 := by
        split at hnear
        · exact hnear.2
        · exact hnear.2.le
      nlinarith only [hunits, hsucc, hhigh, hscale]
    · rw [mod_two_placed] at hodd
      rw [if_neg hodd] at hnear
      nlinarith only [hunits, hsucc, hnear.2, hscale]
  · have hpred : (unitsOfRank (shift * block + significand - 1) + 2 ^ shift : ℚ) =
        significand * 2 ^ shift := by
      exact_mod_cast h.unitsOfRank_pred hpos hmore
    unfold Rounds
    rw [mod_two_placed]
    split at hnear
    · next heven =>
      rw [if_pos heven]
      constructor
      · nlinarith only [hunits, hpred, hnear.1, hscale]
      · nlinarith only [hunits, hsucc, hnear.2, hscale]
    · next hodd =>
      rw [if_neg hodd]
      constructor
      · nlinarith only [hunits, hpred, hnear.1, hscale]
      · nlinarith only [hunits, hsucc, hnear.2, hscale]

theorem rounds_rankOfRatio (num : Nat) {den : Nat} (hden : 0 < den) :
    Rounds (rankOfRatio num den) (num / den * unitCount) := by
  have hpos : (0 : ℚ) < den := Nat.cast_pos.mpr hden
  obtain ⟨quotient, hquotient⟩ : ∃ quotient, quotient = num <<< 1074 / den := ⟨_, rfl⟩
  obtain ⟨shift, hshift⟩ : ∃ shift, shift = quotient.log2 - 52 := ⟨_, rfl⟩
  have hrank : rankOfRatio num den =
      shift * block + roundHalfEven (num <<< 1074) (den <<< shift) := by
    rw [hshift, hquotient]
    rfl
  -- The significand before it is rounded.
  have hfloor : num <<< 1074 / (den <<< shift) = quotient / 2 ^ shift := by
    rw [hquotient, Nat.div_div_eq_div_mul, Nat.shiftLeft_eq den]
  have hvalue : (num / den * unitCount / 2 ^ shift : ℚ) =
      (num <<< 1074 : Nat) / (den <<< shift : Nat) := by
    rw [shiftLeft_eq_mul num, Nat.shiftLeft_eq den, unitCount]
    push_cast
    field_simp
  have hnormal : 0 < shift → block ≤ quotient / 2 ^ shift := by
    intro hlong
    have hne : quotient ≠ 0 := by
      rintro rfl
      simp at hshift
      omega
    rw [Nat.le_div_iff_mul_le (by positivity), block_eq, ← pow_add]
    refine le_trans (Nat.pow_le_pow_right Nat.two_pos ?_) (Nat.log2_self_le hne)
    omega
  have hfits : quotient / 2 ^ shift < 2 * block := by
    rw [Nat.div_lt_iff_lt_mul (by positivity), block_eq, ← pow_succ', ← pow_add]
    refine lt_of_lt_of_le Nat.lt_log2_self (Nat.pow_le_pow_right Nat.two_pos ?_)
    omega
  rw [hrank]
  have hnear := nearestWhole_roundHalfEven (num <<< 1074)
    (show 0 < den <<< shift by rw [Nat.shiftLeft_eq]; positivity)
  have hle : ((quotient / 2 ^ shift : Nat) : ℚ) ≤ num / den * unitCount / 2 ^ shift := by
    rw [hvalue, ← hfloor]
    exact Nat.cast_div_le
  rw [← hvalue] at hnear
  rcases roundHalfEven_cases (num <<< 1074) (den <<< shift) with heq | heq
  · rw [heq, hfloor] at hnear ⊢
    exact Placed.rounds ⟨hnormal, hfits.le⟩ (.inl hle) hnear
  · rw [heq, hfloor] at hnear ⊢
    exact Placed.rounds ⟨fun hlong => Nat.le_succ_of_le (hnormal hlong), hfits⟩
      (.inr ⟨Nat.succ_pos _, fun hlong => Nat.lt_succ_of_le (hnormal hlong)⟩) hnear

theorem rounds_unitsOfRank (rank : Nat) : Rounds rank (unitsOfRank rank) := by
  have hlt : (unitsOfRank rank : ℚ) < unitsOfRank (rank + 1) :=
    Nat.cast_lt.mpr (strictMono_unitsOfRank (Nat.lt_succ_self rank))
  exact rounds_of_le le_rfl (by linarith) fun _ => by linarith

theorem block_mul_spacing_le {rank : Nat} (h : block ≤ rank) :
    block * spacing rank ≤ unitsOfRank rank := by
  obtain ⟨number, place, hplace, rfl⟩ := exists_place rank
  cases number with
  | zero => omega
  | succ number =>
      obtain ⟨hunits, hspacing⟩ := unitsOfRank_later hplace number
      rw [hunits, hspacing]
      exact Nat.mul_le_mul_right _ (Nat.le_add_right block place)

-- Rounding up makes a normal value larger by one part in 2^53 at most.
theorem Rounds.units_le {rank : Nat} {value : ℚ} (h : Rounds rank value) (hnormal : block < rank) :
    (2 * block * unitsOfRank rank : ℚ) ≤ (2 * block + 1) * value := by
  obtain ⟨below, rfl⟩ := Nat.exists_eq_succ_of_ne_zero (Nat.ne_zero_of_lt hnormal)
  have hsucc : (unitsOfRank (below + 1) : ℚ) = unitsOfRank below + spacing below := by
    exact_mod_cast unitsOfRank_succ below
  have hspacing : (block * spacing below : ℚ) ≤ unitsOfRank below := by
    exact_mod_cast block_mul_spacing_le (Nat.le_of_lt_succ hnormal)
  have hlow := h.le.1
  rw [Nat.succ_eq_add_one, Nat.add_sub_cancel] at hlow
  have hscaled := mul_le_mul_of_nonneg_left hlow (show (0 : ℚ) ≤ 2 * block + 1 by positivity)
  have hpositive : (0 : ℚ) < spacing below := Nat.cast_pos.mpr (spacing_pos below)
  rw [hsucc] at hscaled
  rw [Nat.succ_eq_add_one, hsucc]
  linarith

-- A rational below this one, counted in units, rounds to a finite double.
def overflowUnits : ℚ := (unitsOfRank (rankLimit - 1) + unitsOfRank rankLimit) / 2

theorem Rounds.lt_rankLimit {rank : Nat} {value : ℚ} (h : Rounds rank value)
    (hvalue : value < overflowUnits) : rank < rankLimit := by
  refine Nat.lt_of_not_le fun hle => ?_
  have hpred : (unitsOfRank (rankLimit - 1) : ℚ) ≤ unitsOfRank (rank - 1) :=
    Nat.cast_le.mpr (strictMono_unitsOfRank.monotone (Nat.sub_le_sub_right hle 1))
  have hunits : (unitsOfRank rankLimit : ℚ) ≤ unitsOfRank rank :=
    Nat.cast_le.mpr (strictMono_unitsOfRank.monotone hle)
  unfold overflowUnits at hvalue
  linarith [h.le.1]

end WriteMemo.Binary64
