import Mathlib.Algebra.Order.Field.Rat
import Mathlib.Order.Monotone.Basic
import Mathlib.Tactic.Linarith
import Mathlib.Tactic.Positivity
import Mathlib.Tactic.Ring
import WriteMemo.Binary64.Shortest

namespace WriteMemo.Binary64

theorem block_pos : 0 < block := by decide

-- How far the value of a rank lies below the one of the next rank.
def spacing (rank : Nat) : Nat := 2 ^ (rank / block - 1)

theorem spacing_pos (rank : Nat) : 0 < spacing rank := Nat.two_pow_pos _

theorem spacing_le_succ (rank : Nat) : spacing rank ≤ spacing (rank + 1) := by
  have hblock : rank / block ≤ (rank + 1) / block := Nat.div_le_div_right (Nat.le_succ rank)
  exact Nat.pow_le_pow_right Nat.two_pos (Nat.sub_le_sub_right hblock 1)

-- In the first block the ranks are the values. From there on a value is a significand of one more
-- bit than a block counts, times the spacing.
theorem unitsOfRank_first {place : Nat} (h : place < block) :
    unitsOfRank place = place ∧ spacing place = 1 := by
  rw [unitsOfRank, spacing, if_pos h, Nat.div_eq_of_lt h]
  exact ⟨rfl, rfl⟩

theorem unitsOfRank_later {place : Nat} (h : place < block) (number : Nat) :
    unitsOfRank (block * (number + 1) + place) = (block + place) * 2 ^ number ∧
      spacing (block * (number + 1) + place) = 2 ^ number := by
  have hle : block ≤ block * (number + 1) := Nat.le_mul_of_pos_right _ (Nat.succ_pos number)
  have hdiv : (block * (number + 1) + place) / block = number + 1 := by
    rw [Nat.mul_add_div block_pos, Nat.div_eq_of_lt h, Nat.add_zero]
  have hmod : (block * (number + 1) + place) % block = place := by
    rw [Nat.mul_add_mod, Nat.mod_eq_of_lt h]
  rw [unitsOfRank, if_neg (by omega), spacing, hdiv, hmod, Nat.shiftLeft_eq, Nat.add_sub_cancel]
  exact ⟨rfl, rfl⟩

theorem exists_place (rank : Nat) : ∃ number place, place < block ∧ rank = block * number + place :=
  ⟨rank / block, rank % block, Nat.mod_lt _ block_pos, (Nat.div_add_mod rank block).symm⟩

-- The last rank of a block is followed by the first one of the next block, with twice the spacing.
theorem unitsOfRank_succ (rank : Nat) :
    unitsOfRank (rank + 1) = unitsOfRank rank + spacing rank := by
  obtain ⟨number, place, hplace, rfl⟩ := exists_place rank
  by_cases hlast : place + 1 < block
  · cases number with
    | zero =>
        simp only [Nat.mul_zero, Nat.zero_add]
        obtain ⟨hunits, hspacing⟩ := unitsOfRank_first hplace
        rw [(unitsOfRank_first hlast).1, hunits, hspacing]
    | succ number =>
        obtain ⟨hunits, hspacing⟩ := unitsOfRank_later hplace number
        rw [Nat.add_assoc, (unitsOfRank_later hlast number).1, hunits, hspacing]
        ring
  · have hnext : block * number + place + 1 = block * (number + 1) + 0 := by
      rw [Nat.mul_succ]
      omega
    have hplace' : block + place + 1 = 2 * block := by omega
    rw [hnext, (unitsOfRank_later block_pos number).1, Nat.add_zero]
    cases number with
    | zero =>
        simp only [Nat.mul_zero, Nat.zero_add]
        obtain ⟨hunits, hspacing⟩ := unitsOfRank_first hplace
        rw [hunits, hspacing]
        omega
    | succ number =>
        obtain ⟨hunits, hspacing⟩ := unitsOfRank_later hplace number
        rw [hunits, hspacing, ← Nat.succ_mul, Nat.succ_eq_add_one, hplace', Nat.pow_succ]
        ring

theorem strictMono_unitsOfRank : StrictMono unitsOfRank :=
  strictMono_nat_of_lt_succ fun rank => by
    have := spacing_pos rank
    rw [unitsOfRank_succ]
    omega

-- No value exceeds the spacing below it by more than a significand of 53 bits.
theorem unitsOfRank_succ_le (rank : Nat) :
    unitsOfRank (rank + 1) ≤ 2 * block * spacing rank := by
  obtain ⟨number, place, hplace, rfl⟩ := exists_place rank
  rw [unitsOfRank_succ]
  cases number with
  | zero =>
      simp only [Nat.mul_zero, Nat.zero_add]
      obtain ⟨hunits, hspacing⟩ := unitsOfRank_first hplace
      rw [hunits, hspacing]
      omega
  | succ number =>
      obtain ⟨hunits, hspacing⟩ := unitsOfRank_later hplace number
      rw [hunits, hspacing, ← Nat.succ_mul]
      exact Nat.mul_le_mul_right _ (by omega)

-- The rationals, counted in units, that are nearest to the value of a rank. They reach halfway to
-- both neighbours, and the two ends belong to them if the rank is even.
def Rounds (rank : Nat) (value : ℚ) : Prop :=
  if rank % 2 = 0 then
    (unitsOfRank (rank - 1) + unitsOfRank rank : ℚ) ≤ 2 * value ∧
      2 * value ≤ unitsOfRank rank + unitsOfRank (rank + 1)
  else
    (unitsOfRank (rank - 1) + unitsOfRank rank : ℚ) < 2 * value ∧
      2 * value < unitsOfRank rank + unitsOfRank (rank + 1)

theorem Rounds.le {rank : Nat} {value : ℚ} (h : Rounds rank value) :
    (unitsOfRank (rank - 1) + unitsOfRank rank : ℚ) ≤ 2 * value ∧
      2 * value ≤ unitsOfRank rank + unitsOfRank (rank + 1) := by
  unfold Rounds at h
  split at h
  · exact h
  · exact ⟨h.1.le, h.2.le⟩

theorem rounds_of_lt {rank : Nat} {value : ℚ}
    (hlow : (unitsOfRank (rank - 1) + unitsOfRank rank : ℚ) < 2 * value)
    (hhigh : 2 * value < unitsOfRank rank + unitsOfRank (rank + 1)) : Rounds rank value := by
  unfold Rounds
  split
  · exact ⟨hlow.le, hhigh.le⟩
  · exact ⟨hlow, hhigh⟩

-- The reach of a rank ends where that of the next one begins, and of the two one is odd and leaves
-- the end to the other.
theorem Rounds.not_lt {rank other : Nat} {value : ℚ} (h : Rounds rank value)
    (hother : Rounds other value) : ¬rank < other := by
  intro hlt
  rcases Nat.eq_or_lt_of_le (Nat.succ_le_of_lt hlt) with rfl | hfar
  · have hends := hother.le.1
    unfold Rounds at h hother
    split at h
    · next heven =>
      rw [if_neg (by omega)] at hother
      exact absurd h.2 (not_le.mpr hother.1)
    · exact absurd hends (not_le.mpr h.2)
  · have hfirst : unitsOfRank rank < unitsOfRank (other - 1) := strictMono_unitsOfRank (by omega)
    have hsecond : unitsOfRank (rank + 1) < unitsOfRank other := strictMono_unitsOfRank hfar
    have hends : (unitsOfRank rank + unitsOfRank (rank + 1) : ℚ) <
        unitsOfRank (other - 1) + unitsOfRank other := by
      exact_mod_cast Nat.add_lt_add hfirst hsecond
    linarith [h.le.2, hother.le.1]

theorem Rounds.unique {rank other : Nat} {value : ℚ} (h : Rounds rank value)
    (hother : Rounds other value) : rank = other :=
  Nat.le_antisymm (Nat.le_of_not_lt (hother.not_lt h)) (Nat.le_of_not_lt (h.not_lt hother))

theorem Rounds.pos {rank : Nat} (hpos : 0 < rank) {value : ℚ} (h : Rounds rank value) :
    0 < value := by
  have hunits : unitsOfRank 0 < unitsOfRank rank := strictMono_unitsOfRank hpos
  have hpositive : (0 : ℚ) < unitsOfRank rank := by exact_mod_cast Nat.zero_lt_of_lt hunits
  have hnonneg : (0 : ℚ) ≤ unitsOfRank (rank - 1) := Nat.cast_nonneg _
  linarith [h.le.1]

theorem rounds_zero : Rounds 0 0 := by
  have hnonneg : (0 : ℚ) ≤ unitsOfRank 1 := Nat.cast_nonneg _
  simpa [Rounds, unitsOfRank, block_pos] using hnonneg

theorem readsBackAs_iff {rank num den : Nat} (hden : 0 < den) :
    readsBackAs rank num den ↔ Rounds rank (num / den) := by
  have hpos : (0 : ℚ) < den := Nat.cast_pos.mpr hden
  have htwice : 2 * (num / den : ℚ) = ((2 * num : Nat) : ℚ) / den := by
    push_cast
    ring
  unfold readsBackAs Rounds
  rw [htwice, le_div_iff₀ hpos, div_le_iff₀ hpos, lt_div_iff₀ hpos, div_lt_iff₀ hpos]
  norm_cast
  cases hparity : rank % 2 == 0 <;> simp_all

end WriteMemo.Binary64
