import Mathlib.Data.List.TakeWhile
import WriteMemo.Text.Basic

namespace WriteMemo.Text

def AllBlank (text : List Char) : Prop := ∀ c ∈ text, isBlank c = true

-- Written out, since quantifying over all characters would be decidable too.
instance : DecidablePred AllBlank := fun text =>
  decidable_of_iff (text.all isBlank = true) List.all_eq_true

structure Trimmed (text core : List Char) : Prop where
  around : ∃ left right, AllBlank left ∧ AllBlank right ∧ text = left ++ core ++ right
  first : ∀ c ∈ core.head?, isBlank c = false
  last : ∀ c ∈ core.getLast?, isBlank c = false

theorem dropWhile_blanks_append {left rest : List Char} (hleft : AllBlank left)
    (hrest : ∀ c ∈ rest.head?, isBlank c = false) :
    (left ++ rest).dropWhile isBlank = rest := by
  rw [List.dropWhile_append_of_pos hleft]
  cases rest with
  | nil => rfl
  | cons c rest => exact List.dropWhile_cons_of_neg (Bool.eq_false_iff.mp (hrest c rfl))

theorem trim_of_trimmed {text core : List Char} (h : Trimmed text core) : trim text = core := by
  obtain ⟨⟨left, right, hleft, hright, rfl⟩, hfirst, hlast⟩ := h
  cases core with
  | nil =>
      have hall : AllBlank (left ++ [] ++ right) := by
        rw [List.append_nil]
        exact List.forall_mem_append.mpr ⟨hleft, hright⟩
      rw [trim, List.dropWhile_eq_nil_iff.mpr hall]
      rfl
  | cons head core =>
      have hreverse : AllBlank right.reverse := fun c hc => hright c (List.mem_reverse.mp hc)
      have hfirst' : ∀ c ∈ (head :: core ++ right).head?, isBlank c = false := hfirst
      have hlast' : ∀ c ∈ (head :: core).reverse.head?, isBlank c = false := by
        rwa [List.head?_reverse]
      rw [trim, List.append_assoc, dropWhile_blanks_append hleft hfirst',
        List.reverse_append, dropWhile_blanks_append hreverse hlast', List.reverse_reverse]

theorem head?_dropWhile_isBlank (text : List Char) :
    ∀ c ∈ (text.dropWhile isBlank).head?, isBlank c = false := by
  intro c hc
  have hnot := List.head?_dropWhile_not isBlank text
  rwa [Option.mem_def.mp hc] at hnot

theorem allBlank_takeWhile (text : List Char) : AllBlank (text.takeWhile isBlank) :=
  fun _ hc => List.mem_takeWhile_imp hc

theorem trimmed_trim (text : List Char) : Trimmed text (trim text) := by
  have hleft : text.takeWhile isBlank ++ text.dropWhile isBlank = text :=
    List.takeWhile_append_dropWhile
  have hright : trim text ++ ((text.dropWhile isBlank).reverse.takeWhile isBlank).reverse =
      text.dropWhile isBlank := by
    rw [trim, ← List.reverse_append, List.takeWhile_append_dropWhile, List.reverse_reverse]
  have hblank : AllBlank ((text.dropWhile isBlank).reverse.takeWhile isBlank).reverse :=
    fun c hc => allBlank_takeWhile _ c (List.mem_reverse.mp hc)
  refine ⟨⟨_, _, allBlank_takeWhile text, hblank, ?_⟩, fun c hc => ?_, fun c hc => ?_⟩
  · rw [List.append_assoc, hright, hleft]
  · refine head?_dropWhile_isBlank text c ?_
    rw [← hright, List.head?_append, Option.mem_def.mp hc]
    rfl
  · refine head?_dropWhile_isBlank (text.dropWhile isBlank).reverse c ?_
    rwa [trim, List.getLast?_reverse] at hc

theorem trimmed_iff {text core : List Char} : Trimmed text core ↔ trim text = core :=
  ⟨trim_of_trimmed, fun h => h ▸ trimmed_trim text⟩

theorem Trimmed.of_no_blank {left core right : List Char} (hleft : AllBlank left)
    (hright : AllBlank right) (hcore : ∀ c ∈ core, isBlank c = false) :
    Trimmed (left ++ core ++ right) core where
  around := ⟨left, right, hleft, hright, rfl⟩
  first := fun c hc => hcore c (List.mem_of_mem_head? hc)
  last := fun c hc => hcore c (List.mem_of_getLast? hc)

theorem isBlank_iff {c : Char} :
    isBlank c = true ↔ ∃ range ∈ blankRanges, range.1 ≤ c.toNat ∧ c.toNat ≤ range.2 := by
  simp [isBlank, inRanges]

theorem isBlank_of_isDigit {c : Char} (h : c.isDigit = true) : isBlank c = false := by
  have hdigit : 48 ≤ c.toNat ∧ c.toNat ≤ 57 := Char.isDigit_iff_toNat.mp h
  simp only [← Bool.not_eq_true, isBlank_iff, blankRanges, List.mem_cons, List.not_mem_nil,
    or_false, exists_eq_or_imp, exists_eq_left]
  omega

-- Small letters are written for the capital ones of ASCII, and none of those is a blank.
theorem toLower_of_isBlank {c : Char} (h : isBlank c = true) : c.toLower = c := by
  have hsmall : ¬(c.val ≥ 'A'.val ∧ c.val ≤ 'Z'.val) := by
    simp only [isBlank_iff, blankRanges, List.mem_cons, List.not_mem_nil, or_false,
      exists_eq_or_imp, exists_eq_left] at h
    rw [ge_iff_le, UInt32.le_iff_toNat_le, UInt32.le_iff_toNat_le]
    change ¬(65 ≤ c.toNat ∧ c.toNat ≤ 90)
    omega
  exact dif_neg hsmall

end WriteMemo.Text
