namespace WriteMemo.Association

variable {κ α : Type} [BEq κ]

-- Lists of pairs, found by their first part. Erasing takes every pair of a key away.
def erase (key : κ) (pairs : List (κ × α)) : List (κ × α) :=
  pairs.filter fun pair => pair.1 != key

variable [LawfulBEq κ]

theorem lookup_erase_self (key : κ) (pairs : List (κ × α)) :
    (erase key pairs).lookup key = none := by
  induction pairs with
  | nil => rfl
  | cons pair rest ih =>
    obtain ⟨other, value⟩ := pair
    by_cases h : other = key
    · simpa [erase, h] using ih
    · have hne : (key == other) = false := by simpa using Ne.symm h
      simpa [erase, h, List.lookup_cons, hne] using ih

theorem lookup_erase_of_ne {key other : κ} (h : other ≠ key) (pairs : List (κ × α)) :
    (erase key pairs).lookup other = pairs.lookup other := by
  induction pairs with
  | nil => rfl
  | cons pair rest ih =>
    obtain ⟨first, value⟩ := pair
    by_cases hfirst : first = key
    · have hne : (other == first) = false := by simpa [hfirst] using h
      simpa [erase, hfirst, List.lookup_cons, hfirst ▸ hne] using ih
    · cases hother : other == first <;> simp_all [erase, List.lookup_cons]

end WriteMemo.Association
