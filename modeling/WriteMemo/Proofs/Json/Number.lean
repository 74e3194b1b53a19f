import WriteMemo.Proofs.Binary64.Shortest
import WriteMemo.Proofs.Json.Numeral

namespace WriteMemo.Json

namespace Numeral

-- The value without the sign.
def magnitude (numeral : Numeral) : ℚ :=
  Nat.ofDigitChars 10 (numeral.whole ++ numeral.fraction) 0 *
    10 ^ (numeral.exponent.getD 0 - numeral.fraction.length)

-- The form of whole numbers. Doubles are written with a point or an exponent.
def IsWhole (numeral : Numeral) : Prop := numeral.fraction = [] ∧ numeral.exponent = none

theorem AllDigits.take {digits : List Char} (h : AllDigits digits) (count : Nat) :
    AllDigits (digits.take count) :=
  fun c hc => h c (List.mem_of_mem_take hc)

theorem AllDigits.drop {digits : List Char} (h : AllDigits digits) (count : Nat) :
    AllDigits (digits.drop count) :=
  fun c hc => h c (List.mem_of_mem_drop hc)

end Numeral

namespace Number

-- Digits whose first one counts.
structure Significant (digits : List Char) : Prop where
  ne_nil : digits ≠ []
  allDigits : Numeral.AllDigits digits
  head?_ne_zero : digits.head? ≠ some '0'

theorem Significant.exists_first {digits : List Char} (h : Significant digits) :
    ∃ digit rest, digits = digit :: rest ∧ digit ≠ '0' := by
  obtain ⟨digit, rest, rfl⟩ := List.exists_cons_of_ne_nil h.ne_nil
  exact ⟨digit, rest, rfl, fun hzero => h.head?_ne_zero (congrArg some hzero)⟩

def positionalNumeral (digits : List Char) : Int → Numeral
  | .ofNat leading =>
    if digits.length ≤ leading + 1 then
      ⟨false, digits ++ List.replicate (leading + 1 - digits.length) '0', ['0'], none⟩
    else ⟨false, digits.take (leading + 1), digits.drop (leading + 1), none⟩
  | .negSucc gap => ⟨false, ['0'], List.replicate gap '0' ++ digits, none⟩

def scientificNumeral (digits : List Char) (leading : Int) : Numeral :=
  ⟨false, digits.take 1, digits.drop 1, some leading⟩

def decimalNumeral (decimal : Decimal) : Numeral :=
  let digits := naturalText decimal.digits
  let leading := decimal.exponent + digits.length - 1
  let significant := withoutTrailingZeros digits
  if floatLayout.lowest ≤ leading ∧ leading ≤ floatLayout.highest then
    positionalNumeral significant leading
  else scientificNumeral significant leading

def rankNumeral (rank : Nat) : Numeral :=
  if rank = 0 then ⟨false, ['0'], ['0'], none⟩ else decimalNumeral (Binary64.shortest rank)

def numeral : Number → Numeral
  | .natural value => ⟨false, naturalText value, [], none⟩
  | .negative beyond => ⟨true, naturalText (beyond + 1), [], none⟩
  | .float value => { rankNumeral value.rank with negative := value.negative }

theorem naturalText_injective {n m : Nat} (h : naturalText n = naturalText m) : n = m := by
  rw [← Numeral.ofDigitChars_naturalText n, h, Numeral.ofDigitChars_naturalText]

-- Zeros at the end shift the digits before them.
theorem ofDigitChars_append_zeros (digits : List Char) (zeros : Nat) (exponent : Int) :
    (Nat.ofDigitChars 10 (digits ++ List.replicate zeros '0') 0 : ℚ) * 10 ^ exponent =
      Nat.ofDigitChars 10 digits 0 * 10 ^ (zeros + exponent) := by
  rw [Nat.ofDigitChars_append, Nat.ofDigitChars_replicate_zero, zpow_add₀ (by norm_num),
    zpow_natCast]
  push_cast
  ring

theorem ofDigitChars_zeros_append (digits : List Char) (zeros : Nat) :
    Nat.ofDigitChars 10 (List.replicate zeros '0' ++ digits) 0 = Nat.ofDigitChars 10 digits 0 := by
  rw [Nat.ofDigitChars_append, Nat.ofDigitChars_replicate_zero, Nat.mul_zero]

theorem fractionText_of_ne_nil {digits : List Char} (h : digits ≠ []) :
    Numeral.fractionText digits = '.' :: digits := by
  cases digits with
  | nil => contradiction
  | cons _ _ => rfl

theorem unsignedText_positionalNumeral {digits : List Char} (hne : digits ≠ []) (leading : Int) :
    (positionalNumeral digits leading).unsignedText = positional digits leading := by
  cases leading with
  | ofNat leading =>
      simp only [positionalNumeral, positional]
      split
      · simp [Numeral.unsignedText, Numeral.fractionText, Numeral.optionalExponentText]
      · next hlong =>
        have hdrop : digits.drop (leading + 1) ≠ [] := by
          rw [ne_eq, List.drop_eq_nil_iff]
          exact hlong
        simp [Numeral.unsignedText, fractionText_of_ne_nil hdrop, Numeral.optionalExponentText]
  | negSucc gap =>
      have hfraction : List.replicate gap '0' ++ digits ≠ [] :=
        List.append_ne_nil_of_right_ne_nil _ hne
      simp [positionalNumeral, positional, Numeral.unsignedText, fractionText_of_ne_nil hfraction,
        Numeral.optionalExponentText]

theorem unsignedText_scientificNumeral (digits : List Char) (leading : Int) :
    (scientificNumeral digits leading).unsignedText = scientific digits leading := by
  cases digits with
  | nil => rfl
  | cons digit rest => cases rest <;> rfl

theorem magnitude_positionalNumeral (digits : List Char) (leading : Int) :
    (positionalNumeral digits leading).magnitude =
      Nat.ofDigitChars 10 digits 0 * 10 ^ (leading + 1 - digits.length) := by
  cases leading with
  | ofNat leading =>
      simp only [positionalNumeral]
      split
      · next hshort =>
        have hzeros : digits ++ List.replicate (leading + 1 - digits.length) '0' ++ ['0'] =
            digits ++ List.replicate (leading + 1 - digits.length + 1) '0' := by
          rw [List.append_assoc, ← List.replicate_succ']
        have hexponent : ((leading + 1 - digits.length + 1 : Nat) : Int) + (0 - 1) =
            Int.ofNat leading + 1 - digits.length := by
          rw [Int.ofNat_eq_natCast]
          omega
        rw [← hexponent, ← ofDigitChars_append_zeros, ← hzeros]
        rfl
      · next hlong =>
        have hexponent : 0 - ((digits.drop (leading + 1)).length : Int) =
            Int.ofNat leading + 1 - digits.length := by
          rw [List.length_drop, Int.ofNat_eq_natCast]
          omega
        rw [← hexponent, Numeral.magnitude, List.take_append_drop]
        rfl
  | negSucc gap =>
      have hexponent : 0 - ((List.replicate gap '0' ++ digits).length : Int) =
          Int.negSucc gap + 1 - digits.length := by
        rw [List.length_append, List.length_replicate]
        omega
      have hzeros : ['0'] ++ (List.replicate gap '0' ++ digits) =
          List.replicate (gap + 1) '0' ++ digits := rfl
      rw [← hexponent, ← ofDigitChars_zeros_append digits (gap + 1), ← hzeros]
      rfl

theorem magnitude_scientificNumeral {digits : List Char} (hne : digits ≠ []) (leading : Int) :
    (scientificNumeral digits leading).magnitude =
      Nat.ofDigitChars 10 digits 0 * 10 ^ (leading + 1 - digits.length) := by
  obtain ⟨digit, rest, rfl⟩ := List.exists_cons_of_ne_nil hne
  have hexponent : leading - rest.length = leading + 1 - (digit :: rest).length := by
    rw [List.length_cons]
    omega
  rw [← hexponent]
  rfl

theorem allDigits_zeros (zeros : Nat) : Numeral.AllDigits (List.replicate zeros '0') := by
  intro c hc
  rw [List.eq_of_mem_replicate hc]
  rfl

theorem wellFormed_of_first {digit : Char} {rest fraction : List Char} (hfirst : digit ≠ '0')
    (hwhole : Numeral.AllDigits (digit :: rest)) (hfraction : Numeral.AllDigits fraction)
    (negative : Bool) (exponent : Option Int) :
    Numeral.WellFormed ⟨negative, digit :: rest, fraction, exponent⟩ where
  whole_ne_nil := List.cons_ne_nil digit rest
  whole_digits := hwhole
  whole_zero := fun hzero => absurd (Option.some_inj.mp hzero) hfirst
  fraction_digits := hfraction

theorem wellFormed_positionalNumeral {digits : List Char} (h : Significant digits) (leading : Int) :
    (positionalNumeral digits leading).WellFormed := by
  have hdigits := h.allDigits
  obtain ⟨digit, rest, rfl, hfirst⟩ := h.exists_first
  cases leading with
  | ofNat leading =>
      simp only [positionalNumeral]
      split
      · exact wellFormed_of_first hfirst
          (List.forall_mem_append.mpr ⟨hdigits, allDigits_zeros _⟩) (allDigits_zeros 1) _ _
      · exact wellFormed_of_first hfirst (hdigits.take (leading + 1)) (hdigits.drop _) _ _
  | negSucc gap =>
      exact ⟨List.cons_ne_nil _ _, allDigits_zeros 1, fun _ => rfl,
        List.forall_mem_append.mpr ⟨allDigits_zeros gap, hdigits⟩⟩

theorem wellFormed_scientificNumeral {digits : List Char} (h : Significant digits) (leading : Int) :
    (scientificNumeral digits leading).WellFormed := by
  have hdigits := h.allDigits
  obtain ⟨digit, rest, rfl, hfirst⟩ := h.exists_first
  exact wellFormed_of_first hfirst (hdigits.take 1) (hdigits.drop 1) _ _

theorem not_isWhole_positionalNumeral {digits : List Char} (hne : digits ≠ []) (leading : Int) :
    ¬(positionalNumeral digits leading).IsWhole := by
  rintro ⟨hfraction, -⟩
  cases leading with
  | ofNat leading =>
      simp only [positionalNumeral] at hfraction
      split at hfraction
      · cases hfraction
      · next hlong => exact hlong (List.drop_eq_nil_iff.mp hfraction)
  | negSucc gap => exact hne (List.append_eq_nil_iff.mp hfraction).2

theorem exists_trailing_zeros (digits : List Char) :
    ∃ zeros, digits = withoutTrailingZeros digits ++ List.replicate zeros '0' := by
  have hall : ∀ c ∈ digits.reverse.takeWhile (· == '0'), c = '0' := fun c hc =>
    eq_of_beq (List.all_eq_true.mp List.all_takeWhile c hc)
  have hzeros := List.eq_replicate_of_mem hall
  refine ⟨(digits.reverse.takeWhile (· == '0')).length, ?_⟩
  rw [withoutTrailingZeros, ← List.reverse_replicate, ← hzeros, ← List.reverse_append,
    List.takeWhile_append_dropWhile, List.reverse_reverse]

theorem significant_withoutTrailingZeros {n : Nat} (hpos : 0 < n) :
    Significant (withoutTrailingZeros (naturalText n)) := by
  obtain ⟨zeros, hzeros⟩ := exists_trailing_zeros (naturalText n)
  have hne : withoutTrailingZeros (naturalText n) ≠ [] := by
    intro hnil
    rw [hnil, List.nil_append] at hzeros
    have hvalue := Numeral.ofDigitChars_naturalText n
    rw [hzeros, Nat.ofDigitChars_replicate_zero] at hvalue
    omega
  refine ⟨hne, fun c hc => ?_, fun hhead => Numeral.head?_naturalText hpos ?_⟩
  · refine Numeral.allDigits_naturalText n c ?_
    rw [hzeros]
    exact List.mem_append_left _ hc
  · rw [hzeros, List.head?_append, hhead, Option.some_or]

-- What a numeral has to be for the digits of a double and the exponent of the first one.
structure LaidOut (digits : List Char) (leading : Int) (numeral : Numeral) : Prop where
  wellFormed : numeral.WellFormed
  not_isWhole : ¬numeral.IsWhole
  magnitude_eq :
    numeral.magnitude = Nat.ofDigitChars 10 digits 0 * 10 ^ (leading + 1 - digits.length)

theorem laidOut_positionalNumeral {digits : List Char} (h : Significant digits) (leading : Int) :
    LaidOut digits leading (positionalNumeral digits leading) where
  wellFormed := wellFormed_positionalNumeral h leading
  not_isWhole := not_isWhole_positionalNumeral h.ne_nil leading
  magnitude_eq := magnitude_positionalNumeral digits leading

theorem laidOut_scientificNumeral {digits : List Char} (h : Significant digits) (leading : Int) :
    LaidOut digits leading (scientificNumeral digits leading) where
  wellFormed := wellFormed_scientificNumeral h leading
  not_isWhole := fun hwhole => Option.some_ne_none _ hwhole.2
  magnitude_eq := magnitude_scientificNumeral h.ne_nil leading

theorem laidOut_decimalNumeral {decimal : Decimal} (hpos : 0 < decimal.digits) :
    LaidOut (withoutTrailingZeros (naturalText decimal.digits))
      (decimal.exponent + (naturalText decimal.digits).length - 1) (decimalNumeral decimal) := by
  have hsignificant := significant_withoutTrailingZeros hpos
  unfold decimalNumeral
  dsimp only
  split
  · exact laidOut_positionalNumeral hsignificant _
  · exact laidOut_scientificNumeral hsignificant _

-- The zeros that are cut off at the end are made up for by the exponent.
theorem magnitude_decimalNumeral {decimal : Decimal} (hpos : 0 < decimal.digits) :
    (decimalNumeral decimal).magnitude = decimal.value := by
  obtain ⟨zeros, hzeros⟩ := exists_trailing_zeros (naturalText decimal.digits)
  have hvalue := ofDigitChars_append_zeros (withoutTrailingZeros (naturalText decimal.digits)) zeros
    decimal.exponent
  rw [← hzeros, Numeral.ofDigitChars_naturalText] at hvalue
  have hlength : decimal.exponent + (naturalText decimal.digits).length - 1 + 1 -
      (withoutTrailingZeros (naturalText decimal.digits)).length = zeros + decimal.exponent := by
    have := congrArg List.length hzeros
    rw [List.length_append, List.length_replicate] at this
    omega
  rw [(laidOut_decimalNumeral hpos).magnitude_eq, Decimal.value, hvalue, hlength]

theorem digits_shortest_pos {rank : Nat} (hpos : 0 < rank) (hfinite : rank < Binary64.rankLimit) :
    0 < (Binary64.shortest rank).digits := by
  have hvalue := (Binary64.rounds_shortest hpos hfinite).pos hpos
  rw [Decimal.value] at hvalue
  refine Nat.pos_of_ne_zero fun hzero => ?_
  rw [hzero, Nat.cast_zero, zero_mul, zero_mul] at hvalue
  exact lt_irrefl 0 hvalue

-- How the numeral of a double stands to its rank.
structure Spells (numeral : Numeral) (rank : Nat) : Prop where
  wellFormed : numeral.WellFormed
  not_isWhole : ¬numeral.IsWhole
  unsignedText_eq :
    numeral.unsignedText = if rank = 0 then ['0', '.', '0'] else magnitudeText rank
  rounds : Binary64.Rounds rank (numeral.magnitude * Binary64.unitCount)

theorem spells_zero : Spells ⟨false, ['0'], ['0'], none⟩ 0 where
  wellFormed := ⟨List.cons_ne_nil _ _, allDigits_zeros 1, fun _ => rfl, allDigits_zeros 1⟩
  not_isWhole := fun h => List.cons_ne_nil _ _ h.1
  unsignedText_eq := rfl
  rounds := by
    have hmagnitude : Numeral.magnitude ⟨false, ['0'], ['0'], none⟩ = 0 := by
      simp [Numeral.magnitude, Nat.ofDigitChars]
    rw [hmagnitude, zero_mul]
    exact Binary64.rounds_zero

theorem spells_decimalNumeral {rank : Nat} (hpos : 0 < rank) (hfinite : rank < Binary64.rankLimit) :
    Spells (decimalNumeral (Binary64.shortest rank)) rank where
  wellFormed := (laidOut_decimalNumeral (digits_shortest_pos hpos hfinite)).wellFormed
  not_isWhole := (laidOut_decimalNumeral (digits_shortest_pos hpos hfinite)).not_isWhole
  unsignedText_eq := by
    have hne := (significant_withoutTrailingZeros (digits_shortest_pos hpos hfinite)).ne_nil
    rw [if_neg hpos.ne']
    unfold decimalNumeral magnitudeText
    dsimp only
    split
    · exact unsignedText_positionalNumeral hne _
    · exact unsignedText_scientificNumeral _ _
  rounds := by
    rw [magnitude_decimalNumeral (digits_shortest_pos hpos hfinite)]
    exact Binary64.rounds_shortest hpos hfinite

theorem spells_rankNumeral {rank : Nat} (hfinite : rank < Binary64.rankLimit) :
    Spells (rankNumeral rank) rank := by
  unfold rankNumeral
  split
  · next hzero => exact hzero ▸ spells_zero
  · next hne => exact spells_decimalNumeral (Nat.pos_of_ne_zero hne) hfinite

theorem wellFormed_numeral (value : Number) : value.numeral.WellFormed := by
  have hwhole (negative : Bool) (n : Nat) :
      Numeral.WellFormed ⟨negative, naturalText n, [], none⟩ :=
    ⟨Numeral.naturalText_ne_nil n, Numeral.allDigits_naturalText n, Numeral.naturalText_head_zero n,
      List.forall_mem_nil _⟩
  cases value with
  | natural value => exact hwhole false value
  | negative beyond => exact hwhole true (beyond + 1)
  | float value =>
      obtain ⟨hne, hdigits, hzero, hfraction⟩ := (spells_rankNumeral value.finite).wellFormed
      exact ⟨hne, hdigits, hzero, hfraction⟩

theorem text_numeral (value : Number) : value.numeral.text = value.write := by
  cases value with
  | natural _ | negative _ =>
      simp [numeral, Numeral.text, Numeral.signText, Numeral.unsignedText, Numeral.fractionText,
        Numeral.optionalExponentText, write]
  | float value =>
      have htext := (spells_rankNumeral value.finite).unsignedText_eq
      rw [write, floatText, ← htext]
      obtain ⟨negative, rank, hfinite⟩ := value
      cases negative with
      | true | false => rfl

theorem not_isWhole_float (value : Binary64) : ¬(numeral (.float value)).IsWhole :=
  (spells_rankNumeral value.finite).not_isWhole

theorem rounds_float (value : Binary64) :
    Binary64.Rounds value.rank ((numeral (.float value)).magnitude * Binary64.unitCount) :=
  (spells_rankNumeral value.finite).rounds

-- The form tells the kinds of numbers apart, and the value the numbers of one kind.
theorem numeral_injective {a b : Number} (h : a.numeral = b.numeral) : a = b := by
  have hwhole (negative : Bool) (n : Nat) :
      Numeral.IsWhole ⟨negative, naturalText n, [], none⟩ := ⟨rfl, rfl⟩
  cases a with
  | natural value =>
      cases b with
      | natural other =>
          have heq := naturalText_injective (congrArg Numeral.whole h)
          rw [Fin.ext heq]
      | negative _ => cases congrArg Numeral.negative h
      | float other => exact absurd (h ▸ hwhole _ _) (not_isWhole_float other)
  | negative beyond =>
      cases b with
      | natural _ => cases congrArg Numeral.negative h
      | negative other =>
          have heq := naturalText_injective (congrArg Numeral.whole h)
          rw [Fin.ext (Nat.succ.inj heq)]
      | float other => exact absurd (h ▸ hwhole _ _) (not_isWhole_float other)
  | float value =>
      cases b with
      | natural _ | negative _ => exact absurd (h ▸ hwhole _ _) (not_isWhole_float value)
      | float other =>
          have hrounds := rounds_float value
          rw [h] at hrounds
          have hrank := hrounds.unique (rounds_float other)
          have hsign : value.negative = other.negative := congrArg Numeral.negative h
          obtain ⟨negative, rank, hfinite⟩ := value
          obtain ⟨negative', rank', hfinite'⟩ := other
          subst hrank hsign
          rfl

theorem scan_write (value : Number) {rest : List Char} (hrest : Numeral.Ends rest) :
    Numeral.scan (value.write ++ rest) = .ok (value.numeral, rest) := by
  rw [← text_numeral]
  exact Numeral.scan_text (wellFormed_numeral value) hrest

theorem write_append_inj {a b : Number} {rest left : List Char} (hrest : Numeral.Ends rest)
    (hleft : Numeral.Ends left) (h : a.write ++ rest = b.write ++ left) : a = b ∧ rest = left := by
  have hread := scan_write a hrest
  rw [h, scan_write b hleft] at hread
  simp only [Except.ok.injEq, Prod.mk.injEq] at hread
  exact ⟨numeral_injective hread.1.symm, hread.2.symm⟩

end Number

end WriteMemo.Json
