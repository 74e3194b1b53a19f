import WriteMemo.Json.Numeral
import WriteMemo.Json.Writer

namespace WriteMemo.Json

namespace Numeral

def AllDigits (digits : List Char) : Prop := ∀ c ∈ digits, c.isDigit = true

-- What follows a numeral that is over.
def Ends (rest : List Char) : Prop :=
  ∀ c ∈ rest.head?, c.isDigit = false ∧ c ≠ '.' ∧ c ≠ 'e' ∧ c ≠ 'E'

-- A zero in front stands alone.
structure WellFormed (numeral : Numeral) : Prop where
  whole_ne_nil : numeral.whole ≠ []
  whole_digits : AllDigits numeral.whole
  whole_zero : numeral.whole.head? = some '0' → numeral.whole = ['0']
  fraction_digits : AllDigits numeral.fraction

def signText : Bool → List Char
  | true => ['-']
  | false => []

def fractionText : List Char → List Char
  | [] => []
  | digits => '.' :: digits

def optionalExponentText : Option Int → List Char
  | some exponent => Number.exponentText exponent
  | none => []

def unsignedText (numeral : Numeral) : List Char :=
  numeral.whole ++ fractionText numeral.fraction ++ optionalExponentText numeral.exponent

def text (numeral : Numeral) : List Char :=
  signText numeral.negative ++ numeral.unsignedText

theorem ends_nil : Ends [] := by simp [Ends]

theorem Ends.not_isDigit {rest : List Char} (h : Ends rest) : ∀ c ∈ rest.head?, c.isDigit = false :=
  fun c hc => (h c hc).1

theorem allDigits_naturalText (n : Nat) : AllDigits (Number.naturalText n) :=
  fun _ hc => Nat.isDigit_of_mem_toDigits (by decide) (by decide) hc

theorem naturalText_ne_nil (n : Nat) : Number.naturalText n ≠ [] := Nat.toDigits_ne_nil

theorem ofDigitChars_naturalText (n : Nat) : Nat.ofDigitChars 10 (Number.naturalText n) 0 = n :=
  Nat.ofDigitChars_ten_toDigits

theorem head?_naturalText {n : Nat} (hpos : 0 < n) : (Number.naturalText n).head? ≠ some '0' := by
  unfold Number.naturalText
  induction n using Nat.strongRecOn with
  | ind n ih =>
      rw [Nat.toDigits_eq_if (by decide)]
      split
      · next hlt =>
        have : ∀ digit < 10, 0 < digit → [Nat.digitChar digit].head? ≠ some '0' := by decide
        exact this n hlt hpos
      · next hge =>
        rw [List.head?_append, List.head?_eq_some_head Nat.toDigits_ne_nil, Option.some_or,
          ← List.head?_eq_some_head]
        exact ih (n / 10) (by omega) (by omega)

theorem naturalText_zero : Number.naturalText 0 = ['0'] := by decide

theorem naturalText_head_zero (n : Nat) (h : (Number.naturalText n).head? = some '0') :
    Number.naturalText n = ['0'] := by
  rcases Nat.eq_zero_or_pos n with rfl | hpos
  · exact naturalText_zero
  · exact absurd h (head?_naturalText hpos)

theorem scanDigits_append {digits rest : List Char} (hne : digits ≠ []) (hdigits : AllDigits digits)
    (hrest : ∀ c ∈ rest.head?, c.isDigit = false) :
    scanDigits (digits ++ rest) = .ok (digits, rest) := by
  have htake : rest.takeWhile Char.isDigit = [] := by
    cases rest with
    | nil => rfl
    | cons c rest => simp [hrest c rfl]
  have hdrop : rest.dropWhile Char.isDigit = rest := by
    cases rest with
    | nil => rfl
    | cons c rest => simp [hrest c rfl]
  cases digits with
  | nil => contradiction
  | cons c digits =>
      rw [List.cons_append, scanDigits, if_pos (hdigits c List.mem_cons_self), ← List.cons_append,
        List.takeWhile_append_of_pos hdigits, List.dropWhile_append_of_pos hdigits, htake, hdrop,
        List.append_nil]

theorem scanWhole_append {digits rest : List Char} (hne : digits ≠ []) (hdigits : AllDigits digits)
    (hzero : digits.head? = some '0' → digits = ['0'])
    (hrest : ∀ c ∈ rest.head?, c.isDigit = false) :
    scanWhole (digits ++ rest) = .ok (digits, rest) := by
  rw [scanWhole, scanDigits_append hne hdigits hrest]
  simp only [bind, Except.bind]
  split
  · cases hzero rfl
  · rfl

theorem scanFraction_append {digits rest : List Char} (hdigits : AllDigits digits)
    (hrest : ∀ c ∈ rest.head?, c.isDigit = false ∧ c ≠ '.') :
    scanFraction (fractionText digits ++ rest) = .ok (digits, rest) := by
  cases digits with
  | nil =>
      change scanFraction rest = _
      unfold scanFraction
      split
      · exact absurd rfl (hrest _ rfl).2
      · rfl
  | cons c digits =>
      exact scanDigits_append (List.cons_ne_nil c digits) hdigits fun c hc => (hrest c hc).1

theorem scanExponent_append {rest : List Char} (exponent : Option Int) (hrest : Ends rest) :
    scanExponent (optionalExponentText exponent ++ rest) = .ok (exponent, rest) := by
  cases exponent with
  | none =>
      cases rest with
      | nil => rfl
      | cons c rest =>
          obtain ⟨-, -, hsmall, hlarge⟩ := hrest c rfl
          simp [optionalExponentText, scanExponent, hsmall, hlarge]
  | some exponent =>
      have hdigits (n : Nat) :
          scanDigits (Number.naturalText n ++ rest) = .ok (Number.naturalText n, rest) :=
        scanDigits_append (naturalText_ne_nil n) (allDigits_naturalText n) hrest.not_isDigit
      cases exponent with
      | ofNat n =>
          simp [optionalExponentText, Number.exponentText, scanExponent, scanSignedDigits, hdigits,
            ofDigitChars_naturalText, bind, Except.bind, pure, Except.pure]
      | negSucc n =>
          simp [optionalExponentText, Number.exponentText, scanExponent, scanSignedDigits, hdigits,
            ofDigitChars_naturalText, bind, Except.bind, pure, Except.pure, Int.negSucc_eq]

theorem scanSign_append {rest : List Char} (negative : Bool)
    (hrest : ∀ c ∈ rest.head?, c ≠ '-') :
    scanSign (signText negative ++ rest) = (negative, rest) := by
  cases negative with
  | true => rfl
  | false =>
      change scanSign rest = _
      unfold scanSign
      split
      · exact absurd rfl (hrest _ rfl)
      · rfl

theorem optionalExponentText_head {rest : List Char} (exponent : Option Int) (hrest : Ends rest) :
    ∀ c ∈ (optionalExponentText exponent ++ rest).head?, c.isDigit = false ∧ c ≠ '.' := by
  intro c hc
  cases exponent with
  | none => exact ⟨(hrest c hc).1, (hrest c hc).2.1⟩
  | some exponent =>
      cases exponent with
      | ofNat _ | negSucc _ =>
          cases hc
          decide

theorem fractionText_head {rest : List Char} (digits : List Char)
    (hrest : ∀ c ∈ rest.head?, c.isDigit = false ∧ c ≠ '.') :
    ∀ c ∈ (fractionText digits ++ rest).head?, c.isDigit = false := by
  intro c hc
  cases digits with
  | nil => exact (hrest c hc).1
  | cons _ _ =>
      cases hc
      rfl

theorem whole_head {digits : List Char} (hne : digits ≠ []) (hdigits : AllDigits digits)
    (rest : List Char) : ∀ c ∈ (digits ++ rest).head?, c ≠ '-' := by
  intro c hc
  cases digits with
  | nil => contradiction
  | cons digit digits =>
      cases hc
      rintro rfl
      exact absurd (hdigits '-' List.mem_cons_self) (by decide)

theorem scan_text {numeral : Numeral} (hwell : numeral.WellFormed) {rest : List Char}
    (hrest : Ends rest) : scan (numeral.text ++ rest) = .ok (numeral, rest) := by
  obtain ⟨negative, whole, fraction, exponent⟩ := numeral
  obtain ⟨hne, hwhole, hzero, hfraction⟩ := hwell
  have hexponentHead := optionalExponentText_head exponent hrest
  have hsign := scanSign_append negative
    (whole_head hne hwhole (fractionText fraction ++ (optionalExponentText exponent ++ rest)))
  rw [text, unsignedText, List.append_assoc, List.append_assoc, List.append_assoc, scan, hsign]
  simp only [scanWhole_append hne hwhole hzero (fractionText_head fraction hexponentHead),
    scanFraction_append hfraction hexponentHead, scanExponent_append exponent hrest, bind,
    Except.bind, pure, Except.pure]

end Numeral

end WriteMemo.Json
