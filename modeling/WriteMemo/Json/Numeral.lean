import WriteMemo.Binary64.Scaled
import WriteMemo.Json.Basic

namespace WriteMemo.Json

-- An empty `fraction` means that no point is written.
structure Numeral where
  negative : Bool
  whole : List Char
  fraction : List Char
  exponent : Option Int
  deriving DecidableEq

namespace Numeral

-- At least one digit, and all that follow it.
def scanDigits : List Char → Except TextFault (List Char × List Char)
  | [] => .error .unfinished
  | c :: rest =>
    if c.isDigit then .ok ((c :: rest).takeWhile Char.isDigit, (c :: rest).dropWhile Char.isDigit)
    else .error .malformed

-- A leading zero stands alone.
def scanWhole (text : List Char) : Except TextFault (List Char × List Char) := do
  let (digits, rest) ← scanDigits text
  match digits with
  | '0' :: _ :: _ => throw .malformed
  | _ => return (digits, rest)

def scanFraction : List Char → Except TextFault (List Char × List Char)
  | '.' :: rest => scanDigits rest
  | rest => .ok ([], rest)

def scanSignedDigits : List Char → Except TextFault (Int × List Char)
  | '-' :: rest => do
    let (digits, rest) ← scanDigits rest
    return (-Int.ofNat (Nat.ofDigitChars 10 digits 0), rest)
  | '+' :: rest => do
    let (digits, rest) ← scanDigits rest
    return (Nat.ofDigitChars 10 digits 0, rest)
  | rest => do
    let (digits, rest) ← scanDigits rest
    return (Nat.ofDigitChars 10 digits 0, rest)

def scanExponent : List Char → Except TextFault (Option Int × List Char)
  | c :: rest =>
    if c = 'e' ∨ c = 'E' then do
      let (exponent, rest) ← scanSignedDigits rest
      return (some exponent, rest)
    else .ok (none, c :: rest)
  | [] => .ok (none, [])

def scanSign : List Char → Bool × List Char
  | '-' :: rest => (true, rest)
  | rest => (false, rest)

-- The longest numeral in front, and what is left.
def scan (text : List Char) : Except TextFault (Numeral × List Char) := do
  let (negative, rest) := scanSign text
  let (whole, rest) ← scanWhole rest
  let (fraction, rest) ← scanFraction rest
  let (exponent, rest) ← scanExponent rest
  return (⟨negative, whole, fraction, exponent⟩, rest)

-- Appends digits to a significand as long as it fits 64 bits, and returns those that are left.
def absorb (significand : Nat) : List Char → Nat × List Char
  | [] => (significand, [])
  | c :: rest =>
    let next := 10 * significand + (c.toNat - '0'.toNat)
    if next < naturalLimit then absorb next rest else (significand, c :: rest)

-- Digits that do not fit are dropped. A dropped whole digit still counts in the exponent.
def float? (numeral : Numeral) : Option Binary64 :=
  let (significand, leftWhole) := absorb 0 numeral.whole
  let (significand, leftFraction) := absorb significand numeral.fraction
  let taken := numeral.fraction.length - leftFraction.length
  let exponent := (leftWhole.length : Int) - taken + numeral.exponent.getD 0
  let magnitude? := Binary64.scaled? significand exponent
  if numeral.negative then magnitude?.map Binary64.negate else magnitude?

def integer? (numeral : Numeral) : Option Number :=
  if numeral.fraction.isEmpty && numeral.exponent.isNone then
    let magnitude := Nat.ofDigitChars 10 numeral.whole 0
    if numeral.negative then
      if magnitude = 0 then none else Number.ofInt? (-magnitude)
    else Number.ofInt? magnitude
  else none

-- A whole number of 64 bits without point and exponent is exact, and minus zero is not one.
-- `none` means that the value lies beyond all doubles.
def number? (numeral : Numeral) : Option Number :=
  match numeral.integer? with
  | some value => some value
  | none => numeral.float?.map .float

private theorem length_dropWhile_le (p : Char → Bool) (text : List Char) :
    (text.dropWhile p).length ≤ text.length :=
  (List.dropWhile_sublist p).length_le

theorem length_of_scanDigits {text : List Char} {read : List Char × List Char}
    (h : scanDigits text = .ok read) : read.2.length < text.length := by
  unfold scanDigits at h
  split at h
  · simp at h
  · next c rest =>
    split at h
    · next hdigit =>
      simp only [Except.ok.injEq] at h
      simp only [← h, List.dropWhile_cons_of_pos hdigit, List.length_cons]
      exact Nat.lt_succ_of_le (length_dropWhile_le _ _)
    · simp at h

theorem length_of_scanWhole {text : List Char} {read : List Char × List Char}
    (h : scanWhole text = .ok read) : read.2.length < text.length := by
  unfold scanWhole at h
  cases hdigits : scanDigits text with
  | error fault => simp [hdigits, bind, Except.bind] at h
  | ok digits =>
    simp only [hdigits, bind, Except.bind] at h
    split at h
    · simp [throw, throwThe, MonadExceptOf.throw] at h
    · simp only [pure, Except.pure, Except.ok.injEq] at h
      rw [← h]
      exact length_of_scanDigits hdigits

theorem length_of_scanFraction {text : List Char} {read : List Char × List Char}
    (h : scanFraction text = .ok read) : read.2.length ≤ text.length := by
  unfold scanFraction at h
  split at h
  · exact Nat.le_succ_of_le (Nat.le_of_lt (length_of_scanDigits h))
  · cases h
    exact Nat.le_refl _

theorem length_of_scanSignedDigits {text : List Char} {read : Int × List Char}
    (h : scanSignedDigits text = .ok read) : read.2.length < text.length := by
  have hvalue : ∀ (rest : List Char) (value : Nat → Int),
      (do let (digits, left) ← scanDigits rest
          return (value (Nat.ofDigitChars 10 digits 0), left)) = Except.ok read →
        read.2.length < rest.length := by
    intro rest value hrun
    cases hdigits : scanDigits rest with
    | error fault => simp [hdigits, bind, Except.bind] at hrun
    | ok digits =>
      simp only [hdigits, bind, Except.bind, pure, Except.pure, Except.ok.injEq] at hrun
      rw [← hrun]
      exact length_of_scanDigits hdigits
  unfold scanSignedDigits at h
  split at h
  · exact Nat.lt_succ_of_lt (hvalue _ (fun n => -Int.ofNat n) h)
  · exact Nat.lt_succ_of_lt (hvalue _ (fun n => n) h)
  · exact hvalue _ (fun n => n) h

theorem length_of_scanExponent {text : List Char} {read : Option Int × List Char}
    (h : scanExponent text = .ok read) : read.2.length ≤ text.length := by
  unfold scanExponent at h
  split at h
  · next c rest =>
    split at h
    · cases hsigned : scanSignedDigits rest with
      | error fault => simp [hsigned, bind, Except.bind] at h
      | ok exponent =>
        simp only [hsigned, bind, Except.bind, pure, Except.pure, Except.ok.injEq] at h
        rw [← h]
        exact Nat.le_succ_of_le (Nat.le_of_lt (length_of_scanSignedDigits hsigned))
    · cases h
      exact Nat.le_refl _
  · cases h
    exact Nat.le_refl _

theorem length_scanSign_le (text : List Char) : (scanSign text).2.length ≤ text.length := by
  unfold scanSign
  split <;> simp

theorem length_of_scan {text : List Char} {read : Numeral × List Char}
    (h : scan text = .ok read) : read.2.length < text.length := by
  have hsign := length_scanSign_le text
  unfold scan at h
  cases hwhole : scanWhole (scanSign text).2 with
  | error fault => simp [hwhole, bind, Except.bind] at h
  | ok whole =>
    have hafterWhole := length_of_scanWhole hwhole
    simp only [hwhole, bind, Except.bind] at h
    split at h
    · simp at h
    · next fraction hfraction =>
      have hafterFraction := length_of_scanFraction hfraction
      split at h
      · simp at h
      · next exponent hexponent =>
        have hafterExponent := length_of_scanExponent hexponent
        simp only [pure, Except.pure, Except.ok.injEq] at h
        rw [← h]
        simp only
        omega

end Numeral

end WriteMemo.Json
