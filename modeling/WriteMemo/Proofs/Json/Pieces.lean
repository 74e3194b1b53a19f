import Mathlib.Data.List.TakeWhile
import WriteMemo.Proofs.Json.Numeral
import WriteMemo.Proofs.Json.Quoted

namespace WriteMemo.Json

-- A rest may follow a piece without being taken for a part of it.
def ScansPieces {α : Type} (mayFollow : List Char → Prop)
    (scan : List Char → Except TextFault (α × List Char)) : Prop :=
  ∀ text read left, scan text = .ok (read, left) →
    ∃ piece, text = piece ++ left ∧ ∀ rest, mayFollow rest → scan (piece ++ rest) = .ok (read, rest)

-- Any rest at all.
def Anything (_ : List Char) : Prop := True

namespace Quoted

theorem scansPieces_scanUnit : ScansPieces Anything scanUnit := by
  intro text unit left h
  unfold scanUnit at h
  split at h
  · next a b c d rest =>
    split at h
    · next hunit =>
      cases h
      refine ⟨[a, b, c, d], rfl, fun other _ => ?_⟩
      change scanUnit (a :: b :: c :: d :: other) = _
      rw [scanUnit, hunit]
    · cases h
  · cases h

theorem scansPieces_scanUnitEscape : ScansPieces Anything scanUnitEscape := by
  intro text unit left h
  unfold scanUnitEscape at h
  split at h
  · cases h
  · next first tail =>
    split at h
    · cases h
    · next hslash =>
      split at h
      · cases h
      · next second rest =>
        split at h
        · next hletter =>
          obtain ⟨piece, rfl, hpiece⟩ := scansPieces_scanUnit _ _ _ h
          refine ⟨first :: second :: piece, rfl, fun other hother => ?_⟩
          change scanUnitEscape (first :: second :: (piece ++ other)) = _
          rw [scanUnitEscape, if_neg hslash]
          exact (if_pos hletter).trans (hpiece other hother)
        · cases h

theorem scansPieces_scanCodePoint : ScansPieces Anything scanCodePoint := by
  intro text character left h
  unfold scanCodePoint at h
  cases hfirst : scanUnit text with
  | error fault =>
      rw [hfirst] at h
      cases h
  | ok first =>
      obtain ⟨unit, afterFirst⟩ := first
      obtain ⟨piece, rfl, hpiece⟩ := scansPieces_scanUnit _ _ _ hfirst
      simp only [hfirst, bind, Except.bind] at h
      split at h
      · next hleading =>
        split at h
        · cases h
        · next second hsecond =>
          obtain ⟨other, afterSecond⟩ := second
          obtain ⟨more, rfl, hmore⟩ := scansPieces_scanUnitEscape _ _ _ hsecond
          split at h
          · next htrailing =>
            simp only [pure, Except.pure, Except.ok.injEq, Prod.mk.injEq] at h
            obtain ⟨rfl, rfl⟩ := h
            refine ⟨piece ++ more, (List.append_assoc ..).symm, fun rest hrest => ?_⟩
            rw [List.append_assoc, scanCodePoint, hpiece _ trivial]
            simp only [bind, Except.bind, hmore rest hrest, if_pos hleading, if_pos htrailing, pure,
              Except.pure]
          · cases h
      · next hleading =>
        split at h
        · cases h
        · next htrailing =>
          cases h
          refine ⟨piece, rfl, fun rest hrest => ?_⟩
          rw [scanCodePoint, hpiece rest hrest]
          simp only [bind, Except.bind, if_neg hleading, if_neg htrailing, pure, Except.pure]

theorem scansPieces_scanEscape : ScansPieces Anything scanEscape := by
  intro text character left h
  unfold scanEscape at h
  split at h
  · cases h
  · next first tail =>
    split at h
    · next hunit =>
      obtain ⟨piece, rfl, hpiece⟩ := scansPieces_scanCodePoint _ _ _ h
      refine ⟨first :: piece, rfl, fun rest hrest => ?_⟩
      rw [List.cons_append, scanEscape, if_pos hunit, hpiece rest hrest]
    · next hunit =>
      split at h
      · next hescaped =>
        cases h
        refine ⟨[first], rfl, fun rest _ => ?_⟩
        rw [List.singleton_append, scanEscape, if_neg hunit, hescaped]
      · cases h

theorem scansPieces_scan : ScansPieces Anything scan := by
  intro text content left h
  fun_induction scan text generalizing content left with
  | case1 => cases h
  | case2 rest =>
      cases h
      exact ⟨['"'], rfl, fun rest _ => by rw [List.singleton_append, scan, if_pos rfl]⟩
  | case3 rest => cases h
  | case4 rest character afterEscape hescape hlength hquote ih =>
      cases hscan : scan afterEscape with
      | error fault =>
          rw [hscan] at h
          cases h
      | ok read =>
          obtain ⟨behind, last⟩ := read
          rw [hscan] at h
          cases h
          obtain ⟨piece, rfl, hpiece⟩ := scansPieces_scanEscape _ _ _ hescape
          obtain ⟨more, rfl, hmore⟩ := ih _ _ hscan
          refine ⟨'\\' :: (piece ++ more), by simp, fun rest hrest => ?_⟩
          rw [List.cons_append, List.append_assoc, scan_of_escape (hpiece _ trivial),
            hmore rest hrest]
          rfl
  | case5 => cases h
  | case6 c rest hquote hslash hcontrol ih =>
      cases hscan : scan rest with
      | error fault =>
          rw [hscan] at h
          cases h
      | ok read =>
          obtain ⟨behind, last⟩ := read
          rw [hscan] at h
          cases h
          obtain ⟨piece, rfl, hpiece⟩ := ih _ _ hscan
          refine ⟨c :: piece, rfl, fun rest hrest => ?_⟩
          rw [List.cons_append, scan_of_plain hquote hslash hcontrol, hpiece rest hrest]
          rfl

end Quoted

namespace Numeral

theorem scanDigits_eq_ok {text digits left : List Char} (h : scanDigits text = .ok (digits, left)) :
    text = digits ++ left ∧ digits ≠ [] ∧ AllDigits digits := by
  unfold scanDigits at h
  split at h
  · cases h
  · next c rest =>
    split at h
    · next hdigit =>
      cases h
      refine ⟨List.takeWhile_append_dropWhile.symm, ?_, fun c hc => List.mem_takeWhile_imp hc⟩
      rw [List.takeWhile_cons_of_pos hdigit]
      exact List.cons_ne_nil _ _
    · cases h

theorem scanWhole_eq_ok {text digits left : List Char} (h : scanWhole text = .ok (digits, left)) :
    text = digits ++ left ∧ digits ≠ [] ∧ AllDigits digits ∧
      (digits.head? = some '0' → digits = ['0']) := by
  unfold scanWhole at h
  cases hdigits : scanDigits text with
  | error fault =>
      rw [hdigits] at h
      cases h
  | ok read =>
      obtain ⟨found, rest⟩ := read
      obtain ⟨htext, hne, hall⟩ := scanDigits_eq_ok hdigits
      rw [hdigits] at h
      simp only [bind, Except.bind] at h
      split at h
      · cases h
      · next hzero =>
        cases h
        refine ⟨htext, hne, hall, fun hhead => ?_⟩
        obtain ⟨c, tail, rfl⟩ := List.exists_cons_of_ne_nil hne
        cases hhead
        cases tail with
        | nil => rfl
        | cons second tail => exact absurd rfl (hzero second tail)

theorem scanFraction_eq_ok {text digits left : List Char}
    (h : scanFraction text = .ok (digits, left)) :
    text = fractionText digits ++ left ∧ AllDigits digits := by
  unfold scanFraction at h
  split at h
  · obtain ⟨rfl, hne, hall⟩ := scanDigits_eq_ok h
    obtain ⟨c, tail, rfl⟩ := List.exists_cons_of_ne_nil hne
    exact ⟨rfl, hall⟩
  · cases h
    exact ⟨rfl, fun c hc => absurd hc List.not_mem_nil⟩

-- Whatever is made of the digits, they are a piece that starts with one.
theorem exists_digits_piece {α : Type} (value : List Char → α) {text left : List Char} {read : α}
    (h : (do
      let (digits, rest) ← scanDigits text
      return (value digits, rest)) = Except.ok (read, left)) :
    ∃ c piece, c.isDigit = true ∧ text = c :: piece ++ left ∧
      ∀ rest, (∀ c ∈ rest.head?, c.isDigit = false) → (do
        let (digits, last) ← scanDigits (c :: piece ++ rest)
        return (value digits, last)) = Except.ok (read, rest) := by
  cases hdigits : scanDigits text with
  | error fault =>
      rw [hdigits] at h
      cases h
  | ok found =>
      obtain ⟨digits, rest⟩ := found
      obtain ⟨rfl, hne, hall⟩ := scanDigits_eq_ok hdigits
      rw [hdigits] at h
      cases h
      obtain ⟨c, piece, rfl⟩ := List.exists_cons_of_ne_nil hne
      refine ⟨c, piece, hall c List.mem_cons_self, rfl, fun rest hrest => ?_⟩
      rw [scanDigits_append hne hall hrest]
      rfl

-- A digit in front means that no sign is written.
theorem scanSignedDigits_of_isDigit {c : Char} (h : c.isDigit = true) (rest : List Char) :
    scanSignedDigits (c :: rest) = do
      let (digits, left) ← scanDigits (c :: rest)
      return ((Nat.ofDigitChars 10 digits 0 : Int), left) := by
  unfold scanSignedDigits
  split
  · next heq =>
    cases heq
    cases h
  · next heq =>
    cases heq
    cases h
  · rfl

theorem scansPieces_scanSignedDigits :
    ScansPieces (fun rest => ∀ c ∈ rest.head?, c.isDigit = false) scanSignedDigits := by
  intro text exponent left h
  unfold scanSignedDigits at h
  split at h
  · obtain ⟨c, piece, -, rfl, hpiece⟩ :=
      exists_digits_piece (fun digits => -Int.ofNat (Nat.ofDigitChars 10 digits 0)) h
    exact ⟨'-' :: c :: piece, rfl, hpiece⟩
  · obtain ⟨c, piece, -, rfl, hpiece⟩ :=
      exists_digits_piece (fun digits => (Nat.ofDigitChars 10 digits 0 : Int)) h
    exact ⟨'+' :: c :: piece, rfl, hpiece⟩
  · obtain ⟨c, piece, hdigit, rfl, hpiece⟩ :=
      exists_digits_piece (fun digits => (Nat.ofDigitChars 10 digits 0 : Int)) h
    refine ⟨c :: piece, rfl, fun rest hrest => ?_⟩
    rw [List.cons_append, scanSignedDigits_of_isDigit hdigit]
    exact hpiece rest hrest

-- An exponent starts with its letter, so it is no part of the digits in front of it.
theorem exists_exponent_piece {text left : List Char} {exponent : Option Int}
    (h : scanExponent text = .ok (exponent, left)) :
    ∃ piece, text = piece ++ left ∧ ∀ rest, Ends rest →
      (∀ c ∈ (piece ++ rest).head?, c.isDigit = false ∧ c ≠ '.') ∧
        scanExponent (piece ++ rest) = .ok (exponent, rest) := by
  have hnone (rest : List Char) (hrest : Ends rest) :
      (∀ c ∈ rest.head?, c.isDigit = false ∧ c ≠ '.') ∧ scanExponent rest = .ok (none, rest) :=
    ⟨fun c hc => ⟨(hrest c hc).1, (hrest c hc).2.1⟩, scanExponent_append none hrest⟩
  unfold scanExponent at h
  split at h
  · next letter tail =>
    split at h
    · next hletter =>
      cases hsigned : scanSignedDigits tail with
      | error fault =>
          rw [hsigned] at h
          cases h
      | ok read =>
          obtain ⟨value, last⟩ := read
          obtain ⟨piece, rfl, hpiece⟩ := scansPieces_scanSignedDigits _ _ _ hsigned
          rw [hsigned] at h
          cases h
          refine ⟨letter :: piece, rfl, fun rest hrest => ⟨fun c hc => ?_, ?_⟩⟩
          · obtain rfl : letter = c := Option.some.inj hc
            rcases hletter with rfl | rfl <;> decide
          · rw [List.cons_append, scanExponent, if_pos hletter, hpiece rest hrest.not_isDigit]
            rfl
    · cases h
      exact ⟨[], rfl, hnone⟩
  · cases h
    exact ⟨[], rfl, hnone⟩

theorem scanSign_eq {text left : List Char} {negative : Bool}
    (h : scanSign text = (negative, left)) : text = signText negative ++ left := by
  unfold scanSign at h
  split at h <;> cases h <;> rfl

theorem exists_parts_of_scan {text left : List Char} {numeral : Numeral}
    (h : scan text = .ok (numeral, left)) :
    ∃ unsigned afterWhole afterFraction, scanSign text = (numeral.negative, unsigned) ∧
      scanWhole unsigned = .ok (numeral.whole, afterWhole) ∧
      scanFraction afterWhole = .ok (numeral.fraction, afterFraction) ∧
      scanExponent afterFraction = .ok (numeral.exponent, left) := by
  unfold scan at h
  cases hwhole : scanWhole (scanSign text).2 with
  | error fault => simp [hwhole, bind, Except.bind] at h
  | ok whole =>
      simp only [hwhole, bind, Except.bind] at h
      split at h
      · cases h
      · next fraction hfraction =>
        split at h
        · cases h
        · next exponent hexponent =>
          cases h
          exact ⟨_, _, _, rfl, hwhole, hfraction, hexponent⟩

theorem scansPieces_scan : ScansPieces Ends scan := by
  intro text numeral left h
  obtain ⟨unsigned, afterWhole, afterFraction, hsign, hwhole, hfraction, hexponent⟩ :=
    exists_parts_of_scan h
  obtain ⟨negative, whole, fraction, exponent⟩ := numeral
  obtain rfl := scanSign_eq hsign
  obtain ⟨rfl, hne, hdigits, hzero⟩ := scanWhole_eq_ok hwhole
  obtain ⟨rfl, hfractionDigits⟩ := scanFraction_eq_ok hfraction
  obtain ⟨piece, rfl, hpiece⟩ := exists_exponent_piece hexponent
  refine ⟨signText negative ++ (whole ++ (fractionText fraction ++ piece)), ?_,
    fun rest hrest => ?_⟩
  · simp only [List.append_assoc]
  · obtain ⟨hhead, hlast⟩ := hpiece rest hrest
    have hsign := scanSign_append negative (whole_head hne hdigits
      (fractionText fraction ++ (piece ++ rest)))
    rw [List.append_assoc, List.append_assoc, List.append_assoc, scan, hsign]
    simp only [scanWhole_append hne hdigits hzero (fractionText_head fraction hhead),
      scanFraction_append hfractionDigits hhead, hlast, bind, Except.bind, pure, Except.pure]

-- A numeral starts with a sign or a digit.
theorem exists_head_of_scan {text : List Char} {read : Numeral × List Char}
    (h : scan text = .ok read) : ∃ c rest, text = c :: rest ∧ (c = '-' ∨ c.isDigit) := by
  obtain ⟨numeral, left⟩ := read
  obtain ⟨unsigned, afterWhole, -, hsign, hwhole, -⟩ := exists_parts_of_scan h
  obtain ⟨rfl, hne, hdigits, -⟩ := scanWhole_eq_ok hwhole
  obtain rfl := scanSign_eq hsign
  cases numeral.negative with
  | true => exact ⟨'-', _, rfl, .inl rfl⟩
  | false =>
      obtain ⟨c, tail, hwhole⟩ := List.exists_cons_of_ne_nil hne
      rw [hwhole] at hdigits ⊢
      exact ⟨c, _, rfl, .inr (hdigits c List.mem_cons_self)⟩

end Numeral

end WriteMemo.Json
