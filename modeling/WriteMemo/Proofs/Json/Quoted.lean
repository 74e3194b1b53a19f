import WriteMemo.Json.Quoted

namespace WriteMemo.Json.Quoted

theorem hexValue?_digitChar : ∀ n < 16, hexValue? (Nat.digitChar n) = some n := by decide

theorem scanUnit_control {n : Nat} (hcontrol : n < 0x20) (rest : List Char) :
    scanUnit ('0' :: '0' :: Nat.digitChar (n / 16) :: Nat.digitChar (n % 16) :: rest) =
      .ok (n, rest) := by
  have hzero : hexValue? '0' = some 0 := rfl
  have hhigh := hexValue?_digitChar (n / 16) (by omega)
  have hlow := hexValue?_digitChar (n % 16) (by omega)
  have hunit : hexUnit? '0' '0' (Nat.digitChar (n / 16)) (Nat.digitChar (n % 16)) = some n := by
    simp only [hexUnit?, hzero, hhigh, hlow, Option.bind_eq_bind, Option.bind_some, Option.pure_def,
      Option.some.injEq]
    omega
  rw [scanUnit, hunit]

theorem scanCodePoint_control {c : Char} (hcontrol : c.toNat < 0x20) (rest : List Char) :
    scanCodePoint ('0' :: '0' :: Nat.digitChar (c.toNat / 16) :: Nat.digitChar (c.toNat % 16) ::
      rest) = .ok (c, rest) := by
  have hbelow : ¬(0xD800 ≤ c.toNat ∧ c.toNat < 0xDC00) := by omega
  have hbelow' : ¬(0xDC00 ≤ c.toNat ∧ c.toNat < 0xE000) := by omega
  simp only [scanCodePoint, scanUnit_control hcontrol, bind, Except.bind, hbelow, hbelow',
    ite_false, pure, Except.pure, Char.ofNat_toNat]

-- Puts a character in front of a text that was read.
def cons (c : Char) (read : List Char × List Char) : List Char × List Char := (c :: read.1, read.2)

theorem scan_of_escape {rest left : List Char} {c : Char}
    (hescape : scanEscape rest = .ok (c, left)) :
    scan ('\\' :: rest) = (scan left).map (cons c) := by
  rw [scan, if_neg (by decide), if_pos rfl]
  split
  · next hfault =>
    rw [hescape] at hfault
    cases hfault
  · next hread =>
    rw [hescape] at hread
    cases hread
    cases scan left <;> rfl

theorem scan_of_plain {c : Char} (hquote : c ≠ '"') (hslash : c ≠ '\\')
    (hcontrol : ¬c.toNat < 0x20) (rest : List Char) :
    scan (c :: rest) = (scan rest).map (cons c) := by
  rw [scan, if_neg hquote, if_neg hslash, if_neg hcontrol]
  cases scan rest <;> rfl

-- The letter that stands for a character behind a backslash, if it has one.
def letter? (c : Char) : Option Char :=
  if c = '"' then some '"'
  else if c = '\\' then some '\\'
  else if c = '\x08' then some 'b'
  else if c = '\x0c' then some 'f'
  else if c = '\n' then some 'n'
  else if c = '\r' then some 'r'
  else if c = '\t' then some 't'
  else none

theorem writeChar_eq (c : Char) :
    writeChar c =
      match letter? c with
      | some letter => ['\\', letter]
      | none =>
        if c.toNat < 0x20 then
          ['\\', 'u', '0', '0', Nat.digitChar (c.toNat / 16), Nat.digitChar (c.toNat % 16)]
        else [c] := by
  grind [writeChar, letter?]

theorem scanEscape_letter {c letter : Char} (hletter : letter? c = some letter) (rest : List Char) :
    scanEscape (letter :: rest) = .ok (c, rest) := by
  unfold letter? at hletter
  repeat' split at hletter
  all_goals cases hletter
  all_goals
    subst_vars
    rfl

theorem scan_writeChar (c : Char) (rest : List Char) :
    scan (writeChar c ++ rest) = (scan rest).map (cons c) := by
  rw [writeChar_eq]
  cases hletter : letter? c with
  | some letter => exact scan_of_escape (scanEscape_letter hletter rest)
  | none =>
      dsimp only
      split
      · next hcontrol => exact scan_of_escape (scanCodePoint_control hcontrol rest)
      · next hcontrol =>
        have hquote : c ≠ '"' := by
          rintro rfl
          cases hletter
        have hslash : c ≠ '\\' := by
          rintro rfl
          cases hletter
        exact scan_of_plain hquote hslash hcontrol rest

theorem scan_write (text rest : List Char) :
    scan (text.flatMap writeChar ++ '"' :: rest) = .ok (text, rest) := by
  induction text with
  | nil =>
      rw [List.flatMap_nil, List.nil_append, scan]
      rfl
  | cons c text ih =>
      rw [List.flatMap_cons, List.append_assoc, scan_writeChar, ih]
      rfl

theorem write_append_inj {text other rest left : List Char}
    (h : write text ++ rest = write other ++ left) : text = other ∧ rest = left := by
  have hscan (text rest : List Char) : scan ((write text ++ rest).drop 1) = .ok (text, rest) := by
    simpa [write] using scan_write text rest
  have hread := hscan text rest
  rw [h, hscan other left] at hread
  cases hread
  exact ⟨rfl, rfl⟩

end WriteMemo.Json.Quoted
