import WriteMemo.Json.Basic

namespace WriteMemo.Json.Quoted

def writeChar (c : Char) : List Char :=
  if c = '"' then ['\\', '"']
  else if c = '\\' then ['\\', '\\']
  else if c = '\x08' then ['\\', 'b']
  else if c = '\x0c' then ['\\', 'f']
  else if c = '\n' then ['\\', 'n']
  else if c = '\r' then ['\\', 'r']
  else if c = '\t' then ['\\', 't']
  else if c.toNat < 0x20 then
    ['\\', 'u', '0', '0', Nat.digitChar (c.toNat / 16), Nat.digitChar (c.toNat % 16)]
  else [c]

def write (text : List Char) : List Char :=
  '"' :: text.flatMap writeChar ++ ['"']

def hexValue? (c : Char) : Option Nat :=
  if '0' ≤ c ∧ c ≤ '9' then some (c.toNat - '0'.toNat)
  else if 'a' ≤ c ∧ c ≤ 'f' then some (c.toNat - 'a'.toNat + 10)
  else if 'A' ≤ c ∧ c ≤ 'F' then some (c.toNat - 'A'.toNat + 10)
  else none

def hexUnit? (a b c d : Char) : Option Nat := do
  return ((← hexValue? a) * 16 + (← hexValue? b)) * 256 + (← hexValue? c) * 16 + (← hexValue? d)

def utf8Length (text : List Char) : Nat :=
  text.foldl (fun length c => length + c.utf8Size) 0

-- A unit is four hexadecimal digits. The text is unfinished when fewer than four bytes of it are
-- left, whichever bytes they are.
def scanUnit : List Char → Except TextFault (Nat × List Char)
  | a :: b :: c :: d :: rest =>
    match hexUnit? a b c d with
    | some unit => .ok (unit, rest)
    | none => .error .malformed
  | short => .error (if utf8Length short < 4 then .unfinished else .malformed)

-- What must follow a leading surrogate: a second unit escape.
def scanUnitEscape : List Char → Except TextFault (Nat × List Char)
  | [] => .error .unfinished
  | c :: rest =>
    if c ≠ '\\' then .error .malformed
    else match rest with
      | [] => .error .unfinished
      | c :: rest => if c = 'u' then scanUnit rest else .error .malformed

-- A character by its units. Surrogates count only as a leading one followed by a trailing one.
def scanCodePoint (text : List Char) : Except TextFault (Char × List Char) := do
  let (unit, rest) ← scanUnit text
  if 0xD800 ≤ unit ∧ unit < 0xDC00 then
    let (second, rest) ← scanUnitEscape rest
    if 0xDC00 ≤ second ∧ second < 0xE000 then
      return (Char.ofNat (0x10000 + (unit - 0xD800) * 0x400 + (second - 0xDC00)), rest)
    else throw .malformed
  else if 0xDC00 ≤ unit ∧ unit < 0xE000 then throw .malformed
  else return (Char.ofNat unit, rest)

-- What a letter after the backslash stands for, the unit escape apart.
def escaped? (c : Char) : Option Char :=
  if c = '"' ∨ c = '\\' ∨ c = '/' then some c
  else if c = 'b' then some '\x08'
  else if c = 'f' then some '\x0c'
  else if c = 'n' then some '\n'
  else if c = 'r' then some '\r'
  else if c = 't' then some '\t'
  else none

-- The rest of an escape, after its backslash.
def scanEscape : List Char → Except TextFault (Char × List Char)
  | [] => .error .unfinished
  | c :: rest =>
    if c = 'u' then scanCodePoint rest
    else match escaped? c with
      | some character => .ok (character, rest)
      | none => .error .malformed

theorem length_of_scanUnit {text : List Char} {read : Nat × List Char}
    (h : scanUnit text = .ok read) : read.2.length < text.length := by
  unfold scanUnit at h
  split at h
  · split at h
    · simp only [Except.ok.injEq] at h
      simp only [← h, List.length_cons]
      omega
    · simp at h
  · simp at h

theorem length_of_scanUnitEscape {text : List Char} {read : Nat × List Char}
    (h : scanUnitEscape text = .ok read) : read.2.length < text.length := by
  unfold scanUnitEscape at h
  split at h
  · simp at h
  · split at h
    · simp at h
    · split at h
      · simp at h
      · split at h
        · exact Nat.lt_succ_of_lt (Nat.lt_succ_of_lt (length_of_scanUnit h))
        · simp at h

theorem length_of_scanCodePoint {text : List Char} {read : Char × List Char}
    (h : scanCodePoint text = .ok read) : read.2.length < text.length := by
  unfold scanCodePoint at h
  cases hfirst : scanUnit text with
  | error fault => simp [hfirst, bind, Except.bind] at h
  | ok first =>
    have hafterFirst := length_of_scanUnit hfirst
    simp only [hfirst, bind, Except.bind] at h
    split at h
    · split at h
      · simp at h
      · next second hsecond =>
        split at h
        · simp only [pure, Except.pure, Except.ok.injEq] at h
          rw [← h]
          exact Nat.lt_trans (length_of_scanUnitEscape hsecond) hafterFirst
        · simp [throw, throwThe, MonadExceptOf.throw] at h
    · split at h
      · simp [throw, throwThe, MonadExceptOf.throw] at h
      · simp only [pure, Except.pure, Except.ok.injEq] at h
        rw [← h]
        exact hafterFirst

theorem length_of_scanEscape {text : List Char} {read : Char × List Char}
    (h : scanEscape text = .ok read) : read.2.length < text.length := by
  unfold scanEscape at h
  split at h
  · simp at h
  · split at h
    · exact Nat.lt_succ_of_lt (length_of_scanCodePoint h)
    · split at h
      · simp only [Except.ok.injEq] at h
        simp [← h]
      · simp at h

-- The characters up to the closing quote, and what is left after it. The opening quote is gone.
def scan : List Char → Except TextFault (List Char × List Char)
  | [] => .error .unfinished
  | c :: rest =>
    if c = '"' then .ok ([], rest)
    else if c = '\\' then
      match h : scanEscape rest with
      | .error fault => .error fault
      | .ok (character, left) => do
        have : left.length < rest.length := length_of_scanEscape h
        let (text, left) ← scan left
        return (character :: text, left)
    else if c.toNat < 0x20 then .error .malformed
    else do
      let (text, left) ← scan rest
      return (c :: text, left)
termination_by text => text.length
decreasing_by
  · simp only [List.length_cons]
    omega
  · simp only [List.length_cons]
    omega

theorem length_of_scan {text : List Char} {read : List Char × List Char}
    (h : scan text = .ok read) : read.2.length < text.length := by
  fun_induction scan text generalizing read with
  | case1 => simp at h
  | case2 rest =>
    simp only [Except.ok.injEq] at h
    simp [← h]
  | case3 => simp at h
  | case4 rest character left hescape hlength hquote ih =>
    cases hscan : scan left with
    | error fault => simp [hscan, bind, Except.bind] at h
    | ok text =>
      simp only [hscan, bind, Except.bind, pure, Except.pure, Except.ok.injEq] at h
      have hleft := ih hscan
      rw [← h]
      exact Nat.lt_succ_of_lt (Nat.lt_trans hleft hlength)
  | case5 => simp at h
  | case6 c rest hquote hslash hcontrol ih =>
    cases hscan : scan rest with
    | error fault => simp [hscan, bind, Except.bind] at h
    | ok text =>
      simp only [hscan, bind, Except.bind, pure, Except.pure, Except.ok.injEq] at h
      have hleft := ih hscan
      rw [← h]
      exact Nat.lt_succ_of_lt hleft

end WriteMemo.Json.Quoted
