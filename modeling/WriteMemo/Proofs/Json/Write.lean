import WriteMemo.Proofs.Json.Number
import WriteMemo.Proofs.Json.Quoted

namespace WriteMemo.Json

-- The kind of the values whose text starts with a character.
def leadKind? (c : Char) : Option Kind :=
  if c = 'n' then some .null
  else if c = 't' ∨ c = 'f' then some .boolean
  else if c = '"' then some .string
  else if c = '[' then some .array
  else if c = '\x7b' then some .object
  else if c = '-' ∨ c.isDigit then some .number
  else none

theorem leadKind?_of_isDigit {c : Char} (h : c.isDigit = true) : leadKind? c = some .number := by
  have hne (other : Char) (hother : other.isDigit = false) : c ≠ other := by
    rintro rfl
    rw [h] at hother
    cases hother
  simp only [leadKind?, hne 'n' rfl, hne 't' rfl, hne 'f' rfl, hne '"' rfl, hne '[' rfl,
    hne '\x7b' rfl, h, if_false, or_true, or_self, if_true]

theorem exists_head_number (value : Number) :
    ∃ c rest, value.write = c :: rest ∧ leadKind? c = some .number := by
  have hwell := Number.wellFormed_numeral value
  obtain ⟨digit, whole, hwhole⟩ := List.exists_cons_of_ne_nil hwell.whole_ne_nil
  have hdigit : digit.isDigit = true :=
    hwell.whole_digits digit (hwhole ▸ List.mem_cons_self)
  rw [← Number.text_numeral, Numeral.text, Numeral.unsignedText, hwhole]
  cases value.numeral.negative with
  | true => exact ⟨'-', _, rfl, rfl⟩
  | false => exact ⟨digit, _, rfl, leadKind?_of_isDigit hdigit⟩

theorem exists_head (value : Json) :
    ∃ c rest, value.write = c :: rest ∧ leadKind? c = some value.kind := by
  cases value with
  | null => exact ⟨_, _, rfl, rfl⟩
  | bool value => cases value <;> exact ⟨_, _, rfl, rfl⟩
  | number value => exact exists_head_number value
  | string text => exact ⟨_, _, rfl, rfl⟩
  | array items => cases items <;> exact ⟨_, _, rfl, rfl⟩
  | object members => cases members <;> exact ⟨_, _, rfl, rfl⟩

theorem kind_of_write_append {a b : Json} {s t : List Char} (h : a.write ++ s = b.write ++ t) :
    a.kind = b.kind := by
  obtain ⟨c, rest, ha, hkind⟩ := exists_head a
  obtain ⟨other, left, hb, hother⟩ := exists_head b
  rw [ha, hb, List.cons_append, List.cons_append, List.cons.injEq] at h
  rw [h.1, hother] at hkind
  exact (Option.some_inj.mp hkind).symm

theorem ends_writeItems (items : List Json) (s : List Char) :
    Numeral.Ends (writeItems items ++ s) := by
  cases items <;> simp [Numeral.Ends, writeItems]

theorem ends_writeMembers (members : List (String × Json)) (s : List Char) :
    Numeral.Ends (writeMembers members ++ s) := by
  cases members with
  | nil => simp [Numeral.Ends, writeMembers]
  | cons member rest =>
      obtain ⟨name, value⟩ := member
      simp [Numeral.Ends, writeMembers]

-- No value starts like the end of an array.
theorem write_append_ne_close (value : Json) (s t : List Char) : value.write ++ s ≠ ']' :: t := by
  obtain ⟨c, rest, hwrite, hkind⟩ := exists_head value
  rw [hwrite, List.cons_append]
  intro h
  rw [(List.cons.inj h).1] at hkind
  cases hkind

-- What is written between the brackets is what stands behind the first comma of the items as
-- later ones, or just the closing bracket.
theorem writeItems_of_array {as bs : List Json} {s t : List Char}
    (h : (Json.array as).write ++ s = (Json.array bs).write ++ t) :
    writeItems as ++ s = writeItems bs ++ t := by
  cases as with
  | nil =>
      cases bs with
      | nil => simpa [write, writeItems] using h
      | cons b bs =>
          simp only [write, List.cons_append, List.append_assoc, List.nil_append,
            List.cons.injEq, true_and] at h
          exact absurd h.symm (write_append_ne_close b _ _)
  | cons a as =>
      cases bs with
      | nil =>
          simp only [write, List.cons_append, List.append_assoc, List.nil_append,
            List.cons.injEq, true_and] at h
          exact absurd h (write_append_ne_close a _ _)
      | cons b bs => simpa [write, writeItems] using h

theorem writeMembers_of_object {as bs : List (String × Json)} {s t : List Char}
    (h : (Json.object as).write ++ s = (Json.object bs).write ++ t) :
    writeMembers as ++ s = writeMembers bs ++ t := by
  cases as with
  | nil =>
      cases bs with
      | nil => simpa [write, writeMembers] using h
      | cons member bs => simp [write, Quoted.write] at h
  | cons member as =>
      cases bs with
      | nil => simp [write, Quoted.write] at h
      | cons other bs => simpa [write, writeMembers] using h

-- The first character gives the kind, and then the parts are taken off from the left. The reader is
-- of no use here, because reading rounds doubles.
mutual

theorem write_append_inj : ∀ (a b : Json) {s t : List Char}, Numeral.Ends s → Numeral.Ends t →
    a.write ++ s = b.write ++ t → a = b ∧ s = t
  | .null, b, s, t, _, _, h => by
    cases b <;> cases kind_of_write_append h
    exact ⟨rfl, List.append_cancel_left h⟩
  | .bool value, b, s, t, _, _, h => by
    cases b <;> cases kind_of_write_append h
    next other =>
    cases value <;> cases other <;> simp_all [write]
  | .number value, b, s, t, hs, ht, h => by
    cases b <;> cases kind_of_write_append h
    next other =>
    obtain ⟨rfl, hrest⟩ := Number.write_append_inj hs ht h
    exact ⟨rfl, hrest⟩
  | .string text, b, s, t, _, _, h => by
    cases b <;> cases kind_of_write_append h
    next other =>
    obtain ⟨htext, hrest⟩ := Quoted.write_append_inj h
    exact ⟨congrArg Json.string (String.toList_inj.mp htext), hrest⟩
  | .array items, b, s, t, _, _, h => by
    cases b <;> cases kind_of_write_append h
    next others =>
    obtain ⟨rfl, hrest⟩ := writeItems_append_inj items others (writeItems_of_array h)
    exact ⟨rfl, hrest⟩
  | .object members, b, s, t, _, _, h => by
    cases b <;> cases kind_of_write_append h
    next others =>
    obtain ⟨rfl, hrest⟩ := writeMembers_append_inj members others (writeMembers_of_object h)
    exact ⟨rfl, hrest⟩

theorem writeItems_append_inj : ∀ (as bs : List Json) {s t : List Char},
    writeItems as ++ s = writeItems bs ++ t → as = bs ∧ s = t
  | [], [], s, t, h => ⟨rfl, List.append_cancel_left h⟩
  | [], b :: bs, s, t, h => by simp [writeItems] at h
  | a :: as, [], s, t, h => by simp [writeItems] at h
  | a :: as, b :: bs, s, t, h => by
    simp only [writeItems, List.cons_append, List.append_assoc, List.cons.injEq, true_and] at h
    obtain ⟨rfl, hitems⟩ := write_append_inj a b (ends_writeItems as s) (ends_writeItems bs t) h
    obtain ⟨rfl, hrest⟩ := writeItems_append_inj as bs hitems
    exact ⟨rfl, hrest⟩

theorem writeMembers_append_inj : ∀ (as bs : List (String × Json)) {s t : List Char},
    writeMembers as ++ s = writeMembers bs ++ t → as = bs ∧ s = t
  | [], [], s, t, h => ⟨rfl, List.append_cancel_left h⟩
  | [], (name, b) :: bs, s, t, h => by simp [writeMembers] at h
  | (name, a) :: as, [], s, t, h => by simp [writeMembers] at h
  | (name, a) :: as, (other, b) :: bs, s, t, h => by
    simp only [writeMembers, List.cons_append, List.append_assoc, List.cons.injEq, true_and] at h
    obtain ⟨hname, hvalue⟩ := Quoted.write_append_inj h
    obtain ⟨rfl, hmembers⟩ := write_append_inj a b (ends_writeMembers as s)
      (ends_writeMembers bs t) (List.cons.inj hvalue).2
    obtain ⟨rfl, hrest⟩ := writeMembers_append_inj as bs hmembers
    exact ⟨congrArg (fun name => (name, a) :: as) (String.toList_inj.mp hname), hrest⟩

end

theorem write_injective {a b : Json} (h : a.write = b.write) : a = b :=
  (write_append_inj a b Numeral.ends_nil Numeral.ends_nil (congrArg (· ++ []) h)).1

theorem render_injective {a b : Json} (h : a.render = b.render) : a = b :=
  write_injective (String.ofList_inj.mp h)

end WriteMemo.Json
