import WriteMemo.Proofs.Json.Reader
import WriteMemo.Proofs.Json.Reread
import WriteMemo.Proofs.Json.Write

namespace WriteMemo.Json

-- What is read where the value was written, if its depth allows.
def reread (value : Json) : Json := value.mapNumbers Number.reread

theorem tokens_cons {c : Char} {rest left : List Char} {token : Token}
    (hblank : Token.isBlank c = false) (hscan : Token.scan c rest = (token, left)) :
    tokens (c :: rest) = token :: tokens left := by
  rw [tokens, hblank, hscan]
  rfl

@[simp] theorem tokens_openArray (rest : List Char) :
    tokens ('[' :: rest) = .openArray :: tokens rest :=
  tokens_cons rfl rfl

@[simp] theorem tokens_closeArray (rest : List Char) :
    tokens (']' :: rest) = .closeArray :: tokens rest :=
  tokens_cons rfl rfl

@[simp] theorem tokens_openObject (rest : List Char) :
    tokens ('\x7b' :: rest) = .openObject :: tokens rest :=
  tokens_cons rfl rfl

@[simp] theorem tokens_closeObject (rest : List Char) :
    tokens ('\x7d' :: rest) = .closeObject :: tokens rest :=
  tokens_cons rfl rfl

@[simp] theorem tokens_comma (rest : List Char) :
    tokens (',' :: rest) = .comma :: tokens rest :=
  tokens_cons rfl rfl

@[simp] theorem tokens_colon (rest : List Char) :
    tokens (':' :: rest) = .colon :: tokens rest :=
  tokens_cons rfl rfl

@[simp] theorem tokens_quoted (text : String) (rest : List Char) :
    tokens (Quoted.write text.toList ++ rest) = .text text :: tokens rest := by
  have hscan : Token.scan '"' (text.toList.flatMap Quoted.writeChar ++ '"' :: rest) =
      (.text text, rest) := by
    change Token.ofQuoted _ = _
    rw [Token.ofQuoted, Quoted.scan_write]
    simp only [String.ofList_toList]
  rw [Quoted.write, List.cons_append, List.cons_append, List.append_assoc]
  exact tokens_cons rfl hscan

theorem scan_of_isDigit {c : Char} (h : c.isDigit = true) (rest : List Char) :
    Token.isBlank c = false ∧ Token.scan c rest = Token.ofNumeral (c :: rest) := by
  have hne (other : Char) (hother : other.isDigit = false) : c ≠ other := by
    rintro rfl
    rw [h] at hother
    cases hother
  constructor
  · simp [Token.isBlank, hne ' ' rfl, hne '\t' rfl, hne '\n' rfl, hne '\r' rfl]
  · simp [Token.scan, hne '[' rfl, hne ']' rfl, hne '\x7b' rfl, hne '\x7d' rfl, hne ',' rfl,
      hne ':' rfl, hne '"' rfl, hne 'n' rfl, hne 't' rfl, hne 'f' rfl, h]

-- What a number starts with is read as one.
theorem scan_of_leadKind {c : Char} (h : leadKind? c = some .number) (rest : List Char) :
    Token.isBlank c = false ∧ Token.scan c rest = Token.ofNumeral (c :: rest) := by
  have hnumeral : c = '-' ∨ c.isDigit := by
    unfold leadKind? at h
    repeat' split at h
    all_goals first | assumption | cases h
  rcases hnumeral with rfl | hdigit
  · exact ⟨rfl, rfl⟩
  · exact scan_of_isDigit hdigit rest

theorem tokens_number (value : Number) {rest : List Char} (hrest : Numeral.Ends rest) :
    tokens (value.write ++ rest) = .number value.reread :: tokens rest := by
  obtain ⟨c, tail, hwrite, hlead⟩ := exists_head_number value
  obtain ⟨hblank, hscan⟩ := scan_of_leadKind hlead (tail ++ rest)
  have hnumeral : Token.ofNumeral (value.write ++ rest) = (.number value.reread, rest) := by
    rw [Token.ofNumeral, Number.scan_write value hrest]
    simp only [Number.number?_numeral]
  rw [hwrite, List.cons_append] at hnumeral ⊢
  exact tokens_cons hblank (hscan.trans hnumeral)

-- What follows a value matters only to a number, which must be over. Inside a container that is so.
mutual

theorem tokens_write : ∀ (value : Json) {rest : List Char}, Numeral.Ends rest →
    tokens (value.write ++ rest) = value.reread.spelled ++ tokens rest
  | .null, _, _ | .bool true, _, _ | .bool false, _, _ => tokens_cons rfl rfl
  | .number value, _, hrest => tokens_number value hrest
  | .string text, _, _ => tokens_quoted text _
  | .array [], rest, _ => by
    simp [write, reread, mapNumbers, mapItemsNumbers, spelled]
  | .array (item :: items), rest, _ => by
    simp only [write, List.cons_append, List.append_assoc]
    rw [tokens_openArray, tokens_write item (ends_writeItems items rest),
      tokens_writeItems items rest, ← List.append_assoc]
    rfl
  | .object [], rest, _ => by
    simp [write, reread, mapNumbers, mapMembersNumbers, spelled]
  | .object ((name, value) :: members), rest, _ => by
    simp only [write, List.cons_append, List.append_assoc]
    rw [tokens_openObject, tokens_quoted, tokens_colon,
      tokens_write value (ends_writeMembers members rest), tokens_writeMembers members rest,
      ← List.append_assoc]
    rfl

theorem tokens_writeItems : ∀ (items : List Json) (rest : List Char),
    tokens (writeItems items ++ rest) =
      spelledItems (mapItemsNumbers Number.reread items) ++ tokens rest
  | [], rest => tokens_closeArray rest
  | item :: items, rest => by
    simp only [writeItems, List.cons_append, List.append_assoc]
    rw [tokens_comma, tokens_write item (ends_writeItems items rest), tokens_writeItems items rest,
      ← List.append_assoc]
    rfl

theorem tokens_writeMembers : ∀ (members : List (String × Json)) (rest : List Char),
    tokens (writeMembers members ++ rest) =
      spelledMembers (mapMembersNumbers Number.reread members) ++ tokens rest
  | [], rest => tokens_closeObject rest
  | (name, value) :: members, rest => by
    simp only [writeMembers, List.cons_append, List.append_assoc]
    rw [tokens_comma, tokens_quoted, tokens_colon,
      tokens_write value (ends_writeMembers members rest), tokens_writeMembers members rest,
      ← List.append_assoc]
    rfl

end

@[simp] theorem tokens_nil : tokens [] = [] := by rw [tokens]

-- The depth alone decides whether a written value is read, and then only numbers may differ.
theorem read_render (value : Json) :
    read value.render =
      if value.depth ≤ Reader.depthLimit then .ok value.reread else .error .malformed := by
  have htokens := tokens_write value Numeral.ends_nil
  rw [List.append_nil, tokens_nil, List.append_nil] at htokens
  rw [read, render, String.toList_ofList, htokens, Reader.run_spelled, reread, depth_mapNumbers]

end WriteMemo.Json
