import WriteMemo.Proofs.Json.Accepted
import WriteMemo.Proofs.Json.Pieces
import WriteMemo.Proofs.Json.Tokens

namespace WriteMemo.Json

-- The ways to write a token.
inductive Lexeme : Token → List Char → Prop
  | openArray : Lexeme .openArray ['[']
  | closeArray : Lexeme .closeArray [']']
  | openObject : Lexeme .openObject ['\x7b']
  | closeObject : Lexeme .closeObject ['\x7d']
  | comma : Lexeme .comma [',']
  | colon : Lexeme .colon [':']
  | null : Lexeme .null ['n', 'u', 'l', 'l']
  | true : Lexeme (.bool true) ['t', 'r', 'u', 'e']
  | false : Lexeme (.bool false) ['f', 'a', 'l', 's', 'e']
  | text {content chars : List Char} (hscan : Quoted.scan chars = .ok (content, [])) :
      Lexeme (.text (String.ofList content)) ('"' :: chars)
  | number {numeral : Numeral} {chars : List Char} {value : Number}
      (hscan : Numeral.scan chars = .ok (numeral, [])) (hvalue : numeral.number? = some value) :
      Lexeme (.number value) chars

def Blanks (text : List Char) : Prop := ∀ c ∈ text, Token.isBlank c = true

theorem blanks_nil : Blanks [] := fun _ h => absurd h List.not_mem_nil

-- A text in which the lexemes of these tokens follow each other, blanks apart.
inductive Spaced : List Token → List Char → Prop
  | nil {blanks : List Char} (hblanks : Blanks blanks) : Spaced [] blanks
  | cons {token : Token} {tokens : List Token} {blanks chars rest : List Char}
      (hblanks : Blanks blanks) (hlexeme : Lexeme token chars) (hrest : Spaced tokens rest) :
      Spaced (token :: tokens) (blanks ++ (chars ++ rest))

namespace Token

def IsNumber : Token → Prop
  | .number _ => True
  | _ => False

def IsBroken : Token → Prop
  | .brokenText _ | .brokenOther _ => True
  | _ => False

-- Only two numbers run into each other when nothing stands between them.
def Apart (token next : Token) : Prop := token.IsNumber → ¬next.IsNumber

end Token

variable {token : Token} {chars rest text : List Char} {row : List Token}

theorem tokens_blanks_append {blanks : List Char} (h : Blanks blanks) (rest : List Char) :
    tokens (blanks ++ rest) = tokens rest := by
  induction blanks with
  | nil => rfl
  | cons c blanks ih =>
      rw [List.cons_append, tokens, if_pos (h c List.mem_cons_self)]
      exact ih fun other hother => h other (List.mem_cons_of_mem c hother)

theorem tokens_blanks {blanks : List Char} (h : Blanks blanks) : tokens blanks = [] := by
  have hnil := tokens_blanks_append h []
  rwa [List.append_nil, tokens_nil] at hnil

theorem number_head {numeral : Numeral} (h : Numeral.scan chars = .ok (numeral, [])) :
    ∃ c tail, chars = c :: tail ∧ Token.isBlank c = false ∧
      ∀ rest, Token.scan c rest = Token.ofNumeral (c :: rest) := by
  obtain ⟨c, tail, rfl, hc⟩ := Numeral.exists_head_of_scan h
  refine ⟨c, tail, rfl, ?_⟩
  rcases hc with rfl | hdigit
  · exact ⟨rfl, fun rest => rfl⟩
  · exact ⟨(scan_of_isDigit hdigit []).1, fun rest => (scan_of_isDigit hdigit rest).2⟩

-- A lexeme in front of a text is its first token.
theorem Lexeme.tokens_append (h : Lexeme token chars)
    (hrest : token.IsNumber → Numeral.Ends rest) :
    tokens (chars ++ rest) = token :: tokens rest := by
  cases h with
  | openArray | closeArray | openObject | closeObject | comma | colon | null | true | false =>
      exact tokens_cons rfl rfl
  | @text content chars hscan =>
      obtain ⟨piece, hpiece, hall⟩ := Quoted.scansPieces_scan _ _ _ hscan
      rw [List.append_nil] at hpiece
      subst hpiece
      have hquoted : Token.ofQuoted (chars ++ rest) = (.text (String.ofList content), rest) := by
        rw [Token.ofQuoted, hall rest trivial]
      exact tokens_cons rfl hquoted
  | number hscan hvalue =>
      obtain ⟨piece, hpiece, hall⟩ := Numeral.scansPieces_scan _ _ _ hscan
      rw [List.append_nil] at hpiece
      subst hpiece
      obtain ⟨c, tail, rfl, hblank, hnumeral⟩ := number_head hscan
      have hends := hall rest (hrest trivial)
      rw [List.cons_append] at hends ⊢
      refine tokens_cons hblank ?_
      rw [hnumeral, Token.ofNumeral, hends]
      simp only [hvalue]

theorem ends_of_isBlank {c : Char} (h : Token.isBlank c = true) (rest : List Char) :
    Numeral.Ends (c :: rest) := by
  intro other hother
  obtain rfl : c = other := Option.some.inj hother
  simp only [Token.isBlank, Bool.or_eq_true, beq_iff_eq, or_assoc] at h
  rcases h with rfl | rfl | rfl | rfl <;> decide

-- A number is over where a blank or the lexeme of another token follows.
theorem Spaced.ends (h : Spaced row text) (hnext : ∀ next ∈ row.head?, ¬next.IsNumber) :
    Numeral.Ends text := by
  cases h with
  | nil hblanks =>
      cases text with
      | nil => exact Numeral.ends_nil
      | cons c blanks => exact ends_of_isBlank (hblanks c List.mem_cons_self) blanks
  | @cons token row blanks chars rest hblanks hlexeme hrest =>
      cases blanks with
      | nil =>
          cases hlexeme with
          | number _ _ => exact absurd trivial (hnext _ rfl)
          | _ =>
              intro c hc
              cases hc
              decide
      | cons c blanks => exact ends_of_isBlank (hblanks c List.mem_cons_self) _

theorem Spaced.tokens_eq (h : Spaced row text) (hapart : row.IsChain Token.Apart) :
    tokens text = row := by
  induction h with
  | nil hblanks => exact tokens_blanks hblanks
  | cons hblanks hlexeme hrest ih =>
      obtain ⟨hnext, hrow⟩ := List.isChain_cons.mp hapart
      rw [tokens_blanks_append hblanks, hlexeme.tokens_append, ih hrow]
      exact fun hnumber => hrest.ends fun next hmem => hnext next hmem hnumber

theorem Spaced.blank {c : Char} (hblank : Token.isBlank c = true) (h : Spaced row text) :
    Spaced row (c :: text) := by
  cases h with
  | nil hblanks => exact .nil (List.forall_mem_cons.mpr ⟨hblank, hblanks⟩)
  | @cons token row blanks chars rest hblanks hlexeme hrest =>
      have hmore : Blanks (c :: blanks) := List.forall_mem_cons.mpr ⟨hblank, hblanks⟩
      exact .cons hmore hlexeme hrest

namespace Token

-- What is read as a whole token starts with a lexeme of it.
def Starts (text : List Char) (read : Token × List Char) : Prop :=
  ¬read.1.IsBroken → ∃ chars, text = chars ++ read.2 ∧ Lexeme read.1 chars

theorem Starts.ite {condition : Prop} [Decidable condition] {a b : Token × List Char}
    (ha : condition → Starts text a) (hb : Starts text b) :
    Starts text (if condition then a else b) := by
  split
  · next h => exact ha h
  · exact hb

theorem starts_of_isBroken {read : Token × List Char} (h : read.1.IsBroken) : Starts text read :=
  fun hwhole => absurd h hwhole

theorem scanWord_eq_ok {word left : List Char} (h : scanWord word text = .ok left) :
    text = word ++ left := by
  induction word generalizing text with
  | nil =>
      cases h
      rfl
  | cons expected word ih =>
      cases text with
      | nil => cases h
      | cons c rest =>
          rw [scanWord] at h
          split at h
          · next hc => rw [hc, ih h, List.cons_append]
          · cases h

theorem starts_ofWord {c : Char} {word : List Char} (hlexeme : Lexeme token (c :: word))
    (rest : List Char) : Starts (c :: rest) (ofWord token word rest) := by
  unfold ofWord
  split
  · next left hword => exact fun _ => ⟨c :: word, congrArg (c :: ·) (scanWord_eq_ok hword), hlexeme⟩
  · exact starts_of_isBroken trivial

theorem starts_ofQuoted (rest : List Char) : Starts ('"' :: rest) (ofQuoted rest) := by
  unfold ofQuoted
  split
  · next content left hquoted =>
    obtain ⟨piece, rfl, hpiece⟩ := Quoted.scansPieces_scan _ _ _ hquoted
    have hread := hpiece [] trivial
    rw [List.append_nil] at hread
    exact fun _ => ⟨'"' :: piece, rfl, .text hread⟩
  · exact starts_of_isBroken trivial

theorem starts_ofNumeral (text : List Char) : Starts text (ofNumeral text) := by
  unfold ofNumeral
  split
  · next numeral left hnumeral =>
    split
    · next value hvalue =>
      obtain ⟨piece, rfl, hpiece⟩ := Numeral.scansPieces_scan _ _ _ hnumeral
      have hread := hpiece [] Numeral.ends_nil
      rw [List.append_nil] at hread
      exact fun _ => ⟨piece, rfl, .number hread hvalue⟩
    · exact starts_of_isBroken trivial
  · exact starts_of_isBroken trivial

theorem starts_scan (c : Char) (rest : List Char) : Starts (c :: rest) (scan c rest) := by
  have hsingle (found : Token) (other : Char) (hlexeme : Lexeme found [other]) (hc : c = other) :
      Starts (c :: rest) (found, rest) :=
    fun _ => ⟨[other], congrArg (· :: rest) hc, hlexeme⟩
  have hword (found : Token) (other : Char) (word : List Char)
      (hlexeme : Lexeme found (other :: word)) (hc : c = other) :
      Starts (c :: rest) (ofWord found word rest) :=
    hc ▸ starts_ofWord hlexeme rest
  exact .ite (hsingle .openArray '[' .openArray) <|
    .ite (hsingle .closeArray ']' .closeArray) <|
    .ite (hsingle .openObject '\x7b' .openObject) <|
    .ite (hsingle .closeObject '\x7d' .closeObject) <|
    .ite (hsingle .comma ',' .comma) <|
    .ite (hsingle .colon ':' .colon) <|
    .ite (fun hc => hc ▸ starts_ofQuoted rest) <|
    .ite (hword .null 'n' _ .null) <|
    .ite (hword (.bool true) 't' _ .true) <|
    .ite (hword (.bool false) 'f' _ .false) <|
    .ite (fun _ => starts_ofNumeral (c :: rest)) (starts_of_isBroken trivial)

end Token

-- A text all of whose tokens are whole is a row of their lexemes.
theorem spaced_tokens (text : List Char) (hwhole : ∀ token ∈ tokens text, ¬token.IsBroken) :
    Spaced (tokens text) text := by
  fun_induction tokens text with
  | case1 => exact .nil blanks_nil
  | case2 c rest hblank ih => exact (ih hwhole).blank hblank
  | case3 c rest hblank ih =>
      have hrest := ih fun token hmem => hwhole token (List.mem_cons_of_mem _ hmem)
      obtain ⟨chars, htext, hlexeme⟩ := Token.starts_scan c rest (hwhole _ List.mem_cons_self)
      have hspaced := Spaced.cons blanks_nil hlexeme hrest
      rwa [List.nil_append, ← htext] at hspaced

theorem isChain_cons_of_not_isNumber (h : ¬token.IsNumber) (hrow : row.IsChain Token.Apart) :
    (token :: row).IsChain Token.Apart :=
  List.isChain_cons.mpr ⟨fun _ _ hnumber => absurd hnumber h, hrow⟩

-- Behind an item or a member stands a comma or a bracket.
theorem head_spelledItems_append (items : List Json) (rest : List Token) :
    ∀ next ∈ (spelledItems items ++ rest).head?, ¬next.IsNumber := by
  cases items <;> rintro _ ⟨⟩ <;> exact id

theorem head_spelledMembers_append (members : List (String × Json)) (rest : List Token) :
    ∀ next ∈ (spelledMembers members ++ rest).head?, ¬next.IsNumber := by
  cases members <;> rintro _ ⟨⟩ <;> exact id

-- What follows a value matters, because its last token may be a number.
mutual

theorem isChain_spelled_append : ∀ (value : Json) {rest : List Token}, rest.IsChain Token.Apart →
    (∀ next ∈ rest.head?, ¬next.IsNumber) → (value.spelled ++ rest).IsChain Token.Apart
  | .null, _, hrest, _ | .bool _, _, hrest, _ | .string _, _, hrest, _ =>
    isChain_cons_of_not_isNumber id hrest
  | .number _, _, hrest, hhead => List.isChain_cons.mpr ⟨fun next hmem _ => hhead next hmem, hrest⟩
  | .array [], _, hrest, _ | .object [], _, hrest, _ =>
    isChain_cons_of_not_isNumber id (isChain_cons_of_not_isNumber id hrest)
  | .array (item :: rest), tail, hrest, _ => by
    have hitem := isChain_spelled_append item (isChain_spelledItems_append rest hrest)
      (head_spelledItems_append rest tail)
    rw [spelled, List.append_assoc]
    exact isChain_cons_of_not_isNumber id hitem
  | .object ((name, value) :: rest), tail, hrest, _ => by
    have hvalue := isChain_spelled_append value (isChain_spelledMembers_append rest hrest)
      (head_spelledMembers_append rest tail)
    rw [spelled, List.append_assoc]
    exact isChain_cons_of_not_isNumber id <| isChain_cons_of_not_isNumber id <|
      isChain_cons_of_not_isNumber id hvalue

theorem isChain_spelledItems_append : ∀ (items : List Json) {rest : List Token},
    rest.IsChain Token.Apart → (spelledItems items ++ rest).IsChain Token.Apart
  | [], _, hrest => isChain_cons_of_not_isNumber id hrest
  | item :: rest, tail, hrest => by
    have hitem := isChain_spelled_append item (isChain_spelledItems_append rest hrest)
      (head_spelledItems_append rest tail)
    rw [spelledItems, List.append_assoc]
    exact isChain_cons_of_not_isNumber id hitem

theorem isChain_spelledMembers_append : ∀ (members : List (String × Json)) {rest : List Token},
    rest.IsChain Token.Apart → (spelledMembers members ++ rest).IsChain Token.Apart
  | [], _, hrest => isChain_cons_of_not_isNumber id hrest
  | (name, value) :: rest, tail, hrest => by
    have hvalue := isChain_spelled_append value (isChain_spelledMembers_append rest hrest)
      (head_spelledMembers_append rest tail)
    rw [spelledMembers, List.append_assoc]
    exact isChain_cons_of_not_isNumber id <| isChain_cons_of_not_isNumber id <|
      isChain_cons_of_not_isNumber id hvalue

end

theorem isChain_spelled (value : Json) : value.spelled.IsChain Token.Apart := by
  have h := isChain_spelled_append value List.isChain_nil nofun
  rwa [List.append_nil] at h

-- A broken token stops the reader wherever it is.
theorem Reader.step_of_isBroken (state : State) (h : token.IsBroken) :
    ∃ fault, step state token = .error fault := by
  cases token with
  | brokenText fault | brokenOther fault => cases state <;> exact ⟨_, rfl⟩
  | _ => cases h

theorem Reader.not_isBroken_of_foldlM {state last : State}
    (h : row.foldlM step state = .ok last) : ∀ token ∈ row, ¬token.IsBroken := by
  induction row generalizing state with
  | nil => exact fun token hmem => absurd hmem List.not_mem_nil
  | cons first row ih =>
      cases hstep : step state first with
      | error fault =>
          rw [foldlM_cons_of_error hstep] at h
          cases h
      | ok next =>
          rw [foldlM_cons_of_ok hstep] at h
          refine List.forall_mem_cons.mpr ⟨fun hbroken => ?_, ih h⟩
          obtain ⟨fault, hfault⟩ := step_of_isBroken state hbroken
          rw [hstep] at hfault
          cases hfault

theorem Reader.not_isBroken_of_run {state : State} {value : Json}
    (h : run state row = .ok value) : ∀ token ∈ row, ¬token.IsBroken := by
  rw [run] at h
  cases hrun : row.foldlM step state with
  | error fault =>
      rw [hrun] at h
      cases h
  | ok last => exact not_isBroken_of_foldlM hrun

variable {value : Json}

theorem spaced_of_read {text : String} (h : read text = .ok value) :
    Spaced value.spelled text.toList := by
  have hspaced := spaced_tokens text.toList (Reader.not_isBroken_of_run h)
  rwa [(read_eq_ok_iff.mp h).1] at hspaced

-- Of a row of lexemes the depth alone decides whether it is read, wherever the blanks are.
theorem read_of_spaced {text : String} (h : Spaced value.spelled text.toList) :
    read text = if value.depth ≤ Reader.depthLimit then .ok value else .error .malformed := by
  rw [read, h.tokens_eq (isChain_spelled value), Reader.run_spelled]

end WriteMemo.Json
