import WriteMemo.Json.Numeral
import WriteMemo.Json.Quoted

namespace WriteMemo.Json

-- A text whose characters stop making sense ends in a broken token, which holds the fault until a
-- reader gets there.
inductive Token where
  | openArray
  | closeArray
  | openObject
  | closeObject
  | comma
  | colon
  | null
  | bool (value : Bool)
  | number (value : Number)
  | text (value : String)
  | brokenText (fault : TextFault)
  | brokenOther (fault : TextFault)
  deriving DecidableEq

namespace Token

def isBlank (c : Char) : Bool :=
  c == ' ' || c == '\t' || c == '\n' || c == '\r'

-- What is left after a word that has to stand in front.
def scanWord : List Char → List Char → Except TextFault (List Char)
  | [], rest => .ok rest
  | _ :: _, [] => .error .unfinished
  | expected :: word, c :: rest =>
    if c = expected then scanWord word rest else .error .malformed

def ofWord (token : Token) (word rest : List Char) : Token × List Char :=
  match scanWord word rest with
  | .ok left => (token, left)
  | .error fault => (.brokenOther fault, [])

def ofQuoted (rest : List Char) : Token × List Char :=
  match Quoted.scan rest with
  | .ok (content, left) => (.text (String.ofList content), left)
  | .error fault => (.brokenText fault, [])

def ofNumeral (text : List Char) : Token × List Char :=
  match Numeral.scan text with
  | .ok (numeral, left) =>
    match numeral.number? with
    | some value => (.number value, left)
    | none => (.brokenOther .malformed, [])
  | .error fault => (.brokenOther fault, [])

-- The token that starts with `c`, and what is left after it.
def scan (c : Char) (rest : List Char) : Token × List Char :=
  if c = '[' then (.openArray, rest)
  else if c = ']' then (.closeArray, rest)
  else if c = '\x7b' then (.openObject, rest)
  else if c = '\x7d' then (.closeObject, rest)
  else if c = ',' then (.comma, rest)
  else if c = ':' then (.colon, rest)
  else if c = '"' then ofQuoted rest
  else if c = 'n' then ofWord .null ['u', 'l', 'l'] rest
  else if c = 't' then ofWord (.bool true) ['r', 'u', 'e'] rest
  else if c = 'f' then ofWord (.bool false) ['a', 'l', 's', 'e'] rest
  else if c = '-' ∨ c.isDigit then ofNumeral (c :: rest)
  else (.brokenOther .malformed, [])

theorem length_of_scanWord {word text rest : List Char}
    (h : scanWord word text = .ok rest) : rest.length ≤ text.length := by
  induction word generalizing text with
  | nil =>
    cases h
    exact Nat.le_refl _
  | cons expected word ih =>
    cases text with
    | nil => simp [scanWord] at h
    | cons c tail =>
      rw [scanWord] at h
      split at h
      · have := ih h
        simp only [List.length_cons]
        omega
      · simp at h

theorem length_ofWord_le (token : Token) (word rest : List Char) :
    (ofWord token word rest).2.length ≤ rest.length := by
  unfold ofWord
  split
  · next left h => exact length_of_scanWord h
  · exact Nat.zero_le _

theorem length_ofQuoted_le (rest : List Char) : (ofQuoted rest).2.length ≤ rest.length := by
  unfold ofQuoted
  split
  · next text left h => exact Nat.le_of_lt (Quoted.length_of_scan h)
  · exact Nat.zero_le _

theorem length_ofNumeral_lt (c : Char) (rest : List Char) :
    (ofNumeral (c :: rest)).2.length < (c :: rest).length := by
  unfold ofNumeral
  split
  · next numeral left h =>
    split
    · exact Numeral.length_of_scan h
    · simp
  · simp

private theorem length_ite_le {condition : Prop} [Decidable condition] {n : Nat}
    {a b : Token × List Char} (ha : a.2.length ≤ n) (hb : b.2.length ≤ n) :
    (if condition then a else b).2.length ≤ n := by
  split
  · exact ha
  · exact hb

theorem length_scan_le (c : Char) (rest : List Char) :
    (scan c rest).2.length ≤ rest.length := by
  have hsame : rest.length ≤ rest.length := Nat.le_refl _
  exact length_ite_le hsame <| length_ite_le hsame <| length_ite_le hsame <|
    length_ite_le hsame <| length_ite_le hsame <| length_ite_le hsame <|
    length_ite_le (length_ofQuoted_le rest) <| length_ite_le (length_ofWord_le _ _ _) <|
    length_ite_le (length_ofWord_le _ _ _) <| length_ite_le (length_ofWord_le _ _ _) <|
    length_ite_le (Nat.le_of_lt_succ (length_ofNumeral_lt c rest)) (Nat.zero_le _)

end Token

def tokens : List Char → List Token
  | [] => []
  | c :: rest =>
    if Token.isBlank c then tokens rest
    else (Token.scan c rest).1 :: tokens (Token.scan c rest).2
termination_by text => text.length
decreasing_by
  · simp
  · have := Token.length_scan_le c rest
    simp only [List.length_cons]
    omega

end WriteMemo.Json
