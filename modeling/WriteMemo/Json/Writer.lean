import WriteMemo.Binary64.Shortest
import WriteMemo.Json.Basic
import WriteMemo.Json.Quoted

namespace WriteMemo.Json

-- Between these exponents of the first digit a double is written without an exponent.
structure FloatLayout where
  lowest : Int
  highest : Int

def floatLayout : FloatLayout := ⟨-5, 15⟩

namespace Number

def naturalText (n : Nat) : List Char := Nat.toDigits 10 n

-- Digits around the point, with at least one digit on each side of it.
def positional (digits : List Char) : Int → List Char
  | .ofNat leading =>
    if digits.length ≤ leading + 1 then
      digits ++ List.replicate (leading + 1 - digits.length) '0' ++ ['.', '0']
    else digits.take (leading + 1) ++ '.' :: digits.drop (leading + 1)
  | .negSucc gap => '0' :: '.' :: List.replicate gap '0' ++ digits

def exponentText : Int → List Char
  | .ofNat n => 'e' :: '+' :: naturalText n
  | .negSucc n => 'e' :: '-' :: naturalText (n + 1)

-- A single digit takes no point.
def scientific (digits : List Char) (leading : Int) : List Char :=
  match digits with
  | [] => exponentText leading
  | [digit] => digit :: exponentText leading
  | digit :: rest => digit :: '.' :: rest ++ exponentText leading

def withoutTrailingZeros (digits : List Char) : List Char :=
  (digits.reverse.dropWhile (· == '0')).reverse

def magnitudeText (rank : Nat) : List Char :=
  let decimal := Binary64.shortest rank
  let digits := naturalText decimal.digits
  let leading := decimal.exponent + digits.length - 1
  let significant := withoutTrailingZeros digits
  if floatLayout.lowest ≤ leading ∧ leading ≤ floatLayout.highest then
    positional significant leading
  else scientific significant leading

def floatText (x : Binary64) : List Char :=
  let magnitude := if x.rank = 0 then ['0', '.', '0'] else magnitudeText x.rank
  if x.negative then '-' :: magnitude else magnitude

def write : Number → List Char
  | .natural value => naturalText value
  | .negative beyond => '-' :: naturalText (beyond + 1)
  | .float value => floatText value

end Number

mutual

def write : Json → List Char
  | .null => ['n', 'u', 'l', 'l']
  | .bool true => ['t', 'r', 'u', 'e']
  | .bool false => ['f', 'a', 'l', 's', 'e']
  | .number value => value.write
  | .string text => Quoted.write text.toList
  | .array [] => ['[', ']']
  | .array (item :: rest) => '[' :: item.write ++ writeItems rest
  | .object [] => ['\x7b', '\x7d']
  | .object ((name, value) :: rest) =>
    '\x7b' :: Quoted.write name.toList ++ ':' :: value.write ++ writeMembers rest

-- The items after the first one, and the closing bracket.
def writeItems : List Json → List Char
  | [] => [']']
  | item :: rest => ',' :: item.write ++ writeItems rest

def writeMembers : List (String × Json) → List Char
  | [] => ['\x7d']
  | (name, value) :: rest =>
    ',' :: Quoted.write name.toList ++ ':' :: value.write ++ writeMembers rest

end

def render (value : Json) : String := String.ofList value.write

end WriteMemo.Json
