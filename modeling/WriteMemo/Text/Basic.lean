import WriteMemo.Text.Classes

namespace WriteMemo.Text

-- Drops the blanks at both ends.
def trim (text : List Char) : List Char :=
  ((text.dropWhile isBlank).reverse.dropWhile isBlank).reverse

-- Escapes what would not be seen, and what would be drawn onto the character before it.
def shownChar (c : Char) : List Char :=
  if c = '\x00' then ['\\', '0']
  else if c = '\t' then ['\\', 't']
  else if c = '\r' then ['\\', 'r']
  else if c = '\n' then ['\\', 'n']
  else if c = '\\' then ['\\', '\\']
  else if c = '"' then ['\\', '"']
  else if isGraphemeExtend c || isIgnorable c || !isPrintable c then
    ['\\', 'u', '\x7b'] ++ Nat.toDigits 16 c.toNat ++ ['\x7d']
  else [c]

def shown (text : List Char) : List Char :=
  '"' :: text.flatMap shownChar ++ ['"']

end WriteMemo.Text
