import WriteMemo.Binary64.Basic

namespace WriteMemo.Binary64

-- The largest power of ten among the doubles is the one with exponent 308.
def topPower : Nat := 308

def powerOfTen (exponent : Nat) : Binary64 := ofNat (Nat.pow 10 exponent)

-- An exponent below the range is worked off in steps of the largest power, unless the value has
-- vanished before.
def dividedByTens (x : Binary64) (exponent : Nat) : Binary64 :=
  if exponent ≤ topPower then x.scaleDown (powerOfTen exponent)
  else if x.rank = 0 then x
  else (x.scaleDown (powerOfTen topPower)).dividedByTens (exponent - topPower)
termination_by exponent
decreasing_by simp only [topPower] at *; omega

-- Zero stays zero under any exponent. Otherwise the exponent and the product must be in range.
def multipliedByTens? (x : Binary64) (exponent : Nat) : Option Binary64 :=
  if exponent ≤ topPower then x.scaleUp? (powerOfTen exponent)
  else if x.rank = 0 then some x
  else none

-- The significand and the power of ten become doubles first, and each step rounds. So the result
-- may differ in its last bits from the double nearest to the decimal.
def scaled? (significand : Nat) : Int → Option Binary64
  | .ofNat exponent => (ofNat significand).multipliedByTens? exponent
  | .negSucc exponent => some ((ofNat significand).dividedByTens (exponent + 1))

end WriteMemo.Binary64
