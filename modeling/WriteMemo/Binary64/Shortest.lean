import WriteMemo.Binary64.Basic

namespace WriteMemo

-- Stands for `digits * 10 ^ exponent`.
structure Decimal where
  digits : Nat
  exponent : Int
  deriving DecidableEq

namespace Binary64

-- The reals that round to a rank reach halfway to both neighbouring ranks.
-- The ends belong to it when the rank is even. Both ends and twice the quotient are in half units.
def readsBackAs (rank num den : Nat) : Bool :=
  let low := (unitsOfRank (rank - 1) + unitsOfRank rank) * den
  let high := (unitsOfRank rank + unitsOfRank (rank + 1)) * den
  let twice := 2 * num
  if rank % 2 == 0 then low ≤ twice && twice ≤ high else low < twice && twice < high

-- A decimal as a quotient of units.
def decimalUnits (decimal : Decimal) : Nat × Nat :=
  let scaled := decimal.digits <<< 1074
  match decimal.exponent with
  | .ofNat n => (scaled * Nat.pow 10 n, 1)
  | .negSucc n => (scaled, Nat.pow 10 (n + 1))

def decimalReadsBackAs (rank : Nat) (decimal : Decimal) : Bool :=
  let (num, den) := decimalUnits decimal
  readsBackAs rank num den

-- Whether 10 ^ exponent is at most the value.
def powerBelow (rank : Nat) (exponent : Int) : Bool :=
  let (num, den) := decimalUnits ⟨1, exponent⟩
  num ≤ unitsOfRank rank * den

-- The exponent of the first digit. The binary length of the value gives it up to one step.
def leadingExponent (rank : Nat) : Int :=
  let binary : Int := (unitsOfRank rank).log2 - 1074
  let guess := binary * 30103 / 100000
  if powerBelow rank (guess + 1) then guess + 1
  else if powerBelow rank guess then guess
  else guess - 1

-- The value in steps of 10 ^ exponent, as a quotient.
def inSteps (rank : Nat) (exponent : Int) : Nat × Nat :=
  let (num, den) := decimalUnits ⟨1, exponent⟩
  (unitsOfRank rank * den, num)

def truncated (rank : Nat) (exponent : Int) : Decimal :=
  let (num, den) := inSteps rank exponent
  ⟨num / den, exponent⟩

-- The neighbour on the grid of step 10 ^ exponent that reads back, the nearer of two.
-- A value in the middle of both goes to the even one.
def onGrid? (rank : Nat) (exponent : Int) : Option Decimal :=
  let below := truncated rank exponent
  let above : Decimal := ⟨below.digits + 1, exponent⟩
  match decimalReadsBackAs rank below, decimalReadsBackAs rank above with
  | false, false => none
  | true, false => some below
  | false, true => some above
  | true, true =>
    let (num, den) := inSteps rank exponent
    some ⟨roundHalfEven num den, exponent⟩

-- Tries the grid whose last digit stands `behind` places after the first one, then finer grids,
-- `more` grids at most.
def shortestFrom (rank : Nat) (leading : Int) : Nat → Nat → Decimal
  | 0, behind => truncated rank (leading - behind)
  | more + 1, behind =>
    match onGrid? rank (leading - behind) with
    | some decimal => decimal
    | none => shortestFrom rank leading more (behind + 1)

-- Seventeen digits tell any two doubles apart.
def shortest (rank : Nat) : Decimal :=
  shortestFrom rank (leadingExponent rank) 17 0

end Binary64

end WriteMemo
