namespace WriteMemo

-- Ranks come in blocks of 2^52. Within a block the spacing of the values is the same.
def Binary64.block : Nat := 1 <<< 52

-- The rank of infinity. Every finite double lies below it.
def Binary64.rankLimit : Nat := 2047 * block

-- A finite double: its sign, and its place among the doubles that are not negative, counted from
-- zero. The place is also the 64-bit pattern without the sign bit.
structure Binary64 where
  negative : Bool
  rank : Nat
  finite : rank < Binary64.rankLimit
  deriving DecidableEq

namespace Binary64

def zero : Binary64 := ⟨false, 0, by decide⟩

instance : Inhabited Binary64 := ⟨zero⟩

def largest : Binary64 := ⟨false, rankLimit - 1, by decide⟩

def bits (x : Binary64) : Nat :=
  (if x.negative then 1 <<< 63 else 0) + x.rank

def negate (x : Binary64) : Binary64 := { x with negative := !x.negative }

-- Comparison by value. Zero has two signs and one value.
def same (x y : Binary64) : Bool :=
  x.rank == y.rank && (x.rank == 0 || x.negative == y.negative)

instance : BEq Binary64 := ⟨same⟩

-- Magnitudes are counted in units of 2^-1074, the least positive double.
-- In the first two blocks the ranks are one unit apart, and in each later block twice as far as in
-- the one before.
def unitsOfRank (rank : Nat) : Nat :=
  if rank < block then rank
  else (block + rank % block) <<< (rank / block - 1)

def units (x : Binary64) : Nat := unitsOfRank x.rank

-- The whole number nearest to the quotient, the even one of two.
def roundHalfEven (num den : Nat) : Nat :=
  let whole := num / den
  let rest := num % den
  if 2 * rest < den then whole
  else if den < 2 * rest then whole + 1
  else whole + whole % 2

-- The rank nearest to the quotient, at or above the limit when no finite double is.
-- `shift` leaves 53 bits of the quotient in front of the point. A significand that is rounded up
-- to 2^53 carries into the next block by itself.
def rankOfRatio (num den : Nat) : Nat :=
  let scaled := num <<< 1074
  let shift := (scaled / den).log2 - 52
  shift * block + roundHalfEven scaled (den <<< shift)

def ofRank? (negative : Bool) (rank : Nat) : Option Binary64 :=
  if h : rank < rankLimit then some ⟨negative, rank, h⟩ else none

-- The nearest double, if it is finite.
def ofRatio? (num den : Nat) : Option Binary64 :=
  ofRank? false (rankOfRatio num den)

-- The nearest finite double.
def ofRatio (num den : Nat) : Binary64 :=
  (ofRatio? num den).getD largest

def ofNat (n : Nat) : Binary64 := ofRatio n 1

-- Product and quotient of magnitudes. Signs are set by the caller.
def scaleUp? (x factor : Binary64) : Option Binary64 :=
  ofRatio? (x.units * factor.units) (1 <<< 2148)

def scaleDown (x divisor : Binary64) : Binary64 :=
  ofRatio x.units divisor.units

end Binary64

end WriteMemo
