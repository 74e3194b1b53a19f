import WriteMemo.Binary64.Basic

namespace WriteMemo

namespace Json

-- 2^64 and 2^63.
abbrev naturalLimit : Nat := 18446744073709551616

abbrev negativeLimit : Nat := 9223372036854775808

-- Whole numbers of 64 bits are kept exactly, in two ranges that do not overlap.
-- `negative n` stands for -(n + 1). Everything else is a double.
inductive Number where
  | natural (value : Fin naturalLimit)
  | negative (beyond : Fin negativeLimit)
  | float (value : Binary64)
  deriving DecidableEq

-- Numbers of different kinds differ, whatever their values. Doubles are compared by value.
def Number.same : Number → Number → Bool
  | .natural a, .natural b => a == b
  | .negative a, .negative b => a == b
  | .float a, .float b => a == b
  | _, _ => false

def Number.ofInt? (value : Int) : Option Number :=
  match value with
  | .ofNat n => if h : n < naturalLimit then some (.natural ⟨n, h⟩) else none
  | .negSucc n => if h : n < negativeLimit then some (.negative ⟨n, h⟩) else none

end Json

-- A value as it is written. Members of an object keep their order and may repeat a name.
inductive Json where
  | null
  | bool (value : Bool)
  | number (value : Json.Number)
  | string (text : String)
  | array (items : List Json)
  | object (members : List (String × Json))

namespace Json

instance : Inhabited Json := ⟨.null⟩

inductive Kind where
  | null
  | boolean
  | number
  | string
  | array
  | object
  deriving DecidableEq

def kind : Json → Kind
  | .null => .null
  | .bool _ => .boolean
  | .number _ => .number
  | .string _ => .string
  | .array _ => .array
  | .object _ => .object

mutual

-- Equality of values. Arrays and objects are compared place by place, so objects are compared as
-- maps once their members are in ascending order.
def same : Json → Json → Bool
  | .null, .null => true
  | .bool a, .bool b => a == b
  | .number a, .number b => a.same b
  | .string a, .string b => a == b
  | .array a, .array b => sameItems a b
  | .object a, .object b => sameMembers a b
  | _, _ => false

def sameItems : List Json → List Json → Bool
  | [], [] => true
  | a :: as, b :: bs => a.same b && sameItems as bs
  | _, _ => false

def sameMembers : List (String × Json) → List (String × Json) → Bool
  | [], [] => true
  | (name, a) :: as, (other, b) :: bs => name == other && a.same b && sameMembers as bs
  | _, _ => false

end

instance : BEq Json := ⟨same⟩

-- Why a text is not read. A text is unfinished when it ends where more of it is needed, and
-- malformed when one of its characters fits nowhere. A value other than an object is a fault only
-- where an object is demanded.
inductive TextFault where
  | unfinished
  | malformed
  | notAnObject
  deriving DecidableEq

end Json

end WriteMemo
