import WriteMemo.Key

namespace WriteMemo

-- Keys in the order of their last use, the oldest first.
structure Recency where
  order : List Key
  deriving DecidableEq

namespace Recency

def empty : Recency := ⟨[]⟩

instance : Inhabited Recency := ⟨empty⟩

def size (recency : Recency) : Nat := recency.order.length

def isEmpty (recency : Recency) : Bool := recency.order.isEmpty

def contains (recency : Recency) (key : Key) : Bool := recency.order.contains key

def oldest? (recency : Recency) : Option Key := recency.order.head?

def erase (recency : Recency) (key : Key) : Recency := ⟨recency.order.erase key⟩

-- The key becomes the latest one.
def touch (recency : Recency) (key : Key) : Recency := ⟨recency.order.erase key ++ [key]⟩

def evictOldest (recency : Recency) : Option Key × Recency :=
  match recency.order with
  | [] => (none, recency)
  | key :: rest => (some key, ⟨rest⟩)

end Recency

end WriteMemo
