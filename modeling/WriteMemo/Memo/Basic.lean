import WriteMemo.Association
import WriteMemo.Counters
import WriteMemo.Recency
import WriteMemo.Settings
import WriteMemo.Trace

namespace WriteMemo

structure Entry where
  submitted : Document
  persisted : Document

-- Entries are found by key, and their order means nothing.
abbrev Entries := List (Key × Entry)

namespace Entries

def get? (entries : Entries) (key : Key) : Option Entry := entries.lookup key

def erase (entries : Entries) (key : Key) : Entries := Association.erase key entries

def insert (entries : Entries) (key : Key) (entry : Entry) : Entries :=
  (key, entry) :: Entries.erase entries key

theorem get?_erase_self (entries : Entries) (key : Key) :
    Entries.get? (Entries.erase entries key) key = none :=
  Association.lookup_erase_self key entries

theorem get?_erase_of_ne {key other : Key} (h : other ≠ key) (entries : Entries) :
    Entries.get? (Entries.erase entries key) other = Entries.get? entries other :=
  Association.lookup_erase_of_ne h entries

theorem get?_insert_self (entries : Entries) (key : Key) (entry : Entry) :
    Entries.get? (Entries.insert entries key entry) key = some entry := by
  simp [get?, insert]

theorem get?_insert_of_ne {key other : Key} (h : other ≠ key) (entries : Entries) (entry : Entry) :
    Entries.get? (Entries.insert entries key entry) other = Entries.get? entries other := by
  have hne : (other == key) = false := by simpa using h
  simpa [get?, insert, List.lookup_cons, hne] using get?_erase_of_ne h entries

end Entries

structure Memo where
  settings : Settings
  entries : Entries
  recency : Recency
  counters : Counters

namespace Memo

def empty (settings : Settings) : Memo := ⟨settings, [], .empty, .zero⟩

def keyFor (memo : Memo) (document : Document) : Key :=
  Key.derive memo.settings.keyStrategy document

def entry? (memo : Memo) (key : Key) : Option Entry := memo.entries.get? key

-- What the store answered to the last write, an empty document if there was none.
def persisted (memo : Memo) (key : Key) : Document :=
  match memo.entry? key with
  | some entry => entry.persisted
  | none => .empty

def size (memo : Memo) : Nat := memo.entries.length

def isEmpty (memo : Memo) : Bool := memo.entries.isEmpty

def stats (memo : Memo) : Counters := memo.counters.setTotalEntries memo.size

-- A key counts as used only in a bounded memo.
def touch (memo : Memo) (key : Key) : Memo :=
  if memo.settings.isBounded then { memo with recency := memo.recency.touch key } else memo

structure Room where
  order : List Key
  entries : Entries
  evicted : List Key

-- Gives up entries, the oldest key first, until fewer than `limit` are left.
def makeRoom (limit : Nat) : List Key → Entries → Room
  | [], entries => ⟨[], entries, []⟩
  | key :: order, entries =>
    if entries.length < limit then ⟨key :: order, entries, []⟩
    else
      let room := makeRoom limit order (entries.erase key)
      { room with evicted := key :: room.evicted }

-- A key that has an entry needs no room.
def roomFor (memo : Memo) (key : Key) : Room :=
  if memo.settings.isBounded && (memo.entry? key).isNone then
    makeRoom memo.settings.capacity.toNat memo.recency.order memo.entries
  else ⟨memo.recency.order, memo.entries, []⟩

-- Records a write that the store has accepted.
def record (memo : Memo) (submitted persisted : Document) : Memo × List Event :=
  let key := memo.keyFor submitted
  let room := memo.roomFor key
  let entries := room.entries.insert key ⟨submitted, persisted⟩
  let counters := memo.counters.recordEvictions room.evicted.length
  let written : Memo := ⟨memo.settings, entries, ⟨room.order⟩,
    counters.recordWrite.setTotalEntries entries.length⟩
  (written.touch key, room.evicted.map Event.evicted ++ [.recorded key])

-- The settings, the counters and the number of entries in one line. The counters are shown as
-- they are kept.
def describe (memo : Memo) : String :=
  let strategy := match memo.settings.keyStrategy with
    | .generateName => "GenerateName"
    | .contentHash => "ContentHash"
  let counters := memo.counters.fields.map fun (name, value) => name ++ ": " ++ toString value
  "RepoCache \x7b entries: " ++ toString memo.size ++
    ", config: CacheConfig \x7b capacity: " ++ toString memo.settings.capacity.toNat ++
    ", key_strategy: " ++ strategy ++
    ", stats_interval: " ++ toString memo.settings.statsInterval.toNat ++
    " \x7d, stats: CacheStats \x7b " ++ ", ".intercalate counters ++ " \x7d, .. \x7d"

end Memo

end WriteMemo
