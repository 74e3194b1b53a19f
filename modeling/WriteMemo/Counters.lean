import WriteMemo.Binary64.Basic
import WriteMemo.Verdict

namespace WriteMemo

structure Counters where
  writes : Nat
  hits : Nat
  missesNotCached : Nat
  missesSubmittedChanged : Nat
  missesNoMatch : Nat
  candidatesWithoutSpec : Nat
  persistedWithoutSpec : Nat
  evictions : Nat
  totalEntries : Nat
  deriving DecidableEq

namespace Counters

def zero : Counters := ⟨0, 0, 0, 0, 0, 0, 0, 0, 0⟩

instance : Inhabited Counters := ⟨zero⟩

-- The counters by name, in the order in which they are shown.
def fields (c : Counters) : List (String × Nat) :=
  [("writes", c.writes), ("hits", c.hits), ("misses_not_cached", c.missesNotCached),
   ("misses_submitted_changed", c.missesSubmittedChanged), ("misses_no_match", c.missesNoMatch),
   ("candidates_without_spec", c.candidatesWithoutSpec),
   ("persisted_without_spec", c.persistedWithoutSpec), ("evictions", c.evictions),
   ("total_entries", c.totalEntries)]

def misses (c : Counters) : Nat :=
  c.missesNotCached + c.missesSubmittedChanged + c.missesNoMatch

def checks (c : Counters) : Nat := c.hits + c.misses

-- Every write and every check moves it.
def activity (c : Counters) : Nat := c.checks + c.writes

-- Both counts become doubles before they are divided. Without checks the rate is zero.
def hitRate (c : Counters) : Binary64 :=
  if c.checks = 0 then Binary64.zero
  else (Binary64.ofNat c.hits).scaleDown (Binary64.ofNat c.checks)

def recordWrite (c : Counters) : Counters := { c with writes := c.writes + 1 }

def recordHit (c : Counters) : Counters := { c with hits := c.hits + 1 }

def recordMiss (c : Counters) : MissReason → Counters
  | .notCached => { c with missesNotCached := c.missesNotCached + 1 }
  | .submittedChanged => { c with missesSubmittedChanged := c.missesSubmittedChanged + 1 }
  | .noMatchingCandidate => { c with missesNoMatch := c.missesNoMatch + 1 }

def recordVerdict (c : Counters) : Verdict → Counters
  | .hit _ _ => c.recordHit
  | .miss reason => c.recordMiss reason

def recordCandidatesWithoutSpec (c : Counters) (count : Nat) : Counters :=
  { c with candidatesWithoutSpec := c.candidatesWithoutSpec + count }

def recordPersistedWithoutSpec (c : Counters) (count : Nat) : Counters :=
  { c with persistedWithoutSpec := c.persistedWithoutSpec + count }

def recordEvictions (c : Counters) (count : Nat) : Counters :=
  { c with evictions := c.evictions + count }

def setTotalEntries (c : Counters) (count : Nat) : Counters := { c with totalEntries := count }

end Counters

end WriteMemo
