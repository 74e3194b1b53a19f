import WriteMemo.Counters
import WriteMemo.Trace

namespace WriteMemo

-- The clock counts whole seconds from the start.
structure Reporter where
  interval : Nat
  elapsed : Nat
  lastActivity : Nat
  running : Bool
  deriving DecidableEq

namespace Reporter

def target : String := "submission_cache::tasks::report"

-- An interval of zero means no reporter.
def start (interval : Nat) : Option Reporter × Line :=
  if interval = 0 then (none, ⟨.debug, target, "Cache stats reporter disabled", []⟩)
  else
    (some ⟨interval, 0, 0, true⟩,
      ⟨.info, target,
        "Starting cache stats reporter with interval of " ++ toString interval ++ " seconds", []⟩)

def statsLine (c : Counters) : Line :=
  ⟨.info, target, "submission cache stats",
    [("hits", .count c.hits), ("misses", .count c.misses), ("writes", .count c.writes),
     ("evictions", .count c.evictions), ("entries", .count c.totalEntries),
     ("hit_rate", .ratio c.hitRate)]⟩

def idleLine (c : Counters) : Line :=
  ⟨.debug, target, "submission cache idle", [("entries", .count c.totalEntries)]⟩

-- One report. It is idle if the activity is that of the last report, which is zero at the start.
def report (reporter : Reporter) (c : Counters) : Reporter × Line :=
  ({ reporter with lastActivity := c.activity },
    if c.activity = reporter.lastActivity then idleLine c else statsLine c)

-- Several reports in a row, of counters that stay the same.
def reports (c : Counters) : Nat → Reporter → Reporter × List Line
  | 0, reporter => (reporter, [])
  | count + 1, reporter =>
    let (next, line) := reporter.report c
    let (last, lines) := reports c count next
    (last, line :: lines)

-- Lets seconds pass. A report falls due at each multiple of the interval.
def wait (reporter : Reporter) (seconds : Nat) (c : Counters) : Reporter × List Line :=
  let later := reporter.elapsed + seconds
  let due :=
    if reporter.running then later / reporter.interval - reporter.elapsed / reporter.interval
    else 0
  reports c due { reporter with elapsed := later }

def abort (reporter : Reporter) : Reporter := { reporter with running := false }

end Reporter

end WriteMemo
