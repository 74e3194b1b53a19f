import WriteMemo.Proofs.Counters
import WriteMemo.Trace

namespace WriteMemo

-- What an event stands for in the counters. Events on the way to an outcome stand for nothing.
def Event.counts : Event → Counters
  | .notRecorded _ => Counters.zero.recordMiss .notCached
  | .submissionDiffers _ => Counters.zero.recordMiss .submittedChanged
  | .candidateWithoutSpec _ _ => Counters.zero.recordCandidatesWithoutSpec 1
  | .persistedWithoutSpec _ => Counters.zero.recordPersistedWithoutSpec 1
  | .specMatches _ _ => Counters.zero.recordHit
  | .noneMatches _ => Counters.zero.recordMiss .noMatchingCandidate
  | .evicted _ => Counters.zero.recordEvictions 1
  | .recorded _ => Counters.zero.recordWrite
  | .checking _ | .submissionUnchanged _ | .considering _ _ | .specDiffers _ _ => 0

theorem Event.message_line (event : Event) (sink : Sink) :
    (event.line sink).message = event.message := by
  cases event <;> cases sink <;> rfl

-- Writes and evictions alone are told for debugging.
theorem Event.level_line_eq_debug_iff (event : Event) (sink : Sink) :
    (event.line sink).level = .debug ↔
      event.message = "recorded write" ∨ event.message = "evicted least recently used entry" := by
  cases event <;> cases sink <;> simp [Event.line, Event.message, Sink.log]

-- The same event, whatever the candidate is called.
def Event.withoutCandidate : Event → Event
  | .considering key _ => .considering key ""
  | .candidateWithoutSpec key _ => .candidateWithoutSpec key ""
  | .specMatches key _ => .specMatches key ""
  | .specDiffers key _ => .specDiffers key ""
  | event => event

-- The field of a line that holds the text for a candidate.
def Sink.candidateField : Sink → String
  | .recording => "candidate"
  | .tracing => "fields"

-- A line with one field emptied.
def Line.without (field : String) (line : Line) : Line :=
  { line with
    fields := line.fields.map fun (name, value) =>
      (name, if name = field then .text "" else value) }

theorem Event.line_without (sink : Sink) (event : Event) :
    (event.withoutCandidate.line sink).without sink.candidateField =
      (event.line sink).without sink.candidateField := by
  cases event <;> cases sink <;> rfl

theorem Event.evicted_mem_withoutCandidate_iff {key : Key} {events : List Event} :
    Event.evicted key ∈ events.map Event.withoutCandidate ↔ Event.evicted key ∈ events := by
  rw [List.mem_map]
  constructor
  · rintro ⟨event, hmem, heq⟩
    cases event <;> cases heq
    exact hmem
  · exact fun hmem => ⟨_, hmem, rfl⟩

namespace Trace

def told (message : String) (events : List Event) : Nat :=
  events.countP fun event => event.message = message

def tally (events : List Event) : Counters := (events.map Event.counts).sum

theorem told_append (message : String) (events later : List Event) :
    told message (events ++ later) = told message events + told message later :=
  List.countP_append

theorem told_cons (message : String) (event : Event) (later : List Event) :
    told message (event :: later) =
      told message later + if event.message = message then 1 else 0 := by
  simp [told, List.countP_cons]

theorem tally_append (events later : List Event) :
    tally (events ++ later) = tally events + tally later := by
  rw [tally, tally, tally, List.map_append, List.sum_append]

theorem tally_cons (event : Event) (later : List Event) :
    tally (event :: later) = event.counts + tally later :=
  List.sum_cons

-- A message that is told once for each unit of a counter.
theorem told_eq_tally (message : String) (field : Counters → Nat) (hzero : field 0 = 0)
    (hadd : ∀ a b, field (a + b) = field a + field b)
    (heach : ∀ event : Event, field event.counts = if event.message = message then 1 else 0)
    (events : List Event) : told message events = field (tally events) := by
  induction events with
  | nil => exact hzero.symm
  | cons event later ih => rw [told_cons, tally_cons, hadd, heach, ih, Nat.add_comm]

-- The messages of the outcomes and the skips, of the writes and the evictions.
structure Counted (events : List Event) (c : Counters) : Prop where
  missesNotCached : told "miss: no write recorded for object" events = c.missesNotCached
  missesSubmittedChanged :
    told "miss: submitted object differs from the last recorded submission" events =
      c.missesSubmittedChanged
  missesNoMatch :
    told "miss: no live candidate matches the recorded spec" events = c.missesNoMatch
  hits : told "hit: candidate spec matches recorded persisted spec" events = c.hits
  candidatesWithoutSpec : told "candidate has no spec" events = c.candidatesWithoutSpec
  persistedWithoutSpec :
    told "recorded persisted object has no spec" events = c.persistedWithoutSpec
  writes : told "recorded write" events = c.writes
  evictions : told "evicted least recently used entry" events = c.evictions

theorem counted_tally (events : List Event) : Counted events (tally events) := by
  constructor
  · exact told_eq_tally _ Counters.missesNotCached rfl (fun _ _ => rfl)
      (fun event => by cases event <;> rfl) events
  · exact told_eq_tally _ Counters.missesSubmittedChanged rfl (fun _ _ => rfl)
      (fun event => by cases event <;> rfl) events
  · exact told_eq_tally _ Counters.missesNoMatch rfl (fun _ _ => rfl)
      (fun event => by cases event <;> rfl) events
  · exact told_eq_tally _ Counters.hits rfl (fun _ _ => rfl)
      (fun event => by cases event <;> rfl) events
  · exact told_eq_tally _ Counters.candidatesWithoutSpec rfl (fun _ _ => rfl)
      (fun event => by cases event <;> rfl) events
  · exact told_eq_tally _ Counters.persistedWithoutSpec rfl (fun _ _ => rfl)
      (fun event => by cases event <;> rfl) events
  · exact told_eq_tally _ Counters.writes rfl (fun _ _ => rfl)
      (fun event => by cases event <;> rfl) events
  · exact told_eq_tally _ Counters.evictions rfl (fun _ _ => rfl)
      (fun event => by cases event <;> rfl) events

-- The same count over the lines that a sink makes of the events.
def linesWith (message : String) (lines : List Line) : Nat :=
  lines.countP fun line => line.message = message

def debugLinesWith (message : String) (lines : List Line) : Nat :=
  lines.countP fun line => line.level = .debug ∧ line.message = message

theorem linesWith_map_line (message : String) (sink : Sink) (events : List Event) :
    linesWith message (events.map (Event.line sink)) = told message events := by
  rw [linesWith, List.countP_map, told]
  simp only [Function.comp_def, Event.message_line]

theorem count_map_message (message : String) (events : List Event) :
    (events.map Event.message).count message = told message events := by
  rw [List.count, List.countP_map, told]
  exact List.countP_congr fun event _ => by simp

theorem debugLinesWith_map_line {message : String}
    (hmessage : message = "recorded write" ∨ message = "evicted least recently used entry")
    (sink : Sink) (events : List Event) :
    debugLinesWith message (events.map (Event.line sink)) = told message events := by
  rw [debugLinesWith, List.countP_map, told]
  refine List.countP_congr fun event _ => ?_
  simp only [Function.comp_apply, decide_eq_true_eq, Event.message_line,
    Event.level_line_eq_debug_iff]
  constructor
  · exact fun h => h.2
  · rintro rfl
    exact ⟨hmessage, rfl⟩

-- The messages on the way to an outcome keep in step with the outcomes and the skips.
structure Balanced (events : List Event) : Prop where
  checking : told "checking for changes since last write" events = (tally events).checks
  unchanged :
    told "submitted object unchanged since last write, checking live candidates" events =
      (tally events).hits + (tally events).missesNoMatch
  considering : told "considering candidate" events =
    (tally events).candidatesWithoutSpec + (tally events).persistedWithoutSpec +
      (tally events).hits +
        told "miss: candidate spec differs from recorded persisted spec" events

theorem balanced_nil : Balanced [] := ⟨rfl, rfl, rfl⟩

theorem Balanced.append {events later : List Event} (h : Balanced events)
    (hlater : Balanced later) : Balanced (events ++ later) := by
  obtain ⟨hchecking, hunchanged, hconsidering⟩ := h
  obtain ⟨hchecking', hunchanged', hconsidering'⟩ := hlater
  refine ⟨?_, ?_, ?_⟩
  · rw [told_append, tally_append, Counters.checks_add, hchecking, hchecking']
  · rw [told_append, tally_append, Counters.add_def, hunchanged, hunchanged']
    dsimp only
    omega
  · rw [told_append, told_append, tally_append, Counters.add_def, hconsidering, hconsidering']
    dsimp only
    omega

-- The outcome of a check, read off its messages. The last one names it, and a hit is at the last
-- candidate considered.
def outcomeOf (messages : List String) : Except MissReason Nat :=
  if messages.getLast? = some "miss: no write recorded for object" then .error .notCached
  else if messages.getLast? =
      some "miss: submitted object differs from the last recorded submission" then
    .error .submittedChanged
  else if messages.getLast? = some "hit: candidate spec matches recorded persisted spec" then
    .ok (messages.count "considering candidate" - 1)
  else .error .noMatchingCandidate

end Trace

end WriteMemo
