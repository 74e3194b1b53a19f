import WriteMemo.Proofs.Memo.Increment
import WriteMemo.Proofs.Memo.Scan
import WriteMemo.Proofs.Trace

namespace WriteMemo

open Trace

namespace Finding

def lastMessage? (finding : Finding) : Option String :=
  finding.events.getLast?.map Event.message

-- What the events of a scan that starts at a place tell, and how they end.
structure Told (place : Nat) (finding : Finding) : Prop where
  tally_eq : tally finding.events = finding.counts
  checking : told "checking for changes since last write" finding.events = 0
  unchanged :
    told "submitted object unchanged since last write, checking live candidates"
      finding.events = 0
  considering : told "considering candidate" finding.events =
    finding.counts.candidatesWithoutSpec + finding.counts.persistedWithoutSpec +
      finding.counts.hits +
        told "miss: candidate spec differs from recorded persisted spec" finding.events
  ending :
    (∃ index candidate, finding.verdict = .hit (place + index) candidate ∧
      told "considering candidate" finding.events = index + 1 ∧
      finding.lastMessage? = some "hit: candidate spec matches recorded persisted spec") ∨
    (finding.verdict = .miss .noMatchingCandidate ∧
      finding.lastMessage? = some "miss: no live candidate matches the recorded spec")

theorem lastMessage_of_events_eq_append {finding next : Finding} {before : List Event}
    (hevents : next.events = before ++ finding.events) {message : String}
    (hlast : finding.lastMessage? = some message) : next.lastMessage? = some message := by
  obtain ⟨event, hevent, rfl⟩ := Option.map_eq_some_iff.mp hlast
  rw [lastMessage?, hevents, List.getLast?_append, hevent]
  rfl

-- A candidate that is passed over adds the line that considers it and the one that says why.
theorem Told.pass {place : Nat} {finding next : Finding} (h : finding.Told (place + 1))
    {key : Key} {name : String} {event : Event}
    (hevent : event = .candidateWithoutSpec key name ∨ event = .persistedWithoutSpec key ∨
      event = .specDiffers key name)
    (hevents : next.events = [.considering key name, event] ++ finding.events)
    (hcounts : next.counts = event.counts + finding.counts)
    (hverdict : next.verdict = finding.verdict) : next.Told place := by
  have htold (message : String) : told message next.events =
      told message finding.events + (if event.message = message then 1 else 0) +
        if "considering candidate" = message then 1 else 0 := by
    rw [hevents, List.cons_append, List.cons_append, List.nil_append, told_cons, told_cons]
    rfl
  have hconsidering := h.considering
  refine ⟨?_, ?_, ?_, ?_, ?_⟩
  · rw [hevents, List.cons_append, List.cons_append, List.nil_append, tally_cons, tally_cons,
      h.tally_eq, hcounts]
    exact zero_add _
  · rw [htold, h.checking]
    rcases hevent with rfl | rfl | rfl <;> rfl
  · rw [htold, h.unchanged]
    rcases hevent with rfl | rfl | rfl <;> rfl
  · rw [htold, htold, hcounts, Counters.add_def]
    rcases hevent with rfl | rfl | rfl <;>
      simp [Event.message, Event.counts, Counters.recordCandidatesWithoutSpec,
        Counters.recordPersistedWithoutSpec, Counters.zero, Counters.zero_def] <;> omega
  · rcases h.ending with ⟨index, candidate, hhit, hcount, hlast⟩ | ⟨hmiss, hlast⟩
    · refine .inl ⟨index + 1, candidate, ?_, ?_, lastMessage_of_events_eq_append hevents hlast⟩
      · rw [hverdict, hhit, Nat.add_assoc, Nat.add_comm 1 index]
      · rw [htold, hcount]
        rcases hevent with rfl | rfl | rfl <;> rfl
    · exact .inr ⟨hverdict.trans hmiss, lastMessage_of_events_eq_append hevents hlast⟩

-- What the events of a whole check tell.
structure Narrated (finding : Finding) : Prop where
  tally_eq : tally finding.events = finding.counts
  balanced : Balanced finding.events
  outcome : outcomeOf (finding.events.map Event.message) = finding.verdict.outcome

theorem Told.outcomes {finding : Finding} (h : finding.Told 0) :
    finding.counts.hits + finding.counts.missesNoMatch = 1 := by
  unfold counts
  rcases h.ending with ⟨_, _, hverdict, -, -⟩ | ⟨hverdict, -⟩
  · rw [hverdict]
    rfl
  · rw [hverdict]
    rfl

theorem Told.narrated {finding : Finding} (h : finding.Told 0) (key : Key) :
    (finding.after [.checking key, .submissionUnchanged key]).Narrated := by
  have htally : tally (finding.after [.checking key, .submissionUnchanged key]).events =
      finding.counts := by
    change tally (.checking key :: .submissionUnchanged key :: finding.events) = _
    rw [tally_cons, tally_cons, h.tally_eq]
    exact (zero_add _).trans (zero_add _)
  have htold (message : String) :
      told message (finding.after [.checking key, .submissionUnchanged key]).events =
        told message finding.events +
          (if (Event.submissionUnchanged key).message = message then 1 else 0) +
            if (Event.checking key).message = message then 1 else 0 := by
    change told message (.checking key :: .submissionUnchanged key :: finding.events) = _
    rw [told_cons, told_cons]
  refine ⟨htally, ⟨?_, ?_, ?_⟩, ?_⟩
  · rw [htally, htold, h.checking, checks_counts]
    rfl
  · rw [htally, htold, h.unchanged, h.outcomes]
    rfl
  · rw [htally, htold, htold]
    exact h.considering
  · have hlast {message : String} (hmessage : finding.lastMessage? = some message) :
        ((finding.after [.checking key, .submissionUnchanged key]).events.map
          Event.message).getLast? = some message := by
      rw [List.getLast?_map]
      exact lastMessage_of_events_eq_append rfl hmessage
    rcases h.ending with ⟨index, candidate, hverdict, hcount, hmessage⟩ | ⟨hverdict, hmessage⟩
    · have hplace : told "considering candidate"
          (finding.after [.checking key, .submissionUnchanged key]).events = index + 1 := by
        rw [htold]
        exact hcount
      rw [outcomeOf, hlast hmessage, if_neg (by decide), if_neg (by decide), if_pos rfl,
        count_map_message, hplace, verdict_after, hverdict, Nat.zero_add]
      rfl
    · rw [outcomeOf, hlast hmessage, if_neg (by decide), if_neg (by decide), if_neg (by decide),
        verdict_after, hverdict]
      rfl

end Finding

namespace Memo

theorem told_scan (key : Key) (recorded : Option Json) (place : Nat) (candidates : List Document) :
    (scan key recorded place candidates).Told place := by
  fun_induction scan key recorded place candidates with
  | case1 => exact ⟨rfl, rfl, rfl, rfl, .inr ⟨rfl, rfl⟩⟩
  | case2 place candidate rest name hspec ih =>
      exact ih.pass (.inl rfl) rfl (Finding.counts_passCandidate _) rfl
  | case3 place candidate rest name spec hrecorded hspec ih =>
      subst hrecorded
      exact ih.pass (.inr (.inl rfl)) rfl (Finding.counts_passPersisted _) rfl
  | case4 place candidate rest name spec wanted hrecorded hspec hsame =>
      exact ⟨rfl, rfl, rfl, rfl, .inl ⟨0, candidate, rfl, rfl, rfl⟩⟩
  | case5 place candidate rest name spec wanted hrecorded hspec hdiffers ih =>
      subst hrecorded
      exact ih.pass (.inr (.inr rfl)) rfl (zero_add _).symm rfl

theorem narrated_inspect (memo : Memo) (submitted : Document) (candidates : List Document) :
    (memo.inspect submitted candidates).Narrated := by
  unfold inspect
  dsimp only
  cases memo.entry? (memo.keyFor submitted) with
  | none => exact ⟨rfl, ⟨rfl, rfl, rfl⟩, rfl⟩
  | some entry =>
      dsimp only
      split
      · exact (told_scan _ _ 0 candidates).narrated _
      · exact ⟨rfl, ⟨rfl, rfl, rfl⟩, rfl⟩

theorem tally_map_evicted (keys : List Key) :
    tally (keys.map Event.evicted) = Counters.zero.recordEvictions keys.length := by
  induction keys with
  | nil => rfl
  | cons key rest ih =>
      rw [List.map_cons, tally_cons, ih]
      simp [Event.counts, Counters.recordEvictions, Counters.add_def, Counters.zero, Nat.add_comm]

-- The entries there are cannot be told from the lines. All other counters can.
theorem tally_step (memo : Memo) (call : Call) :
    tally (memo.step call).events = (memo.increment call).setTotalEntries 0 := by
  cases call with
  | set submitted persisted =>
      change tally (memo.record submitted persisted).2 = _
      rw [events_record, tally_append, tally_map_evicted]
      simp [increment, tally, Event.counts, Counters.recordEvictions, Counters.recordWrite,
        Counters.setTotalEntries, Counters.add_def, Counters.zero]
  | verdict submitted candidates | unchanged submitted candidates =>
      have hentries := (memo.inspect submitted candidates).counts_of_others.2.2
      have htally := (memo.narrated_inspect submitted candidates).tally_eq
      change tally (memo.inspect submitted candidates).events =
        (memo.inspect submitted candidates).counts.setTotalEntries 0
      rw [htally, Counters.setTotalEntries, ← hentries]
  | get _ | entry _ | stats => rfl

theorem balanced_map_evicted (keys : List Key) : Balanced (keys.map Event.evicted) := by
  induction keys with
  | nil => exact balanced_nil
  | cons key rest ih =>
      have hfirst : Balanced [.evicted key] := ⟨rfl, rfl, rfl⟩
      exact hfirst.append ih

theorem balanced_step (memo : Memo) (call : Call) : Balanced (memo.step call).events := by
  cases call with
  | set submitted persisted =>
      change Balanced (memo.record submitted persisted).2
      rw [events_record]
      exact (balanced_map_evicted _).append ⟨rfl, rfl, rfl⟩
  | verdict submitted candidates | unchanged submitted candidates =>
      exact (memo.narrated_inspect submitted candidates).balanced
  | get _ | entry _ | stats => exact balanced_nil

theorem trace_concat (settings : Settings) (calls : List Call) (call : Call) :
    (empty settings).trace (calls ++ [call]) =
      (empty settings).trace calls ++ ((after settings calls).step call).events := by
  rw [trace, trace, responses_append, List.flatMap_append]
  exact congrArg (_ ++ ·) (List.append_nil _)

theorem tally_trace (settings : Settings) (calls : List Call) :
    tally ((empty settings).trace calls) = (after settings calls).counters.setTotalEntries 0 := by
  induction calls using List.reverseRecOn with
  | nil => rfl
  | append_singleton calls call ih =>
      rw [trace_concat, tally_append, ih, tally_step, counters_after_concat]
      rfl

theorem balanced_trace (settings : Settings) (calls : List Call) :
    Balanced ((empty settings).trace calls) := by
  induction calls using List.reverseRecOn with
  | nil => exact balanced_nil
  | append_singleton calls call ih =>
      rw [trace_concat]
      exact ih.append (balanced_step _ call)

-- The lines that a sink makes of a run.
def lines (sink : Sink) (settings : Settings) (calls : List Call) : List Line :=
  ((empty settings).trace calls).map (Event.line sink)

-- After every run each counter is the number of lines that tell of it, and so are the checks. The
-- lines on the way to an outcome reconcile with the outcomes and the skips. The lines of one check
-- alone tell how it ended, for the reason of a miss as for the place of a hit.
theorem lines_reconcile_with_counters (settings : Settings) (sink : Sink) (calls : List Call) :
    linesWith "checking for changes since last write" (lines sink settings calls) =
      (after settings calls).stats.checks ∧
    linesWith "miss: no write recorded for object" (lines sink settings calls) =
      (after settings calls).stats.missesNotCached ∧
    linesWith "miss: submitted object differs from the last recorded submission"
        (lines sink settings calls) =
      (after settings calls).stats.missesSubmittedChanged ∧
    linesWith "submitted object unchanged since last write, checking live candidates"
        (lines sink settings calls) =
      (after settings calls).stats.hits + (after settings calls).stats.missesNoMatch ∧
    linesWith "miss: no live candidate matches the recorded spec" (lines sink settings calls) =
      (after settings calls).stats.missesNoMatch ∧
    linesWith "hit: candidate spec matches recorded persisted spec" (lines sink settings calls) =
      (after settings calls).stats.hits ∧
    linesWith "candidate has no spec" (lines sink settings calls) =
      (after settings calls).stats.candidatesWithoutSpec ∧
    linesWith "recorded persisted object has no spec" (lines sink settings calls) =
      (after settings calls).stats.persistedWithoutSpec ∧
    linesWith "considering candidate" (lines sink settings calls) =
      (after settings calls).stats.candidatesWithoutSpec +
        (after settings calls).stats.persistedWithoutSpec + (after settings calls).stats.hits +
        linesWith "miss: candidate spec differs from recorded persisted spec"
          (lines sink settings calls) ∧
    debugLinesWith "recorded write" (lines sink settings calls) =
      (after settings calls).stats.writes ∧
    debugLinesWith "evicted least recently used entry" (lines sink settings calls) =
      (after settings calls).stats.evictions ∧
    ∀ submitted candidates, ∃ verdict,
      ((after settings calls).step (.verdict submitted candidates)).answer = .verdict verdict ∧
      ((after settings calls).step (.unchanged submitted candidates)).answer =
        .found verdict.found? ∧
      ∀ check, check = .verdict submitted candidates ∨ check = .unchanged submitted candidates →
        outcomeOf ((((after settings calls).step check).events.map (Event.line sink)).map
          Line.message) = verdict.outcome := by
  have hbalanced := balanced_trace settings calls
  have hcounted := counted_tally ((empty settings).trace calls)
  rw [tally_trace] at hcounted
  have hchecks : (tally ((empty settings).trace calls)).checks =
      (after settings calls).counters.checks := by
    rw [tally_trace]
    rfl
  have hunchanged := hbalanced.unchanged
  have hconsidering := hbalanced.considering
  rw [tally_trace] at hunchanged hconsidering
  rw [(wellFormed_after settings calls).stats_eq, lines]
  simp only [linesWith_map_line]
  refine ⟨hbalanced.checking.trans hchecks, hcounted.missesNotCached,
    hcounted.missesSubmittedChanged, hunchanged, hcounted.missesNoMatch, hcounted.hits,
    hcounted.candidatesWithoutSpec, hcounted.persistedWithoutSpec, hconsidering, ?_, ?_,
    fun submitted candidates => ⟨_, answer_verdict _ _ _, answer_unchanged _ _ _, ?_⟩⟩
  · rw [debugLinesWith_map_line (.inl rfl)]
    exact hcounted.writes
  · rw [debugLinesWith_map_line (.inr rfl)]
    exact hcounted.evictions
  · have hmessages : (((after settings calls).inspect submitted candidates).events.map
        (Event.line sink)).map Line.message =
          ((after settings calls).inspect submitted candidates).events.map Event.message := by
      rw [List.map_map]
      exact List.map_congr_left fun event _ => event.message_line sink
    have houtcome := ((after settings calls).narrated_inspect submitted candidates).outcome
    rw [← hmessages] at houtcome
    rintro check (rfl | rfl)
    · exact houtcome
    · exact houtcome

end Memo

end WriteMemo
