import WriteMemo.Proofs.Memo.Increment
import WriteMemo.Proofs.Memo.Scan

namespace WriteMemo

namespace Call

def isSet : Call → Bool
  | .set _ _ => true
  | _ => false

def isCheck : Call → Bool
  | .verdict _ _ | .unchanged _ _ => true
  | _ => false

-- The candidates supplied with a check.
def candidates : Call → List Document
  | .verdict _ candidates | .unchanged _ candidates => candidates
  | _ => []

end Call

namespace Counters

-- One counter for each way in which a check can end.
def outcomes (c : Counters) : List Nat :=
  [c.hits, c.missesNotCached, c.missesSubmittedChanged, c.missesNoMatch]

-- The sums that are formed of counters: two for the misses, one for the checks, and one for the
-- activity.
def sums (c : Counters) : List Nat :=
  [c.missesNotCached + c.missesSubmittedChanged, c.misses, c.checks, c.activity]

def NoneLess (c later : Counters) : Prop :=
  List.Forall₂ (fun before after => before.2 ≤ after.2) c.fields later.fields

theorem noneLess_add (c more : Counters) : c.NoneLess (c + more) := by
  simp [NoneLess, fields, add_def]

theorem NoneLess.trans {first second third : Counters} (h : first.NoneLess second)
    (hlater : second.NoneLess third) : first.NoneLess third := by
  simp only [NoneLess, fields, List.forall₂_cons, List.Forall₂.nil, and_true] at h hlater ⊢
  omega

theorem exists_outcomes_recordVerdict (c : Counters) (verdict : Verdict) :
    ∃ place < 4, (c.recordVerdict verdict).outcomes = c.outcomes.modify place (· + 1) := by
  cases verdict with
  | hit _ _ => exact ⟨0, by decide, rfl⟩
  | miss reason =>
      cases reason with
      | notCached => exact ⟨1, by decide, rfl⟩
      | submittedChanged => exact ⟨2, by decide, rfl⟩
      | noMatchingCandidate => exact ⟨3, by decide, rfl⟩

end Counters

-- The candidates supplied in a run, whatever the checks were answered.
def supplied (calls : List Call) : Nat := (calls.flatMap Call.candidates).length

namespace Memo

-- Sums up what a measure says of each call of a run in the memo that the call meets.
def total (measure : Memo → Call → Nat) (memo : Memo) : List Call → Nat
  | [] => 0
  | call :: rest => measure memo call + total measure (memo.step call).memo rest

-- The candidates supplied with a check that gets as far as looking at them.
def offered (memo : Memo) : Call → Nat
  | .verdict submitted candidates | .unchanged submitted candidates =>
    match (memo.check submitted candidates).2.verdict with
    | .hit _ _ | .miss .noMatchingCandidate => candidates.length
    | .miss _ => 0
  | _ => 0

-- The writes of a run under keys that had no entry right before.
def newWrites (memo : Memo) (calls : List Call) : Nat :=
  total (fun memo call => (memo.opens call).toNat) memo calls

theorem total_concat (measure : Memo → Call → Nat) (settings : Settings) (calls : List Call)
    (call : Call) :
    total measure (empty settings) (calls ++ [call]) =
      total measure (empty settings) calls + measure (after settings calls) call := by
  have happend (memo : Memo) :
      total measure memo (calls ++ [call]) =
        total measure memo calls + measure (memo.run calls) call := by
    induction calls generalizing memo with
    | nil => exact Nat.add_comm _ _
    | cons first rest ih =>
        rw [List.cons_append, total, total, ih, Nat.add_assoc]
        rfl
  exact happend (empty settings)

theorem total_le_length {α : Type} {measure : Memo → Call → Nat} {parts : Call → List α}
    (hle : ∀ memo call, measure memo call ≤ (parts call).length) (memo : Memo)
    (calls : List Call) : total measure memo calls ≤ (calls.flatMap parts).length := by
  induction calls generalizing memo with
  | nil => exact Nat.le_refl 0
  | cons call rest ih =>
      rw [total, List.flatMap_cons, List.length_append]
      exact Nat.add_le_add (hle memo call) (ih _)

-- No candidate is passed over twice, and none that is passed over is the one that matches.
theorem scan_counts_le (key : Key) (recorded : Option Json) (place : Nat)
    (candidates : List Document) :
    (scan key recorded place candidates).counts.candidatesWithoutSpec +
        (scan key recorded place candidates).counts.persistedWithoutSpec +
        (scan key recorded place candidates).counts.hits ≤ candidates.length := by
  fun_induction scan key recorded place candidates with
  | case1 => exact Nat.le_refl 0
  | case2 place candidate rest name hspec ih =>
      rw [Finding.counts_passCandidate, Finding.counts_after, Counters.add_def]
      simp only [Counters.recordCandidatesWithoutSpec, Counters.zero, List.length_cons]
      omega
  | case3 place candidate rest name spec hrecorded hspec ih =>
      subst hrecorded
      rw [Finding.counts_passPersisted, Finding.counts_after, Counters.add_def]
      simp only [Counters.recordPersistedWithoutSpec, Counters.zero, List.length_cons]
      omega
  | case4 place candidate rest name spec wanted hrecorded hspec hsame =>
      exact Nat.le_add_left 1 rest.length
  | case5 place candidate rest name spec wanted hrecorded hspec hdiffers ih =>
      subst hrecorded
      rw [Finding.counts_after]
      exact Nat.le_succ_of_le ih

theorem inspect_counts_le (memo : Memo) (submitted : Document) (candidates : List Document) :
    (memo.inspect submitted candidates).counts.candidatesWithoutSpec +
        (memo.inspect submitted candidates).counts.persistedWithoutSpec +
        (memo.inspect submitted candidates).counts.hits ≤
      memo.offered (.verdict submitted candidates) := by
  have hfinding : (memo.check submitted candidates).2 = memo.inspect submitted candidates := rfl
  rw [offered, hfinding]
  unfold inspect
  dsimp only
  cases memo.entry? (memo.keyFor submitted) with
  | none => exact Nat.le_refl 0
  | some entry =>
      dsimp only
      split
      · have hle := scan_counts_le (memo.keyFor submitted) entry.persisted.spec? 0 candidates
        rw [Finding.counts_after, Finding.verdict_after]
        rcases scan_verdict (memo.keyFor submitted) entry.persisted.spec? 0 candidates with
          ⟨hverdict, -⟩ | ⟨_, _, hverdict, -⟩
        · rw [hverdict]
          exact hle
        · rw [hverdict]
          exact hle
      · exact Nat.le_refl 0

theorem writes_increment (memo : Memo) (call : Call) :
    (memo.increment call).writes = [call].countP Call.isSet := by
  cases call with
  | verdict submitted candidates | unchanged submitted candidates =>
      exact (Finding.counts_of_others _).1
  | set _ _ | get _ | entry _ | stats => rfl

theorem checks_increment (memo : Memo) (call : Call) :
    (memo.increment call).checks = [call].countP Call.isCheck := by
  cases call with
  | verdict submitted candidates | unchanged submitted candidates =>
      exact Finding.checks_counts _
  | set _ _ | get _ | entry _ | stats => rfl

theorem evictions_increment (memo : Memo) (call : Call) :
    (memo.increment call).evictions = (memo.evictedBy call).length := by
  cases call with
  | verdict submitted candidates | unchanged submitted candidates =>
      exact (Finding.counts_of_others _).2.1
  | set _ _ | get _ | entry _ | stats => rfl

theorem skips_increment_le (memo : Memo) (call : Call) :
    (memo.increment call).candidatesWithoutSpec + (memo.increment call).persistedWithoutSpec +
      (memo.increment call).hits ≤ memo.offered call := by
  cases call with
  | verdict submitted candidates | unchanged submitted candidates =>
      exact inspect_counts_le memo submitted candidates
  | set _ _ | get _ | entry _ | stats => exact Nat.le_refl 0

-- What the counters of a memo say of the calls that led to it.
structure Accounted (settings : Settings) (calls : List Call) (c : Counters) : Prop where
  writes : c.writes = calls.countP Call.isSet
  checks : c.checks = calls.countP Call.isCheck
  entries : c.evictions + c.totalEntries = (empty settings).newWrites calls
  skips : c.candidatesWithoutSpec + c.persistedWithoutSpec + c.hits ≤
    total offered (empty settings) calls

theorem accounted_after (settings : Settings) (calls : List Call) :
    Accounted settings calls (after settings calls).counters := by
  induction calls using List.reverseRecOn with
  | nil => exact ⟨rfl, rfl, rfl, Nat.le_refl 0⟩
  | append_singleton calls call ih =>
      rw [counters_after_concat]
      refine ⟨?_, ?_, ?_, ?_⟩
      · rw [List.countP_append, ← ih.writes]
        exact congrArg (_ + ·) (writes_increment _ call)
      · rw [List.countP_append, ← ih.checks, Counters.checks_add]
        exact congrArg (_ + ·) (checks_increment _ call)
      · have hopens := (wellFormed_after settings calls).opens_eq call
        rw [newWrites, total_concat, ← newWrites, ← ih.entries, ← hopens, Counters.add_def]
        dsimp only
        omega
      · have hle := skips_increment_le (after settings calls) call
        have hbefore := ih.skips
        rw [total_concat, Counters.add_def]
        dsimp only
        omega

theorem evictions_after_of_unbounded {settings : Settings}
    (hunbounded : settings.isBounded = false) (calls : List Call) :
    (after settings calls).counters.evictions = 0 := by
  induction calls using List.reverseRecOn with
  | nil => rfl
  | append_singleton calls call ih =>
      have hnil : (after settings calls).evictedBy call = [] :=
        evictedBy_of_unbounded (by rwa [settings_after]) call
      rw [counters_after_concat, Counters.add_def, ih, evictions_increment, hnil]
      rfl

theorem noneLess_after_append (settings : Settings) (calls later : List Call) :
    (after settings calls).counters.NoneLess (after settings (calls ++ later)).counters := by
  induction later using List.reverseRecOn with
  | nil =>
      rw [List.append_nil]
      exact Counters.noneLess_add _ 0
  | append_singleton later call ih =>
      rw [← List.append_assoc, counters_after_concat]
      exact ih.trans (Counters.noneLess_add _ _)

theorem countP_isSet_add_countP_isCheck_le (calls : List Call) :
    calls.countP Call.isSet + calls.countP Call.isCheck ≤ calls.length := by
  induction calls with
  | nil => exact Nat.le_refl 0
  | cons call rest ih =>
      rw [List.countP_cons, List.countP_cons, List.length_cons]
      cases call <;>
        simp only [Call.isSet, Call.isCheck, Bool.false_eq_true, ite_true, ite_false] <;> omega

theorem newWrites_le_length (memo : Memo) (calls : List Call) :
    memo.newWrites calls ≤ calls.length := by
  have hle : memo.newWrites calls ≤ (calls.flatMap fun call => [call]).length :=
    total_le_length (fun memo call => Bool.toNat_le (memo.opens call)) memo calls
  rwa [List.flatMap_singleton'] at hle

theorem total_offered_le (memo : Memo) (calls : List Call) :
    total offered memo calls ≤ supplied calls := by
  refine total_le_length (fun memo call => ?_) memo calls
  cases call with
  | verdict submitted candidates | unchanged submitted candidates =>
      rw [offered]
      split
      · exact Nat.le_refl _
      · exact Nat.le_refl _
      · exact Nat.zero_le _
  | set _ _ | get _ | entry _ | stats => exact Nat.le_refl 0

-- The checks and the writes share the calls among themselves, so it is their number that bounds
-- even the sum of both.
theorem Accounted.lt_of_length {settings : Settings} {calls : List Call} {c : Counters}
    (h : Accounted settings calls c) {limit : Nat}
    (hlimit : calls.length + supplied calls < limit) :
    ∀ value ∈ c.fields.map Prod.snd ++ c.sums, value < limit := by
  have hcalls := countP_isSet_add_countP_isCheck_le calls
  have hnew := newWrites_le_length (empty settings) calls
  have hoffered := total_offered_le (empty settings) calls
  have hwrites := h.writes
  have hchecks := h.checks
  have hentries := h.entries
  have hskips := h.skips
  simp only [Counters.fields, Counters.sums, Counters.activity, Counters.checks, Counters.misses,
    List.map_cons, List.map_nil, List.cons_append, List.nil_append, List.forall_mem_cons,
    List.not_mem_nil, false_implies, implies_true, and_true] at hchecks ⊢
  omega

-- After every run the writes and the checks counted are the calls made, and a check counts as one
-- outcome. Each new entry is still there or was evicted. No more candidates are passed over or hit
-- than were supplied to checks that look at them. No counter goes down. So as long as the calls
-- and the candidates supplied number less than 2^64, all counters and all sums of them do.
theorem counters_account_for_calls (settings : Settings) (calls : List Call) :
    ((after settings calls).stats.writes = calls.countP Call.isSet ∧
      (after settings calls).stats.checks = calls.countP Call.isCheck) ∧
    (∀ call, call.isCheck → ∃ place < 4,
      ((after settings calls).step call).memo.stats.outcomes =
        (after settings calls).stats.outcomes.modify place (· + 1)) ∧
    ((after settings calls).stats.evictions + (after settings calls).size =
        (empty settings).newWrites calls ∧
      (settings.isBounded = false → (after settings calls).stats.evictions = 0)) ∧
    (after settings calls).stats.candidatesWithoutSpec +
        (after settings calls).stats.persistedWithoutSpec + (after settings calls).stats.hits ≤
      total offered (empty settings) calls ∧
    (∀ later, (after settings calls).stats.NoneLess (after settings (calls ++ later)).stats) ∧
    (calls.length + supplied calls < UInt64.size → ∀ before, before <+: calls →
      ∀ value ∈ (after settings before).stats.fields.map Prod.snd ++
        (after settings before).stats.sums, value < UInt64.size) := by
  have hstats (calls : List Call) :
      (after settings calls).stats = (after settings calls).counters :=
    (wellFormed_after settings calls).stats_eq
  have haccounted := accounted_after settings calls
  have hsize := (wellFormed_after settings calls).totalEntries_eq
  refine ⟨⟨?_, ?_⟩, fun call hcheck => ?_, ⟨?_, fun hunbounded => ?_⟩, ?_, fun later => ?_,
    fun hlimit before hbefore => ?_⟩
  · rw [hstats, haccounted.writes]
  · rw [hstats, haccounted.checks]
  · have hstep := ((wellFormed_after settings calls).step call).stats_eq
    rw [hstats, hstep]
    cases call with
    | verdict submitted candidates | unchanged submitted candidates =>
        have hcounters := counters_check (after settings calls) submitted candidates
        change ∃ place < 4, (Memo.check _ submitted candidates).1.counters.outcomes = _
        rw [hcounters]
        exact Counters.exists_outcomes_recordVerdict _ _
    | set _ _ | get _ | entry _ | stats => cases hcheck
  · rw [hstats, ← hsize, haccounted.entries]
  · rw [hstats, evictions_after_of_unbounded hunbounded]
  · rw [hstats]
    exact haccounted.skips
  · rw [hstats, hstats]
    exact noneLess_after_append settings calls later
  · obtain ⟨later, rfl⟩ := hbefore
    rw [hstats]
    apply (accounted_after settings before).lt_of_length
    refine Nat.lt_of_le_of_lt ?_ hlimit
    rw [List.length_append, supplied, supplied, List.flatMap_append, List.length_append]
    omega

-- Three calls and two candidates are far from the limit.
theorem small_counters_of_short_run :
    [Call.set (.named "a") (.named "a"), .verdict (.named "a") [.named "b", .named "a"],
        .stats].length +
      supplied [.set (.named "a") (.named "a"), .verdict (.named "a") [.named "b", .named "a"],
        .stats] < UInt64.size ∧
    ∀ value ∈ (after ⟨1, .generateName, 60⟩ [.set (.named "a") (.named "a"),
          .verdict (.named "a") [.named "b", .named "a"]]).stats.fields.map Prod.snd ++
        (after ⟨1, .generateName, 60⟩ [.set (.named "a") (.named "a"),
          .verdict (.named "a") [.named "b", .named "a"]]).stats.sums, value < UInt64.size := by
  have hbounds := (counters_account_for_calls ⟨1, .generateName, 60⟩
    [.set (.named "a") (.named "a"), .verdict (.named "a") [.named "b", .named "a"],
      .stats]).2.2.2.2.2
  exact ⟨by decide, hbounds (by decide) _ ⟨[.stats], rfl⟩⟩

end Memo

end WriteMemo
