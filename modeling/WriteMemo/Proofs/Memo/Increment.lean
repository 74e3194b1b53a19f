import WriteMemo.Proofs.Counters
import WriteMemo.Proofs.Memo.Size

namespace WriteMemo

namespace Finding

-- What counting a finding adds.
def counts (finding : Finding) : Counters :=
  ((Counters.zero.recordCandidatesWithoutSpec finding.candidatesWithoutSpec
    ).recordPersistedWithoutSpec finding.persistedWithoutSpec).recordVerdict finding.verdict

theorem counts_after (events : List Event) (finding : Finding) :
    (finding.after events).counts = finding.counts :=
  rfl

theorem counts_passCandidate (finding : Finding) :
    finding.passCandidate.counts =
      Counters.zero.recordCandidatesWithoutSpec 1 + finding.counts := by
  rw [counts, counts, ← Counters.add_recordVerdict]
  simp [passCandidate, Counters.recordCandidatesWithoutSpec, Counters.recordPersistedWithoutSpec,
    Counters.zero, Counters.add_def, Nat.add_comm]

theorem counts_passPersisted (finding : Finding) :
    finding.passPersisted.counts =
      Counters.zero.recordPersistedWithoutSpec 1 + finding.counts := by
  rw [counts, counts, ← Counters.add_recordVerdict]
  simp [passPersisted, Counters.recordCandidatesWithoutSpec, Counters.recordPersistedWithoutSpec,
    Counters.zero, Counters.add_def, Nat.add_comm]

-- A finding says nothing of writes and of entries.
theorem counts_of_others (finding : Finding) :
    finding.counts.writes = 0 ∧ finding.counts.evictions = 0 ∧ finding.counts.totalEntries = 0 := by
  unfold counts
  cases finding.verdict with
  | hit _ _ => exact ⟨rfl, rfl, rfl⟩
  | miss reason => cases reason <;> exact ⟨rfl, rfl, rfl⟩

-- Every check has one outcome.
theorem checks_counts (finding : Finding) : finding.counts.checks = 1 := by
  unfold counts
  cases finding.verdict with
  | hit _ _ => rfl
  | miss reason => cases reason <;> rfl

end Finding

namespace Memo

-- Whether a call is a write under a key without an entry.
def opens (memo : Memo) : Call → Bool
  | .set submitted _ => (memo.entry? (memo.keyFor submitted)).isNone
  | _ => false

-- A new entry that takes the place of an evicted one does not add to the number of entries.
def increment (memo : Memo) : Call → Counters
  | .set submitted persisted =>
    let evictions := (memo.roomFor (memo.keyFor submitted)).evicted.length
    ⟨1, 0, 0, 0, 0, 0, 0, evictions, (memo.opens (.set submitted persisted)).toNat - evictions⟩
  | .verdict submitted candidates | .unchanged submitted candidates =>
    (memo.inspect submitted candidates).counts
  | .get _ | .entry _ | .stats => 0

theorem counters_countFinding (memo : Memo) (finding : Finding) :
    (memo.countFinding finding).counters = memo.counters + finding.counts := by
  rw [Finding.counts, ← Counters.add_recordVerdict]
  simp [countFinding, Counters.recordCandidatesWithoutSpec, Counters.recordPersistedWithoutSpec,
    Counters.zero, Counters.add_def]

variable {memo : Memo}

-- A new entry is one more, or one is evicted for it.
theorem WellFormed.opens_eq (h : memo.WellFormed) (call : Call) :
    (memo.increment call).evictions + (memo.increment call).totalEntries =
      (memo.opens call).toNat := by
  cases call with
  | set submitted persisted =>
      rw [increment, opens]
      cases hentry : memo.entry? (memo.keyFor submitted) with
      | some entry =>
          rw [h.evicted_eq_nil (Option.isSome_of_eq_some hentry)]
          rfl
      | none =>
          have hle := h.length_evicted_le (memo.keyFor submitted)
          simp only [Option.isNone_none, Bool.toNat_true]
          omega
  | verdict submitted candidates | unchanged submitted candidates =>
      obtain ⟨-, hevictions, hentries⟩ :=
        (memo.inspect submitted candidates).counts_of_others
      rw [increment, hevictions, hentries]
      rfl
  | get _ | entry _ | stats => rfl

theorem WellFormed.size_step (h : memo.WellFormed) (call : Call) :
    (memo.step call).memo.size = memo.size + (memo.increment call).totalEntries := by
  cases call with
  | set submitted persisted =>
      change (memo.record submitted persisted).1.size = _
      rw [increment, opens]
      cases hentry : memo.entry? (memo.keyFor submitted) with
      | some entry =>
          have hsome := Option.isSome_of_eq_some hentry
          rw [h.size_record_of_isSome hsome, h.evicted_eq_nil hsome]
          rfl
      | none =>
          rw [h.size_record_of_none hentry]
          rcases h.roomFor_cases (memo.keyFor submitted) with
            ⟨hroom, hlt⟩ | ⟨oldest, rest, hroom, hbounded, -, -, hfull⟩
          · have hfree : ¬(memo.settings.isBounded ∧
                memo.size = memo.settings.capacity.toNat) := fun hfull =>
              absurd hfull.2 (Nat.ne_of_lt (hlt hfull.1 hentry))
            rw [hroom, if_neg hfree]
            rfl
          · rw [hroom, if_pos ⟨hbounded, hfull⟩]
            rfl
  | verdict submitted candidates | unchanged submitted candidates =>
      rw [size_step_of_not_write memo rfl, increment, (Finding.counts_of_others _).2.2,
        Nat.add_zero]
  | get _ | entry _ | stats => rfl

-- The number of entries is counted anew after a write. Since it is counted right before, this
-- too is an addition.
theorem WellFormed.counters_step (h : memo.WellFormed) (call : Call) :
    (memo.step call).memo.counters = memo.counters + memo.increment call := by
  cases call with
  | set submitted persisted =>
      have hsize := h.size_step (.set submitted persisted)
      change (memo.record submitted persisted).1.size = _ at hsize
      change (memo.record submitted persisted).1.counters = _
      rw [counters_record, hsize, ← h.totalEntries_eq, increment]
      simp [Counters.add_def, Counters.recordEvictions, Counters.recordWrite,
        Counters.setTotalEntries]
  | verdict submitted candidates | unchanged submitted candidates =>
      exact (counters_check memo submitted candidates).trans (counters_countFinding _ _)
  | get _ | entry _ | stats => exact (add_zero memo.counters).symm

theorem counters_after_concat (settings : Settings) (calls : List Call) (call : Call) :
    (after settings (calls ++ [call])).counters =
      (after settings calls).counters + (after settings calls).increment call := by
  rw [after_concat, (wellFormed_after settings calls).counters_step]

end Memo

end WriteMemo
