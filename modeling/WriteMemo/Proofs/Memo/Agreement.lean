import WriteMemo.Proofs.Memo.Size

namespace WriteMemo.Memo

structure Agree (memo other : Memo) : Prop where
  keyStrategy : memo.settings.keyStrategy = other.settings.keyStrategy
  entries : memo.entries = other.entries
  counters : memo.counters = other.counters

variable {memo other : Memo}

theorem WellFormed.entries_roomFor_of_evicted_eq_nil (h : memo.WellFormed) {key : Key}
    (hnil : (memo.roomFor key).evicted = []) : (memo.roomFor key).entries = memo.entries := by
  rcases h.roomFor_cases key with ⟨hroom, -⟩ | ⟨oldest, rest, hroom, -⟩
  · rw [hroom]
  · rw [hroom] at hnil
    cases hnil

namespace Agree

theorem keyFor (h : Agree memo other) (document : Document) :
    memo.keyFor document = other.keyFor document := by
  rw [Memo.keyFor, Memo.keyFor, h.keyStrategy]

theorem entry (h : Agree memo other) (key : Key) : memo.entry? key = other.entry? key := by
  unfold entry?
  rw [h.entries]

theorem inspect (h : Agree memo other) (submitted : Document) (candidates : List Document) :
    memo.inspect submitted candidates = other.inspect submitted candidates :=
  inspect_congr (h.keyFor submitted) (h.entry _) candidates

theorem answer_step (h : Agree memo other) (call : Call) :
    (memo.step call).answer = (other.step call).answer := by
  cases call with
  | set _ _ => rfl
  | verdict submitted candidates => rw [answer_verdict, answer_verdict, h.inspect]
  | unchanged submitted candidates => rw [answer_unchanged, answer_unchanged, h.inspect]
  | get key =>
      change Answer.document (memo.persisted key) = .document (other.persisted key)
      rw [persisted, persisted, h.entry]
  | entry key =>
      change Answer.entry (memo.entry? key) = .entry (other.entry? key)
      rw [h.entry]
  | stats =>
      change Answer.counters memo.stats = .counters other.stats
      rw [stats, stats, size, size, h.counters, h.entries]

theorem record (h : Agree memo other) (hmemo : memo.WellFormed) (hother : other.WellFormed)
    {submitted persisted : Document}
    (hnil : memo.evictedBy (.set submitted persisted) = [])
    (hnil' : other.evictedBy (.set submitted persisted) = []) :
    Agree (memo.record submitted persisted).1 (other.record submitted persisted).1 := by
  rw [evictedBy] at hnil hnil'
  have hentries : (memo.record submitted persisted).1.entries =
      (other.record submitted persisted).1.entries := by
    rw [entries_record, entries_record, hmemo.entries_roomFor_of_evicted_eq_nil hnil,
      hother.entries_roomFor_of_evicted_eq_nil hnil', h.entries, h.keyFor]
  refine ⟨?_, hentries, ?_⟩
  · rw [settings_record, settings_record, h.keyStrategy]
  · rw [counters_record, counters_record, hnil, hnil', size, size, hentries, h.counters]

theorem check (h : Agree memo other) (submitted : Document) (candidates : List Document) :
    Agree (memo.check submitted candidates).1 (other.check submitted candidates).1 := by
  refine ⟨?_, ?_, ?_⟩
  · rw [settings_check, settings_check, h.keyStrategy]
  · rw [entries_check, entries_check, h.entries]
  · rw [counters_check, counters_check, countFinding, countFinding, h.inspect, h.counters]

theorem step (h : Agree memo other) (hmemo : memo.WellFormed) (hother : other.WellFormed)
    {call : Call} (hnil : memo.evictedBy call = []) (hnil' : other.evictedBy call = []) :
    Agree (memo.step call).memo (other.step call).memo := by
  cases call with
  | set submitted persisted => exact h.record hmemo hother hnil hnil'
  | verdict submitted candidates | unchanged submitted candidates =>
      exact h.check submitted candidates
  | get _ | entry _ | stats => exact h

end Agree

-- By induction on the calls from the last one back. Every shorter run writes no more keys.
theorem agree_after {settings other : Settings}
    (hstrategy : settings.keyStrategy = other.keyStrategy) {calls : List Call}
    (hle : settings.isBounded → writtenCount settings.keyStrategy calls ≤ settings.capacity.toNat)
    (hle' : other.isBounded → writtenCount other.keyStrategy calls ≤ other.capacity.toNat) :
    Agree (after settings calls) (after other calls) ∧
      ((empty settings).responses calls).map Response.answer =
        ((empty other).responses calls).map Response.answer := by
  induction calls using List.reverseRecOn with
  | nil => exact ⟨⟨hstrategy, rfl, rfl⟩, rfl⟩
  | append_singleton calls call ih =>
      obtain ⟨hagree, hanswers⟩ := ih
        (fun hbounded => (writtenCount_le_append _ calls [call]).trans (hle hbounded))
        (fun hbounded => (writtenCount_le_append _ calls [call]).trans (hle' hbounded))
      have hlast : ((after settings calls).step call).answer =
          ((after other calls).step call).answer := hagree.answer_step call
      constructor
      · rw [after_concat, after_concat]
        exact hagree.step (wellFormed_after settings calls) (wellFormed_after other calls)
          (evictedBy_eq_nil_of_writtenCount_le hle) (evictedBy_eq_nil_of_writtenCount_le hle')
      · rw [responses_append, responses_append, List.map_append, List.map_append, hanswers]
        exact congrArg (_ ++ [·]) hlast

end WriteMemo.Memo
