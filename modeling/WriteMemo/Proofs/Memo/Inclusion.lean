import WriteMemo.Proofs.Memo.Agreement

namespace WriteMemo

-- A capacity of zero is no limit.
def Settings.NoLarger (small large : Settings) : Prop :=
  large.isBounded → small.isBounded ∧ small.capacity.toNat ≤ large.capacity.toNat

-- As many writes, no more of what takes an entry, and no fewer evictions and misses for want of an
-- entry.
structure Counters.NoBetter (small large : Counters) : Prop where
  writes : small.writes = large.writes
  hits : small.hits ≤ large.hits
  missesNotCached : large.missesNotCached ≤ small.missesNotCached
  missesSubmittedChanged : small.missesSubmittedChanged ≤ large.missesSubmittedChanged
  missesNoMatch : small.missesNoMatch ≤ large.missesNoMatch
  candidatesWithoutSpec : small.candidatesWithoutSpec ≤ large.candidatesWithoutSpec
  persistedWithoutSpec : small.persistedWithoutSpec ≤ large.persistedWithoutSpec
  evictions : large.evictions ≤ small.evictions
  totalEntries : small.totalEntries ≤ large.totalEntries

namespace Memo

-- The two orders are not the same, because a check of a key that only the larger memo has is a use
-- there alone.
structure Included (small large : Memo) : Prop where
  small_wellFormed : small.WellFormed
  large_wellFormed : large.WellFormed
  keyStrategy : small.settings.keyStrategy = large.settings.keyStrategy
  noLarger : small.settings.NoLarger large.settings
  entry : ∀ key entry, small.entry? key = some entry → large.entry? key = some entry
  order : large.settings.isBounded → small.recency.order.Sublist large.recency.order
  full : ∀ key, small.entry? key = none → (large.entry? key).isSome →
    small.settings.isBounded ∧ small.size = small.settings.capacity.toNat

namespace Included

variable {small large : Memo} {key : Key}

theorem keyFor (h : Included small large) (document : Document) :
    small.keyFor document = large.keyFor document := by
  rw [Memo.keyFor, Memo.keyFor, h.keyStrategy]

theorem isSome (h : Included small large) (hsome : (small.entry? key).isSome) :
    (large.entry? key).isSome := by
  obtain ⟨entry, hentry⟩ := Option.isSome_iff_exists.mp hsome
  exact Option.isSome_of_eq_some (h.entry key entry hentry)

theorem size_le (h : Included small large) : small.size ≤ large.size := by
  apply Entries.length_le_of_keys_subset h.small_wellFormed.nodup_keys
  intro key hmem
  exact Entries.mem_keys_iff.mpr (h.isSome (Entries.mem_keys_iff.mp hmem))

-- If the smaller memo has a free place, then both have the same keys, and the larger one has a
-- free place too.
theorem evicted_eq_nil (h : Included small large)
    (hnil : (small.roomFor key).evicted = []) : (large.roomFor key).evicted = [] := by
  rcases h.large_wellFormed.roomFor_cases key with
    ⟨hroom, -⟩ | ⟨oldest, rest, -, hbounded, hnone, -, hfull⟩
  · rw [hroom]
  · exfalso
    obtain ⟨hsmall, hcapacity⟩ := h.noLarger hbounded
    rcases h.small_wellFormed.roomFor_cases key with ⟨-, hlt⟩ | ⟨_, _, hroom, -⟩
    · have hnew : small.entry? key = none := by
        by_contra hsome
        have hlarge := h.isSome (Option.isSome_iff_ne_none.mpr hsome)
        rw [hnone] at hlarge
        cases hlarge
      have hfree := hlt hsmall hnew
      have hsub : large.entries.keys ⊆ small.entries.keys := by
        intro other hmem
        by_contra hout
        have hsize := (h.full other (Entries.notMem_keys_iff.mp hout)
          (Entries.mem_keys_iff.mp hmem)).2
        omega
      have hle : large.size ≤ small.size :=
        Entries.length_le_of_keys_subset h.large_wellFormed.nodup_keys hsub
      omega
    · rw [hroom] at hnil
      cases hnil

-- What the larger memo gives up stands first in its order. The order of the smaller memo is a part
-- of that one, so if the key is there it stands first there too.
theorem mem_evicted (h : Included small large) (hsome : (small.entry? key).isSome) {new : Key}
    (hevicted : key ∈ (large.roomFor new).evicted) : key ∈ (small.roomFor new).evicted := by
  rcases h.large_wellFormed.roomFor_cases new with
    ⟨hroom, -⟩ | ⟨oldest, rest, hroom, hbounded, -, horder, -⟩
  · rw [hroom] at hevicted
    cases hevicted
  · rw [hroom, List.mem_singleton] at hevicted
    subst hevicted
    have hsmall := (h.noLarger hbounded).1
    rcases h.small_wellFormed.roomFor_cases new with
      ⟨hroom', -⟩ | ⟨oldest', rest', hroom', -, -, horder', -⟩
    · have hnil : (large.roomFor new).evicted = [] := h.evicted_eq_nil (by rw [hroom'])
      rw [hroom] at hnil
      cases hnil
    · have hmem := (h.small_wellFormed.mem_order_iff hsmall).mpr hsome
      have hsub := h.order hbounded
      have hnodup := h.large_wellFormed.nodup_order
      rw [horder] at hsub hnodup
      rw [horder'] at hsub hmem
      rw [hroom', List.mem_singleton]
      by_contra hne
      have hrest := hsub.of_cons_of_ne (Ne.symm hne)
      exact (List.nodup_cons.mp hnodup).1 (hrest.subset hmem)

theorem order_roomFor (h : Included small large) (hbounded : large.settings.isBounded)
    (key : Key) : (small.roomFor key).order.Sublist (large.roomFor key).order := by
  have hsub := h.order hbounded
  rcases h.small_wellFormed.roomFor_cases key with
    ⟨hroom, -⟩ | ⟨oldest, rest, hroom, -, -, horder, -⟩
  · have hnil : (large.roomFor key).evicted = [] := h.evicted_eq_nil (by rw [hroom])
    rcases h.large_wellFormed.roomFor_cases key with ⟨hroom', -⟩ | ⟨_, _, hroom', -⟩
    · rw [hroom, hroom']
      exact hsub
    · rw [hroom'] at hnil
      cases hnil
  · rw [horder] at hsub
    rcases h.large_wellFormed.roomFor_cases key with
      ⟨hroom', -⟩ | ⟨oldest', rest', hroom', -, -, horder', -⟩
    · rw [hroom, hroom']
      exact (List.sublist_cons_self oldest rest).trans hsub
    · rw [horder'] at hsub
      rw [hroom, hroom']
      exact hsub.tail

theorem length_evicted_le (h : Included small large) (key : Key) :
    (large.roomFor key).evicted.length ≤ (small.roomFor key).evicted.length := by
  rcases h.small_wellFormed.roomFor_cases key with ⟨hroom, -⟩ | ⟨_, _, hroom, -⟩
  · rw [h.evicted_eq_nil (by rw [hroom])]
    exact Nat.zero_le _
  · rw [hroom]
    exact h.large_wellFormed.length_evicted_le key

theorem record (h : Included small large) (submitted persisted : Document) :
    Included (small.record submitted persisted).1 (large.record submitted persisted).1 where
  small_wellFormed := h.small_wellFormed.record submitted persisted
  large_wellFormed := h.large_wellFormed.record submitted persisted
  keyStrategy := by
    rw [settings_record, settings_record]
    exact h.keyStrategy
  noLarger := by
    rw [settings_record, settings_record]
    exact h.noLarger
  entry key entry hentry := by
    by_cases heq : key = small.keyFor submitted
    · rw [heq, entry_record_self] at hentry
      rw [heq, h.keyFor, entry_record_self]
      exact hentry
    · rw [entry_record_of_ne heq] at hentry
      split at hentry
      · cases hentry
      · next hkept =>
        have hsome := Option.isSome_of_eq_some hentry
        rw [h.keyFor] at heq hkept
        rw [entry_record_of_ne heq, if_neg (fun hin => hkept (h.mem_evicted hsome hin))]
        exact h.entry key entry hentry
  order hbounded := by
    rw [settings_record] at hbounded
    rw [order_record, order_record, if_pos hbounded, if_pos (h.noLarger hbounded).1, ← h.keyFor]
    exact ((h.order_roomFor hbounded _).erase _).append (List.Sublist.refl _)
  full key hnone hsome := by
    have hne : key ≠ small.keyFor submitted := by
      intro heq
      rw [heq, entry_record_self] at hnone
      cases hnone
    have hfull : small.settings.isBounded ∧ small.size = small.settings.capacity.toNat := by
      cases hentry : small.entry? key with
      | some entry =>
          rw [entry_record_of_ne hne, hentry] at hnone
          rcases h.small_wellFormed.roomFor_cases (small.keyFor submitted) with
            ⟨hroom, -⟩ | ⟨_, _, -, hbounded, -, -, hsize⟩
          · rw [hroom, if_neg List.not_mem_nil] at hnone
            cases hnone
          · exact ⟨hbounded, hsize⟩
      | none =>
          rw [h.keyFor] at hne
          rw [entry_record_of_ne hne] at hsome
          split at hsome
          · cases hsome
          · exact h.full key hentry hsome
    rw [settings_record, h.small_wellFormed.size_record_of_full hfull.1 hfull.2]
    exact hfull

theorem check (h : Included small large) (submitted : Document) (candidates : List Document) :
    Included (small.check submitted candidates).1 (large.check submitted candidates).1 where
  small_wellFormed := h.small_wellFormed.check submitted candidates
  large_wellFormed := h.large_wellFormed.check submitted candidates
  keyStrategy := by
    rw [settings_check, settings_check]
    exact h.keyStrategy
  noLarger := by
    rw [settings_check, settings_check]
    exact h.noLarger
  entry key entry hentry := by
    rw [entry_check] at hentry ⊢
    exact h.entry key entry hentry
  order hbounded := by
    rw [settings_check] at hbounded
    have hsmall := (h.noLarger hbounded).1
    have hsub := h.order hbounded
    rw [order_check, order_check, ← h.keyFor]
    by_cases hsome : (small.entry? (small.keyFor submitted)).isSome
    · rw [if_pos ⟨hsmall, hsome⟩, if_pos ⟨hbounded, h.isSome hsome⟩]
      exact (hsub.erase _).append (List.Sublist.refl _)
    · rw [if_neg (fun htouch => hsome htouch.2)]
      split
      · -- The larger memo alone moves the key, and the smaller one does not have it.
        have hout : small.keyFor submitted ∉ small.recency.order := by
          rw [h.small_wellFormed.mem_order_iff hsmall]
          exact hsome
        have herase := hsub.erase (small.keyFor submitted)
        rw [List.erase_of_not_mem hout] at herase
        exact herase.trans (List.sublist_append_left _ _)
      · exact hsub
  full key hnone hsome := by
    rw [entry_check] at hnone hsome
    rw [settings_check, size, entries_check]
    exact h.full key hnone hsome

theorem step (h : Included small large) (call : Call) :
    Included (small.step call).memo (large.step call).memo := by
  cases call with
  | set submitted persisted => exact h.record submitted persisted
  | verdict submitted candidates | unchanged submitted candidates =>
      exact h.check submitted candidates
  | get _ | entry _ | stats => exact h

-- The smaller memo finds what the larger one finds, or it has no entry to look at.
theorem inspect_cases (h : Included small large) (submitted : Document)
    (candidates : List Document) :
    small.inspect submitted candidates = large.inspect submitted candidates ∨
      small.inspect submitted candidates = .ofVerdict (.miss .notCached)
        [.checking (small.keyFor submitted), .notRecorded (small.keyFor submitted)] := by
  cases hentry : small.entry? (small.keyFor submitted) with
  | none => exact .inr (inspect_of_none hentry candidates)
  | some entry =>
      refine .inl (inspect_congr (h.keyFor submitted) ?_ candidates)
      rw [hentry, h.entry _ _ hentry]

end Included

end Memo

namespace Counters.NoBetter

variable {small large : Counters}

theorem refl (counters : Counters) : counters.NoBetter counters where
  writes := rfl
  hits := Nat.le_refl _
  missesNotCached := Nat.le_refl _
  missesSubmittedChanged := Nat.le_refl _
  missesNoMatch := Nat.le_refl _
  candidatesWithoutSpec := Nat.le_refl _
  persistedWithoutSpec := Nat.le_refl _
  evictions := Nat.le_refl _
  totalEntries := Nat.le_refl _

theorem recordWrite (h : small.NoBetter large) : small.recordWrite.NoBetter large.recordWrite :=
  { h with writes := congrArg (· + 1) h.writes }

theorem recordEvictions (h : small.NoBetter large) {fewer more : Nat} (hle : fewer ≤ more) :
    (small.recordEvictions more).NoBetter (large.recordEvictions fewer) :=
  { h with evictions := Nat.add_le_add h.evictions hle }

theorem setTotalEntries (h : small.NoBetter large) {fewer more : Nat} (hle : fewer ≤ more) :
    (small.setTotalEntries fewer).NoBetter (large.setTotalEntries more) :=
  { h with totalEntries := hle }

theorem recordCandidatesWithoutSpec (h : small.NoBetter large) {fewer more : Nat}
    (hle : fewer ≤ more) : (small.recordCandidatesWithoutSpec fewer).NoBetter
      (large.recordCandidatesWithoutSpec more) :=
  { h with candidatesWithoutSpec := Nat.add_le_add h.candidatesWithoutSpec hle }

theorem recordPersistedWithoutSpec (h : small.NoBetter large) {fewer more : Nat}
    (hle : fewer ≤ more) : (small.recordPersistedWithoutSpec fewer).NoBetter
      (large.recordPersistedWithoutSpec more) :=
  { h with persistedWithoutSpec := Nat.add_le_add h.persistedWithoutSpec hle }

theorem recordVerdict (h : small.NoBetter large) (verdict : Verdict) :
    (small.recordVerdict verdict).NoBetter (large.recordVerdict verdict) := by
  cases verdict with
  | hit _ _ => exact { h with hits := Nat.succ_le_succ h.hits }
  | miss reason =>
      cases reason with
      | notCached => exact { h with missesNotCached := Nat.succ_le_succ h.missesNotCached }
      | submittedChanged =>
          exact { h with missesSubmittedChanged := Nat.succ_le_succ h.missesSubmittedChanged }
      | noMatchingCandidate => exact { h with missesNoMatch := Nat.succ_le_succ h.missesNoMatch }

-- Whatever the larger memo makes of a check, the smaller one may miss it.
theorem recordVerdict_notCached (h : small.NoBetter large) (verdict : Verdict) :
    (small.recordVerdict (.miss .notCached)).NoBetter (large.recordVerdict verdict) := by
  have hmissed := Nat.le_succ_of_le h.missesNotCached
  cases verdict with
  | hit _ _ => exact { h with hits := Nat.le_succ_of_le h.hits, missesNotCached := hmissed }
  | miss reason =>
      cases reason with
      | notCached => exact h.recordVerdict _
      | submittedChanged =>
          exact { h with
            missesSubmittedChanged := Nat.le_succ_of_le h.missesSubmittedChanged
            missesNotCached := hmissed }
      | noMatchingCandidate =>
          exact { h with
            missesNoMatch := Nat.le_succ_of_le h.missesNoMatch
            missesNotCached := hmissed }

end Counters.NoBetter

namespace Memo

theorem Included.counters_record {small large : Memo} (h : Included small large)
    (hcounters : small.counters.NoBetter large.counters) (submitted persisted : Document) :
    (small.record submitted persisted).1.counters.NoBetter
      (large.record submitted persisted).1.counters := by
  rw [Memo.counters_record, Memo.counters_record, ← h.keyFor]
  have hevictions := hcounters.recordEvictions (h.length_evicted_le (small.keyFor submitted))
  exact hevictions.recordWrite.setTotalEntries (h.record submitted persisted).size_le

theorem Included.counters_check {small large : Memo} (h : Included small large)
    (hcounters : small.counters.NoBetter large.counters) (submitted : Document)
    (candidates : List Document) :
    (small.check submitted candidates).1.counters.NoBetter
      (large.check submitted candidates).1.counters := by
  rw [Memo.counters_check, Memo.counters_check, countFinding, countFinding]
  rcases h.inspect_cases submitted candidates with hsame | hmissed
  · rw [hsame]
    apply Counters.NoBetter.recordVerdict
    apply Counters.NoBetter.recordPersistedWithoutSpec _ (Nat.le_refl _)
    exact hcounters.recordCandidatesWithoutSpec (Nat.le_refl _)
  · rw [hmissed]
    apply Counters.NoBetter.recordVerdict_notCached
    apply Counters.NoBetter.recordPersistedWithoutSpec _ (Nat.zero_le _)
    exact hcounters.recordCandidatesWithoutSpec (Nat.zero_le _)

theorem Included.counters_step {small large : Memo} (h : Included small large)
    (hcounters : small.counters.NoBetter large.counters) (call : Call) :
    (small.step call).memo.counters.NoBetter (large.step call).memo.counters := by
  cases call with
  | set submitted persisted => exact h.counters_record hcounters submitted persisted
  | verdict submitted candidates | unchanged submitted candidates =>
      exact h.counters_check hcounters submitted candidates
  | get _ | entry _ | stats => exact hcounters

variable {small large : Settings}

theorem included_after (hstrategy : small.keyStrategy = large.keyStrategy)
    (hcapacity : small.NoLarger large) (calls : List Call) :
    Included (after small calls) (after large calls) ∧
      (after small calls).counters.NoBetter (after large calls).counters := by
  induction calls using List.reverseRecOn with
  | nil =>
      refine ⟨?_, .refl _⟩
      exact {
        small_wellFormed := wellFormed_empty small
        large_wellFormed := wellFormed_empty large
        keyStrategy := hstrategy
        noLarger := hcapacity
        entry := fun _ _ h => h
        order := fun _ => List.Sublist.refl _
        full := fun _ _ h => by cases h }
  | append_singleton calls call ih =>
      rw [after_concat, after_concat]
      exact ⟨ih.1.step call, ih.1.counters_step ih.2 call⟩

-- The same calls on two memos, the first with less capacity. What it has, the larger memo has too,
-- and it answers a check as the larger one does or has no entry to look at. So it counts as many
-- writes, no more hits, and no fewer misses for want of an entry and evictions. With a place for
-- every written key in the smaller memo the two cannot be told apart.
theorem same_answer_or_notCached (small large : Settings)
    (hstrategy : small.keyStrategy = large.keyStrategy) (hcapacity : small.NoLarger large)
    (calls : List Call) :
    (∀ key entry, Memo.entry? (after small calls) key = some entry →
      Memo.entry? (after large calls) key = some entry) ∧
    (∀ submitted candidates,
      (((after small calls).step (.verdict submitted candidates)).answer =
          ((after large calls).step (.verdict submitted candidates)).answer ∧
        ((after small calls).step (.unchanged submitted candidates)).answer =
          ((after large calls).step (.unchanged submitted candidates)).answer) ∨
      (((after small calls).step (.verdict submitted candidates)).answer =
          .verdict (.miss .notCached) ∧
        ((after small calls).step (.unchanged submitted candidates)).answer = .found none)) ∧
    (after small calls).stats.NoBetter (after large calls).stats ∧
    (0 < small.capacity.toNat →
      (writtenKeys small.keyStrategy calls).toFinset.card ≤ small.capacity.toNat →
        ((empty small).responses calls).map Response.answer =
            ((empty large).responses calls).map Response.answer ∧
          (after small calls).stats = (after large calls).stats) := by
  obtain ⟨hincluded, hcounters⟩ := included_after hstrategy hcapacity calls
  have hsmall := (wellFormed_after small calls).stats_eq
  have hlarge := (wellFormed_after large calls).stats_eq
  refine ⟨hincluded.entry, fun submitted candidates => ?_, ?_, fun _ hle => ?_⟩
  · rw [answer_verdict, answer_verdict, answer_unchanged, answer_unchanged]
    rcases hincluded.inspect_cases submitted candidates with hsame | hmissed
    · rw [hsame]
      exact .inl ⟨rfl, rfl⟩
    · rw [hmissed]
      exact .inr ⟨rfl, rfl⟩
  · rw [hsmall, hlarge]
    exact hcounters
  · have hplaces : large.isBounded →
        writtenCount large.keyStrategy calls ≤ large.capacity.toNat := by
      intro hbounded
      rw [← hstrategy]
      exact hle.trans (hcapacity hbounded).2
    obtain ⟨hagree, hanswers⟩ := agree_after hstrategy (fun _ => hle) hplaces
    rw [hsmall, hlarge, hagree.counters]
    exact ⟨hanswers, rfl⟩

-- Two keys have their places in both memos.
theorem same_answers_for_two_keys :
    (Settings.mk 2 .generateName 60).NoLarger (Settings.mk 3 .generateName 60) ∧
      ((empty ⟨2, .generateName, 60⟩).responses
        [.set (.named "a") (.named "a"), .set (.named "b") (.named "b"),
          .verdict (.named "a") [.named "a"]]).map Response.answer =
      ((empty ⟨3, .generateName, 60⟩).responses
        [.set (.named "a") (.named "a"), .set (.named "b") (.named "b"),
          .verdict (.named "a") [.named "a"]]).map Response.answer := by
  have hcapacity : (Settings.mk 2 .generateName 60).NoLarger (Settings.mk 3 .generateName 60) :=
    fun _ => ⟨by decide, by decide⟩
  have hagree := (same_answer_or_notCached ⟨2, .generateName, 60⟩ ⟨3, .generateName, 60⟩ rfl
    hcapacity [.set (.named "a") (.named "a"), .set (.named "b") (.named "b"),
      .verdict (.named "a") [.named "a"]]).2.2.2
  exact ⟨hcapacity, (hagree (by decide) (by decide +kernel)).1⟩

end Memo

end WriteMemo
