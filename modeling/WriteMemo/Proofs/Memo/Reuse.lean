import WriteMemo.Proofs.LastUse
import WriteMemo.Proofs.Memo.Scan
import WriteMemo.Proofs.Memo.Size

namespace WriteMemo.Memo

open LastUse

-- The key that a call uses. A check that finds no entry is no use.
def usedKey? (memo : Memo) : Call → Option Key
  | .set submitted _ => some (memo.keyFor submitted)
  | .verdict submitted candidates | .unchanged submitted candidates =>
    if (memo.check submitted candidates).2.verdict.missReason? = some .notCached then none
    else some (memo.keyFor submitted)
  | .get _ | .entry _ | .stats => none

-- The keys used by the calls of a run, in their order.
def uses (memo : Memo) : List Call → List Key
  | [] => []
  | call :: rest => (memo.usedKey? call).toList ++ (memo.step call).memo.uses rest

theorem uses_append (memo : Memo) (calls later : List Call) :
    memo.uses (calls ++ later) = memo.uses calls ++ (memo.run calls).uses later := by
  induction calls generalizing memo with
  | nil => rfl
  | cons call rest ih =>
      rw [List.cons_append, uses, uses, ih, List.append_assoc]
      rfl

theorem uses_concat (settings : Settings) (calls : List Call) (call : Call) :
    (empty settings).uses (calls ++ [call]) =
      (empty settings).uses calls ++ ((after settings calls).usedKey? call).toList := by
  rw [uses_append, uses, uses, List.append_nil]
  rfl

theorem missReason_inspect_iff (memo : Memo) (submitted : Document) (candidates : List Document) :
    (memo.inspect submitted candidates).verdict.missReason? = some .notCached ↔
      memo.entry? (memo.keyFor submitted) = none := by
  have hwarranted := memo.inspect_warranted submitted candidates
  generalize (memo.inspect submitted candidates).verdict = verdict at hwarranted
  cases hentry : memo.entry? (memo.keyFor submitted) with
  | none =>
      rw [hentry] at hwarranted
      cases hwarranted
      simp [Verdict.missReason?]
  | some entry =>
      rw [hentry] at hwarranted
      cases hwarranted <;> simp [Verdict.missReason?]

theorem usedKey_check (memo : Memo) (submitted : Document) (candidates : List Document) :
    memo.usedKey? (.verdict submitted candidates) =
      if (memo.entry? (memo.keyFor submitted)).isSome then some (memo.keyFor submitted)
      else none := by
  have hfinding : (memo.check submitted candidates).2 = memo.inspect submitted candidates := rfl
  rw [usedKey?, hfinding]
  by_cases hnone : memo.entry? (memo.keyFor submitted) = none
  · rw [if_pos ((missReason_inspect_iff memo submitted candidates).mpr hnone), hnone]
    rfl
  · rw [if_neg (fun h => hnone ((missReason_inspect_iff memo submitted candidates).mp h)),
      if_pos (Option.isSome_iff_ne_none.mpr hnone)]

-- A key is used for the first time when it is written.
theorem mem_uses_iff {settings : Settings} {calls : List Call} {key : Key} :
    key ∈ (empty settings).uses calls ↔ key ∈ writtenKeys settings.keyStrategy calls := by
  have hcheck (calls : List Call) (submitted : Document) (candidates : List Document)
      (hin : key ∈ ((after settings calls).usedKey? (.verdict submitted candidates)).toList) :
      key ∈ writtenKeys settings.keyStrategy calls := by
    rw [usedKey_check] at hin
    split at hin
    · next hsome =>
      rw [Option.toList_some, List.mem_singleton] at hin
      exact mem_writtenKeys_of_isSome (hin ▸ hsome)
    · cases hin
  induction calls using List.reverseRecOn with
  | nil => exact Iff.rfl
  | append_singleton calls call ih =>
      rw [uses_concat, writtenKeys_append, List.mem_append, List.mem_append]
      cases call with
      | set submitted persisted =>
          refine or_congr ih ?_
          simp [usedKey?, writtenKeys, Call.written?]
      | verdict submitted candidates | unchanged submitted candidates =>
          constructor
          · rintro (hin | hin)
            · exact .inl (ih.mp hin)
            · exact .inl (hcheck calls submitted candidates hin)
          · exact Or.imp ih.mpr (fun hin => absurd hin List.not_mem_nil)
      | get _ | entry _ | stats => exact or_congr ih Iff.rfl

-- A write of a key with an entry moves it behind all others. A new key goes there too, and takes
-- the place of the first key if the memo is full.
theorem WellFormed.order_record_eq {memo : Memo} (h : memo.WellFormed) {limit : Nat}
    (hlimit : memo.settings.capacity.toNat = limit + 1) (submitted persisted : Document) :
    (memo.record submitted persisted).1.recency.order =
      (if memo.keyFor submitted ∈ memo.recency.order then
        memo.recency.order.erase (memo.keyFor submitted)
      else memo.recency.order.rtake limit) ++ [memo.keyFor submitted] := by
  have hbounded : memo.settings.isBounded = true := Settings.isBounded_iff.mpr (by omega)
  have hlength := h.length_order hbounded
  rw [order_record, if_pos hbounded]
  congr 1
  rcases h.roomFor_cases (memo.keyFor submitted) with
    ⟨hroom, hlt⟩ | ⟨oldest, rest, hroom, -, hnone, hsplit, hfull⟩
  · rw [hroom]
    split
    · rfl
    · next hnew =>
      have hnone : memo.entry? (memo.keyFor submitted) = none := by
        rw [← Option.not_isSome_iff_eq_none, ← h.mem_order_iff hbounded]
        exact hnew
      have hfree := hlt hbounded hnone
      have hzero : memo.recency.order.length - limit = 0 := by omega
      rw [List.erase_of_not_mem hnew, List.rtake, hzero, List.drop_zero]
  · have hnew : memo.keyFor submitted ∉ memo.recency.order := by
      rw [h.mem_order_iff hbounded, hnone]
      exact Bool.false_ne_true
    have hone : memo.recency.order.length - limit = 1 := by omega
    rw [hroom, if_neg hnew, List.rtake, hone, hsplit, List.drop_one, List.tail_cons]
    rw [hsplit, List.mem_cons, not_or] at hnew
    exact List.erase_of_not_mem hnew.2

-- A use puts its key last, and the keys used last stay.
theorem WellFormed.order_step {memo : Memo} (h : memo.WellFormed)
    (hbounded : memo.settings.isBounded) (uses : List Key)
    (horder : memo.recency.order = uses.dedup.rtake memo.settings.capacity.toNat) (call : Call) :
    (memo.step call).memo.recency.order =
      (uses ++ (memo.usedKey? call).toList).dedup.rtake memo.settings.capacity.toNat := by
  have hpos := Settings.isBounded_iff.mp hbounded
  obtain ⟨limit, hlimit⟩ : ∃ limit, memo.settings.capacity.toNat = limit + 1 :=
    Nat.exists_eq_succ_of_ne_zero (Nat.ne_of_gt hpos)
  have hcheck (submitted : Document) (candidates : List Document) :
      (memo.check submitted candidates).1.recency.order =
        (uses ++ (memo.usedKey? (.verdict submitted candidates)).toList).dedup.rtake
          memo.settings.capacity.toNat := by
    rw [order_check, usedKey_check]
    by_cases hsome : (memo.entry? (memo.keyFor submitted)).isSome
    · have hmem := (h.mem_order_iff hbounded).mpr hsome
      rw [if_pos ⟨hbounded, hsome⟩, if_pos hsome, Option.toList_some, hlimit, rtake_dedup_concat,
        ← hlimit, ← horder, if_pos hmem]
    · rw [if_neg (fun htouch => hsome htouch.2), if_neg hsome, Option.toList_none,
        List.append_nil]
      exact horder
  cases call with
  | set submitted persisted =>
      have hrecord := h.order_record_eq hlimit submitted persisted
      rw [usedKey?, Option.toList_some, hlimit, rtake_dedup_concat, ← hlimit, ← horder]
      exact hrecord
  | verdict submitted candidates | unchanged submitted candidates =>
      exact hcheck submitted candidates
  | get _ | entry _ | stats =>
      rw [usedKey?, Option.toList_none, List.append_nil]
      exact horder

theorem order_after {settings : Settings} (hbounded : settings.isBounded) (calls : List Call) :
    (after settings calls).recency.order =
      ((empty settings).uses calls).dedup.rtake settings.capacity.toNat := by
  induction calls using List.reverseRecOn with
  | nil =>
      rw [uses, List.dedup_nil, List.rtake_nil]
      rfl
  | append_singleton calls call ih =>
      have hstep := (wellFormed_after settings calls).order_step (by rwa [settings_after])
        ((empty settings).uses calls) (by rwa [settings_after]) call
      rw [settings_after] at hstep
      rw [after_concat, hstep, uses_concat]

-- The other keys used since the last use of a key, each counted once.
def reuseDistance (settings : Settings) (key : Key) (calls : List Call) : Nat :=
  (since key ((empty settings).uses calls)).toFinset.card

theorem isSome_after_iff {settings : Settings} (hbounded : settings.isBounded) (calls : List Call)
    (key : Key) :
    (Memo.entry? (after settings calls) key).isSome ↔
      key ∈ writtenKeys settings.keyStrategy calls ∧
        reuseDistance settings key calls < settings.capacity.toNat := by
  have hmem : key ∈ (after settings calls).recency.order ↔ _ :=
    (wellFormed_after settings calls).mem_order_iff (by rwa [settings_after])
  rw [← hmem, order_after hbounded, mem_rtake_dedup_iff, mem_uses_iff, reuseDistance]

-- The keys that keep their place behind the first one in the order were all used since it was.
theorem mem_since_of_isSome {settings : Settings} (hbounded : settings.isBounded)
    {calls : List Call} {oldest key : Key} {rest : List Key}
    (horder : (after settings calls).recency.order = oldest :: rest)
    (hsome : (Memo.entry? (after settings calls) key).isSome) (hne : key ≠ oldest) :
    key ∈ since oldest ((empty settings).uses calls) := by
  have hlatest := horder
  rw [order_after hbounded, List.rtake] at hlatest
  have hsplit : ((empty settings).uses calls).dedup =
      ((empty settings).uses calls).dedup.take
        (((empty settings).uses calls).dedup.length - settings.capacity.toNat) ++
          oldest :: rest := by
    rw [← hlatest, List.take_append_drop]
  have hmem := ((wellFormed_after settings calls).mem_order_iff (by rwa [settings_after])).mpr hsome
  rw [horder, List.mem_cons] at hmem
  rw [← List.mem_dedup, ← eq_dedup_since hsplit]
  exact hmem.resolve_left hne

theorem evicted_mem_events_iff (memo : Memo) (submitted persisted : Document) (key : Key) :
    Event.evicted key ∈ (memo.step (.set submitted persisted)).events ↔
      key ∈ memo.evictedBy (.set submitted persisted) := by
  change Event.evicted key ∈ (memo.record submitted persisted).2 ↔ _
  rw [events_record, evictedBy]
  simp

-- The capacity is not zero. After every run a key has an entry if it was written and fewer other
-- keys than the capacity were used since its own last use, and the entry is the pair written last.
-- So a check finds no entry only if the key was never written or that many others were used since,
-- and the key that a write evicts is the one whose last use lies furthest back.
theorem entry_iff_recently_used (settings : Settings) (hcapacity : 0 < settings.capacity.toNat)
    (calls : List Call) (key : Key) :
    ((Memo.entry? (after settings calls) key).isSome ↔
      key ∈ writtenKeys settings.keyStrategy calls ∧
        reuseDistance settings key calls < settings.capacity.toNat) ∧
    (∀ entry, Memo.entry? (after settings calls) key = some entry →
      lastWrite settings.keyStrategy key calls = some entry) ∧
    (∀ submitted candidates, Key.derive settings.keyStrategy submitted = key →
      (((after settings calls).step (.verdict submitted candidates)).answer =
          .verdict (.miss .notCached) ↔
        key ∉ writtenKeys settings.keyStrategy calls ∨
          settings.capacity.toNat ≤ reuseDistance settings key calls)) ∧
    ∀ submitted persisted,
      (Event.evicted key ∈ ((after settings calls).step (.set submitted persisted)).events ↔
        (Memo.entry? (after settings calls) key).isSome ∧
          Memo.entry? (after settings (calls ++ [.set submitted persisted])) key = none) ∧
      (Event.evicted key ∈ ((after settings calls).step (.set submitted persisted)).events →
        ∀ other, other ≠ key → (Memo.entry? (after settings calls) other).isSome →
          other ∈ since key ((empty settings).uses calls)) := by
  have hbounded := Settings.isBounded_iff.mpr hcapacity
  have hwf := wellFormed_after settings calls
  have hiff := isSome_after_iff hbounded calls key
  refine ⟨hiff, fun entry => lastWrite_of_entry_after, fun submitted candidates hkey => ?_,
    fun submitted persisted => ⟨?_, fun hevent other hne hsome => ?_⟩⟩
  · have hmiss := missReason_inspect_iff (after settings calls) submitted candidates
    rw [Verdict.missReason_eq_some_iff, keyFor_after, hkey, ← Option.not_isSome_iff_eq_none, hiff,
      not_and_or, Nat.not_lt] at hmiss
    rw [answer_verdict, Answer.verdict.injEq]
    exact hmiss
  · rw [evicted_mem_events_iff, hwf.mem_evictedBy_iff, after_concat]
  · rw [evicted_mem_events_iff] at hevent
    obtain ⟨-, rest, horder⟩ := hwf.order_of_mem_evictedBy hevent
    exact mem_since_of_isSome hbounded horder hsome hne

-- The check of the first key makes the second one the oldest, and the third key takes its place.
theorem no_entry_after_two_other_uses :
    0 < (Settings.mk 2 .generateName 60).capacity.toNat ∧
      Memo.entry? (after ⟨2, .generateName, 60⟩
        [.set (.named "a") (.named "a"), .set (.named "b") (.named "b"), .verdict (.named "a") [],
          .set (.named "c") (.named "c")]) ⟨"", "Foo", "b"⟩ = none := by
  refine ⟨by decide, ?_⟩
  have hiff := (entry_iff_recently_used ⟨2, .generateName, 60⟩ (by decide)
    [.set (.named "a") (.named "a"), .set (.named "b") (.named "b"), .verdict (.named "a") [],
      .set (.named "c") (.named "c")] ⟨"", "Foo", "b"⟩).1
  rw [← Option.not_isSome_iff_eq_none, hiff, not_and_or, Nat.not_lt]
  exact .inr (by decide +kernel)

end WriteMemo.Memo
