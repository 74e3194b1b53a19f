import WriteMemo.Proofs.Memo.WellFormed

namespace WriteMemo.Memo

def writtenCount (strategy : KeyStrategy) (calls : List Call) : Nat :=
  (writtenKeys strategy calls).toFinset.card

theorem writtenCount_concat_set (strategy : KeyStrategy) (calls : List Call)
    (submitted persisted : Document) :
    writtenCount strategy (calls ++ [.set submitted persisted]) =
      if Key.derive strategy submitted ∈ writtenKeys strategy calls then
        writtenCount strategy calls
      else writtenCount strategy calls + 1 := by
  have hinsert : (writtenKeys strategy (calls ++ [.set submitted persisted])).toFinset =
      insert (Key.derive strategy submitted) (writtenKeys strategy calls).toFinset := by
    ext key
    simp [writtenKeys, Call.written?]
  rw [writtenCount, hinsert]
  split
  · next hmem => rw [Finset.insert_eq_of_mem (List.mem_toFinset.mpr hmem), writtenCount]
  · next hmem =>
    rw [Finset.card_insert_of_notMem (fun hin => hmem (List.mem_toFinset.mp hin)), writtenCount]

theorem writtenCount_concat_of_not_write {call : Call} (hcall : call.written? = none)
    (strategy : KeyStrategy) (calls : List Call) :
    writtenCount strategy (calls ++ [call]) = writtenCount strategy calls := by
  simp [writtenCount, writtenKeys, hcall]

theorem writtenCount_le_append (strategy : KeyStrategy) (calls later : List Call) :
    writtenCount strategy calls ≤ writtenCount strategy (calls ++ later) := by
  apply Finset.card_le_card
  intro key hkey
  rw [List.mem_toFinset] at hkey ⊢
  rw [writtenKeys_append]
  exact List.mem_append_left _ hkey

theorem size_step_of_not_write (memo : Memo) {call : Call} (hcall : call.written? = none) :
    (memo.step call).memo.size = memo.size := by
  cases call with
  | set submitted persisted => cases hcall
  | verdict submitted candidates | unchanged submitted candidates =>
      exact congrArg List.length (entries_check memo submitted candidates)
  | get _ | entry _ | stats => rfl

-- Every key with an entry was written. If there are as many entries as written keys, the converse
-- holds too.
theorem isSome_of_size_eq {settings : Settings} {calls : List Call}
    (hsize : (after settings calls).size = writtenCount settings.keyStrategy calls) {key : Key}
    (hmem : key ∈ writtenKeys settings.keyStrategy calls) :
    (Memo.entry? (after settings calls) key).isSome := by
  have hnodup := (wellFormed_after settings calls).nodup_keys
  have hsub : (after settings calls).entries.keys.toFinset ⊆
      (writtenKeys settings.keyStrategy calls).toFinset := by
    intro other hother
    rw [List.mem_toFinset] at hother ⊢
    exact mem_writtenKeys_of_isSome (Entries.mem_keys_iff.mp hother)
  have hcard : (writtenKeys settings.keyStrategy calls).toFinset.card ≤
      (after settings calls).entries.keys.toFinset.card := by
    rw [List.toFinset_card_of_nodup hnodup, Entries.length_keys]
    exact hsize.ge
  have hin : key ∈ (after settings calls).entries.keys.toFinset := by
    rw [Finset.eq_of_subset_of_card_le hsub hcard, List.mem_toFinset]
    exact hmem
  exact Entries.mem_keys_iff.mp (List.mem_toFinset.mp hin)

-- By induction on the calls from the last one back. A write under a key with an entry changes
-- neither side. A write under any other key adds a written key and, unless the memo is full, an
-- entry: as long as it is not full it has an entry for every written key.
theorem size_after (settings : Settings) (calls : List Call) :
    (after settings calls).size =
      if settings.isBounded then
        min settings.capacity.toNat (writtenCount settings.keyStrategy calls)
      else writtenCount settings.keyStrategy calls := by
  induction calls using List.reverseRecOn with
  | nil =>
      rw [writtenCount]
      split
      · exact (Nat.min_zero _).symm
      · rfl
  | append_singleton calls call ih =>
      rw [after_concat]
      cases call with
      | verdict _ _ | unchanged _ _ | get _ | entry _ | stats =>
          rw [writtenCount_concat_of_not_write rfl, size_step_of_not_write _ rfl]
          exact ih
      | set submitted persisted =>
          have hwf := wellFormed_after settings calls
          have hkey := keyFor_after settings calls submitted
          rw [writtenCount_concat_set]
          cases hentry : Memo.entry? (after settings calls)
              ((after settings calls).keyFor submitted) with
          | some entry =>
              have hsome := Option.isSome_of_eq_some hentry
              have hmem := mem_writtenKeys_of_isSome hsome
              rw [hkey] at hmem
              rw [if_pos hmem]
              exact (hwf.size_record_of_isSome hsome persisted).trans ih
          | none =>
              have hsize := hwf.size_record_of_none hentry persisted
              rw [settings_after] at hsize
              have hnew : (after settings calls).size =
                  writtenCount settings.keyStrategy calls →
                    Key.derive settings.keyStrategy submitted ∉
                      writtenKeys settings.keyStrategy calls := by
                intro heq hmem
                have hsome := isSome_of_size_eq heq hmem
                rw [← hkey, hentry] at hsome
                cases hsome
              refine hsize.trans ?_
              cases hbounded : settings.isBounded with
              | false =>
                  simp only [hbounded, Bool.false_eq_true, ite_false, false_and] at ih ⊢
                  rw [if_neg (hnew ih), ih]
              | true =>
                  simp only [hbounded, ite_true, true_and] at ih ⊢
                  by_cases hfull : (after settings calls).size = settings.capacity.toNat
                  · rw [if_pos hfull]
                    split <;> omega
                  · have heq : (after settings calls).size =
                        writtenCount settings.keyStrategy calls := by omega
                    rw [if_neg hfull, if_neg (hnew heq)]
                    omega

theorem size_le_append (settings : Settings) (calls later : List Call) :
    (after settings calls).size ≤ (after settings (calls ++ later)).size := by
  have hle := writtenCount_le_append settings.keyStrategy calls later
  rw [size_after, size_after]
  split <;> omega

-- While no more keys are written than the capacity allows, every written key has its entry.
theorem isSome_of_writtenCount_le {settings : Settings} {calls : List Call}
    (hle : settings.isBounded → writtenCount settings.keyStrategy calls ≤ settings.capacity.toNat)
    {key : Key} (hmem : key ∈ writtenKeys settings.keyStrategy calls) :
    (Memo.entry? (after settings calls) key).isSome := by
  refine isSome_of_size_eq ?_ hmem
  rw [size_after]
  split
  · next hbounded => exact Nat.min_eq_right (hle hbounded)
  · rfl

theorem entry_after_of_writtenCount_le {settings : Settings} {calls : List Call}
    (hle : settings.isBounded → writtenCount settings.keyStrategy calls ≤ settings.capacity.toNat)
    (key : Key) :
    Memo.entry? (after settings calls) key = lastWrite settings.keyStrategy key calls := by
  by_cases hmem : key ∈ writtenKeys settings.keyStrategy calls
  · obtain ⟨entry, hentry⟩ := Option.isSome_iff_exists.mp (isSome_of_writtenCount_le hle hmem)
    rw [hentry, lastWrite_of_entry_after hentry]
  · rw [lastWrite_eq_none_iff.mpr hmem, ← Option.not_isSome_iff_eq_none]
    exact fun hsome => hmem (mem_writtenKeys_of_isSome hsome)

-- As long as there is a place for every key that is written, no call evicts anything.
theorem evictedBy_eq_nil_of_writtenCount_le {settings : Settings} {calls : List Call} {call : Call}
    (hle : settings.isBounded →
      writtenCount settings.keyStrategy (calls ++ [call]) ≤ settings.capacity.toNat) :
    (after settings calls).evictedBy call = [] := by
  apply List.eq_nil_iff_forall_not_mem.mpr
  intro key hevicted
  obtain ⟨hbefore, hafter⟩ :=
    ((wellFormed_after settings calls).mem_evictedBy_iff call key).mp hevicted
  have hwritten : key ∈ writtenKeys settings.keyStrategy (calls ++ [call]) := by
    rw [writtenKeys_append]
    exact List.mem_append_left _ (mem_writtenKeys_of_isSome hbefore)
  have hsome := isSome_of_writtenCount_le hle hwritten
  rw [after_concat, hafter] at hsome
  cases hsome

-- After every run the recency order of a bounded memo is its keys, each once, and that of an
-- unbounded one is empty. Entries are filed under the key of their own document, there are as many
-- as keys were written, up to the capacity, and never fewer than before. The counters kept and
-- the counters shown agree. In front of a write at most one key is given up, none if the key has
-- an entry, and always enough for one more: the order is never used up before there is room.
theorem parts_agree_after (settings : Settings) (calls : List Call) :
    ((settings.isBounded → (after settings calls).recency.order.Nodup ∧
        ∀ key, key ∈ (after settings calls).recency.order ↔
          (Memo.entry? (after settings calls) key).isSome) ∧
      (settings.isBounded = false → (after settings calls).recency.order = [])) ∧
    (∀ key entry, Memo.entry? (after settings calls) key = some entry →
      Key.derive settings.keyStrategy entry.submitted = key) ∧
    ((after settings calls).size =
        (if settings.isBounded then
          min settings.capacity.toNat (writtenKeys settings.keyStrategy calls).toFinset.card
        else (writtenKeys settings.keyStrategy calls).toFinset.card) ∧
      (settings.isBounded → (after settings calls).size ≤ settings.capacity.toNat) ∧
      ∀ later, (after settings calls).size ≤ (after settings (calls ++ later)).size) ∧
    ((after settings calls).counters.totalEntries = (after settings calls).size ∧
      (after settings calls).stats = (after settings calls).counters ∧
      Memo.describe { after settings calls with counters := (after settings calls).stats } =
        (after settings calls).describe) ∧
    ∀ key,
      ((after settings calls).roomFor key).evicted.length ≤ 1 ∧
      (settings.isBounded → Memo.entry? (after settings calls) key = none →
        ((after settings calls).roomFor key).entries.length < settings.capacity.toNat) ∧
      ((Memo.entry? (after settings calls) key).isSome →
        ((after settings calls).roomFor key).evicted = []) := by
  have hwf := wellFormed_after settings calls
  have hsettings := settings_after settings calls
  have hstats := hwf.stats_eq
  refine ⟨⟨fun hbounded => ⟨hwf.nodup_order, fun key => hwf.mem_order_iff ?_⟩,
      fun hunbounded => hwf.order_eq_nil ?_⟩, fun key entry hentry => ?_,
    ⟨size_after settings calls, fun hbounded => ?_, size_le_append settings calls⟩,
    ⟨hwf.totalEntries_eq, hstats, by rw [hstats]⟩,
    fun key => ⟨hwf.length_evicted_le key, fun hbounded hnone => ?_, hwf.evicted_eq_nil⟩⟩
  · rw [hsettings]
    exact hbounded
  · rw [hsettings]
    exact hunbounded
  · rw [← keyFor_after settings calls]
    exact hwf.keyed key entry hentry
  · have hle := hwf.size_le
    rw [hsettings] at hle
    exact hle hbounded
  · have hlt := hwf.length_roomFor_lt (by rwa [hsettings]) hnone
    rwa [hsettings] at hlt

end WriteMemo.Memo
