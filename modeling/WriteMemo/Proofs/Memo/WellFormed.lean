import WriteMemo.Proofs.Memo.History

namespace WriteMemo

theorem Settings.isBounded_iff {settings : Settings} :
    settings.isBounded = true ↔ 0 < settings.capacity.toNat := by
  rw [isBounded, decide_eq_true_eq, UInt64.lt_iff_toNat_lt]
  rfl

namespace Memo

structure WellFormed (memo : Memo) : Prop where
  nodup_keys : memo.entries.keys.Nodup
  keyed : ∀ key entry, memo.entry? key = some entry → memo.keyFor entry.submitted = key
  order_perm : memo.settings.isBounded → memo.recency.order.Perm memo.entries.keys
  order_eq_nil : memo.settings.isBounded = false → memo.recency.order = []
  size_le : memo.settings.isBounded → memo.size ≤ memo.settings.capacity.toNat
  totalEntries_eq : memo.counters.totalEntries = memo.size

theorem makeRoom_of_lt {limit : Nat} {entries : Entries} (hlt : entries.length < limit)
    (order : List Key) : makeRoom limit order entries = ⟨order, entries, []⟩ := by
  cases order with
  | nil => rfl
  | cons oldest rest => rw [makeRoom, if_pos hlt]

theorem makeRoom_of_le {limit : Nat} {entries : Entries} {oldest : Key}
    (hle : limit ≤ entries.length) (hlt : (entries.erase oldest).length < limit)
    (rest : List Key) :
    makeRoom limit (oldest :: rest) entries = ⟨rest, entries.erase oldest, [oldest]⟩ := by
  rw [makeRoom, if_neg (Nat.not_lt_of_le hle), makeRoom_of_lt hlt]

theorem wellFormed_empty (settings : Settings) : (empty settings).WellFormed where
  nodup_keys := List.nodup_nil
  keyed _ _ h := by cases h
  order_perm _ := List.Perm.nil
  order_eq_nil _ := rfl
  size_le _ := Nat.zero_le _
  totalEntries_eq := rfl

namespace WellFormed

variable {memo : Memo} {key : Key}

theorem nodup_order (h : memo.WellFormed) : memo.recency.order.Nodup := by
  cases hbounded : memo.settings.isBounded with
  | true => exact (h.order_perm hbounded).nodup_iff.mpr h.nodup_keys
  | false =>
      rw [h.order_eq_nil hbounded]
      exact List.nodup_nil

theorem mem_order_iff (h : memo.WellFormed) (hbounded : memo.settings.isBounded) :
    key ∈ memo.recency.order ↔ (memo.entry? key).isSome :=
  (h.order_perm hbounded).mem_iff.trans Entries.mem_keys_iff

theorem length_order (h : memo.WellFormed) (hbounded : memo.settings.isBounded) :
    memo.recency.order.length = memo.size :=
  (h.order_perm hbounded).length_eq.trans (Entries.length_keys _)

-- Either nothing has to go, or the memo is full, the key is new, and the oldest key alone goes.
-- The order never runs out before there is room, because it has as many keys as there are entries.
theorem roomFor_cases (h : memo.WellFormed) (key : Key) :
    (memo.roomFor key = ⟨memo.recency.order, memo.entries, []⟩ ∧
      (memo.settings.isBounded → memo.entry? key = none →
        memo.size < memo.settings.capacity.toNat)) ∨
    ∃ oldest rest, memo.roomFor key = ⟨rest, memo.entries.erase oldest, [oldest]⟩ ∧
      memo.settings.isBounded ∧ memo.entry? key = none ∧
      memo.recency.order = oldest :: rest ∧ memo.size = memo.settings.capacity.toNat := by
  by_cases hroom : memo.settings.isBounded ∧ memo.entry? key = none
  · obtain ⟨hbounded, hnone⟩ := hroom
    have hroomFor : memo.roomFor key =
        makeRoom memo.settings.capacity.toNat memo.recency.order memo.entries := by
      simp [roomFor, hbounded, hnone]
    by_cases hlt : memo.size < memo.settings.capacity.toNat
    · exact .inl ⟨hroomFor.trans (makeRoom_of_lt hlt _), fun _ _ => hlt⟩
    · have hfull : memo.size = memo.settings.capacity.toNat :=
        Nat.le_antisymm (h.size_le hbounded) (Nat.le_of_not_lt hlt)
      have hpos := Settings.isBounded_iff.mp hbounded
      have hlength := h.length_order hbounded
      cases horder : memo.recency.order with
      | nil =>
          rw [horder, List.length_nil] at hlength
          omega
      | cons oldest rest =>
          have hmem : oldest ∈ memo.entries.keys :=
            (h.order_perm hbounded).mem_iff.mp (horder ▸ List.mem_cons_self)
          have hrest : (memo.entries.erase oldest).length < memo.settings.capacity.toNat := by
            rw [Entries.length_erase_of_mem h.nodup_keys hmem]
            unfold size at hfull
            omega
          refine .inr ⟨oldest, rest, ?_, hbounded, hnone, rfl, hfull⟩
          rw [hroomFor, horder, makeRoom_of_le hfull.ge hrest]
  · refine .inl ⟨?_, fun hbounded hnone => absurd ⟨hbounded, hnone⟩ hroom⟩
    unfold roomFor
    rw [if_neg (by simpa using hroom)]

theorem length_evicted_le (h : memo.WellFormed) (key : Key) :
    (memo.roomFor key).evicted.length ≤ 1 := by
  rcases h.roomFor_cases key with ⟨hroom, -⟩ | ⟨_, _, hroom, -⟩ <;> simp [hroom]

theorem evicted_eq_nil (h : memo.WellFormed) (hsome : (memo.entry? key).isSome) :
    (memo.roomFor key).evicted = [] := by
  rcases h.roomFor_cases key with ⟨hroom, -⟩ | ⟨_, _, _, -, hnone, -⟩
  · rw [hroom]
  · rw [hnone] at hsome
    cases hsome

theorem length_roomFor_lt (h : memo.WellFormed) (hbounded : memo.settings.isBounded)
    (hnone : memo.entry? key = none) :
    (memo.roomFor key).entries.length < memo.settings.capacity.toNat := by
  rcases h.roomFor_cases key with ⟨hroom, hlt⟩ | ⟨oldest, rest, hroom, -, -, horder, hfull⟩
  · rw [hroom]
    exact hlt hbounded hnone
  · have hmem : oldest ∈ memo.entries.keys :=
      (h.order_perm hbounded).mem_iff.mp (horder ▸ List.mem_cons_self)
    have hpos := Settings.isBounded_iff.mp hbounded
    rw [hroom, Entries.length_erase_of_mem h.nodup_keys hmem]
    unfold size at hfull
    omega

theorem size_record_of_isSome (h : memo.WellFormed) {submitted : Document}
    (hsome : (memo.entry? (memo.keyFor submitted)).isSome) (persisted : Document) :
    (memo.record submitted persisted).1.size = memo.size := by
  rcases h.roomFor_cases (memo.keyFor submitted) with ⟨hroom, -⟩ | ⟨_, _, _, _, hnone, _⟩
  · rw [size, entries_record, hroom,
      Entries.length_insert_of_mem h.nodup_keys (Entries.mem_keys_iff.mpr hsome)]
    rfl
  · rw [hnone] at hsome
    cases hsome

-- A new key takes the place of the one that goes, or one more place.
theorem size_record_of_none (h : memo.WellFormed) {submitted : Document}
    (hnone : memo.entry? (memo.keyFor submitted) = none) (persisted : Document) :
    (memo.record submitted persisted).1.size =
      if memo.settings.isBounded ∧ memo.size = memo.settings.capacity.toNat then memo.size
      else memo.size + 1 := by
  have hkey := Entries.notMem_keys_iff.mpr hnone
  rw [size, entries_record]
  rcases h.roomFor_cases (memo.keyFor submitted) with
    ⟨hroom, hlt⟩ | ⟨oldest, rest, hroom, hbounded, -, horder, hfull⟩
  · rw [hroom, Entries.length_insert_of_notMem h.nodup_keys hkey, if_neg]
    · rfl
    · rintro ⟨hbounded, hfull⟩
      exact absurd hfull (Nat.ne_of_lt (hlt hbounded hnone))
  · have hmem : oldest ∈ memo.entries.keys :=
      (h.order_perm hbounded).mem_iff.mp (horder ▸ List.mem_cons_self)
    have hrest : memo.keyFor submitted ∉ (memo.entries.erase oldest).keys := by
      rw [Entries.keys_erase h.nodup_keys]
      exact fun hin => hkey (List.mem_of_mem_erase hin)
    have hpos := Settings.isBounded_iff.mp hbounded
    rw [hroom, Entries.length_insert_of_notMem (Entries.nodup_keys_erase h.nodup_keys oldest) hrest,
      Entries.length_erase_of_mem h.nodup_keys hmem, if_pos ⟨hbounded, hfull⟩]
    unfold size at hfull ⊢
    omega

theorem size_record_of_full (h : memo.WellFormed) (hbounded : memo.settings.isBounded)
    (hfull : memo.size = memo.settings.capacity.toNat) (submitted persisted : Document) :
    (memo.record submitted persisted).1.size = memo.size := by
  cases hentry : memo.entry? (memo.keyFor submitted) with
  | some entry => exact h.size_record_of_isSome (Option.isSome_of_eq_some hentry) persisted
  | none => rw [h.size_record_of_none hentry, if_pos ⟨hbounded, hfull⟩]

theorem size_record_le (h : memo.WellFormed) (hbounded : memo.settings.isBounded)
    (submitted persisted : Document) :
    (memo.record submitted persisted).1.size ≤ memo.settings.capacity.toNat := by
  have hle := h.size_le hbounded
  cases hentry : memo.entry? (memo.keyFor submitted) with
  | some entry =>
      rw [h.size_record_of_isSome (by rw [hentry]; rfl)]
      exact hle
  | none =>
      rw [h.size_record_of_none hentry]
      simp only [hbounded, true_and]
      split <;> omega

theorem order_record_perm (h : memo.WellFormed) (hbounded : memo.settings.isBounded)
    (submitted persisted : Document) :
    (memo.record submitted persisted).1.recency.order.Perm
      (memo.record submitted persisted).1.entries.keys := by
  rw [order_record, if_pos hbounded, entries_record]
  have hperm := h.order_perm hbounded
  rcases h.roomFor_cases (memo.keyFor submitted) with
    ⟨hroom, -⟩ | ⟨oldest, rest, hroom, -, -, horder, -⟩
  · rw [hroom, Entries.keys_insert h.nodup_keys]
    exact (List.perm_append_singleton _ _).trans ((hperm.erase _).cons _)
  · have hrest : rest.Perm (memo.entries.erase oldest).keys := by
      rw [Entries.keys_erase h.nodup_keys]
      have herase := hperm.erase oldest
      rwa [horder, List.erase_cons_head] at herase
    rw [hroom, Entries.keys_insert (Entries.nodup_keys_erase h.nodup_keys oldest)]
    exact (List.perm_append_singleton _ _).trans ((hrest.erase _).cons _)

theorem nodup_keys_record (h : memo.WellFormed) (submitted persisted : Document) :
    (memo.record submitted persisted).1.entries.keys.Nodup := by
  rw [entries_record]
  rcases h.roomFor_cases (memo.keyFor submitted) with ⟨hroom, -⟩ | ⟨oldest, rest, hroom, -⟩
  · rw [hroom]
    exact Entries.nodup_keys_insert h.nodup_keys _ _
  · rw [hroom]
    exact Entries.nodup_keys_insert (Entries.nodup_keys_erase h.nodup_keys oldest) _ _

theorem record (h : memo.WellFormed) (submitted persisted : Document) :
    (memo.record submitted persisted).1.WellFormed where
  nodup_keys := h.nodup_keys_record submitted persisted
  keyed key entry hentry := by
    rw [keyFor, settings_record]
    by_cases heq : key = memo.keyFor submitted
    · subst heq
      rw [entry_record_self] at hentry
      cases hentry
      rfl
    · rw [entry_record_of_ne heq] at hentry
      split at hentry
      · cases hentry
      · exact h.keyed key entry hentry
  order_perm hbounded := by
    rw [settings_record] at hbounded
    exact h.order_record_perm hbounded submitted persisted
  order_eq_nil hbounded := by
    rw [settings_record] at hbounded
    have hunbounded : ¬memo.settings.isBounded = true := by simp [hbounded]
    rw [order_record, if_neg hunbounded, roomFor, if_neg (by simp [hbounded])]
    exact h.order_eq_nil hbounded
  size_le hbounded := by
    rw [settings_record] at hbounded ⊢
    exact h.size_record_le hbounded submitted persisted
  totalEntries_eq := by
    rw [counters_record]
    rfl

theorem check (h : memo.WellFormed) (submitted : Document) (candidates : List Document) :
    (memo.check submitted candidates).1.WellFormed where
  nodup_keys := by
    rw [entries_check]
    exact h.nodup_keys
  keyed key entry hentry := by
    rw [keyFor, settings_check]
    rw [entry_check] at hentry
    exact h.keyed key entry hentry
  order_perm hbounded := by
    rw [settings_check] at hbounded
    rw [entries_check, order_check]
    have hperm := h.order_perm hbounded
    split
    · next htouch =>
      have hmem := (h.mem_order_iff hbounded).mpr htouch.2
      exact (List.perm_append_singleton _ _).trans ((List.perm_cons_erase hmem).symm.trans hperm)
    · exact hperm
  order_eq_nil hbounded := by
    rw [settings_check] at hbounded
    rw [order_check, if_neg (by simp [hbounded])]
    exact h.order_eq_nil hbounded
  size_le hbounded := by
    rw [settings_check] at hbounded ⊢
    rw [size, entries_check]
    exact h.size_le hbounded
  totalEntries_eq := by
    rw [counters_check, size, entries_check]
    exact (totalEntries_countFinding _ _).trans h.totalEntries_eq

theorem step (h : memo.WellFormed) (call : Call) : (memo.step call).memo.WellFormed := by
  cases call with
  | set submitted persisted => exact h.record submitted persisted
  | verdict submitted candidates | unchanged submitted candidates =>
      exact h.check submitted candidates
  | get _ | entry _ | stats => exact h

theorem order_of_mem_evictedBy (h : memo.WellFormed) {call : Call}
    (hevicted : key ∈ memo.evictedBy call) :
    (memo.entry? key).isSome ∧ ∃ rest, memo.recency.order = key :: rest := by
  cases call with
  | set submitted persisted =>
      rw [evictedBy] at hevicted
      rcases h.roomFor_cases (memo.keyFor submitted) with
        ⟨hroom, -⟩ | ⟨oldest, rest, hroom, hbounded, -, horder, -⟩
      · rw [hroom] at hevicted
        cases hevicted
      · rw [hroom, List.mem_singleton] at hevicted
        subst hevicted
        exact ⟨(h.mem_order_iff hbounded).mp (horder ▸ List.mem_cons_self), rest, horder⟩
  | verdict _ _ | unchanged _ _ | get _ | entry _ | stats => cases hevicted

-- What a call evicts are the entries that are gone after it.
theorem mem_evictedBy_iff (h : memo.WellFormed) (call : Call) (key : Key) :
    key ∈ memo.evictedBy call ↔
      (memo.entry? key).isSome ∧ Memo.entry? (memo.step call).memo key = none := by
  rw [entry_step]
  constructor
  · intro hevicted
    refine ⟨(h.order_of_mem_evictedBy hevicted).1, ?_⟩
    rw [if_pos hevicted, Option.or_none]
    cases call with
    | set submitted persisted =>
        apply lastWrite_set_of_ne
        intro heq
        have hkey : key = memo.keyFor submitted := heq
        have hsome := (h.order_of_mem_evictedBy hevicted).1
        rw [hkey] at hsome
        rw [evictedBy, h.evicted_eq_nil hsome] at hevicted
        cases hevicted
    | verdict _ _ | unchanged _ _ | get _ | entry _ | stats => rfl
  · rintro ⟨hsome, hnone⟩
    by_contra hkept
    rw [if_neg hkept, Option.or_eq_none_iff] at hnone
    rw [hnone.2] at hsome
    cases hsome

theorem stats_eq (h : memo.WellFormed) : memo.stats = memo.counters := by
  rw [stats, ← h.totalEntries_eq]
  rfl

end WellFormed

theorem wellFormed_after (settings : Settings) (calls : List Call) :
    (after settings calls).WellFormed := by
  induction calls using List.reverseRecOn with
  | nil => exact wellFormed_empty settings
  | append_singleton calls call ih =>
      rw [after_concat]
      exact ih.step call

end Memo

end WriteMemo
