import WriteMemo.Proofs.Memo.Step

namespace WriteMemo

-- A document of which only the name matters.
def Document.named (name : String) : Document :=
  .ofMembers [("kind", .string "Foo"), ("metadata", .object [("name", .string name)]),
    ("spec", .null)]

-- The pair that a call records, if it is a write.
def Call.written? : Call → Option Entry
  | .set submitted persisted => some ⟨submitted, persisted⟩
  | _ => none

namespace Memo

-- The keys of all writes, in the order of the calls.
def writtenKeys (strategy : KeyStrategy) (calls : List Call) : List Key :=
  (calls.filterMap Call.written?).map fun entry => Key.derive strategy entry.submitted

-- The most recent of the pairs written under a key.
def lastWrite (strategy : KeyStrategy) (key : Key) (calls : List Call) : Option Entry :=
  (calls.filterMap Call.written?).reverse.find? fun entry =>
    Key.derive strategy entry.submitted = key

-- The keys whose entries a call gives up to make room.
def evictedBy (memo : Memo) : Call → List Key
  | .set submitted _ => (memo.roomFor (memo.keyFor submitted)).evicted
  | _ => []

variable {key : Key} {calls : List Call}

theorem writtenKeys_append (strategy : KeyStrategy) (calls later : List Call) :
    writtenKeys strategy (calls ++ later) =
      writtenKeys strategy calls ++ writtenKeys strategy later := by
  simp only [writtenKeys, List.filterMap_append, List.map_append]

theorem mem_writtenKeys_iff {strategy : KeyStrategy} :
    key ∈ writtenKeys strategy calls ↔ ∃ call ∈ calls, key ∈ writtenKeys strategy [call] := by
  simp only [writtenKeys, List.mem_map, List.mem_filterMap, List.mem_singleton]
  constructor
  · rintro ⟨entry, ⟨call, hcall, hwritten⟩, hkey⟩
    exact ⟨call, hcall, entry, ⟨call, rfl, hwritten⟩, hkey⟩
  · rintro ⟨call, hcall, entry, ⟨_, rfl, hwritten⟩, hkey⟩
    exact ⟨entry, ⟨_, hcall, hwritten⟩, hkey⟩

theorem lastWrite_append (strategy : KeyStrategy) (key : Key) (calls later : List Call) :
    lastWrite strategy key (calls ++ later) =
      (lastWrite strategy key later).or (lastWrite strategy key calls) := by
  simp only [lastWrite, List.filterMap_append, List.reverse_append, List.find?_append]

theorem lastWrite_eq_none_iff {strategy : KeyStrategy} :
    lastWrite strategy key calls = none ↔ key ∉ writtenKeys strategy calls := by
  simp [lastWrite, writtenKeys]

theorem lastWrite_set_self (strategy : KeyStrategy) (submitted persisted : Document) :
    lastWrite strategy (Key.derive strategy submitted) [.set submitted persisted] =
      some ⟨submitted, persisted⟩ := by
  simp [lastWrite, Call.written?]

theorem lastWrite_set_of_ne {strategy : KeyStrategy} {submitted : Document}
    (hne : key ≠ Key.derive strategy submitted) (persisted : Document) :
    lastWrite strategy key [.set submitted persisted] = none := by
  simp [lastWrite, Call.written?, Ne.symm hne]

-- One call puts its own pair under its key, and under any other key it keeps an entry or gives it
-- up.
theorem entry_step (memo : Memo) (call : Call) (key : Key) :
    Memo.entry? (memo.step call).memo key =
      (lastWrite memo.settings.keyStrategy key [call]).or
        (if key ∈ memo.evictedBy call then none else memo.entry? key) := by
  cases call with
  | set submitted persisted =>
      by_cases heq : key = memo.keyFor submitted
      · subst heq
        rw [keyFor, lastWrite_set_self]
        exact entry_record_self memo submitted persisted
      · rw [lastWrite_set_of_ne heq]
        exact entry_record_of_ne heq persisted
  | verdict submitted candidates | unchanged submitted candidates =>
      exact entry_check memo submitted candidates key
  | get _ | entry _ | stats => rfl

theorem entry_after_set (settings : Settings) (calls : List Call) (submitted persisted : Document) :
    Memo.entry? (after settings (calls ++ [.set submitted persisted]))
      (Key.derive settings.keyStrategy submitted) = some ⟨submitted, persisted⟩ := by
  rw [after_concat, ← keyFor_after settings calls]
  exact entry_record_self _ _ _

theorem lastWrite_of_entry_after {settings : Settings} {entry : Entry}
    (h : Memo.entry? (after settings calls) key = some entry) :
    lastWrite settings.keyStrategy key calls = some entry := by
  induction calls using List.reverseRecOn with
  | nil => cases h
  | append_singleton calls call ih =>
      rw [after_concat, entry_step, settings_after] at h
      rw [lastWrite_append]
      cases hlast : lastWrite settings.keyStrategy key [call] with
      | some pair => rwa [hlast] at h
      | none =>
          rw [hlast, Option.none_or] at h
          split at h
          · cases h
          · exact ih h

theorem mem_writtenKeys_of_isSome {settings : Settings}
    (h : (Memo.entry? (after settings calls) key).isSome) :
    key ∈ writtenKeys settings.keyStrategy calls := by
  obtain ⟨entry, hentry⟩ := Option.isSome_iff_exists.mp h
  by_contra hmem
  rw [← lastWrite_eq_none_iff, lastWrite_of_entry_after hentry] at hmem
  cases hmem

theorem evictedBy_of_unbounded {memo : Memo} (hunbounded : memo.settings.isBounded = false)
    (call : Call) : memo.evictedBy call = [] := by
  cases call with
  | set submitted persisted =>
      rw [evictedBy, roomFor, if_neg (by simp [hunbounded])]
  | verdict _ _ | unchanged _ _ | get _ | entry _ | stats => rfl

theorem entry_after_of_unbounded {settings : Settings} (hunbounded : settings.isBounded = false)
    (calls : List Call) (key : Key) :
    Memo.entry? (after settings calls) key = lastWrite settings.keyStrategy key calls := by
  induction calls using List.reverseRecOn with
  | nil => rfl
  | append_singleton calls call ih =>
      have hevicted : (after settings calls).evictedBy call = [] :=
        evictedBy_of_unbounded (by rwa [settings_after]) call
      rw [after_concat, entry_step, hevicted, if_neg List.not_mem_nil, ih, lastWrite_append,
        settings_after]

end Memo

end WriteMemo
