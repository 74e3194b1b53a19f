import WriteMemo.Memo.Run
import WriteMemo.Proofs.Memo.Entries

namespace WriteMemo.Memo

@[simp] theorem settings_touch (memo : Memo) (key : Key) :
    (memo.touch key).settings = memo.settings := by
  unfold touch
  split <;> rfl

@[simp] theorem entries_touch (memo : Memo) (key : Key) :
    (memo.touch key).entries = memo.entries := by
  unfold touch
  split <;> rfl

@[simp] theorem counters_touch (memo : Memo) (key : Key) :
    (memo.touch key).counters = memo.counters := by
  unfold touch
  split <;> rfl

theorem order_touch (memo : Memo) (key : Key) :
    (memo.touch key).recency.order =
      if memo.settings.isBounded then memo.recency.order.erase key ++ [key]
      else memo.recency.order := by
  unfold touch
  split <;> rfl

@[simp] theorem settings_record (memo : Memo) (submitted persisted : Document) :
    (memo.record submitted persisted).1.settings = memo.settings :=
  settings_touch _ _

theorem entries_record (memo : Memo) (submitted persisted : Document) :
    (memo.record submitted persisted).1.entries =
      (memo.roomFor (memo.keyFor submitted)).entries.insert (memo.keyFor submitted)
        ⟨submitted, persisted⟩ :=
  entries_touch _ _

theorem order_record (memo : Memo) (submitted persisted : Document) :
    (memo.record submitted persisted).1.recency.order =
      if memo.settings.isBounded then
        (memo.roomFor (memo.keyFor submitted)).order.erase (memo.keyFor submitted) ++
          [memo.keyFor submitted]
      else (memo.roomFor (memo.keyFor submitted)).order :=
  order_touch _ _

theorem counters_record (memo : Memo) (submitted persisted : Document) :
    (memo.record submitted persisted).1.counters =
      ((memo.counters.recordEvictions (memo.roomFor (memo.keyFor submitted)).evicted.length
        ).recordWrite).setTotalEntries (memo.record submitted persisted).1.size := by
  rw [size, entries_record]
  exact counters_touch _ _

theorem events_record (memo : Memo) (submitted persisted : Document) :
    (memo.record submitted persisted).2 =
      (memo.roomFor (memo.keyFor submitted)).evicted.map Event.evicted ++
        [.recorded (memo.keyFor submitted)] :=
  rfl

-- What is found after room was made is what was found before, less the evicted keys.
theorem get?_makeRoom (limit : Nat) (order : List Key) (entries : Entries) (key : Key) :
    (makeRoom limit order entries).entries.get? key =
      if key ∈ (makeRoom limit order entries).evicted then none else entries.get? key := by
  induction order generalizing entries with
  | nil => simp [makeRoom]
  | cons oldest rest ih =>
      rw [makeRoom]
      split
      · simp
      · simp only [ih, List.mem_cons]
        by_cases heq : key = oldest
        · subst heq
          simp [Entries.get?_erase_self]
        · simp [heq, Entries.get?_erase_of_ne heq]

theorem get?_roomFor (memo : Memo) (key other : Key) :
    (memo.roomFor key).entries.get? other =
      if other ∈ (memo.roomFor key).evicted then none else memo.entry? other := by
  unfold roomFor
  split
  · exact get?_makeRoom _ _ _ _
  · rfl

theorem entry_record_self (memo : Memo) (submitted persisted : Document) :
    Memo.entry? (memo.record submitted persisted).1 (memo.keyFor submitted) =
      some ⟨submitted, persisted⟩ := by
  unfold entry?
  rw [entries_record, Entries.get?_insert_self]

theorem entry_record_of_ne {memo : Memo} {submitted : Document} {key : Key}
    (hne : key ≠ memo.keyFor submitted) (persisted : Document) :
    Memo.entry? (memo.record submitted persisted).1 key =
      if key ∈ (memo.roomFor (memo.keyFor submitted)).evicted then none
      else memo.entry? key := by
  change (memo.record submitted persisted).1.entries.get? key = _
  rw [entries_record, Entries.get?_insert_of_ne hne, get?_roomFor]

@[simp] theorem settings_check (memo : Memo) (submitted : Document) (candidates : List Document) :
    (memo.check submitted candidates).1.settings = memo.settings := by
  unfold check
  dsimp only
  split
  · exact settings_touch _ _
  · rfl

@[simp] theorem entries_check (memo : Memo) (submitted : Document) (candidates : List Document) :
    (memo.check submitted candidates).1.entries = memo.entries := by
  unfold check
  dsimp only
  split
  · exact entries_touch _ _
  · rfl

@[simp] theorem counters_check (memo : Memo) (submitted : Document) (candidates : List Document) :
    (memo.check submitted candidates).1.counters =
      (memo.countFinding (memo.inspect submitted candidates)).counters := by
  unfold check
  dsimp only
  split
  · exact counters_touch _ _
  · rfl

theorem order_check (memo : Memo) (submitted : Document) (candidates : List Document) :
    (memo.check submitted candidates).1.recency.order =
      if memo.settings.isBounded ∧ (memo.entry? (memo.keyFor submitted)).isSome then
        memo.recency.order.erase (memo.keyFor submitted) ++ [memo.keyFor submitted]
      else memo.recency.order := by
  unfold check
  dsimp only
  split
  · next hsome =>
    rw [order_touch]
    simp only [hsome, and_true]
    rfl
  · next hnone => simp [hnone, countFinding]

-- Finding something moves no counter that speaks of writes or entries.
theorem totalEntries_countFinding (memo : Memo) (finding : Finding) :
    (memo.countFinding finding).counters.totalEntries = memo.counters.totalEntries := by
  unfold countFinding
  cases finding.verdict with
  | hit place candidate => rfl
  | miss reason => cases reason <;> rfl

@[simp] theorem entry_check (memo : Memo) (submitted : Document) (candidates : List Document)
    (key : Key) : Memo.entry? (memo.check submitted candidates).1 key = memo.entry? key := by
  unfold entry?
  rw [entries_check]

-- A check sees no more of a memo than the entry under the key of the submitted document.
theorem inspect_congr {memo other : Memo} {submitted : Document}
    (hkey : memo.keyFor submitted = other.keyFor submitted)
    (hentry : memo.entry? (memo.keyFor submitted) = other.entry? (memo.keyFor submitted))
    (candidates : List Document) :
    memo.inspect submitted candidates = other.inspect submitted candidates := by
  unfold inspect
  dsimp only
  rw [hentry, hkey]

theorem inspect_of_none {memo : Memo} {submitted : Document}
    (hnone : memo.entry? (memo.keyFor submitted) = none) (candidates : List Document) :
    memo.inspect submitted candidates = .ofVerdict (.miss .notCached)
      [.checking (memo.keyFor submitted), .notRecorded (memo.keyFor submitted)] := by
  simp only [inspect, hnone]

theorem answer_verdict (memo : Memo) (submitted : Document) (candidates : List Document) :
    (memo.step (.verdict submitted candidates)).answer =
      .verdict (memo.inspect submitted candidates).verdict :=
  rfl

theorem answer_unchanged (memo : Memo) (submitted : Document) (candidates : List Document) :
    (memo.step (.unchanged submitted candidates)).answer =
      .found (memo.inspect submitted candidates).verdict.found? :=
  rfl

@[simp] theorem settings_step (memo : Memo) (call : Call) :
    (memo.step call).memo.settings = memo.settings := by
  cases call with
  | set submitted persisted => exact settings_record _ _ _
  | verdict submitted candidates | unchanged submitted candidates => exact settings_check _ _ _
  | get _ | entry _ | stats => rfl

theorem run_append (memo : Memo) (calls later : List Call) :
    memo.run (calls ++ later) = (memo.run calls).run later :=
  List.foldl_append

theorem run_concat (memo : Memo) (calls : List Call) (call : Call) :
    memo.run (calls ++ [call]) = ((memo.run calls).step call).memo := by
  rw [run_append]
  rfl

theorem responses_append (memo : Memo) (calls later : List Call) :
    memo.responses (calls ++ later) = memo.responses calls ++ (memo.run calls).responses later := by
  induction calls generalizing memo with
  | nil => rfl
  | cons call rest ih => exact congrArg (memo.step call :: ·) (ih (memo.step call).memo)

-- The memo that calls on an empty one lead to.
def after (settings : Settings) (calls : List Call) : Memo := (empty settings).run calls

theorem after_concat (settings : Settings) (calls : List Call) (call : Call) :
    after settings (calls ++ [call]) = ((after settings calls).step call).memo :=
  run_concat _ _ _

@[simp] theorem settings_after (settings : Settings) (calls : List Call) :
    (after settings calls).settings = settings := by
  induction calls using List.reverseRecOn with
  | nil => rfl
  | append_singleton calls call ih => rw [after_concat, settings_step, ih]

@[simp] theorem keyFor_after (settings : Settings) (calls : List Call) (document : Document) :
    (after settings calls).keyFor document = Key.derive settings.keyStrategy document := by
  rw [keyFor, settings_after]

end WriteMemo.Memo
