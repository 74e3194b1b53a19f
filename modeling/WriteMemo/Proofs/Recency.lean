import Mathlib.Data.List.Induction
import Mathlib.Data.List.Nodup
import Mathlib.Logic.Function.Iterate
import WriteMemo.Recency

namespace WriteMemo.Recency

inductive Operation where
  | touch (key : Key)
  | erase (key : Key)
  | evictOldest
  deriving DecidableEq

def perform (recency : Recency) : Operation → Recency
  | .touch key => recency.touch key
  | .erase key => recency.erase key
  | .evictOldest => recency.evictOldest.2

def after (operations : List Operation) : Recency := operations.foldl perform empty

-- The key that is touched or erased, or that is returned as the evicted one.
def concerned? (recency : Recency) : Operation → Option Key
  | .touch key | .erase key => some key
  | .evictOldest => recency.evictOldest.1

-- A key that is the latest one already is left where it is.
def touchUnlessLatest (recency : Recency) (key : Key) : Recency :=
  if recency.order.getLast? = some key then recency else recency.touch key

def performUnlessLatest (recency : Recency) : Operation → Recency
  | .touch key => recency.touchUnlessLatest key
  | operation => recency.perform operation

def evictTimes (count : Nat) (recency : Recency) : Recency :=
  (fun later => later.evictOldest.2)^[count] recency

-- The operation at that time touches the key, and no later one touches, erases or evicts it.
structure LastTouched (operations : List Operation) (key : Key) (time : Nat) : Prop where
  touched : operations[time]? = some (.touch key)
  untouched : ∀ later operation, time < later → operations[later]? = some operation →
    (after (operations.take later)).concerned? operation ≠ some key

-- All keys that have a last touch, the one with the earliest first.
structure ByLastTouch (operations : List Operation) (keys : List Key) : Prop where
  nodup : keys.Nodup
  mem_iff : ∀ key, key ∈ keys ↔ ∃ time, LastTouched operations key time
  earlier : keys.Pairwise fun first second => ∀ time later,
    LastTouched operations first time → LastTouched operations second later → time < later

variable {recency : Recency} {operations : List Operation} {operation : Operation} {key : Key}
  {time : Nat}

theorem after_concat (operations : List Operation) (operation : Operation) :
    after (operations ++ [operation]) = (after operations).perform operation := by
  rw [after, List.foldl_append]
  rfl

theorem LastTouched.lt_length (h : LastTouched operations key time) : time < operations.length :=
  (List.getElem?_eq_some_iff.mp h.touched).1

theorem lastTouched_concat_iff :
    LastTouched (operations ++ [operation]) key time ↔
      time = operations.length ∧ operation = .touch key ∨
        LastTouched operations key time ∧ (after operations).concerned? operation ≠ some key := by
  have hold {place : Nat} (hlt : place < operations.length) :
      (operations ++ [operation])[place]? = operations[place]? ∧
        (operations ++ [operation]).take place = operations.take place :=
    ⟨List.getElem?_append_left hlt, List.take_append_of_le_length (Nat.le_of_lt hlt)⟩
  have hlast : (operations ++ [operation])[operations.length]? = some operation :=
    List.getElem?_concat_length
  constructor
  · intro h
    have hlength := h.lt_length
    rw [List.length_append, List.length_singleton, Nat.lt_succ_iff_lt_or_eq] at hlength
    rcases hlength with hlt | rfl
    · refine .inr ⟨⟨(hold hlt).1 ▸ h.touched, fun later other hlater hother => ?_⟩, ?_⟩
      · have hbound := (List.getElem?_eq_some_iff.mp hother).1
        have huntouched := h.untouched later other hlater ((hold hbound).1.trans hother)
        rwa [(hold hbound).2] at huntouched
      · have huntouched := h.untouched _ operation hlt hlast
        rwa [List.take_left' rfl] at huntouched
    · exact .inl ⟨rfl, Option.some.inj (hlast.symm.trans h.touched)⟩
  · rintro (⟨rfl, rfl⟩ | ⟨h, hother⟩)
    · refine ⟨hlast, fun later other hlater hnone => ?_⟩
      have hbound := (List.getElem?_eq_some_iff.mp hnone).1
      rw [List.length_append, List.length_singleton] at hbound
      omega
    · refine ⟨(hold h.lt_length).1.trans h.touched, fun later other hlater hat => ?_⟩
      have hbound := (List.getElem?_eq_some_iff.mp hat).1
      rw [List.length_append, List.length_singleton, Nat.lt_succ_iff_lt_or_eq] at hbound
      rcases hbound with hlt | rfl
      · rw [(hold hlt).2]
        exact h.untouched later other hlater ((hold hlt).1.symm.trans hat)
      · obtain rfl : operation = other := Option.some.inj (hlast.symm.trans hat)
        rwa [List.take_left' rfl]

-- The key that is put last.
def Operation.touched? : Operation → Option Key
  | .touch key => some key
  | .erase _ | .evictOldest => none

theorem touched?_eq_some_iff : operation.touched? = some key ↔ operation = .touch key := by
  cases operation with
  | touch other => simp [Operation.touched?]
  | erase _ | evictOldest => simp [Operation.touched?]

-- Whatever the operation, it takes the key that it concerns out of its place.
theorem order_perform (h : recency.order.Nodup) (operation : Operation) :
    (recency.perform operation).order =
      recency.order.filter (fun other => recency.concerned? operation ≠ some other) ++
        operation.touched?.toList := by
  have herase (key : Key) :
      recency.order.erase key = recency.order.filter (fun other => some key ≠ some other) := by
    rw [h.erase_eq_filter]
    refine List.filter_congr fun other _ => Bool.eq_iff_iff.mpr ?_
    rw [bne_iff_ne, decide_eq_true_iff, ne_eq, ne_eq, Option.some_inj, eq_comm]
  cases operation with
  | touch key => exact congrArg (· ++ [key]) (herase key)
  | erase key => exact (herase key).trans (List.append_nil _).symm
  | evictOldest =>
      obtain ⟨order⟩ := recency
      cases order with
      | nil => rfl
      | cons oldest rest =>
          have hfirst := herase oldest
          rw [List.erase_cons_head] at hfirst
          exact hfirst.trans (List.append_nil _).symm

theorem ByLastTouch.concat (h : ByLastTouch operations (after operations).order)
    (operation : Operation) :
    ByLastTouch (operations ++ [operation]) (after (operations ++ [operation])).order := by
  have hkept {other : Key} {time : Nat}
      (hother : other ∈ (after operations).order.filter
        (fun other => (after operations).concerned? operation ≠ some other))
      (htouched : LastTouched (operations ++ [operation]) other time) :
      LastTouched operations other time := by
    rcases lastTouched_concat_iff.mp htouched with ⟨-, rfl⟩ | ⟨hbefore, -⟩
    · exact absurd rfl (of_decide_eq_true (List.mem_filter.mp hother).2)
    · exact hbefore
  rw [after_concat, order_perform h.nodup]
  refine ⟨List.nodup_append.mpr ⟨h.nodup.filter _, ?_, ?_⟩, fun key => ?_,
    List.pairwise_append.mpr ⟨?_, ?_, ?_⟩⟩
  · cases operation.touched? <;> simp
  · rintro other hother last hlast rfl
    obtain rfl := touched?_eq_some_iff.mp (Option.mem_toList.mp hlast)
    exact of_decide_eq_true (List.mem_filter.mp hother).2 rfl
  · simp only [List.mem_append, List.mem_filter, Option.mem_toList, h.mem_iff,
      touched?_eq_some_iff, decide_eq_true_eq, lastTouched_concat_iff, exists_or,
      exists_and_right, exists_eq, true_and, or_comm]
  · refine (h.earlier.filter _).imp_of_mem fun hfirst hsecond hearlier time later htime hlater => ?_
    exact hearlier time later (hkept hfirst htime) (hkept hsecond hlater)
  · cases operation.touched? <;> simp
  · intro other hother last hlast time later htime hlater
    obtain rfl := touched?_eq_some_iff.mp (Option.mem_toList.mp hlast)
    rcases lastTouched_concat_iff.mp hlater with ⟨rfl, -⟩ | ⟨-, hne⟩
    · exact (hkept hother htime).lt_length
    · exact absurd rfl hne

theorem byLastTouch_after (operations : List Operation) :
    ByLastTouch operations (after operations).order := by
  induction operations using List.reverseRecOn with
  | nil =>
      refine ⟨List.nodup_nil, fun key => ⟨fun hmem => absurd hmem List.not_mem_nil, ?_⟩,
        List.Pairwise.nil⟩
      rintro ⟨time, htouched⟩
      exact absurd htouched.lt_length (Nat.not_lt_zero time)
  | append_singleton operations operation ih => exact ih.concat operation

theorem order_evictTimes (count : Nat) (recency : Recency) :
    (evictTimes count recency).order = recency.order.drop count := by
  have hone (recency : Recency) : recency.evictOldest.2.order = recency.order.drop 1 := by
    obtain ⟨order⟩ := recency
    cases order <;> rfl
  induction count generalizing recency with
  | zero => rfl
  | succ count ih =>
      rw [evictTimes, Function.iterate_succ_apply]
      exact (ih recency.evictOldest.2).trans (by rw [hone, List.drop_drop, Nat.add_comm])

theorem evictOldest_fst (recency : Recency) : recency.evictOldest.1 = recency.oldest? := by
  obtain ⟨order⟩ := recency
  cases order <;> rfl

theorem touch_of_getLast? (h : recency.order.Nodup) (hlast : recency.order.getLast? = some key) :
    recency.touch key = recency := by
  obtain ⟨order⟩ := recency
  obtain ⟨rest, rfl⟩ := List.getLast?_eq_some_iff.mp hlast
  have hrest : key ∉ rest := fun hmem =>
    (List.nodup_append.mp h).2.2 key hmem key List.mem_cons_self rfl
  rw [touch, List.erase_append_right _ hrest]
  simp

theorem touchUnlessLatest_eq (h : recency.order.Nodup) (key : Key) :
    recency.touchUnlessLatest key = recency.touch key := by
  rw [touchUnlessLatest]
  split
  · next hlast => exact (touch_of_getLast? h hlast).symm
  · rfl

-- The order never holds a key twice, so at each step the key that stays is where it would be put.
theorem foldl_performUnlessLatest (operations : List Operation) :
    operations.foldl performUnlessLatest empty = after operations := by
  induction operations using List.reverseRecOn with
  | nil => rfl
  | append_singleton operations operation ih =>
      rw [List.foldl_append, ih, after_concat, List.foldl_cons, List.foldl_nil]
      cases operation with
      | touch key => exact touchUnlessLatest_eq (byLastTouch_after operations).nodup key
      | erase _ | evictOldest => rfl

-- After any operations the order holds no key twice, and it holds exactly the keys that were
-- touched and neither erased nor evicted since. Evicting again and again returns these keys in the
-- order of their last touches, each of them shown as the oldest one before, and then nothing. A key
-- that is the latest one need not be moved, now or earlier. Erasing a key that is not there does
-- nothing.
theorem order_by_last_touch (operations : List Operation) :
    (after operations).order.Nodup ∧
    (∀ key, (after operations).contains key ↔ ∃ time, LastTouched operations key time) ∧
    (∃ keys, ByLastTouch operations keys ∧ (after operations).size = keys.length ∧
      ∀ count, (evictTimes count (after operations)).evictOldest.1 = keys[count]? ∧
        (evictTimes count (after operations)).oldest? = keys[count]?) ∧
    (∀ key, (after operations).touchUnlessLatest key = (after operations).touch key) ∧
    operations.foldl performUnlessLatest empty = after operations ∧
    ∀ key, ¬(after operations).contains key → (after operations).erase key = after operations := by
  have horder := byLastTouch_after operations
  have hcontains (key : Key) :
      (after operations).contains key ↔ key ∈ (after operations).order := List.contains_iff_mem
  have holdest (count : Nat) :
      (evictTimes count (after operations)).oldest? = (after operations).order[count]? := by
    rw [oldest?, order_evictTimes, List.head?_drop]
  refine ⟨horder.nodup, fun key => (hcontains key).trans (horder.mem_iff key),
    ⟨_, horder, rfl, fun count => ⟨?_, holdest count⟩⟩, touchUnlessLatest_eq horder.nodup,
    foldl_performUnlessLatest operations, fun key hkey => ?_⟩
  · rw [evictOldest_fst, holdest]
  · rw [hcontains] at hkey
    rw [erase, List.erase_of_not_mem hkey]

-- The third touch is of a key that was there, and the second key is erased between its touches.
example : (after [.touch ⟨"", "", "a"⟩, .touch ⟨"", "", "b"⟩, .touch ⟨"", "", "a"⟩,
    .erase ⟨"", "", "b"⟩, .touch ⟨"", "", "b"⟩]).order = [⟨"", "", "a"⟩, ⟨"", "", "b"⟩] := by
  decide

end WriteMemo.Recency
