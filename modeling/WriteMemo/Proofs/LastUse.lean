import Mathlib.Data.Finset.Card
import Mathlib.Data.List.Dedup
import Mathlib.Data.List.DropRight

namespace WriteMemo.LastUse

variable {α : Type} [DecidableEq α]

-- What was used since the last use of an item, everything if it was never used.
def since (item : α) (uses : List α) : List α := uses.rtakeWhile (· ≠ item)

theorem since_append {item : α} {later : List α} (hlater : item ∉ later) (before : List α) :
    since item (before ++ item :: later) = later := by
  have hne : ∀ other ∈ later.reverse, decide (other ≠ item) = true := by
    intro other hother
    refine decide_eq_true fun heq => hlater ?_
    exact heq ▸ List.mem_reverse.mp hother
  rw [since, List.rtakeWhile, List.reverse_append, List.reverse_cons, List.append_assoc,
    List.takeWhile_append_of_pos hne]
  simp

omit [DecidableEq α] in
theorem exists_eq_append {item : α} {uses : List α} (hmem : item ∈ uses) :
    ∃ before later, uses = before ++ item :: later ∧ item ∉ later := by
  obtain ⟨newer, older, hsplit, hnew⟩ := List.eq_append_cons_of_mem (List.mem_reverse.mpr hmem)
  refine ⟨older.reverse, newer.reverse, ?_, fun hin => hnew (List.mem_reverse.mp hin)⟩
  rw [← List.reverse_reverse uses, hsplit]
  simp

-- A use makes its item the last one, wherever it stood.
theorem dedup_concat (uses : List α) (item : α) :
    (uses ++ [item]).dedup = uses.dedup.erase item ++ [item] := by
  induction uses with
  | nil => simp
  | cons head rest ih =>
      rw [List.cons_append]
      by_cases hrest : head ∈ rest
      · rw [List.dedup_cons_of_mem (List.mem_append_left _ hrest), List.dedup_cons_of_mem hrest, ih]
      · rw [List.dedup_cons_of_notMem hrest]
        by_cases heq : head = item
        · subst heq
          have hdedup : head ∉ rest.dedup := fun hin => hrest (List.mem_dedup.mp hin)
          rw [List.dedup_cons_of_mem (by simp), ih, List.erase_cons_head,
            List.erase_of_not_mem hdedup]
        · have hnew : head ∉ rest ++ [item] := by simp [hrest, heq]
          rw [List.dedup_cons_of_notMem hnew, ih, List.erase_cons_tail (by simpa using heq),
            List.cons_append]

theorem exists_dedup_eq_append {item : α} {uses : List α} (hmem : item ∈ uses) :
    ∃ older, uses.dedup = older ++ item :: (since item uses).dedup := by
  obtain ⟨before, later, rfl, hlater⟩ := exists_eq_append hmem
  obtain ⟨older, -, hunion⟩ := List.sublist_suffix_of_union before (item :: later).dedup
  refine ⟨older, ?_⟩
  rw [since_append hlater, List.dedup_append, ← hunion, List.dedup_cons_of_notMem hlater]

-- No item stands twice, so there is only one place to split at.
theorem eq_dedup_since {item : α} {uses older newer : List α}
    (hsplit : uses.dedup = older ++ item :: newer) : newer = (since item uses).dedup := by
  have hmem : item ∈ uses := List.mem_dedup.mp (by simp [hsplit])
  obtain ⟨other, hother⟩ := exists_dedup_eq_append hmem
  have hnodup := List.nodup_dedup uses
  have holder : item ∉ other := by
    rw [hother, List.nodup_append] at hnodup
    exact fun hin => hnodup.2.2 item hin item List.mem_cons_self rfl
  have hnewer : item ∉ (since item uses).dedup := by
    rw [hother, List.nodup_append, List.nodup_cons] at hnodup
    exact hnodup.2.1.1
  exact ((List.append_cons_inj_of_notMem holder hnewer).mp (hother.symm.trans hsplit)).2.2.symm

omit [DecidableEq α] in
theorem mem_rtake_append_iff {item : α} {older newer : List α} (holder : item ∉ older)
    (hnewer : item ∉ newer) (limit : Nat) :
    item ∈ (older ++ item :: newer).rtake limit ↔ newer.length < limit := by
  rw [List.rtake, List.drop_append]
  simp only [List.length_append, List.length_cons, List.mem_append]
  constructor
  · rintro (hin | hin)
    · exact absurd (List.mem_of_mem_drop hin) holder
    · by_contra hle
      have hpos : 0 < older.length + (newer.length + 1) - limit - older.length := by omega
      obtain ⟨count, hcount⟩ := Nat.exists_eq_succ_of_ne_zero (Nat.ne_of_gt hpos)
      rw [hcount, Nat.succ_eq_add_one, List.drop_succ_cons] at hin
      exact hnewer (List.mem_of_mem_drop hin)
  · intro hlt
    have hzero : older.length + (newer.length + 1) - limit - older.length = 0 := by omega
    rw [hzero]
    exact .inr List.mem_cons_self

-- Among the latest items are those behind which fewer items than that were used.
theorem mem_rtake_dedup_iff {item : α} {uses : List α} (limit : Nat) :
    item ∈ uses.dedup.rtake limit ↔
      item ∈ uses ∧ (since item uses).toFinset.card < limit := by
  by_cases hmem : item ∈ uses
  · obtain ⟨older, holder⟩ := exists_dedup_eq_append hmem
    have hnodup := List.nodup_dedup uses
    rw [holder, List.nodup_append, List.nodup_cons] at hnodup
    have hout : item ∉ older := fun hin => hnodup.2.2 item hin item List.mem_cons_self rfl
    rw [holder, mem_rtake_append_iff hout hnodup.2.1.1, List.card_toFinset]
    exact (and_iff_right hmem).symm
  · constructor
    · exact fun hin => absurd (List.mem_dedup.mp (List.mem_of_mem_drop hin)) hmem
    · exact fun hin => absurd hin.1 hmem

-- By induction on the items from the last one back.
theorem rtake_erase {items : List α} (hnodup : items.Nodup) (item : α) (limit : Nat) :
    (items.erase item).rtake limit =
      if item ∈ items.rtake (limit + 1) then (items.rtake (limit + 1)).erase item
      else items.rtake limit := by
  induction items using List.reverseRecOn generalizing limit with
  | nil => simp
  | append_singleton rest last ih =>
      obtain ⟨hrest, -, hlast⟩ := List.nodup_append.mp hnodup
      have hnew : last ∉ rest := fun hin => hlast last hin last List.mem_cons_self rfl
      rw [List.rtake_concat_succ]
      by_cases heq : item = last
      · subst heq
        have hout : item ∉ rest.rtake limit := fun hin => hnew (List.mem_of_mem_drop hin)
        rw [if_pos (by simp), List.erase_append_right _ hnew, List.erase_append_right _ hout]
        simp
      · have herase : (rest ++ [last]).erase item = rest.erase item ++ [last] := by
          by_cases hin : item ∈ rest
          · rw [List.erase_append_left _ hin]
          · rw [List.erase_append_right _ hin, List.erase_of_not_mem hin,
              List.erase_of_not_mem (by simpa using heq)]
        rw [herase]
        cases limit with
        | zero => simp [heq]
        | succ limit =>
            rw [List.rtake_concat_succ, List.rtake_concat_succ, ih hrest]
            by_cases hin : item ∈ rest.rtake (limit + 1)
            · rw [if_pos hin, if_pos (List.mem_append_left _ hin), List.erase_append_left _ hin]
            · rw [if_neg hin, if_neg (by simp [hin, heq])]

omit [DecidableEq α] in
theorem rtake_rtake {small large : Nat} (hle : small ≤ large) (items : List α) :
    (items.rtake large).rtake small = items.rtake small := by
  rw [List.rtake, List.rtake, List.rtake, List.drop_drop, List.length_drop]
  congr 1
  omega

-- The latest items after one more use. A use of any other item than these drops the oldest one,
-- if there is no place left.
theorem rtake_dedup_concat (uses : List α) (item : α) (limit : Nat) :
    (uses ++ [item]).dedup.rtake (limit + 1) =
      (if item ∈ uses.dedup.rtake (limit + 1) then (uses.dedup.rtake (limit + 1)).erase item
      else (uses.dedup.rtake (limit + 1)).rtake limit) ++ [item] := by
  rw [dedup_concat, List.rtake_concat_succ, rtake_erase (List.nodup_dedup uses),
    rtake_rtake (Nat.le_succ limit)]

end WriteMemo.LastUse
