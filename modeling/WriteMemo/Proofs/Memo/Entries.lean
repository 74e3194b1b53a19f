import Mathlib.Data.Finset.Card
import Mathlib.Data.List.Nodup
import WriteMemo.Memo.Basic

namespace WriteMemo.Entries

def keys (entries : Entries) : List Key := entries.map Prod.fst

theorem length_keys (entries : Entries) : entries.keys.length = entries.length :=
  List.length_map _

theorem mem_keys_iff {entries : Entries} {key : Key} :
    key ∈ entries.keys ↔ (entries.get? key).isSome := by
  rw [keys, get?, List.lookup_isSome_iff, List.mem_map]
  constructor
  · rintro ⟨pair, hpair, rfl⟩
    exact ⟨pair, hpair, beq_self_eq_true _⟩
  · rintro ⟨pair, hpair, heq⟩
    exact ⟨pair, hpair, (eq_of_beq heq).symm⟩

theorem notMem_keys_iff {entries : Entries} {key : Key} :
    key ∉ entries.keys ↔ entries.get? key = none := by
  rw [mem_keys_iff, Bool.not_eq_true, Option.isSome_eq_false_iff, Option.isNone_iff_eq_none]

theorem keys_erase {entries : Entries} (hnodup : entries.keys.Nodup) (key : Key) :
    (entries.erase key).keys = entries.keys.erase key := by
  rw [hnodup.erase_eq_filter, keys, keys, List.filter_map]
  rfl

theorem keys_insert {entries : Entries} (hnodup : entries.keys.Nodup) (key : Key) (entry : Entry) :
    (entries.insert key entry).keys = key :: entries.keys.erase key := by
  rw [← keys_erase hnodup]
  rfl

theorem nodup_keys_erase {entries : Entries} (hnodup : entries.keys.Nodup) (key : Key) :
    (entries.erase key).keys.Nodup := by
  rw [keys_erase hnodup]
  exact hnodup.erase key

theorem nodup_keys_insert {entries : Entries} (hnodup : entries.keys.Nodup) (key : Key)
    (entry : Entry) : (entries.insert key entry).keys.Nodup := by
  rw [keys_insert hnodup]
  exact List.nodup_cons.mpr ⟨hnodup.not_mem_erase, hnodup.erase key⟩

theorem length_insert_of_mem {entries : Entries} (hnodup : entries.keys.Nodup) {key : Key}
    (hmem : key ∈ entries.keys) (entry : Entry) :
    (entries.insert key entry).length = entries.length := by
  have hpos := List.length_pos_of_mem hmem
  rw [← length_keys, keys_insert hnodup, List.length_cons, List.length_erase_of_mem hmem,
    ← length_keys]
  omega

theorem length_insert_of_notMem {entries : Entries} (hnodup : entries.keys.Nodup) {key : Key}
    (hmem : key ∉ entries.keys) (entry : Entry) :
    (entries.insert key entry).length = entries.length + 1 := by
  rw [← length_keys, keys_insert hnodup, List.erase_of_not_mem hmem, List.length_cons, length_keys]

theorem length_erase_of_mem {entries : Entries} (hnodup : entries.keys.Nodup) {key : Key}
    (hmem : key ∈ entries.keys) : (entries.erase key).length = entries.length - 1 := by
  rw [← length_keys, keys_erase hnodup, List.length_erase_of_mem hmem, length_keys]

-- Entries whose keys are all among other entries' keys are not more than those.
theorem length_le_of_keys_subset {small large : Entries} (hnodup : small.keys.Nodup)
    (hsub : small.keys ⊆ large.keys) : small.length ≤ large.length := by
  rw [← length_keys small, ← length_keys large]
  exact (List.subperm_of_subset hnodup hsub).length_le

end WriteMemo.Entries
