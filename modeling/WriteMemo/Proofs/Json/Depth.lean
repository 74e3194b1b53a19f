import Mathlib.Order.MinMax
import WriteMemo.Proofs.Json.Numbers

namespace WriteMemo.Json

mutual

def depth : Json → Nat
  | .array items => itemsDepth items + 1
  | .object members => membersDepth members + 1
  | _ => 0

def itemsDepth : List Json → Nat
  | [] => 0
  | item :: rest => max item.depth (itemsDepth rest)

def membersDepth : List (String × Json) → Nat
  | [] => 0
  | (_, value) :: rest => max value.depth (membersDepth rest)

end

theorem itemsDepth_le_iff {items : List Json} {limit : Nat} :
    itemsDepth items ≤ limit ↔ ∀ item ∈ items, item.depth ≤ limit := by
  induction items with
  | nil => simp [itemsDepth]
  | cons item rest ih => rw [itemsDepth, Nat.max_le, ih, List.forall_mem_cons]

theorem membersDepth_le_iff {members : List (String × Json)} {limit : Nat} :
    membersDepth members ≤ limit ↔ ∀ member ∈ members, member.2.depth ≤ limit := by
  induction members with
  | nil => simp [membersDepth]
  | cons member rest ih => rw [membersDepth, Nat.max_le, ih, List.forall_mem_cons]

theorem itemsDepth_reverse (items : List Json) : itemsDepth items.reverse = itemsDepth items := by
  have h (limit : Nat) : itemsDepth items.reverse ≤ limit ↔ itemsDepth items ≤ limit := by
    simp [itemsDepth_le_iff]
  exact Nat.le_antisymm ((h _).mpr (Nat.le_refl _)) ((h _).mp (Nat.le_refl _))

theorem membersDepth_eq_of_perm {members others : List (String × Json)}
    (hperm : members.Perm others) : membersDepth members = membersDepth others := by
  have h (limit : Nat) : membersDepth members ≤ limit ↔ membersDepth others ≤ limit := by
    simp [membersDepth_le_iff, hperm.mem_iff]
  exact Nat.le_antisymm ((h _).mpr (Nat.le_refl _)) ((h _).mp (Nat.le_refl _))

theorem membersDepth_reverse (members : List (String × Json)) :
    membersDepth members.reverse = membersDepth members :=
  membersDepth_eq_of_perm (List.reverse_perm members)

mutual

theorem depth_mapNumbers (change : Number → Number) : ∀ value : Json,
    (value.mapNumbers change).depth = value.depth
  | .null | .bool _ | .number _ | .string _ => rfl
  | .array items => congrArg (· + 1) (itemsDepth_mapItemsNumbers change items)
  | .object members => congrArg (· + 1) (membersDepth_mapMembersNumbers change members)

theorem itemsDepth_mapItemsNumbers (change : Number → Number) : ∀ items : List Json,
    itemsDepth (mapItemsNumbers change items) = itemsDepth items
  | [] => rfl
  | item :: rest => by
    rw [mapItemsNumbers, itemsDepth, itemsDepth, depth_mapNumbers change item,
      itemsDepth_mapItemsNumbers change rest]

theorem membersDepth_mapMembersNumbers (change : Number → Number) :
    ∀ members : List (String × Json),
      membersDepth (mapMembersNumbers change members) = membersDepth members
  | [] => rfl
  | (name, value) :: rest => by
    rw [mapMembersNumbers, membersDepth, membersDepth, depth_mapNumbers change value,
      membersDepth_mapMembersNumbers change rest]

end

theorem membersDepth_insertMissing_le (name : String) (value : Json)
    (members : List (String × Json)) :
    membersDepth (Members.insertMissing name value members) ≤
      max value.depth (membersDepth members) := by
  refine membersDepth_le_iff.mpr fun member hmem => ?_
  rcases Members.mem_of_mem_insertMissing hmem with rfl | hmem
  · exact Nat.le_max_left _ _
  · exact (membersDepth_le_iff.mp (Nat.le_refl _) member hmem).trans (Nat.le_max_right _ _)

mutual

theorem depth_sorted_le : ∀ value : Json, value.sorted.depth ≤ value.depth
  | .null | .bool _ | .number _ | .string _ => Nat.le_refl _
  | .array items => Nat.succ_le_succ (itemsDepth_sortedItems_le items)
  | .object members => Nat.succ_le_succ (membersDepth_sortedMembers_le members)

theorem itemsDepth_sortedItems_le : ∀ items : List Json,
    itemsDepth (sortedItems items) ≤ itemsDepth items
  | [] => Nat.le_refl _
  | item :: rest => by
    rw [sortedItems, itemsDepth, itemsDepth]
    exact max_le_max (depth_sorted_le item) (itemsDepth_sortedItems_le rest)

theorem membersDepth_sortedMembers_le : ∀ members : List (String × Json),
    membersDepth (sortedMembers members) ≤ membersDepth members
  | [] => Nat.le_refl _
  | (name, value) :: rest => by
    rw [sortedMembers, membersDepth]
    exact (membersDepth_insertMissing_le name value.sorted _).trans
      (max_le_max (depth_sorted_le value) (membersDepth_sortedMembers_le rest))

end

end WriteMemo.Json
