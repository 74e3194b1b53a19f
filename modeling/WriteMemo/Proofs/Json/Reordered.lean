import WriteMemo.Proofs.Json.Depth
import WriteMemo.Proofs.Json.Members

namespace WriteMemo.Json

-- Members may change places in an object that has each name once, wherever the object is. Where a
-- name stands twice the last member counts, so there they keep their places.
inductive Reordered : Json → Json → Prop
  | refl (value : Json) : Reordered value value
  | trans {a b c : Json} (hfirst : Reordered a b) (hsecond : Reordered b c) : Reordered a c
  | shuffle {members others : List (String × Json)} (hnames : (members.map Prod.fst).Nodup)
      (hperm : members.Perm others) : Reordered (.object members) (.object others)
  | item {value other : Json} (before after : List Json) (h : Reordered value other) :
      Reordered (.array (before ++ value :: after)) (.array (before ++ other :: after))
  | member {value other : Json} (name : String) (before after : List (String × Json))
      (h : Reordered value other) :
      Reordered (.object (before ++ (name, value) :: after))
        (.object (before ++ (name, other) :: after))

theorem Members.insertMissing_perm_cons {α : Type} {name : String} {members : List (String × α)}
    (hnew : name ∉ members.map Prod.fst) (value : α) :
    (insertMissing name value members).Perm ((name, value) :: members) := by
  induction members with
  | nil => exact .refl _
  | cons head rest ih =>
      obtain ⟨hhead, hrest⟩ := not_or.mp (mt List.mem_cons.mpr hnew)
      rw [insertMissing]
      split
      · exact .refl _
      · exact ((ih hrest).cons head).trans (.swap _ _ _)

variable {members others : List (String × Json)}

-- Without a name that stands twice no member is lost.
theorem sortedMembers_perm (hnames : (members.map Prod.fst).Nodup) :
    (sortedMembers members).Perm (members.map fun member => (member.1, member.2.sorted)) := by
  induction members with
  | nil => exact .refl _
  | cons head rest ih =>
      obtain ⟨name, value⟩ := head
      obtain ⟨hhead, hrest⟩ := List.nodup_cons.mp hnames
      have hkept := ih hrest
      have hnew : name ∉ (sortedMembers rest).map Prod.fst := by
        rw [(hkept.map Prod.fst).mem_iff, List.map_map]
        exact hhead
      rw [sortedMembers]
      exact (Members.insertMissing_perm_cons hnew value.sorted).trans (hkept.cons _)

theorem sortedMembers_eq_of_perm (hnames : (members.map Prod.fst).Nodup)
    (hperm : members.Perm others) : sortedMembers members = sortedMembers others := by
  have hnames' := (hperm.map Prod.fst).nodup_iff.mp hnames
  have hsorted : (sortedMembers members).Perm (sortedMembers others) :=
    (sortedMembers_perm hnames).trans ((hperm.map _).trans (sortedMembers_perm hnames').symm)
  refine hsorted.eq_of_pairwise (fun a b _ _ hlt hgt => ?_) (ascending_sortedMembers members)
    (ascending_sortedMembers others)
  exact absurd hgt (String.lt_asymm hlt)

-- What is found out from the back of a list to its front does not see a change that it did not see
-- where the change was made.
theorem congr_of_behind {α β : Type} {found : List α → β} {a b : α} {after : List α}
    (hcons : ∀ head rest rest', found rest = found rest' →
      found (head :: rest) = found (head :: rest'))
    (h : found (a :: after) = found (b :: after)) (before : List α) :
    found (before ++ a :: after) = found (before ++ b :: after) := by
  induction before with
  | nil => exact h
  | cons head before ih => exact hcons head _ _ ih

section Change

variable {value other : Json} (name : String)

theorem sortedItems_congr (before after : List Json) (h : value.sorted = other.sorted) :
    sortedItems (before ++ value :: after) = sortedItems (before ++ other :: after) :=
  congr_of_behind (fun _ _ _ ih => by rw [sortedItems, sortedItems, ih])
    (by rw [sortedItems, sortedItems, h]) before

theorem sortedMembers_congr (before after : List (String × Json))
    (h : value.sorted = other.sorted) :
    sortedMembers (before ++ (name, value) :: after) =
      sortedMembers (before ++ (name, other) :: after) :=
  congr_of_behind (fun _ _ _ ih => by rw [sortedMembers, sortedMembers, ih])
    (by rw [sortedMembers, sortedMembers, h]) before

theorem itemsDepth_congr (before after : List Json) (h : value.depth = other.depth) :
    itemsDepth (before ++ value :: after) = itemsDepth (before ++ other :: after) :=
  congr_of_behind (fun _ _ _ ih => by rw [itemsDepth, itemsDepth, ih])
    (by rw [itemsDepth, itemsDepth, h]) before

theorem membersDepth_congr (before after : List (String × Json)) (h : value.depth = other.depth) :
    membersDepth (before ++ (name, value) :: after) =
      membersDepth (before ++ (name, other) :: after) :=
  congr_of_behind (fun _ _ _ ih => by rw [membersDepth, membersDepth, ih])
    (by rw [membersDepth, membersDepth, h]) before

end Change

theorem Reordered.sorted_eq {value other : Json} (h : Reordered value other) :
    value.sorted = other.sorted := by
  induction h with
  | refl => rfl
  | trans _ _ hfirst hsecond => exact hfirst.trans hsecond
  | shuffle hnames hperm => exact congrArg Json.object (sortedMembers_eq_of_perm hnames hperm)
  | item before after _ ih => exact congrArg Json.array (sortedItems_congr before after ih)
  | member name before after _ ih =>
      exact congrArg Json.object (sortedMembers_congr name before after ih)

theorem Reordered.depth_eq {value other : Json} (h : Reordered value other) :
    value.depth = other.depth := by
  induction h with
  | refl => rfl
  | trans _ _ hfirst hsecond => exact hfirst.trans hsecond
  | shuffle _ hperm => exact congrArg (· + 1) (membersDepth_eq_of_perm hperm)
  | item before after _ ih => exact congrArg (· + 1) (itemsDepth_congr before after ih)
  | member name before after _ ih =>
      exact congrArg (· + 1) (membersDepth_congr name before after ih)

end WriteMemo.Json
