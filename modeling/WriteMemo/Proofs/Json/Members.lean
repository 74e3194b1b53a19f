import WriteMemo.Json.Sorted

namespace WriteMemo.Json

namespace Members

variable {α : Type} {members others : List (String × α)}

theorem lookup_eq_some_iff (h : Ascending members) {name : String} {value : α} :
    members.lookup name = some value ↔ (name, value) ∈ members := by
  induction members with
  | nil => simp
  | cons head rest ih =>
      obtain ⟨other, kept⟩ := head
      obtain ⟨hhead, hrest⟩ := List.pairwise_cons.mp h
      have hnot (found : α) : (other, found) ∉ rest := fun hmem =>
        String.lt_irrefl other (hhead _ hmem)
      rw [List.lookup_cons, List.mem_cons]
      split
      · next hname =>
        obtain rfl : name = other := by simpa using hname
        simp [hnot, eq_comm]
      · next hname =>
        have hne : name ≠ other := by simpa using hname
        simp [hne, ih hrest]

theorem nodup_of_ascending (h : Ascending members) : members.Nodup := by
  refine List.Pairwise.imp ?_ h
  rintro a b hlt rfl
  exact String.lt_irrefl _ hlt

theorem ext_lookup (h : Ascending members) (hothers : Ascending others)
    (heq : ∀ name, members.lookup name = others.lookup name) : members = others := by
  have hperm : members.Perm others := by
    refine (List.perm_ext_iff_of_nodup (nodup_of_ascending h) (nodup_of_ascending hothers)).mpr ?_
    rintro ⟨name, value⟩
    rw [← lookup_eq_some_iff h, heq, lookup_eq_some_iff hothers]
  refine hperm.eq_of_pairwise (fun a b _ _ hlt hgt => ?_) h hothers
  exact absurd hgt (String.lt_asymm hlt)

theorem insertMissing_of_all_gt {name : String} (hlt : ∀ member ∈ members, name < member.1)
    (value : α) : insertMissing name value members = (name, value) :: members := by
  cases members with
  | nil => rfl
  | cons head rest => rw [insertMissing, if_pos (hlt head List.mem_cons_self)]

end Members

mutual

theorem sorted_eq_self : ∀ {value : Json}, Sorted value → value.sorted = value
  | .null, _ | .bool _, _ | .number _, _ | .string _, _ => rfl
  | .array items, h => by
    cases h with
    | array hitems => rw [sorted, sortedItems_eq_self hitems]
  | .object members, h => by
    cases h with
    | object hnames hvalues => rw [sorted, sortedMembers_eq_self hnames hvalues]

theorem sortedItems_eq_self : ∀ {items : List Json}, (∀ item ∈ items, Sorted item) →
    sortedItems items = items
  | [], _ => rfl
  | item :: rest, h => by
    rw [sortedItems, sorted_eq_self (h item List.mem_cons_self),
      sortedItems_eq_self fun other hmem => h other (List.mem_cons_of_mem item hmem)]

theorem sortedMembers_eq_self : ∀ {members : List (String × Json)}, Members.Ascending members →
    (∀ member ∈ members, Sorted member.2) → sortedMembers members = members
  | [], _, _ => rfl
  | (name, value) :: rest, hnames, hvalues => by
    obtain ⟨hfirst, hrest⟩ := List.pairwise_cons.mp hnames
    rw [sortedMembers, sorted_eq_self (hvalues (name, value) List.mem_cons_self),
      sortedMembers_eq_self hrest fun other hmem => hvalues other (List.mem_cons_of_mem _ hmem),
      Members.insertMissing_of_all_gt hfirst]

end

end WriteMemo.Json
