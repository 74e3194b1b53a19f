import WriteMemo.Association

namespace WriteMemo.Json.Members

variable {α : Type}

def Ascending (members : List (String × α)) : Prop :=
  members.Pairwise fun a b => a.1 < b.1

-- Puts a member in its place. A member that is there already stays as it is.
def insertMissing (name : String) (value : α) : List (String × α) → List (String × α)
  | [] => [(name, value)]
  | (other, kept) :: rest =>
    if name < other then (name, value) :: (other, kept) :: rest
    else if name = other then (other, kept) :: rest
    else (other, kept) :: insertMissing name value rest

def insert (name : String) (value : α) (members : List (String × α)) : List (String × α) :=
  insertMissing name value (Association.erase name members)

theorem mem_of_mem_insertMissing {name : String} {value : α} {members : List (String × α)}
    {member : String × α} (h : member ∈ insertMissing name value members) :
    member = (name, value) ∨ member ∈ members := by
  induction members with
  | nil => simpa [insertMissing] using h
  | cons head rest ih =>
    rw [insertMissing] at h
    split at h
    · simpa using h
    · split at h
      · exact .inr h
      · rcases List.mem_cons.1 h with h | h
        · exact .inr (h ▸ List.mem_cons_self)
        · exact (ih h).imp_right (List.mem_cons_of_mem head)

theorem ascending_insertMissing {members : List (String × α)} (h : Ascending members)
    (name : String) (value : α) : Ascending (insertMissing name value members) := by
  induction members with
  | nil => simp [insertMissing, Ascending]
  | cons head rest ih =>
    obtain ⟨hhead, hrest⟩ := List.pairwise_cons.1 h
    rw [insertMissing]
    split
    · next hlt =>
      refine List.pairwise_cons.2 ⟨fun member hmem => ?_, h⟩
      rcases List.mem_cons.1 hmem with rfl | hmem
      · exact hlt
      · exact String.lt_trans hlt (hhead member hmem)
    · next hge =>
      split
      · exact h
      · next hne =>
        have hlt : head.1 < name := by
          rcases Decidable.em (head.1 < name) with hlt | hle
          · exact hlt
          · exact absurd (String.le_antisymm (String.not_lt.1 hle) (String.not_lt.1 hge)) hne
        refine List.pairwise_cons.2 ⟨fun member hmem => ?_, ih hrest⟩
        rcases mem_of_mem_insertMissing hmem with rfl | hmem
        · exact hlt
        · exact hhead member hmem

theorem ascending_erase {members : List (String × α)} (h : Ascending members) (name : String) :
    Ascending (Association.erase name members) :=
  List.Pairwise.filter _ h

theorem ascending_insert {members : List (String × α)} (h : Ascending members)
    (name : String) (value : α) : Ascending (insert name value members) :=
  ascending_insertMissing (ascending_erase h name) name value

theorem lookup_insertMissing_self {name : String} {members : List (String × α)}
    (h : members.lookup name = none) (value : α) :
    (insertMissing name value members).lookup name = some value := by
  induction members with
  | nil => simp [insertMissing]
  | cons head rest ih =>
    obtain ⟨other, kept⟩ := head
    rw [List.lookup_cons] at h
    split at h
    · simp at h
    · next hne =>
      have hother : name ≠ other := by simpa using hne
      rw [insertMissing]
      split
      · simp
      · simpa [hother, List.lookup_cons, hne] using ih h

theorem lookup_insertMissing_of_ne {name other : String} (h : other ≠ name) (value : α)
    (members : List (String × α)) :
    (insertMissing name value members).lookup other = members.lookup other := by
  have hne : (other == name) = false := by simpa using h
  induction members with
  | nil => simp [insertMissing, List.lookup_cons, hne]
  | cons head rest ih =>
    obtain ⟨first, kept⟩ := head
    rw [insertMissing]
    split
    · simp [List.lookup_cons, hne]
    · split
      · rfl
      · simp [List.lookup_cons, ih]

theorem lookup_insert_self (name : String) (value : α) (members : List (String × α)) :
    (insert name value members).lookup name = some value :=
  lookup_insertMissing_self (Association.lookup_erase_self name members) value

theorem lookup_insert_of_ne {name other : String} (h : other ≠ name) (value : α)
    (members : List (String × α)) :
    (insert name value members).lookup other = members.lookup other := by
  rw [insert, lookup_insertMissing_of_ne h, Association.lookup_erase_of_ne h]

end WriteMemo.Json.Members
