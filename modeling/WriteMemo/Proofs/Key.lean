import WriteMemo.Proofs.Document
import WriteMemo.Proofs.Json.Write

namespace WriteMemo

namespace Document

theorem eq_of_members {a b : Document} (h : a.members = b.members) : a = b := by
  cases a
  cases h
  rfl

theorem same_of_eq {a b : Document} (h : a = b) : a == b := (same_iff a b).mpr (by rw [h])

theorem render_injective {a b : Document} (h : a.render = b.render) : a = b :=
  eq_of_members (Json.object.inj (Json.render_injective h))

-- No zero in it carries a sign, at any depth.
def ZerosUnsigned (document : Document) : Prop :=
  Json.membersWithoutZeroSigns document.members = document.members

instance (document : Document) : Decidable document.ZerosUnsigned :=
  decidable_of_iff
    ((Json.object document.members).withoutZeroSigns.write = (Json.object document.members).write)
    ⟨fun h => Json.object.inj (Json.write_injective h), fun h => by rw [Json.withoutZeroSigns, h]⟩

-- The sign of a zero is all that equality leaves open.
theorem eq_of_same {a b : Document} (h : a == b) (ha : a.ZerosUnsigned) (hb : b.ZerosUnsigned) :
    a = b :=
  eq_of_members (ha.symm.trans (((same_iff a b).mp h).trans hb))

end Document

namespace Key

variable {a b : Document}

-- A collision would be two texts with one digest.
def NoCollision (a b : Document) : Prop := digestOf a = digestOf b → a.render = b.render

theorem digestOf_eq_iff (h : NoCollision a b) : digestOf a = digestOf b ↔ a = b :=
  ⟨fun hdigest => Document.render_injective (h hdigest), fun heq => by rw [heq]⟩

theorem length_digestOf (document : Document) :
    (digestOf document).toList.length = digestLength := by
  rw [digestOf, String.toList_ofList, List.length_take, Sha256.State.text]
  rfl

-- The digest has a fixed length, so it can be cut off behind any prefix.
theorem eq_of_append_digestOf {first second : String}
    (h : first ++ "#" ++ digestOf a = second ++ "#" ++ digestOf b) :
    first = second ∧ digestOf a = digestOf b := by
  rw [← String.toList_inj, String.toList_append, String.toList_append, String.toList_append,
    String.toList_append] at h
  have hlength : (digestOf a).toList.length = (digestOf b).toList.length := by
    rw [length_digestOf, length_digestOf]
  obtain ⟨hfirst, hdigest⟩ := List.append_inj' h hlength
  exact ⟨String.toList_inj.mp (List.append_cancel_right hfirst), String.toList_inj.mp hdigest⟩

theorem nameOf_of_named (h : a.name ≠ "") (strategy : KeyStrategy) : nameOf strategy a = a.name :=
  if_pos h

theorem nameOf_contentHash_of_pending (h : a.name = "") :
    nameOf .contentHash a = a.generateName ++ "#" ++ digestOf a :=
  if_neg (not_not.mpr h)

theorem eq_of_derive_contentHash (ha : a.name = "") (hb : b.name = "") (hapart : NoCollision a b)
    (h : derive .contentHash a = derive .contentHash b) : a = b := by
  have hname : nameOf .contentHash a = nameOf .contentHash b := congrArg Key.name h
  rw [nameOf_contentHash_of_pending ha, nameOf_contentHash_of_pending hb] at hname
  exact (digestOf_eq_iff hapart).mp (eq_of_append_digestOf hname).2

-- Under the same names a key is the same, unless it takes a digest of a document without a name.
theorem derive_of_named (h : a.SameNames b) {strategy : KeyStrategy}
    (hnamed : a.name ≠ "" ∨ strategy = .generateName) :
    derive strategy a = derive strategy b := by
  have hnameOf : nameOf strategy a = nameOf strategy b := by
    rcases hnamed with hnamed | rfl
    · rw [nameOf_of_named hnamed, nameOf_of_named (h.name_eq ▸ hnamed), h.name_eq]
    · rw [nameOf, nameOf, h.name_eq, h.generateName_eq]
  rw [derive, derive, h.scope_eq, h.kind_eq, hnameOf]

theorem derive_contentHash_iff (h : a.SameNames b) :
    derive .contentHash a = derive .contentHash b ↔ a.name ≠ "" ∨ digestOf a = digestOf b := by
  constructor
  · intro hkey
    have hname : nameOf .contentHash a = nameOf .contentHash b := congrArg Key.name hkey
    by_cases hpending : a.name = ""
    · rw [nameOf_contentHash_of_pending hpending,
        nameOf_contentHash_of_pending (h.name_eq ▸ hpending)] at hname
      exact .inr (eq_of_append_digestOf hname).2
    · exact .inl hpending
  · rintro (hnamed | hdigest)
    · exact derive_of_named h (.inl hnamed)
    · exact derive_of_sameNames h hdigest .contentHash

theorem derive_generateName_of_same (h : a == b) :
    derive .generateName a = derive .generateName b :=
  derive_of_named (Document.sameNames_of_same h) (.inr rfl)

theorem derive_contentHash_iff_of_same (h : a == b) :
    derive .contentHash a = derive .contentHash b ↔ a.name ≠ "" ∨ digestOf a = digestOf b :=
  derive_contentHash_iff (Document.sameNames_of_same h)

end Key

end WriteMemo
