import WriteMemo.Proofs.Json.Members
import WriteMemo.Proofs.Json.Tokens
import WriteMemo.Proofs.Key

namespace WriteMemo

namespace Document

-- The same document, with each number as it is read back.
def reread (document : Document) : Document where
  members := Json.mapMembersNumbers Json.Number.reread document.members
  sorted := Json.sorted_mapNumbers document.sorted

theorem ofMembers_members (document : Document) : ofMembers document.members = document := by
  have hsorted := document.sorted
  cases hsorted with
  | object hnames hvalues => exact eq_of_members (Json.sortedMembers_eq_self hnames hvalues)

-- What is written is read as it is, since it is in order already.
theorem ofText_render (document : Document) :
    ofText document.render =
      if document.toJson.depth ≤ Json.Reader.depthLimit then .ok document.reread
      else .error (.unreadable .malformed) := by
  rw [ofText, render, Json.read_render]
  split
  · next hread =>
    split at hread <;> cases hread
    next hdepth =>
    rw [if_pos hdepth]
    exact congrArg Except.ok document.reread.ofMembers_members
  · next hread =>
    split at hread <;> cases hread
    next hdepth => rw [if_neg hdepth]

theorem reread_of_integers {document : Document}
    (h : ∀ number ∈ document.toJson.numbers, number.IsInteger) : document.reread = document :=
  eq_of_members (Json.mapMembersNumbers_eq_self fun number hmem =>
    Json.Number.reread_of_isInteger (h number hmem))

-- Without doubles the depth alone decides, whatever the names and texts.
theorem reading_integers_back (document : Document)
    (h : ∀ number ∈ document.toJson.numbers, number.IsInteger) :
    (document.toJson.depth ≤ 127 →
      ∃ again, ofText document.render = .ok again ∧ again == document ∧
        again.render = document.render) ∧
    (127 < document.toJson.depth →
      ofText document.render = .error (.unreadable .malformed)) := by
  constructor
  · intro hdepth
    refine ⟨document, ?_, same_of_eq rfl, rfl⟩
    have hread := (ofText_render document).trans (if_pos hdepth)
    rwa [reread_of_integers h] at hread
  · exact fun hdepth => (ofText_render document).trans (if_neg (Nat.not_le.mpr hdepth))

-- An empty object inside so many arrays.
def inArrays : Nat → Json
  | 0 => .object []
  | count + 1 => .array [inArrays count]

-- Names and texts that have to be escaped or must not be, the largest numbers of both ranges, and
-- containers without content.
def demanding (arrays : Nat) : Document :=
  .ofMembers [("\"\\\x01", .string "\x00\x1f\x7f\n/\u2028"), ("", .array []),
    ("limits", .array [.number (.natural (Fin.last _)), .number (.negative (Fin.last _))]),
    ("nested", inArrays arrays)]

-- The object itself and the empty one inside count as well.
theorem reading_demanding_document_back :
    let fitting := demanding 125
    let deeper := demanding 126
    (∀ number ∈ fitting.toJson.numbers, number.IsInteger) ∧ fitting.toJson.depth ≤ 127 ∧
      (∃ again, ofText fitting.render = .ok again ∧ again == fitting ∧
        again.render = fitting.render) ∧
      (∀ number ∈ deeper.toJson.numbers, number.IsInteger) ∧ 127 < deeper.toJson.depth ∧
      ofText deeper.render = .error (.unreadable .malformed) := by
  intro fitting deeper
  have hintegers : ∀ number ∈ fitting.toJson.numbers, number.IsInteger := by decide +kernel
  have hdepth : fitting.toJson.depth ≤ 127 := by decide +kernel
  have hintegers' : ∀ number ∈ deeper.toJson.numbers, number.IsInteger := by decide +kernel
  have hdepth' : 127 < deeper.toJson.depth := by decide +kernel
  exact ⟨hintegers, hdepth, (reading_integers_back fitting hintegers).1 hdepth, hintegers', hdepth',
    (reading_integers_back deeper hintegers').2 hdepth'⟩

end Document

end WriteMemo
