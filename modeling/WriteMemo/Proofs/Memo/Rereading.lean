import WriteMemo.Proofs.Memo.EqualDocuments
import WriteMemo.Proofs.Rereading

namespace WriteMemo

namespace Document

theorem depth_of_ofText {text : String} {document : Document} (h : ofText text = .ok document) :
    document.toJson.depth ≤ Json.Reader.depthLimit := by
  unfold ofText at h
  split at h
  · next value hread =>
    cases value with
    | object members =>
        cases h
        exact (Json.depth_sorted_le (.object members)).trans (Json.depth_of_read hread)
    | null | bool _ | number _ | string _ | array _ => cases h
  · cases h

theorem same_reread_iff (document : Document) :
    document.reread == document ↔ ∀ number ∈ document.toJson.numbers, number.reread = number := by
  refine (Json.same_mapNumbers_iff document.toJson).trans ?_
  simp only [Json.Number.same_reread_iff]

theorem reread_eq_of_same {document : Document} (h : document.reread == document) :
    document.reread = document :=
  eq_of_members (Json.mapMembersNumbers_eq_self ((same_reread_iff document).mp h))

theorem sameNames_reread (document : Document) : document.reread.SameNames document := by
  have hid : Json.mapMembersNumbers id document.reread.members = document.reread.members :=
    Json.mapMembersNumbers_eq_self fun _ _ => rfl
  exact sameNames_of_mapNumbers hid

-- Numbers that are whole, or whose digits and power of ten are doubles.
def Exact (document : Document) : Prop :=
  ∀ number ∈ document.toJson.numbers, number.IsInteger ∨ number.numeral.Exact

instance : DecidablePred Exact := fun document =>
  inferInstanceAs (Decidable (∀ number ∈ document.toJson.numbers, _))

theorem same_reread_of_exact {document : Document} (h : document.Exact) :
    document.reread == document := by
  refine (same_reread_iff document).mpr fun number hmem => ?_
  cases number with
  | natural _ | negative _ => exact Json.Number.reread_of_isInteger trivial
  | float value => exact Json.Number.reread_float_of_exact ((h _ hmem).resolve_left not_false)

theorem beq_comm (a b : Document) : (a == b) = (b == a) := by
  rw [Bool.eq_iff_iff, same_iff, same_iff, eq_comm]

end Document

namespace Memo

-- Reading back never fails, and it changes nothing but doubles. If it moves one, the document is
-- another one, and where the key does not show it a check says so.
theorem reading_document_back {text : String} {document : Document}
    (h : Document.ofText text = .ok document) :
    Document.ofText document.render = .ok document.reread ∧
      (document.reread == document ↔
        ∀ number ∈ document.toJson.numbers, number.reread = number) ∧
      (document.Exact → document.reread == document) ∧
      (∀ strategy, document.name ≠ "" ∨ strategy = .generateName ∨ document.reread == document →
        Key.derive strategy document.reread = Key.derive strategy document) ∧
      (document.name = "" → Key.NoCollision document.reread document →
        Key.derive .contentHash document.reread = Key.derive .contentHash document →
        document.reread == document) ∧
      ∀ (settings : Settings) (calls : List Call) (persisted : Document)
        (candidates : List Document),
        Key.derive settings.keyStrategy document.reread =
          Key.derive settings.keyStrategy document →
        let answer := ((after settings (calls ++ [.set document persisted])).step
          (.verdict document.reread candidates)).answer
        answer ≠ .verdict (.miss .notCached) ∧
          (answer = .verdict (.miss .submittedChanged) ↔ ¬document.reread == document) := by
  have hnames := document.sameNames_reread
  have hread : Document.ofText document.render = .ok document.reread := by
    rw [Document.ofText_render, if_pos (Document.depth_of_ofText h)]
  refine ⟨hread, document.same_reread_iff, Document.same_reread_of_exact,
    fun strategy hstrategy => ?_, fun hpending hapart hkey => ?_,
    fun settings calls persisted candidates hkey => ?_⟩
  · rcases hstrategy with hnamed | hgenerate | hsame
    · exact Key.derive_of_named hnames (.inl (hnames.name_eq ▸ hnamed))
    · exact Key.derive_of_named hnames (.inr hgenerate)
    · rw [Document.reread_eq_of_same hsame]
  · exact Document.same_of_eq
      (Key.eq_of_derive_contentHash (hnames.name_eq.trans hpending) hpending hapart hkey)
  · obtain ⟨hcached, hchanged⟩ := verdict_after_set settings calls persisted candidates hkey
    refine ⟨hcached, hchanged.trans ?_⟩
    rw [Document.beq_comm, Bool.not_eq_true]

-- Few digits come back as they were.
theorem short_double_reads_back :
    ∃ document, Document.ofText "\x7b\"spec\":25e-4\x7d" = .ok document ∧ document.Exact ∧
      Document.ofText document.render = .ok document.reread ∧ document.reread == document ∧
      ∀ strategy, Key.derive strategy document.reread = Key.derive strategy document := by
  have hread : Document.ofText "\x7b\"spec\":25e-4\x7d" =
      .ok (.floatSpec ⟨false, 4567911030049346683, by decide⟩) :=
    Document.ofText_eq_of_render (by decide +kernel)
  have hexact : (Document.floatSpec ⟨false, 4567911030049346683, by decide⟩).Exact := by
    decide +kernel
  obtain ⟨hagain, -, hsame, hkey, -⟩ := reading_document_back hread
  exact ⟨_, hread, hexact, hagain, hsame hexact, fun strategy =>
    hkey strategy (.inr (.inr (hsame hexact)))⟩

-- A double that is read from one digit, written with seventeen and read as its neighbour. A check
-- takes the document for a changed one, or does not find it at all.
theorem double_reads_back_as_neighbour :
    ∃ document again, Document.ofText "\x7b\"spec\":1e-24\x7d" = .ok document ∧
      document.render = "\x7b\"spec\":1.0000000000000001e-24\x7d" ∧
      Document.ofText document.render = .ok again ∧
      again.render = "\x7b\"spec\":1e-24\x7d" ∧ (again == document) = false ∧
      Key.derive .contentHash again ≠ Key.derive .contentHash document ∧
      ((after ⟨0, .generateName, 60⟩ [.set document document]).step
        (.verdict again [document])).answer = .verdict (.miss .submittedChanged) ∧
      ((after ⟨0, .contentHash, 60⟩ [.set document document]).step
        (.verdict again [document])).answer = .verdict (.miss .notCached) := by
  refine ⟨.floatSpec ⟨false, 4247835366853742248, by decide⟩,
    .floatSpec ⟨false, 4247835366853742247, by decide⟩,
    Document.ofText_eq_of_render (by decide +kernel), by decide +kernel,
    Document.ofText_eq_of_render (by decide +kernel), by decide +kernel, by decide +kernel,
    by decide +kernel, ?_, ?_⟩
  · exact (verdict_after_set ⟨0, .generateName, 60⟩ [] _ _ (by decide +kernel)).2.mpr
      (by decide +kernel)
  · rw [answer_verdict, inspect_of_none (Option.isNone_iff_eq_none.mp (by decide +kernel))]
    rfl

end Memo

end WriteMemo
