import WriteMemo.Proofs.Key
import WriteMemo.Proofs.Memo.History
import WriteMemo.Proofs.Memo.Scan

namespace WriteMemo

theorem Document.ofText_eq_of_render {text : String} {document : Document}
    (h : (ofText text).map render = .ok document.render) : ofText text = .ok document := by
  cases hread : ofText text with
  | error fault =>
      rw [hread] at h
      cases h
  | ok other =>
      rw [hread] at h
      rw [render_injective (Except.ok.inj h)]

-- A document that is nothing but a spec.
def Document.floatSpec (x : Binary64) : Document := .ofMembers [("spec", .number (.float x))]

def Document.namedSpec (name : String) (x : Binary64) : Document :=
  (floatSpec x).insert "metadata" (.object [("name", .string name)])

namespace Memo

-- A check right after a write under the same key compares with the document that was written.
theorem verdict_after_set (settings : Settings) (calls : List Call) {a b : Document}
    (persisted : Document) (candidates : List Document)
    (hkey : Key.derive settings.keyStrategy b = Key.derive settings.keyStrategy a) :
    ((after settings (calls ++ [.set a persisted])).step (.verdict b candidates)).answer ≠
        .verdict (.miss .notCached) ∧
      (((after settings (calls ++ [.set a persisted])).step (.verdict b candidates)).answer =
          .verdict (.miss .submittedChanged) ↔ (a == b) = false) := by
  have hentry : Memo.entry? (after settings (calls ++ [.set a persisted]))
      ((after settings (calls ++ [.set a persisted])).keyFor b) = some ⟨a, persisted⟩ := by
    rw [keyFor_after, hkey, entry_after_set]
  rw [answer_verdict, ne_eq, Answer.verdict.injEq, Answer.verdict.injEq]
  exact verdict_inspect_of_entry hentry candidates

-- A write of a document and a check of an equal one meet if the two have one key.
theorem miss_after_set {settings : Settings} {calls : List Call} {a b persisted : Document}
    {candidates : List Document} {reason : MissReason} (h : a == b)
    (hkey : Key.derive settings.keyStrategy a = Key.derive settings.keyStrategy b)
    (hmiss : ((after settings (calls ++ [.set a persisted])).step (.verdict b candidates)).answer =
      .verdict (.miss reason)) : reason = .noMatchingCandidate := by
  obtain ⟨hcached, hchanged⟩ := verdict_after_set settings calls persisted candidates hkey.symm
  cases reason with
  | notCached => exact absurd hmiss hcached
  | submittedChanged =>
      rw [h] at hchanged
      cases hchanged.mp hmiss
  | noMatchingCandidate => rfl

-- Keys made of names agree for equal documents. Keys made of digests agree if the documents have
-- names or their digests agree, which without a collision means that even the signs of their zeros
-- do. Where the keys agree, a check of the one right after a write of the other finds the pair.
theorem keys_of_equal_documents (a b : Document) (h : a == b) :
    Key.derive .generateName a = Key.derive .generateName b ∧
    (Key.derive .contentHash a = Key.derive .contentHash b ↔
      a.name ≠ "" ∨ Key.digestOf a = Key.digestOf b) ∧
    (Key.NoCollision a b → (Key.digestOf a = Key.digestOf b ↔ a = b)) ∧
    (a.ZerosUnsigned → b.ZerosUnsigned →
      ∀ strategy, Key.derive strategy a = Key.derive strategy b) ∧
    ∀ (settings : Settings) (calls : List Call) (persisted : Document)
      (candidates : List Document) (reason : MissReason),
      Key.derive settings.keyStrategy a = Key.derive settings.keyStrategy b →
      ((after settings (calls ++ [.set a persisted])).step (.verdict b candidates)).answer =
        .verdict (.miss reason) → reason = .noMatchingCandidate := by
  refine ⟨Key.derive_generateName_of_same h, Key.derive_contentHash_iff_of_same h,
    Key.digestOf_eq_iff, fun ha hb strategy => ?_, fun _ _ _ _ _ => miss_after_set h⟩
  rw [Document.eq_of_same h ha hb]

-- Under a name the two zeros share a key.
theorem key_of_named_zeros :
    let a := Document.namedSpec "a" .zero
    let b := Document.namedSpec "a" Binary64.zero.negate
    (a == b) = true ∧ ¬b.ZerosUnsigned ∧ Key.derive .contentHash a = Key.derive .contentHash b := by
  intro a b
  have h : a == b := by decide +kernel
  exact ⟨h, by decide +kernel, (keys_of_equal_documents a b h).2.1.mpr (.inl (by decide +kernel))⟩

-- Without a name they do not, and a check of the one does not find the write of the other.
theorem equal_zeros_have_two_keys :
    ∃ a b, Document.ofText "\x7b\"spec\":0.0\x7d" = .ok a ∧
      Document.ofText "\x7b\"spec\":-0.0\x7d" = .ok b ∧ a == b ∧
      Key.derive .contentHash a ≠ Key.derive .contentHash b ∧
      ((after ⟨0, .contentHash, 60⟩ [.set a a]).step (.verdict b [a])).answer =
        .verdict (.miss .notCached) := by
  refine ⟨.floatSpec .zero, .floatSpec Binary64.zero.negate,
    Document.ofText_eq_of_render (by decide +kernel),
    Document.ofText_eq_of_render (by decide +kernel), by decide +kernel, by decide +kernel, ?_⟩
  rw [answer_verdict, inspect_of_none (Option.isNone_iff_eq_none.mp (by decide +kernel))]
  rfl

end Memo

end WriteMemo
