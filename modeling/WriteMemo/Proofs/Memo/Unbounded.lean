import WriteMemo.Proofs.Memo.History
import WriteMemo.Proofs.Memo.Scan

namespace WriteMemo.Memo

-- The capacity is zero. A verdict is the one that the last write under the key of the submitted
-- document warrants, whatever was written, checked or read besides. So a write is passed over
-- only if an equal document was written last under its key and one of the candidates still
-- carries the spec that the store answered with.
theorem answers_warranted_by_lastWrite (strategy : KeyStrategy) (interval : UInt64)
    (calls : List Call) :
    (∀ submitted candidates verdict,
      ((after ⟨0, strategy, interval⟩ calls).step (.verdict submitted candidates)).answer =
          .verdict verdict ↔
        Warranted submitted candidates
          (lastWrite strategy (Key.derive strategy submitted) calls) verdict) ∧
    (∀ submitted candidates, ∃ verdict,
      Warranted submitted candidates
          (lastWrite strategy (Key.derive strategy submitted) calls) verdict ∧
        ((after ⟨0, strategy, interval⟩ calls).step (.unchanged submitted candidates)).answer =
          .found verdict.found?) ∧
    (∀ key, ((after ⟨0, strategy, interval⟩ calls).step (.get key)).answer =
      .document (((lastWrite strategy key calls).map Entry.persisted).getD .empty)) ∧
    (∀ key, ((after ⟨0, strategy, interval⟩ calls).step (.entry key)).answer =
      .entry (lastWrite strategy key calls)) ∧
    (∀ submitted candidates place candidate,
      ((after ⟨0, strategy, interval⟩ calls).step (.unchanged submitted candidates)).answer =
          .found (some (place, candidate)) →
        ∃ entry, lastWrite strategy (Key.derive strategy submitted) calls = some entry ∧
          entry.submitted == submitted ∧ candidate ∈ candidates ∧
          candidate.Carries entry.persisted.spec?) := by
  have hunbounded : (Settings.mk 0 strategy interval).isBounded = false := rfl
  have hentry := entry_after_of_unbounded hunbounded calls
  have hwarranted (submitted : Document) (candidates : List Document) :
      Warranted submitted candidates (lastWrite strategy (Key.derive strategy submitted) calls)
        ((after ⟨0, strategy, interval⟩ calls).inspect submitted candidates).verdict := by
    have h := inspect_warranted (after ⟨0, strategy, interval⟩ calls) submitted candidates
    rwa [keyFor_after, hentry] at h
  refine ⟨fun submitted candidates verdict => ?_, fun submitted candidates => ?_, fun key => ?_,
    fun key => ?_, fun submitted candidates place candidate hanswer => ?_⟩
  · rw [answer_verdict, Answer.verdict.injEq]
    constructor
    · rintro rfl
      exact hwarranted submitted candidates
    · exact (hwarranted submitted candidates).unique
  · exact ⟨_, hwarranted submitted candidates, answer_unchanged _ _ _⟩
  · rw [step, Memo.persisted, hentry]
    cases lastWrite strategy key calls <;> rfl
  · rw [step, hentry]
  · rw [answer_unchanged, Answer.found.injEq] at hanswer
    exact (hwarranted submitted candidates).of_found hanswer

end WriteMemo.Memo
