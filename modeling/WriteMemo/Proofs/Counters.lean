import Mathlib.Algebra.Group.Basic
import WriteMemo.Counters

namespace WriteMemo.Counters

instance : Zero Counters := ⟨zero⟩

instance : Add Counters :=
  ⟨fun a b =>
    ⟨a.writes + b.writes, a.hits + b.hits, a.missesNotCached + b.missesNotCached,
      a.missesSubmittedChanged + b.missesSubmittedChanged, a.missesNoMatch + b.missesNoMatch,
      a.candidatesWithoutSpec + b.candidatesWithoutSpec,
      a.persistedWithoutSpec + b.persistedWithoutSpec, a.evictions + b.evictions,
      a.totalEntries + b.totalEntries⟩⟩

theorem zero_def : (0 : Counters) = ⟨0, 0, 0, 0, 0, 0, 0, 0, 0⟩ := rfl

theorem add_def (a b : Counters) :
    a + b =
      ⟨a.writes + b.writes, a.hits + b.hits, a.missesNotCached + b.missesNotCached,
        a.missesSubmittedChanged + b.missesSubmittedChanged, a.missesNoMatch + b.missesNoMatch,
        a.candidatesWithoutSpec + b.candidatesWithoutSpec,
        a.persistedWithoutSpec + b.persistedWithoutSpec, a.evictions + b.evictions,
        a.totalEntries + b.totalEntries⟩ :=
  rfl

instance : AddCommMonoid Counters where
  add_assoc a b c := by simp only [add_def, Nat.add_assoc]
  zero_add a := by simp only [add_def, zero_def, Nat.zero_add]
  add_zero a := by simp only [add_def, zero_def, Nat.add_zero]
  add_comm a b := by simp only [add_def, Nat.add_comm]
  nsmul := nsmulRec

theorem misses_add (a b : Counters) : (a + b).misses = a.misses + b.misses := by
  simp only [misses, add_def]
  omega

theorem checks_add (a b : Counters) : (a + b).checks = a.checks + b.checks := by
  have hmisses := misses_add a b
  have hhits : (a + b).hits = a.hits + b.hits := rfl
  rw [checks, checks, checks, hmisses, hhits]
  omega

theorem add_recordVerdict (a b : Counters) (verdict : Verdict) :
    (a + b).recordVerdict verdict = a + b.recordVerdict verdict := by
  cases verdict with
  | hit _ _ => simp only [recordVerdict, recordHit, add_def, Nat.add_assoc]
  | miss reason =>
      cases reason <;> simp only [recordVerdict, recordMiss, add_def, Nat.add_assoc]

end WriteMemo.Counters
