import WriteMemo.Proofs.Json.Same
import WriteMemo.Proofs.Memo.Conservation
import WriteMemo.Proofs.Memo.Skips

namespace WriteMemo

namespace Verdict

-- The verdict on candidates that so many others stand in front of.
def behind (count : Nat) : Verdict → Verdict
  | .hit place candidate => .hit (place + count) candidate
  | .miss reason => .miss reason

theorem behind_zero (verdict : Verdict) : verdict.behind 0 = verdict := by
  cases verdict <;> rfl

theorem behind_behind (verdict : Verdict) (count more : Nat) :
    (verdict.behind count).behind more = verdict.behind (more + count) := by
  cases verdict with
  | hit place candidate => rw [behind, behind, behind, Nat.add_assoc, Nat.add_comm count]
  | miss reason => rfl

end Verdict

-- Equality of specs is an equivalence, so what two candidates share with a third they share with
-- each other.
theorem Document.Carries.of_common {candidate other : Document} {recorded : Option Json}
    (h : candidate.Carries recorded) (hother : other.Carries recorded) :
    other.Carries candidate.spec? := by
  obtain ⟨spec, wanted, hspec, rfl, hsame⟩ := h
  obtain ⟨otherSpec, _, hotherSpec, ⟨⟩, hotherSame⟩ := hother
  refine ⟨otherSpec, spec, hotherSpec, hspec, ?_⟩
  rw [Json.same_iff] at hsame hotherSame ⊢
  rw [hotherSame, hsame]

namespace Finding

def behind (count : Nat) (finding : Finding) : Finding :=
  { finding with verdict := finding.verdict.behind count }

theorem behind_passOver (count : Nat) (key : Key) (recorded : Option Json) (candidate : Document)
    (finding : Finding) :
    (finding.behind count).passOver key recorded candidate =
      (finding.passOver key recorded candidate).behind count := by
  unfold passOver
  split <;> rfl

-- What is found in two lists one after the other, when nothing in the first one matches.
structure Joined (first second whole : Finding) (count : Nat) : Prop where
  verdict : whole.verdict = second.verdict.behind count
  candidatesWithoutSpec :
    whole.candidatesWithoutSpec = first.candidatesWithoutSpec + second.candidatesWithoutSpec
  persistedWithoutSpec :
    whole.persistedWithoutSpec = first.persistedWithoutSpec + second.persistedWithoutSpec

end Finding

namespace Memo

variable {key : Key} {recorded : Option Json} {place : Nat} {candidates other : List Document}

theorem scan_append_of_hit (hhit : (scan key recorded place candidates).verdict.isHit)
    (more : List Document) :
    scan key recorded place (candidates ++ more) = scan key recorded place candidates := by
  induction candidates generalizing place with
  | nil => cases hhit
  | cons candidate rest ih =>
      rw [scan_cons] at hhit
      rw [List.cons_append, scan_cons, scan_cons]
      split
      · rfl
      · next hcarries =>
        rw [if_neg hcarries, Finding.verdict_passOver] at hhit
        rw [ih hhit]

theorem scan_add_place (key : Key) (recorded : Option Json) (place count : Nat)
    (candidates : List Document) :
    scan key recorded (place + count) candidates =
      (scan key recorded place candidates).behind count := by
  induction candidates generalizing place with
  | nil => rfl
  | cons candidate rest ih =>
      rw [scan_cons, scan_cons, Nat.add_right_comm, ih]
      split
      · rfl
      · exact Finding.behind_passOver _ _ _ _ _

theorem scan_append_of_miss (hmiss : (scan key recorded place candidates).verdict.isHit = false)
    (more : List Document) :
    (scan key recorded place candidates).Joined (scan key recorded place more)
      (scan key recorded place (candidates ++ more)) candidates.length := by
  induction candidates generalizing place with
  | nil => exact ⟨(Verdict.behind_zero _).symm, (Nat.zero_add _).symm, (Nat.zero_add _).symm⟩
  | cons candidate rest ih =>
      rw [scan_cons] at hmiss
      rw [List.cons_append, scan_cons, scan_cons]
      split
      · next hcarries =>
        rw [if_pos hcarries] at hmiss
        cases hmiss
      · next hcarries =>
        rw [if_neg hcarries, Finding.verdict_passOver] at hmiss
        have hrest := ih hmiss
        rw [scan_add_place key recorded place 1 more] at hrest
        obtain ⟨hfirst, hfirst'⟩ :=
          (scan key recorded (place + 1) rest).skips_passOver key recorded candidate
        obtain ⟨hwhole, hwhole'⟩ :=
          (scan key recorded (place + 1) (rest ++ more)).skips_passOver key recorded candidate
        refine ⟨?_, ?_, ?_⟩
        · rw [Finding.verdict_passOver, hrest.verdict]
          exact Verdict.behind_behind _ _ _
        · rw [hfirst, hwhole, hrest.candidatesWithoutSpec, Nat.add_right_comm]
          rfl
        · rw [hfirst', hwhole', hrest.persistedWithoutSpec, Nat.add_right_comm]
          rfl

theorem isHit_scan (key : Key) (recorded : Option Json) (place : Nat)
    (candidates : List Document) :
    (scan key recorded place candidates).verdict.isHit =
      candidates.any fun candidate => candidate.carries recorded := by
  induction candidates generalizing place with
  | nil => rfl
  | cons candidate rest ih =>
      rw [scan_cons, List.any_cons]
      split
      · next hcarries =>
        rw [hcarries]
        rfl
      · next hcarries =>
        rw [Finding.verdict_passOver, ih, Bool.eq_false_iff.mpr hcarries, Bool.false_or]

-- Whether the candidates are looked at is settled before the first of them.
theorem inspect_cases_of_entry (memo : Memo) (submitted : Document) :
    (∃ reason events, ∀ candidates,
      memo.inspect submitted candidates = .ofVerdict (.miss reason) events) ∨
    ∃ recorded events, ∀ candidates, memo.inspect submitted candidates =
      (scan (memo.keyFor submitted) recorded 0 candidates).after events := by
  cases hentry : memo.entry? (memo.keyFor submitted) with
  | none => exact .inl ⟨_, _, inspect_of_none hentry⟩
  | some entry =>
      cases hsame : entry.submitted == submitted with
      | false => exact .inl ⟨_, _, inspect_of_differs hentry hsame⟩
      | true => exact .inr ⟨_, _, inspect_of_same hentry hsame⟩

variable {memo : Memo} {submitted : Document}

theorem inspect_append_of_hit (hhit : (memo.inspect submitted candidates).verdict.isHit)
    (more : List Document) :
    memo.inspect submitted (candidates ++ more) = memo.inspect submitted candidates := by
  rcases memo.inspect_cases_of_entry submitted with
    ⟨reason, events, hinspect⟩ | ⟨recorded, events, hinspect⟩
  · rw [hinspect, hinspect]
  · rw [hinspect] at hhit
    rw [hinspect, hinspect, scan_append_of_hit hhit]

theorem inspect_append_of_miss (hmiss : (memo.inspect submitted candidates).verdict.isHit = false)
    (more : List Document) :
    (memo.inspect submitted candidates).Joined (memo.inspect submitted more)
      (memo.inspect submitted (candidates ++ more)) candidates.length := by
  rcases memo.inspect_cases_of_entry submitted with
    ⟨reason, events, hinspect⟩ | ⟨recorded, events, hinspect⟩
  · rw [hinspect, hinspect, hinspect]
    exact ⟨rfl, rfl, rfl⟩
  · rw [hinspect] at hmiss
    rw [hinspect, hinspect, hinspect]
    have hjoined := scan_append_of_miss hmiss more
    exact ⟨hjoined.verdict, hjoined.candidatesWithoutSpec, hjoined.persistedWithoutSpec⟩

theorem isHit_inspect_perm (hperm : candidates.Perm other) :
    (memo.inspect submitted candidates).verdict.isHit =
      (memo.inspect submitted other).verdict.isHit := by
  rcases memo.inspect_cases_of_entry submitted with
    ⟨reason, events, hinspect⟩ | ⟨recorded, events, hinspect⟩
  · rw [hinspect, hinspect]
  · rw [hinspect, hinspect, Finding.verdict_after, Finding.verdict_after, isHit_scan, isHit_scan,
      hperm.any_eq]

theorem scan_of_miss (hmiss : (scan key recorded place candidates).verdict.isHit = false) :
    (scan key recorded place candidates).verdict = .miss .noMatchingCandidate ∧
      scanned recorded candidates = candidates := by
  have hverdict := verdict_scan key recorded place candidates
  unfold scanned
  cases hfirst : firstCarrying? recorded candidates with
  | none =>
      rw [hfirst] at hverdict
      exact ⟨hverdict, rfl⟩
  | some index =>
      rw [hfirst] at hverdict
      obtain ⟨candidate, hverdict⟩ := hverdict
      rw [hverdict] at hmiss
      cases hmiss

-- A scan without a match has looked at every candidate, so its charges are counts over all of
-- them.
theorem inspect_perm_of_miss (hperm : candidates.Perm other)
    (hmiss : (memo.inspect submitted candidates).verdict.isHit = false) :
    (memo.inspect submitted candidates).verdict = (memo.inspect submitted other).verdict ∧
      (memo.inspect submitted candidates).counts = (memo.inspect submitted other).counts := by
  have hmiss' := isHit_inspect_perm hperm ▸ hmiss
  rcases memo.inspect_cases_of_entry submitted with
    ⟨reason, events, hinspect⟩ | ⟨recorded, events, hinspect⟩
  · rw [hinspect, hinspect]
    exact ⟨rfl, rfl⟩
  · rw [hinspect] at hmiss hmiss'
    obtain ⟨hverdict, hall⟩ := scan_of_miss hmiss
    obtain ⟨hverdict', hall'⟩ := scan_of_miss hmiss'
    have hskips : skipsOf recorded candidates = skipsOf recorded other := by
      rw [skipsOf, skipsOf, hall, hall', hperm.countP_eq, hperm.countP_eq]
    rw [hinspect, hinspect, Finding.verdict_after, Finding.verdict_after, Finding.counts_after,
      Finding.counts_after, counts_scan, counts_scan, hverdict, hverdict', hskips]
    exact ⟨rfl, rfl⟩

-- A check changes a memo by what it counts, and by the use of a key that it has before.
theorem check_congr (hcounts : (memo.inspect submitted candidates).counts =
      (memo.inspect submitted other).counts) :
    (memo.check submitted candidates).1 = (memo.check submitted other).1 := by
  have hcounted (finding : Finding) :
      memo.countFinding finding = { memo with counters := memo.counters + finding.counts } := by
    rw [← counters_countFinding]
    rfl
  unfold check
  dsimp only
  rw [hcounted, hcounted, hcounts]

theorem order_check_congr (memo : Memo) (submitted : Document) (candidates other : List Document) :
    (memo.check submitted candidates).1.recency = (memo.check submitted other).1.recency :=
  congrArg Recency.mk ((order_check memo submitted candidates).trans
    (order_check memo submitted other).symm)

theorem outcomes_check_of_hit (hhit : (memo.inspect submitted candidates).verdict.isHit) :
    (memo.check submitted candidates).1.counters.outcomes = memo.counters.recordHit.outcomes := by
  rw [counters_check, countFinding]
  cases hverdict : (memo.inspect submitted candidates).verdict with
  | hit _ _ => rfl
  | miss reason =>
      rw [hverdict] at hhit
      cases hhit

theorem carries_of_hits {place otherPlace : Nat} {candidate otherCandidate : Document}
    (hhit : (memo.inspect submitted candidates).verdict = .hit place candidate)
    (hother : (memo.inspect submitted other).verdict = .hit otherPlace otherCandidate) :
    otherCandidate.Carries candidate.spec? := by
  have hfound := congrArg Verdict.found? hhit
  have hfound' := congrArg Verdict.found? hother
  obtain ⟨entry, hentry, -, -, hcarries⟩ :=
    (inspect_warranted memo submitted candidates).of_found hfound
  obtain ⟨entry', hentry', -, -, hcarries'⟩ :=
    (inspect_warranted memo submitted other).of_found hfound'
  rw [hentry] at hentry'
  cases hentry'
  exact hcarries.of_common hcarries'

-- Lists with the same candidates either both hit or both miss. When they miss, they miss for the
-- same reason and leave the same memo behind. When they hit, the two matches have equal specs, and
-- entries, order of use and outcome counters end up the same. Of two lists in a row the second one
-- counts only if the first one has no match, and then the charges of both add up.
theorem candidate_order_picks_match (settings : Settings) (calls : List Call)
    (submitted : Document) :
    let memo := after settings calls
    (∀ candidates other : List Document, candidates.Perm other →
      (memo.check submitted candidates).2.verdict.isHit =
        (memo.check submitted other).2.verdict.isHit ∧
      ((memo.check submitted candidates).2.verdict.isHit = false →
        (memo.check submitted candidates).2.verdict = (memo.check submitted other).2.verdict ∧
        (memo.check submitted candidates).1 = (memo.check submitted other).1) ∧
      (∀ place candidate otherPlace otherCandidate,
        (memo.check submitted candidates).2.verdict = .hit place candidate →
        (memo.check submitted other).2.verdict = .hit otherPlace otherCandidate →
        otherCandidate.Carries candidate.spec? ∧
        (memo.check submitted candidates).1.entries = (memo.check submitted other).1.entries ∧
        (memo.check submitted candidates).1.recency = (memo.check submitted other).1.recency ∧
        (memo.check submitted candidates).1.stats.outcomes =
          (memo.check submitted other).1.stats.outcomes)) ∧
    ∀ candidates more : List Document,
      ((memo.check submitted candidates).2.verdict.isHit →
        memo.check submitted (candidates ++ more) = memo.check submitted candidates) ∧
      ((memo.check submitted candidates).2.verdict.isHit = false →
        (memo.check submitted candidates).2.Joined (memo.check submitted more).2
          (memo.check submitted (candidates ++ more)).2 candidates.length) := by
  intro memo
  refine ⟨fun candidates other hperm => ⟨isHit_inspect_perm hperm, fun hmiss => ?_,
    fun place candidate otherPlace otherCandidate hhit hother => ?_⟩,
    fun candidates more => ⟨fun hhit => ?_, fun hmiss => inspect_append_of_miss hmiss more⟩⟩
  · obtain ⟨hverdict, hcounts⟩ := inspect_perm_of_miss hperm hmiss
    exact ⟨hverdict, check_congr hcounts⟩
  · have hisHit : (memo.inspect submitted candidates).verdict.isHit :=
      (congrArg Verdict.isHit hhit).trans rfl
    have hisHit' : (memo.inspect submitted other).verdict.isHit :=
      (congrArg Verdict.isHit hother).trans rfl
    refine ⟨carries_of_hits hhit hother, ?_, order_check_congr memo submitted _ _, ?_⟩
    · rw [entries_check, entries_check]
    · exact (outcomes_check_of_hit hisHit).trans (outcomes_check_of_hit hisHit').symm
  · unfold check
    dsimp only
    rw [inspect_append_of_hit hhit]

-- Both candidates match, and either may be the one that is returned.
example :
    let memo := after ⟨0, .generateName, 60⟩ [.set (.named "a") (.named "a")]
    let found := fun candidates =>
      (memo.check (.named "a") candidates).2.verdict.found?.map fun hit => hit.2.name
    found [.named "b", .named "c"] = some "b" ∧ found [.named "c", .named "b"] = some "c" := by
  decide +kernel

end Memo

end WriteMemo
