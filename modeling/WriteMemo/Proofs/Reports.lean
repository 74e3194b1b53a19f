import Mathlib.Data.List.TakeWhile
import WriteMemo.Proofs.Memo.Conservation
import WriteMemo.Reporter

namespace WriteMemo

-- What happens beside a reporter. Calls take no time, and time passes in whole seconds.
inductive Moment where
  | serve (call : Call)
  | wait (seconds : Nat)

namespace Moment

def elapsed : List Moment → Nat
  | [] => 0
  | .serve _ :: rest => elapsed rest
  | .wait seconds :: rest => seconds + elapsed rest

-- Each call with the number of seconds that have passed until then.
def stamped (clock : Nat) : List Moment → List (Nat × Call)
  | [] => []
  | .serve call :: rest => (clock, call) :: stamped clock rest
  | .wait seconds :: rest => stamped (clock + seconds) rest

-- The calls made before the clock reaches a second. The clock never goes back.
def callsBefore (second : Nat) (moments : List Moment) : List Call :=
  ((stamped 0 moments).takeWhile fun stamp => stamp.1 < second).map Prod.snd

def calls (moments : List Moment) : List Call := (stamped 0 moments).map Prod.snd

theorem elapsed_append (moments later : List Moment) :
    elapsed (moments ++ later) = elapsed moments + elapsed later := by
  induction moments with
  | nil => exact (Nat.zero_add _).symm
  | cons moment rest ih =>
      cases moment with
      | serve _ => exact ih
      | wait seconds => rw [List.cons_append, elapsed, elapsed, ih, Nat.add_assoc]

theorem stamped_append (clock : Nat) (moments later : List Moment) :
    stamped clock (moments ++ later) =
      stamped clock moments ++ stamped (clock + elapsed moments) later := by
  induction moments generalizing clock with
  | nil => rfl
  | cons moment rest ih =>
      cases moment with
      | serve call => exact congrArg ((clock, call) :: ·) (ih clock)
      | wait seconds =>
          rw [List.cons_append, stamped, stamped, elapsed, ih, Nat.add_assoc]

theorem stamp_le {clock : Nat} {moments : List Moment} {stamp : Nat × Call}
    (h : stamp ∈ stamped clock moments) : stamp.1 ≤ clock + elapsed moments := by
  induction moments generalizing clock with
  | nil => cases h
  | cons moment rest ih =>
      cases moment with
      | serve call =>
          rcases List.mem_cons.mp h with rfl | h
          · exact Nat.le_add_right _ _
          · exact ih h
      | wait seconds =>
          rw [elapsed, ← Nat.add_assoc]
          exact ih h

theorem stamped_concat_wait (moments : List Moment) (seconds : Nat) :
    stamped 0 (moments ++ [.wait seconds]) = stamped 0 moments := by
  rw [stamped_append, stamped, stamped, List.append_nil]

-- What happens later on does not belong to a time that has passed.
theorem callsBefore_concat {second : Nat} {moments : List Moment}
    (h : second ≤ elapsed moments) (moment : Moment) :
    callsBefore second (moments ++ [moment]) = callsBefore second moments := by
  cases moment with
  | wait seconds => rw [callsBefore, stamped_concat_wait, callsBefore]
  | serve call =>
      have hlast : [(0 + elapsed moments, call)].takeWhile (fun stamp => stamp.1 < second) = [] :=
        List.takeWhile_cons_of_neg (by simpa using h)
      rw [callsBefore, stamped_append, stamped, stamped, List.takeWhile_append, hlast,
        List.append_nil]
      split
      · next hall =>
        rw [callsBefore, (List.takeWhile_prefix _).eq_of_length hall]
      · rfl

theorem callsBefore_of_elapsed_lt {second : Nat} {moments : List Moment}
    (h : elapsed moments < second) : callsBefore second moments = calls moments := by
  rw [callsBefore, calls, List.takeWhile_eq_self_iff.mpr]
  intro stamp hmem
  have hle := stamp_le hmem
  exact decide_eq_true (by omega)

theorem callsBefore_isPrefix {second later : Nat} (h : second ≤ later) (moments : List Moment) :
    callsBefore second moments <+: callsBefore later moments := by
  have hsplit : (stamped 0 moments).takeWhile (fun stamp => stamp.1 < second) =
      ((stamped 0 moments).takeWhile fun stamp => stamp.1 < later).takeWhile
        fun stamp => stamp.1 < second := by
    rw [List.takeWhile_takeWhile]
    congr 1
    funext stamp
    simp only [decide_eq_decide, decide_eq_true_eq]
    omega
  rw [callsBefore, hsplit]
  exact (List.takeWhile_prefix _).map Prod.snd

end Moment

-- A memo with its reporter, and what was reported so far.
structure Watch where
  memo : Memo
  reporter : Reporter
  lines : List Line

namespace Watch

def step (watch : Watch) : Moment → Watch
  | .serve call => { watch with memo := (watch.memo.step call).memo }
  | .wait seconds =>
    let (reporter, lines) := watch.reporter.wait seconds watch.memo.stats
    ⟨watch.memo, reporter, watch.lines ++ lines⟩

def run (watch : Watch) (moments : List Moment) : Watch := moments.foldl step watch

end Watch

def Call.isActive (call : Call) : Bool := call.isSet || call.isCheck

namespace Memo

theorem activity_after (settings : Settings) (calls : List Call) :
    (after settings calls).stats.activity = calls.countP Call.isActive := by
  have haccounted := accounted_after settings calls
  rw [(wellFormed_after settings calls).stats_eq, Counters.activity, haccounted.checks,
    haccounted.writes]
  clear haccounted
  induction calls with
  | nil => rfl
  | cons call rest ih =>
      rw [List.countP_cons, List.countP_cons, List.countP_cons, ← ih]
      cases call <;> simp [Call.isActive, Call.isSet, Call.isCheck] <;> omega

-- A call that is neither a write nor a check changes nothing.
theorem run_of_inactive (memo : Memo) {calls : List Call} (h : calls.any Call.isActive = false) :
    memo.run calls = memo := by
  induction calls with
  | nil => rfl
  | cons call rest ih =>
      rw [List.any_cons, Bool.or_eq_false_iff] at h
      cases call with
      | set _ _ | verdict _ _ | unchanged _ _ => cases h.1
      | get _ | entry _ | stats => exact ih h.2

theorem activity_after_append_iff (settings : Settings) (calls since : List Call) :
    (after settings (calls ++ since)).stats.activity = (after settings calls).stats.activity ↔
      since.any Call.isActive = false := by
  rw [activity_after, activity_after, List.countP_append, Nat.add_eq_left, List.countP_eq_zero,
    List.any_eq_false]

end Memo

namespace Reporter

-- The line of a report by the counters at the report before and at this one.
def lineOf (earlier now : Counters) : Line :=
  if now.activity = earlier.activity then idleLine now else statsLine now

-- Several reports fall due at once only if nothing happens between them.
theorem reports_eq {c : Counters} {snapshots : Nat → Counters} {first : Nat} (due : Nat)
    (reporter : Reporter) (hlast : reporter.lastActivity = (snapshots first).activity)
    (hsame : ∀ number, first < number → number ≤ first + due → snapshots number = c) :
    reports c due reporter =
      ({ reporter with lastActivity := (snapshots (first + due)).activity },
        (List.range' first due).map fun number =>
          lineOf (snapshots number) (snapshots (number + 1))) := by
  induction due generalizing first reporter with
  | zero => rw [Nat.add_zero, ← hlast]; rfl
  | succ due ih =>
      have hnow : snapshots (first + 1) = c := hsame (first + 1) (by omega) (by omega)
      have hrest := ih { reporter with lastActivity := c.activity }
        (congrArg Counters.activity hnow.symm)
        fun number hlow hhigh => hsame number (by omega) (by omega)
      have hfirst : (reporter.report c).2 = lineOf (snapshots first) (snapshots (first + 1)) := by
        rw [hnow, lineOf, ← hlast]
        rfl
      have hcount : first + 1 + due = first + (due + 1) := by omega
      rw [hcount] at hrest
      rw [List.range'_succ, List.map_cons, ← hfirst, reports]
      change (let (last, lines) := reports c due { reporter with lastActivity := c.activity }
        (last, (reporter.report c).2 :: lines)) = _
      rw [hrest]

end Reporter

section Reports

variable (settings : Settings) (interval : Nat) (before : List Call) (moments : List Moment)

-- The calls made until a report, from the first report on counted as one. Before it there is the
-- empty memo.
def callsUntil : Nat → List Call
  | 0 => []
  | number + 1 => before ++ Moment.callsBefore ((number + 1) * interval) moments

def snapshot (number : Nat) : Counters :=
  (Memo.after settings (callsUntil interval before moments number)).stats

-- The reporter has just started beside a memo that may have been in use for long.
def Watch.start : Watch :=
  ⟨Memo.after settings before, ⟨interval, 0, 0, true⟩, []⟩

variable {settings interval before moments}

theorem callsUntil_isPrefix (interval : Nat) (before : List Call) (moments : List Moment)
    (number : Nat) :
    callsUntil interval before moments number <+:
      callsUntil interval before moments (number + 1) := by
  cases number with
  | zero => exact List.nil_prefix
  | succ number =>
      refine (List.prefix_append_right_inj before).mpr (Moment.callsBefore_isPrefix ?_ moments)
      exact Nat.mul_le_mul_right interval (Nat.le_succ (number + 1))

theorem snapshot_concat {number : Nat} (h : number * interval ≤ Moment.elapsed moments)
    (moment : Moment) :
    snapshot settings interval before (moments ++ [moment]) number =
      snapshot settings interval before moments number := by
  cases number with
  | zero => rfl
  | succ number => rw [snapshot, callsUntil, Moment.callsBefore_concat h, snapshot, callsUntil]

-- What a watch has come to: every report so far was made of the calls that came before it.
structure Watched (settings : Settings) (interval : Nat) (before : List Call)
    (moments : List Moment) (watch : Watch) : Prop where
  memo : watch.memo = Memo.after settings (before ++ Moment.calls moments)
  reporter : watch.reporter =
    ⟨interval, Moment.elapsed moments,
      (snapshot settings interval before moments (Moment.elapsed moments / interval)).activity,
      true⟩
  lines : watch.lines = (List.range (Moment.elapsed moments / interval)).map fun number =>
    Reporter.lineOf (snapshot settings interval before moments number)
      (snapshot settings interval before moments (number + 1))

theorem Watched.serve {watch : Watch} (h : Watched settings interval before moments watch)
    (call : Call) :
    Watched settings interval before (moments ++ [.serve call]) (watch.step (.serve call)) := by
  have helapsed : Moment.elapsed (moments ++ [.serve call]) = Moment.elapsed moments :=
    Moment.elapsed_append moments [.serve call]
  have hpast {number : Nat} (hle : number ≤ Moment.elapsed moments / interval) :
      snapshot settings interval before (moments ++ [.serve call]) number =
        snapshot settings interval before moments number :=
    snapshot_concat ((Nat.mul_le_mul_right interval hle).trans (Nat.div_mul_le_self _ _)) _
  refine ⟨?_, ?_, ?_⟩
  · change (watch.memo.step call).memo = _
    rw [h.memo, ← Memo.after_concat, Moment.calls, Moment.calls, Moment.stamped_append,
      List.map_append, ← List.append_assoc]
    rfl
  · change watch.reporter = _
    rw [h.reporter, helapsed, hpast (Nat.le_refl _)]
  · change watch.lines = _
    rw [h.lines, helapsed]
    refine List.map_congr_left fun number hnumber => ?_
    have hlt := List.mem_range.mp hnumber
    rw [hpast hlt.le, hpast hlt]

theorem Watched.wait {watch : Watch} (hinterval : 0 < interval)
    (h : Watched settings interval before moments watch) (seconds : Nat) :
    Watched settings interval before (moments ++ [.wait seconds]) (watch.step (.wait seconds)) := by
  have helapsed : Moment.elapsed (moments ++ [.wait seconds]) = Moment.elapsed moments + seconds :=
    Moment.elapsed_append moments [.wait seconds]
  have hstamped := Moment.stamped_concat_wait moments seconds
  have hpast {number : Nat} (hle : number ≤ Moment.elapsed moments / interval) :
      snapshot settings interval before (moments ++ [.wait seconds]) number =
        snapshot settings interval before moments number :=
    snapshot_concat ((Nat.mul_le_mul_right interval hle).trans (Nat.div_mul_le_self _ _)) _
  have hnow {number : Nat} (hlow : Moment.elapsed moments / interval < number) :
      snapshot settings interval before (moments ++ [.wait seconds]) number = watch.memo.stats := by
    obtain ⟨earlier, rfl⟩ := Nat.exists_eq_succ_of_ne_zero (Nat.ne_zero_of_lt hlow)
    have hpassed : Moment.elapsed moments < (earlier + 1) * interval :=
      (Nat.div_lt_iff_lt_mul hinterval).mp hlow
    have hall := Moment.callsBefore_of_elapsed_lt hpassed
    rw [snapshot, callsUntil, h.memo, ← hall, Moment.callsBefore, hstamped, Moment.callsBefore]
  obtain ⟨due, hdue⟩ := Nat.exists_eq_add_of_le
    (Nat.div_le_div_right (c := interval) (Nat.le_add_right (Moment.elapsed moments) seconds))
  have hlast : watch.reporter.lastActivity = (snapshot settings interval before
      (moments ++ [.wait seconds]) (Moment.elapsed moments / interval)).activity := by
    rw [h.reporter, hpast (Nat.le_refl _)]
  have hdues : watch.reporter.wait seconds watch.memo.stats = Reporter.reports watch.memo.stats due
      { watch.reporter with elapsed := Moment.elapsed moments + seconds } := by
    rw [Reporter.wait, h.reporter]
    dsimp only
    rw [if_pos rfl, hdue, Nat.add_sub_cancel_left]
  have hwait := hdues.trans (Reporter.reports_eq due
    { watch.reporter with elapsed := Moment.elapsed moments + seconds } hlast
    fun number hlow _ => hnow hlow)
  refine ⟨?_, ?_, ?_⟩
  · change watch.memo = _
    rw [h.memo, Moment.calls, Moment.calls, hstamped]
  · change (watch.reporter.wait seconds watch.memo.stats).1 = _
    rw [hwait, helapsed, hdue, h.reporter]
  · change watch.lines ++ (watch.reporter.wait seconds watch.memo.stats).2 = _
    rw [hwait, helapsed, hdue, h.lines, List.range_eq_range', List.range_eq_range',
      ← List.range'_append_1, List.map_append, Nat.zero_add]
    congr 1
    refine List.map_congr_left fun number hnumber => ?_
    have hlt := List.mem_range'_1.mp hnumber
    rw [hpast (by omega), hpast (by omega)]

theorem watched_run (hinterval : 0 < interval) :
    Watched settings interval before moments
      ((Watch.start settings interval before).run moments) := by
  induction moments using List.reverseRecOn with
  | nil =>
      have hnone : Moment.elapsed [] / interval = 0 := Nat.zero_div interval
      refine ⟨?_, ?_, ?_⟩
      · rw [Moment.calls, Moment.stamped, List.map_nil, List.append_nil]
        rfl
      · rw [hnone]
        rfl
      · rw [hnone]
        rfl
  | append_singleton moments moment ih =>
      rw [Watch.run, List.foldl_append]
      cases moment with
      | serve call => exact ih.serve call
      | wait seconds => exact ih.wait hinterval seconds

-- Reports fall due at the multiples of the interval, and a memo may have been in use before its
-- reporter starts. A report shows the counters if and only if a write or a check was made since the
-- report before, for the first one since the memo was made. All that it shows is taken from the
-- counters at that moment. A report that the memo is idle means that they are those of the report
-- before, every one of them.
theorem reports_tell_activity (settings : Settings) (interval : Nat) (hinterval : 0 < interval)
    (before : List Call) (moments : List Moment) :
    (Reporter.start interval).1 = some (Watch.start settings interval before).reporter ∧
    let lines := ((Watch.start settings interval before).run moments).lines
    lines.length = Moment.elapsed moments / interval ∧
    ∀ number line, lines[number]? = some line →
      let earlier := callsUntil interval before moments number
      let now := callsUntil interval before moments (number + 1)
      let c := (Memo.after settings now).stats
      ∃ since, now = earlier ++ since ∧
        (if since.any Call.isActive then
          line = ⟨.info, Reporter.target, "submission cache stats",
            [("hits", .count c.hits),
             ("misses", .count (c.missesNotCached + c.missesSubmittedChanged + c.missesNoMatch)),
             ("writes", .count c.writes), ("evictions", .count c.evictions),
             ("entries", .count c.totalEntries), ("hit_rate", .ratio c.hitRate)]⟩
        else
          line = ⟨.debug, Reporter.target, "submission cache idle",
            [("entries", .count c.totalEntries)]⟩ ∧
          c = (Memo.after settings earlier).stats) := by
  have hwatched : Watched settings interval before moments _ := watched_run hinterval
  refine ⟨?_, ?_, fun number line hline => ?_⟩
  · rw [Reporter.start, if_neg hinterval.ne']
    rfl
  · rw [hwatched.lines, List.length_map, List.length_range]
  · obtain ⟨since, hsince⟩ := callsUntil_isPrefix interval before moments number
    have hactive := Memo.activity_after_append_iff settings
      (callsUntil interval before moments number) since
    obtain ⟨hlt, hget⟩ := List.getElem?_eq_some_iff.mp hline
    have hshown : line = Reporter.lineOf (snapshot settings interval before moments number)
        (snapshot settings interval before moments (number + 1)) := by
      simp [← hget, hwatched.lines]
    refine ⟨since, hsince.symm, ?_⟩
    rw [hshown, Reporter.lineOf, snapshot, snapshot, ← hsince]
    split
    · next hsome =>
      rw [if_neg fun hidle => ?_]
      · rfl
      · rw [hactive.mp hidle] at hsome
        cases hsome
    · next hnone =>
      have hinactive : since.any Call.isActive = false := Bool.eq_false_iff.mpr hnone
      rw [if_pos (hactive.mpr hinactive)]
      refine ⟨rfl, ?_⟩
      rw [Memo.after, Memo.run_append, Memo.run_of_inactive _ hinactive, ← Memo.after]

-- The write in front of the start goes into the first report, and asking for the counters is not
-- activity.
theorem second_report_idle :
    let before : List Call := [.set (.named "a") (.named "a")]
    let moments : List Moment := [.wait 3, .serve .stats, .wait 1]
    let lines := ((Watch.start ⟨1, .generateName, 60⟩ 2 before).run moments).lines
    0 < 2 ∧ lines.length = 2 ∧ lines.map Line.level = [.info, .debug] := by
  intro before moments lines
  have hlength := (reports_tell_activity ⟨1, .generateName, 60⟩ 2 (by decide) before moments).2.1
  have helapsed : Moment.elapsed [.wait 3, .serve .stats, .wait 1] / 2 = 2 := by decide
  exact ⟨by decide, hlength.trans helapsed, by decide +kernel⟩

end Reports

end WriteMemo
