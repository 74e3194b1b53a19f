import Mathlib.Data.Set.Card
import WriteMemo.Proofs.Memo.Requests

namespace WriteMemo

open Memo

-- The next call for the answers so far, and none when the worker is done. The counters are of all
-- workers together, so no worker reads them.
structure Worker where
  next? : List Answer → Option Call
  no_counters : ∀ answers, next? answers ≠ some .stats

namespace Worker

-- The runs of a worker that has a memo to itself.
inductive Alone (settings : Settings) (worker : Worker) : List Call → Prop
  | start : Alone settings worker []
  | next {calls : List Call} {call : Call} (h : Alone settings worker calls)
      (hnext : worker.next? (answers settings calls) = some call) :
      Alone settings worker (calls ++ [call])

-- A run of a worker that is done after it.
structure Finishes (settings : Settings) (worker : Worker) (calls : List Call) : Prop where
  alone : worker.Alone settings calls
  done : worker.next? (answers settings calls) = none

def keys (settings : Settings) (worker : Worker) : Set Key :=
  {key | ∃ calls, worker.Alone settings calls ∧
    ∃ call ∈ calls, call.key? settings.keyStrategy = some key}

def writtenKeys (settings : Settings) (worker : Worker) : Set Key :=
  {key | ∃ calls, worker.Alone settings calls ∧
    key ∈ Memo.writtenKeys settings.keyStrategy calls}

end Worker

-- The schedules of workers that share a memo, as far as they have got. Whichever worker comes
-- next makes one call, chosen by the answers that it got itself.
inductive Interleaved (settings : Settings) (workers : Nat → Worker) (handles : Finset Nat) :
    List Request → Prop
  | start : Interleaved settings workers handles []
  | next {requests : List Request} {handle : Nat} {call : Call}
      (h : Interleaved settings workers handles requests) (hhandle : handle ∈ handles)
      (hnext : (workers handle).next? ((empty settings).answersTo handle requests) = some call) :
      Interleaved settings workers handles (requests ++ [⟨handle, call⟩])

-- The requests made when the workers come in a given order. One that is done makes none.
def scheduled (settings : Settings) (workers : Nat → Worker) (order : List Nat) : List Request :=
  order.foldl (fun requests handle =>
    match (workers handle).next? ((empty settings).answersTo handle requests) with
    | some call => requests ++ [⟨handle, call⟩]
    | none => requests) []

-- A schedule after which all workers are done.
structure Complete (settings : Settings) (workers : Nat → Worker) (handles : Finset Nat)
    (requests : List Request) : Prop where
  interleaved : Interleaved settings workers handles requests
  done : ∀ handle ∈ handles,
    (workers handle).next? ((empty settings).answersTo handle requests) = none

-- Each worker has made the calls that it makes alone and got the answers that it gets alone. The
-- entries are those of the workers' own memos together, and the counters are the sums of theirs.
structure Undisturbed (settings : Settings) (workers : Nat → Worker) (handles : Finset Nat)
    (requests : List Request) : Prop where
  alone : ∀ handle ∈ handles, (workers handle).Alone settings (callsOf handle requests)
  answers_eq : ∀ handle ∈ handles, (empty settings).answersTo handle requests =
    answers settings (callsOf handle requests)
  entry_eq : ∀ handle ∈ handles, ∀ key ∈ (workers handle).keys settings,
    Memo.entry? (after settings (requests.map Request.call)) key =
      Memo.entry? (after settings (callsOf handle requests)) key
  entry_eq_none : ∀ key, (∀ handle ∈ handles, key ∉ (workers handle).keys settings) →
    Memo.entry? (after settings (requests.map Request.call)) key = none
  stats_eq : (after settings (requests.map Request.call)).stats =
    ∑ handle ∈ handles, (after settings (callsOf handle requests)).stats

namespace Worker

variable {settings : Settings} {worker : Worker} {calls : List Call}

theorem alone_concat_iff {call : Call} :
    worker.Alone settings (calls ++ [call]) ↔
      worker.Alone settings calls ∧ worker.next? (answers settings calls) = some call := by
  constructor
  · intro h
    generalize hall : calls ++ [call] = all at h
    cases h with
    | start => simp at hall
    | next h hnext =>
        obtain ⟨rfl, hcall⟩ := List.append_inj' hall rfl
        cases hcall
        exact ⟨h, hnext⟩
  · rintro ⟨h, hnext⟩
    exact .next h hnext

theorem Alone.next?_eq {call : Call} {later : List Call}
    (h : worker.Alone settings (calls ++ call :: later)) :
    worker.next? (answers settings calls) = some call := by
  induction later using List.reverseRecOn with
  | nil => exact (alone_concat_iff.mp h).2
  | append_singleton later last ih =>
      rw [← List.cons_append, ← List.append_assoc] at h
      exact ih (alone_concat_iff.mp h).1

-- The answers leave a worker no choice, so it gets nowhere but along its whole run.
theorem Alone.prefix_of_finishes (h : worker.Alone settings calls) {whole : List Call}
    (hwhole : worker.Finishes settings whole) : calls <+: whole := by
  induction h with
  | start => exact List.nil_prefix
  | @next calls call h hnext ih =>
      obtain ⟨rest, rfl⟩ := ih
      cases rest with
      | nil =>
          rw [List.append_nil] at hwhole
          rw [hwhole.done] at hnext
          cases hnext
      | cons first rest =>
          rw [hwhole.alone.next?_eq] at hnext
          cases hnext
          exact ⟨rest, by simp⟩

theorem Finishes.unique {whole : List Call} (h : worker.Finishes settings calls)
    (hwhole : worker.Finishes settings whole) : calls = whole :=
  (h.alone.prefix_of_finishes hwhole).eq_of_length_le
    (hwhole.alone.prefix_of_finishes h).length_le

theorem Alone.isSome_key {call : Call} (h : worker.Alone settings calls) (hmem : call ∈ calls)
    (strategy : KeyStrategy) : (call.key? strategy).isSome := by
  induction h with
  | start => cases hmem
  | @next calls last h hnext ih =>
      rcases List.mem_append.mp hmem with hin | hlast
      · exact ih hin
      · rw [List.mem_singleton] at hlast
        subst hlast
        cases call with
        | stats => exact absurd hnext (worker.no_counters _)
        | set _ _ | verdict _ _ | unchanged _ _ | get _ | entry _ => rfl

theorem keys_subset {key : Key} (hkey : ∀ answers call, worker.next? answers = some call →
      call.key? settings.keyStrategy = some key) : worker.keys settings ⊆ {key} := by
  rintro other ⟨calls, halone, call, hmem, hother⟩
  induction halone with
  | start => cases hmem
  | next _ hnext ih =>
      rcases List.mem_append.mp hmem with hin | hlast
      · exact ih hin
      · rw [List.mem_singleton.mp hlast, hkey _ _ hnext] at hother
        exact (Option.some.inj hother).symm

theorem writtenKeys_subset (settings : Settings) (worker : Worker) :
    worker.writtenKeys settings ⊆ worker.keys settings := by
  rintro key ⟨calls, halone, hmem⟩
  obtain ⟨call, hcall, hwritten⟩ := mem_writtenKeys_iff.mp hmem
  exact ⟨calls, halone, call, hcall, key_of_mem_writtenKeys hwritten⟩

end Worker

variable {settings : Settings} {workers : Nat → Worker} {handles : Finset Nat}
  {requests : List Request}

theorem Interleaved.handle_mem (h : Interleaved settings workers handles requests) :
    ∀ request ∈ requests, request.handle ∈ handles := by
  induction h with
  | start => exact List.forall_mem_nil _
  | @next requests handle call h hhandle hnext ih =>
      intro request hin
      rcases List.mem_append.mp hin with hearlier | hlast
      · exact ih request hearlier
      · rw [List.mem_singleton.mp hlast]
        exact hhandle

theorem interleaved_scheduled {order : List Nat} (horder : ∀ handle ∈ order, handle ∈ handles) :
    Interleaved settings workers handles (scheduled settings workers order) := by
  induction order using List.reverseRecOn with
  | nil => exact .start
  | append_singleton order last ih =>
      have hearlier := ih fun handle hin => horder handle (List.mem_append_left _ hin)
      rw [scheduled, List.foldl_append]
      change Interleaved settings workers handles
        (match (workers last).next?
            ((empty settings).answersTo last (scheduled settings workers order)) with
          | some call => scheduled settings workers order ++ [⟨last, call⟩]
          | none => scheduled settings workers order)
      split
      · next hnext =>
        exact .next hearlier (horder last (List.mem_append_right _ List.mem_cons_self)) hnext
      · exact hearlier

section apart

variable
  (hkeys : ∀ handle ∈ handles, ∀ other ∈ handles, ∀ key ∈ (workers handle).keys settings,
    key ∈ (workers other).keys settings → handle = other)
  (hroom : settings.isBounded →
    (⋃ handle ∈ handles, (workers handle).writtenKeys settings).encard ≤ settings.capacity.toNat)
  (hhandles : ∀ request ∈ requests, request.handle ∈ handles)
  (halone : ∀ handle ∈ handles, (workers handle).Alone settings (callsOf handle requests))

include hhandles halone in
theorem key_mem_keys {request : Request} (hin : request ∈ requests) {key : Key}
    (hkey : request.call.key? settings.keyStrategy = some key) :
    key ∈ (workers request.handle).keys settings :=
  ⟨_, halone _ (hhandles request hin), request.call, mem_callsOf_iff.mpr hin, hkey⟩

include hkeys hhandles halone in
-- A key of a worker is used through no other handle.
theorem handle_eq_of_key {request : Request} (hin : request ∈ requests) {key : Key}
    (hkey : request.call.key? settings.keyStrategy = some key) {handle : Nat}
    (hhandle : handle ∈ handles) (hmem : key ∈ (workers handle).keys settings) :
    request.handle = handle :=
  hkeys _ (hhandles request hin) handle hhandle key (key_mem_keys hhandles halone hin hkey) hmem

include hkeys hhandles halone in
theorem apart_of_alone : Apart settings.keyStrategy requests where
  keyed request hin :=
    (halone _ (hhandles request hin)).isSome_key (mem_callsOf_iff.mpr hin) _
  handle_eq request hin other hother heq := by
    obtain ⟨key, hkey⟩ := Option.isSome_iff_exists.mp
      ((halone _ (hhandles other hother)).isSome_key (mem_callsOf_iff.mpr hother)
        settings.keyStrategy)
    exact handle_eq_of_key hkeys hhandles halone hin (heq.trans hkey) (hhandles other hother)
      (key_mem_keys hhandles halone hother hkey)

include hroom hhandles halone in
theorem roomy_of_alone : Roomy settings (requests.map Request.call) := by
  intro hbounded
  have hsub : ((Memo.writtenKeys settings.keyStrategy (requests.map Request.call)).toFinset :
      Set Key) ⊆ ⋃ handle ∈ handles, (workers handle).writtenKeys settings := by
    intro key hkey
    rw [Finset.mem_coe, List.mem_toFinset, mem_writtenKeys_iff] at hkey
    obtain ⟨call, hcall, hwritten⟩ := hkey
    obtain ⟨request, hin, rfl⟩ := List.mem_map.mp hcall
    have hhandle := hhandles request hin
    refine Set.mem_biUnion hhandle ⟨_, halone _ hhandle, ?_⟩
    exact mem_writtenKeys_iff.mpr ⟨request.call, mem_callsOf_iff.mpr hin, hwritten⟩
  have hle := (Set.encard_le_encard hsub).trans (hroom hbounded)
  rw [Set.encard_coe_eq_coe_finsetCard] at hle
  exact Nat.cast_le.mp hle

include hkeys hroom in
-- By induction on the schedule. Up to the next call every worker was answered as it is alone, so
-- that call is the one that it makes alone.
theorem Interleaved.alone (h : Interleaved settings workers handles requests) :
    ∀ handle ∈ handles, (workers handle).Alone settings (callsOf handle requests) := by
  induction h with
  | start => exact fun _ _ => .start
  | @next requests handle call h hhandle hnext ih =>
      have hanswers := (served_apart h.handle_mem (apart_of_alone hkeys h.handle_mem ih)
        (roomy_of_alone hroom h.handle_mem ih)).1
      rw [hanswers] at hnext
      intro other hother
      rw [callsOf_concat]
      split
      · next heq =>
        subst heq
        exact .next (ih _ hother) hnext
      · rw [List.append_nil]
        exact ih other hother

include hkeys hroom in
theorem Interleaved.undisturbed (h : Interleaved settings workers handles requests) :
    Undisturbed settings workers handles requests := by
  have hhandles := h.handle_mem
  have halone := h.alone hkeys hroom
  have hroomy := roomy_of_alone hroom hhandles halone
  obtain ⟨hanswers, hcounters⟩ :=
    served_apart hhandles (apart_of_alone hkeys hhandles halone) hroomy
  refine ⟨halone, fun handle _ => hanswers handle, fun handle hhandle key hmem => ?_,
    fun key hout => ?_, ?_⟩
  · exact entry_after_callsOf hroomy fun request hin hkey =>
      handle_eq_of_key hkeys hhandles halone hin hkey hhandle hmem
  · rw [← Option.not_isSome_iff_eq_none]
    intro hsome
    obtain ⟨call, hcall, hwritten⟩ := mem_writtenKeys_iff.mp (mem_writtenKeys_of_isSome hsome)
    obtain ⟨request, hin, rfl⟩ := List.mem_map.mp hcall
    exact hout _ (hhandles request hin)
      (key_mem_keys hhandles halone hin (key_of_mem_writtenKeys hwritten))
  · rw [(wellFormed_after _ _).stats_eq, hcounters]
    exact Finset.sum_congr rfl fun handle _ => ((wellFormed_after _ _).stats_eq).symm

end apart

theorem Complete.finishes (h : Complete settings workers handles requests)
    (hundisturbed : Undisturbed settings workers handles requests) :
    ∀ handle ∈ handles, (workers handle).Finishes settings (callsOf handle requests) := by
  intro handle hhandle
  refine ⟨hundisturbed.alone handle hhandle, ?_⟩
  rw [← hundisturbed.answers_eq handle hhandle]
  exact h.done handle hhandle

-- Workers that use no key in common share a memo with a place for every key that they write.
-- Whatever the schedule, each of them gets the answers that it gets from a memo of its own, and
-- the counters are the sums of theirs. Two schedules that leave all workers done lead to the same
-- entries and to the same counters.
theorem workers_undisturbed (settings : Settings) (workers : Nat → Worker) (handles : Finset Nat)
    (hkeys : ∀ handle ∈ handles, ∀ other ∈ handles, ∀ key ∈ (workers handle).keys settings,
      key ∈ (workers other).keys settings → handle = other)
    (hroom : settings.isBounded →
      (⋃ handle ∈ handles, (workers handle).writtenKeys settings).encard ≤
        settings.capacity.toNat) :
    (∀ requests, Interleaved settings workers handles requests →
      Undisturbed settings workers handles requests) ∧
    ∀ requests others, Complete settings workers handles requests →
      Complete settings workers handles others →
        (∀ handle ∈ handles, (workers handle).Finishes settings (callsOf handle requests) ∧
          callsOf handle requests = callsOf handle others) ∧
        (∀ key, Memo.entry? (after settings (requests.map Request.call)) key =
          Memo.entry? (after settings (others.map Request.call)) key) ∧
        (after settings (requests.map Request.call)).stats =
          (after settings (others.map Request.call)).stats := by
  refine ⟨fun requests h => h.undisturbed hkeys hroom, fun requests others h hothers => ?_⟩
  have hundisturbed := h.interleaved.undisturbed hkeys hroom
  have hundisturbed' := hothers.interleaved.undisturbed hkeys hroom
  have hcalls : ∀ handle ∈ handles, callsOf handle requests = callsOf handle others :=
    fun handle hhandle => (h.finishes hundisturbed handle hhandle).unique
      (hothers.finishes hundisturbed' handle hhandle)
  refine ⟨fun handle hhandle => ⟨h.finishes hundisturbed handle hhandle, hcalls handle hhandle⟩,
    fun key => ?_, ?_⟩
  · by_cases hused : ∃ handle ∈ handles, key ∈ (workers handle).keys settings
    · obtain ⟨handle, hhandle, hmem⟩ := hused
      rw [hundisturbed.entry_eq handle hhandle key hmem,
        hundisturbed'.entry_eq handle hhandle key hmem, hcalls handle hhandle]
    · have hout : ∀ handle ∈ handles, key ∉ (workers handle).keys settings :=
        fun handle hhandle hmem => hused ⟨handle, hhandle, hmem⟩
      rw [hundisturbed.entry_eq_none key hout, hundisturbed'.entry_eq_none key hout]
  · rw [hundisturbed.stats_eq, hundisturbed'.stats_eq]
    exact Finset.sum_congr rfl fun handle hhandle => by rw [hcalls handle hhandle]

namespace Worker

-- A worker that checks an object, writes it if nothing was found, and checks it again.
def keeper (name : String) : Worker where
  next?
    | [] => some (.unchanged (.named name) [.named name])
    | [.found none] => some (.set (.named name) (.named name))
    | [.found none, .done] => some (.verdict (.named name) [.named name])
    | _ => none
  no_counters answers := by split <;> simp

theorem keys_keeper_subset (settings : Settings) (name : String) :
    (keeper name).keys settings ⊆ {.derive settings.keyStrategy (.named name)} := by
  refine keys_subset fun answers call hnext => ?_
  simp only [keeper] at hnext
  split at hnext <;> cases hnext <;> rfl

end Worker

def keepers (handle : Nat) : Worker := .keeper (if handle = 0 then "a" else "b")

-- Two keepers share a memo with room for two. They take turns, or one comes after the other.
theorem keepers_undisturbed :
    Undisturbed ⟨2, .generateName, 60⟩ keepers {0, 1}
      (scheduled ⟨2, .generateName, 60⟩ keepers [0, 1, 1, 0, 0, 1]) ∧
    (after ⟨2, .generateName, 60⟩
        ((scheduled ⟨2, .generateName, 60⟩ keepers [0, 1, 1, 0, 0, 1]).map Request.call)).stats =
      (after ⟨2, .generateName, 60⟩
        ((scheduled ⟨2, .generateName, 60⟩ keepers [0, 0, 0, 1, 1, 1]).map
          Request.call)).stats := by
  have hkeys : ∀ handle ∈ ({0, 1} : Finset Nat), ∀ other ∈ ({0, 1} : Finset Nat),
      ∀ key ∈ (keepers handle).keys ⟨2, .generateName, 60⟩,
        key ∈ (keepers other).keys ⟨2, .generateName, 60⟩ → handle = other := by
    intro handle hhandle other hother key hkey hkey'
    have heq := Worker.keys_keeper_subset _ _ hkey
    have heq' := Worker.keys_keeper_subset _ _ hkey'
    rw [Set.mem_singleton_iff] at heq heq'
    rw [heq] at heq'
    rw [Finset.mem_insert, Finset.mem_singleton] at hhandle hother
    rcases hhandle with rfl | rfl <;> rcases hother with rfl | rfl
    · rfl
    · exact absurd heq' (by decide)
    · exact absurd heq' (by decide)
    · rfl
  have hroom : (⋃ handle ∈ ({0, 1} : Finset Nat),
      (keepers handle).writtenKeys ⟨2, .generateName, 60⟩).encard ≤ (2 : UInt64).toNat := by
    have hsub : (⋃ handle ∈ ({0, 1} : Finset Nat),
        (keepers handle).writtenKeys ⟨2, .generateName, 60⟩) ⊆
          {⟨"", "Foo", "a"⟩, ⟨"", "Foo", "b"⟩} := by
      refine Set.iUnion₂_subset fun handle hhandle key hkey => ?_
      have hmem := Worker.keys_keeper_subset _ _ (Worker.writtenKeys_subset _ _ hkey)
      rw [Set.mem_singleton_iff] at hmem
      rw [Finset.mem_insert, Finset.mem_singleton] at hhandle
      rcases hhandle with rfl | rfl
      · exact .inl (hmem.trans (by decide))
      · exact .inr (hmem.trans (by decide))
    have hcard := (Set.encard_le_encard hsub).trans (Set.encard_insert_le _ _)
    rw [Set.encard_singleton] at hcard
    exact hcard
  have hcomplete (order : List Nat)
      (horder : order = [0, 1, 1, 0, 0, 1] ∨ order = [0, 0, 0, 1, 1, 1]) :
      Complete ⟨2, .generateName, 60⟩ keepers {0, 1}
        (scheduled ⟨2, .generateName, 60⟩ keepers order) := by
    refine ⟨interleaved_scheduled ?_, fun handle hhandle => ?_⟩
    · rcases horder with rfl | rfl <;> decide
    · rw [Finset.mem_insert, Finset.mem_singleton] at hhandle
      rcases horder with rfl | rfl <;> rcases hhandle with rfl | rfl <;> rfl
  have hturns := hcomplete _ (.inl rfl)
  obtain ⟨hundisturbed, hsame⟩ := workers_undisturbed ⟨2, .generateName, 60⟩ keepers {0, 1} hkeys
    fun _ => hroom
  exact ⟨hundisturbed _ hturns.interleaved, (hsame _ _ hturns (hcomplete _ (.inr rfl))).2.2⟩

end WriteMemo
