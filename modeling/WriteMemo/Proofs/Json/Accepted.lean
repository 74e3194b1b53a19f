import WriteMemo.Proofs.Json.Reader

namespace WriteMemo.Json

namespace Reader

-- The items of an open array, the latest one first, with a comma behind each.
def takenItems : List Json → List Token
  | [] => []
  | item :: earlier => takenItems earlier ++ item.spelled ++ [.comma]

def takenMembers : List (String × Json) → List Token
  | [] => []
  | (name, value) :: earlier =>
    takenMembers earlier ++ .text name :: .colon :: value.spelled ++ [.comma]

-- What stands in front of the value that is awaited.
def takenBefore : List Frame → List Token
  | [] => []
  | .array items :: frames => takenBefore frames ++ .openArray :: takenItems items
  | .object members name :: frames =>
    takenBefore frames ++ .openObject :: takenMembers members ++ [.text name, .colon]

-- The tokens that lead to a state. Behind an item or a member there is at least this one.
inductive Taken : State → List Token → Prop
  | value (frames : List Frame) : Taken (.value frames) (takenBefore frames)
  | openedArray (frames : List Frame) :
      Taken (.openedArray frames) (takenBefore frames ++ [.openArray])
  | openedObject (frames : List Frame) :
      Taken (.openedObject frames) (takenBefore frames ++ [.openObject])
  | nextName (members : List (String × Json)) (frames : List Frame) :
      Taken (.nextName members frames)
        (takenBefore frames ++ .openObject :: takenMembers members)
  | named (members : List (String × Json)) (name : String) (frames : List Frame) :
      Taken (.named members name frames)
        (takenBefore frames ++ .openObject :: takenMembers members ++ [.text name])
  | afterItem (item : Json) (earlier : List Json) (frames : List Frame) :
      Taken (.afterItem (item :: earlier) frames)
        (takenBefore frames ++ .openArray :: takenItems earlier ++ item.spelled)
  | afterMember (name : String) (value : Json) (earlier : List (String × Json))
      (frames : List Frame) :
      Taken (.afterMember ((name, value) :: earlier) frames)
        (takenBefore frames ++ .openObject :: takenMembers earlier ++
          .text name :: .colon :: value.spelled)
  | complete (whole : Json) : Taken (.complete whole) whole.spelled

variable {state next : State} {token : Token} {tokens taken : List Token} {frames : List Frame}

theorem taken_deliver (value : Json) (frames : List Frame) :
    Taken (deliver value frames) (takenBefore frames ++ value.spelled) := by
  cases frames with
  | nil => exact .complete value
  | cons frame frames =>
      cases frame with
      | array items =>
          rw [takenBefore]
          exact .afterItem value items frames
      | object members name =>
          have h := Taken.afterMember name value members frames
          rw [takenBefore, List.append_assoc _ [Token.text name, .colon]]
          exact h

-- By induction on the items that were taken, with those that are still to come behind them.
theorem spelled_array_of_taken (earlier : List Json) (item : Json) (later : List Json) :
    (Json.array (earlier.reverse ++ item :: later)).spelled =
      .openArray :: takenItems earlier ++ item.spelled ++ spelledItems later := by
  induction earlier generalizing item later with
  | nil => rfl
  | cons previous earlier ih =>
      rw [List.reverse_cons, List.append_assoc, List.singleton_append, ih, spelledItems, takenItems]
      simp

theorem spelled_object_of_taken (earlier : List (String × Json)) (name : String) (value : Json)
    (later : List (String × Json)) :
    (Json.object (earlier.reverse ++ (name, value) :: later)).spelled =
      .openObject :: takenMembers earlier ++ .text name :: .colon :: value.spelled ++
        spelledMembers later := by
  induction earlier generalizing name value later with
  | nil => rfl
  | cons previous earlier ih =>
      obtain ⟨other, kept⟩ := previous
      rw [List.reverse_cons, List.append_assoc, List.singleton_append, ih, spelledMembers,
        takenMembers]
      simp

theorem Taken.takeValue (hstep : takeValue frames token = .ok next) :
    Taken next (takenBefore frames ++ [token]) := by
  unfold Reader.takeValue deeper at hstep
  split at hstep
  · split at hstep <;> cases hstep
    exact .openedArray frames
  · split at hstep <;> cases hstep
    exact .openedObject frames
  all_goals cases hstep
  all_goals exact taken_deliver _ frames

theorem Taken.takeName {members : List (String × Json)}
    (hstep : takeName members frames token = .ok next) :
    Taken next (takenBefore frames ++ .openObject :: takenMembers members ++ [token]) := by
  unfold Reader.takeName at hstep
  split at hstep <;> cases hstep
  exact .named members _ frames

theorem Taken.nextItem (item : Json) (earlier : List Json) (frames : List Frame) :
    Taken (.value (.array (item :: earlier) :: frames))
      (takenBefore frames ++ .openArray :: takenItems earlier ++ item.spelled ++ [.comma]) := by
  have h := Taken.value (.array (item :: earlier) :: frames)
  simpa [takenBefore, takenItems] using h

theorem Taken.nextMember (name : String) (value : Json) (earlier : List (String × Json))
    (frames : List Frame) :
    Taken (.nextName ((name, value) :: earlier) frames)
      (takenBefore frames ++ .openObject :: takenMembers earlier ++
        .text name :: .colon :: value.spelled ++ [.comma]) := by
  have h := Taken.nextName ((name, value) :: earlier) frames
  simpa [takenMembers] using h

theorem Taken.closeArray (item : Json) (earlier : List Json) (frames : List Frame) :
    Taken (deliver (.array (item :: earlier).reverse) frames)
      (takenBefore frames ++ .openArray :: takenItems earlier ++
        item.spelled ++ [.closeArray]) := by
  have h := taken_deliver (.array (item :: earlier).reverse) frames
  rw [List.reverse_cons] at h ⊢
  rw [spelled_array_of_taken] at h
  simpa [spelledItems] using h

theorem Taken.closeObject (name : String) (value : Json) (earlier : List (String × Json))
    (frames : List Frame) :
    Taken (deliver (.object ((name, value) :: earlier).reverse) frames)
      (takenBefore frames ++ .openObject :: takenMembers earlier ++
        .text name :: .colon :: value.spelled ++ [.closeObject]) := by
  have h := taken_deliver (.object ((name, value) :: earlier).reverse) frames
  rw [List.reverse_cons] at h ⊢
  rw [spelled_object_of_taken] at h
  simpa [spelledMembers] using h

theorem Taken.step (h : Taken state taken) (hstep : step state token = .ok next) :
    Taken next (taken ++ [token]) := by
  unfold Reader.step at hstep
  split at hstep
  · cases h
    exact .takeValue hstep
  · cases h
    cases hstep
    rw [List.append_assoc]
    exact taken_deliver (.array []) _
  · cases h
    exact Taken.takeValue hstep
  · cases h
    cases hstep
    rw [List.append_assoc]
    exact taken_deliver (.object []) _
  · cases h
    exact .takeName hstep
  · cases h
    exact .takeName hstep
  · cases h
    cases hstep
    rw [List.append_assoc]
    exact .value _
  · cases h with
    | afterItem item earlier =>
        cases hstep
        exact .nextItem item earlier _
  · cases h with
    | afterItem item earlier =>
        cases hstep
        exact .closeArray item earlier _
  · cases h with
    | afterMember name value earlier =>
        cases hstep
        exact .nextMember name value earlier _
  · cases h with
    | afterMember name value earlier =>
        cases hstep
        exact .closeObject name value earlier _
  · cases hstep

theorem Taken.foldlM (h : Taken state taken) (hrun : tokens.foldlM Reader.step state = .ok next) :
    Taken next (taken ++ tokens) := by
  induction tokens generalizing state taken with
  | nil =>
      cases hrun
      rwa [List.append_nil]
  | cons token tokens ih =>
      cases hstep : Reader.step state token with
      | error fault =>
          rw [foldlM_cons_of_error hstep] at hrun
          cases hrun
      | ok first =>
          rw [foldlM_cons_of_ok hstep] at hrun
          rw [← List.singleton_append, ← List.append_assoc]
          exact ih (h.step hstep) hrun

theorem eq_spelled_of_run {value : Json} (h : run (.value []) tokens = .ok value) :
    tokens = value.spelled := by
  unfold run at h
  cases hrun : tokens.foldlM Reader.step (.value []) with
  | error fault =>
      rw [hrun] at h
      cases h
  | ok last =>
      rw [hrun] at h
      have htaken := (Taken.value []).foldlM hrun
      cases last with
      | complete whole =>
          cases h
          cases htaken
          rfl
      | _ => cases h

theorem run_eq_ok_iff {value : Json} :
    run (.value []) tokens = .ok value ↔ tokens = value.spelled ∧ value.depth ≤ depthLimit := by
  constructor
  · intro h
    obtain rfl := eq_spelled_of_run h
    rw [run_spelled] at h
    split at h
    · next hdepth => exact ⟨rfl, hdepth⟩
    · cases h
  · rintro ⟨rfl, hdepth⟩
    rw [run_spelled, if_pos hdepth]

end Reader

theorem read_eq_ok_iff {text : String} {value : Json} :
    read text = .ok value ↔
      tokens text.toList = value.spelled ∧ value.depth ≤ Reader.depthLimit :=
  Reader.run_eq_ok_iff

end WriteMemo.Json
