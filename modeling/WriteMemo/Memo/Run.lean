import WriteMemo.Memo.Check

namespace WriteMemo

inductive Call where
  | set (submitted persisted : Document)
  | verdict (submitted : Document) (candidates : List Document)
  | unchanged (submitted : Document) (candidates : List Document)
  | get (key : Key)
  | entry (key : Key)
  | stats

inductive Answer where
  | done
  | verdict (verdict : Verdict)
  | found (candidate : Option (Nat × Document))
  | document (document : Document)
  | entry (entry : Option Entry)
  | counters (counters : Counters)

structure Response where
  memo : Memo
  answer : Answer
  events : List Event

namespace Memo

def step (memo : Memo) : Call → Response
  | .set submitted persisted =>
    let (memo, events) := memo.record submitted persisted
    ⟨memo, .done, events⟩
  | .verdict submitted candidates =>
    let (memo, finding) := memo.check submitted candidates
    ⟨memo, .verdict finding.verdict, finding.events⟩
  | .unchanged submitted candidates =>
    let (memo, finding) := memo.check submitted candidates
    ⟨memo, .found finding.verdict.found?, finding.events⟩
  | .get key => ⟨memo, .document (memo.persisted key), []⟩
  | .entry key => ⟨memo, .entry (memo.entry? key), []⟩
  | .stats => ⟨memo, .counters memo.stats, []⟩

-- The memo after all calls.
def run (memo : Memo) (calls : List Call) : Memo :=
  calls.foldl (fun memo call => (memo.step call).memo) memo

-- The answer to each call, and what happened during it.
def responses (memo : Memo) : List Call → List Response
  | [] => []
  | call :: rest => memo.step call :: (memo.step call).memo.responses rest

def trace (memo : Memo) (calls : List Call) : List Event :=
  (memo.responses calls).flatMap Response.events

end Memo

end WriteMemo
