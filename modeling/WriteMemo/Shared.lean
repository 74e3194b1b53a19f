import WriteMemo.Memo.Run

namespace WriteMemo

structure Request where
  handle : Nat
  call : Call

namespace Memo

-- A request is served as a whole before the next one.
def serve (memo : Memo) (request : Request) : Response := memo.step request.call

-- The answers that one handle gets, in their order.
def answersTo (handle : Nat) (memo : Memo) : List Request → List Answer
  | [] => []
  | request :: rest =>
    let response := memo.serve request
    let later := answersTo handle response.memo rest
    if request.handle = handle then response.answer :: later else later

end Memo

end WriteMemo
