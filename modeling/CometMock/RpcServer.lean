import CometMock.Round

/-!
The routes of `rpc_server`: the transaction broadcasts, which each run one block holding the
transaction, `Validators`, which serves one page of the engine's `CurState.LastValidators`,
`Block`, which serves the last block's ID and height, and `ABCIQuery`, which forwards a query to
the first connected backend. Go's `int` arithmetic of `Validators` is exact here: the only product
of a client's value, `(page - 1) * perPage`, is formed after `validatePage` has bounded the page.
-/

namespace CometMock

/-- `BroadcastTx`, which `BroadcastTxCommit`, `BroadcastTxSync` and `BroadcastTxAsync` call: run a
block with the transaction, and return the round's error as it is. -/
def broadcastTx (env : Env) (now : Int) (tx : Bytes) : ClientM Unit := do
  let _ ← AbciClient.runBlock env now (some tx)

namespace RpcServer

/-- `defaultPerPage`. -/
def defaultPerPage : Int := 30

/-- `maxPerPage`. -/
def maxPerPage : Int := 100

/-- `validatePerPage`: a missing or non-positive `per_page` is the default, and one above
`maxPerPage` is capped. -/
def validatePerPage : Option Int → Int
  | none => defaultPerPage
  | some perPage =>
    if perPage < 1 then defaultPerPage
    else if perPage > maxPerPage then maxPerPage
    else perPage

/-- The page count of `validatePage`: Go's `/` truncates toward zero, and a count of 0 becomes
one empty page. -/
def pageCount (perPage totalCount : Int) : Int :=
  let pages := (totalCount - 1).tdiv perPage + 1
  if pages = 0 then 1 else pages

/-- `validatePage`: it panics on a `perPage` below 1; a missing page is the first one, and a page
outside `[1, pages]` is an error. -/
def validatePage (pagePtr : Option Int) (perPage totalCount : Int) : Except Failure Int :=
  if perPage < 1 then .error (.panic s!"zero or negative perPage: {perPage}")
  else match pagePtr with
    | none => .ok 1
    | some page =>
      let pages := pageCount perPage totalCount
      if page ≤ 0 ∨ page > pages then
        .error (.error s!"page should be within [1, {pages}] range, given {page}")
      else .ok page

/-- `validateSkipCount`. -/
def validateSkipCount (page perPage : Int) : Int :=
  let skipCount := (page - 1) * perPage
  if skipCount < 0 then 0 else skipCount

/-- Go's slice expression `s[low:high]`, on a slice whose capacity is its length: it panics unless
`0 ≤ low ≤ high ≤ len(s)`. -/
def sliceRange {α : Type} (s : List α) (low high : Int) : Except Failure (List α) :=
  if 0 ≤ low ∧ low ≤ high ∧ high ≤ s.length then .ok ((s.drop low.toNat).take (high - low).toNat)
  else .error (.panic "runtime error: slice bounds out of range")

/-- `ctypes.ResultValidators`. -/
structure ResultValidators where
  blockHeight : Int
  validators : List Validator
  count : Int
  total : Int
  deriving Repr, DecidableEq

/-- `Validators`: one page of `CurState.LastValidators`. Only the latest height is served. -/
def validators (a : AbciClient) (heightPtr : Option Int) (pagePtr perPagePtr : Option Int) :
    Except Failure ResultValidators := do
  if heightPtr.isSome then
    throw (.error "height parameter is not supported, use version of the function without height")
  let height := a.curState.lastBlockHeight
  let validators := a.curState.lastValidators
  let totalCount : Int := validators.validators.length
  let perPage := validatePerPage perPagePtr
  let page ← validatePage pagePtr perPage totalCount
  let skipCount := validateSkipCount page perPage
  let v ← sliceRange validators.validators skipCount
    (skipCount + min perPage (totalCount - skipCount))
  return ⟨height, v, v.length, totalCount⟩

/-- `ctypes.ResultABCIQuery`. -/
structure ResultABCIQuery where
  response : ResponseQuery
  deriving Repr, DecidableEq

/-- `ABCIQuery`: the query goes to the first connected backend. The route builds its result from
`*response` before it looks at the error, so a query that fails dereferences a nil response. -/
def abciQuery (env : Env) (path : String) (data : Bytes) (height : Int) (prove : Bool) :
    ClientM ResultABCIQuery := do
  match ← catchError (AbciClient.sendAbciQuery env data path height prove) with
  | some response => return ⟨response⟩
  | none => throw (.panic "runtime error: invalid memory address or nil pointer dereference")

/-- `ctypes.ResultBlock`. -/
structure ResultBlock where
  blockId : BlockID
  block : Block
  deriving Repr, DecidableEq

/-- `Block`: only the latest height is served, as `CurState.LastBlockID` and Go's zero block with
only its header's height set to `CurState.LastBlockHeight`. -/
def block (a : AbciClient) (heightPtr : Option Int) : Except Failure ResultBlock :=
  if heightPtr.isSome then
    .error (.error "height parameter is not supported, use version of the function without height")
  else
    .ok ⟨a.curState.lastBlockId,
      { header :=
          { appVersion := 0, chainId := "", height := a.curState.lastBlockHeight, time := 0,
            lastBlockId := .zero, dataHash := .none, validatorsHash := .none,
            nextValidatorsHash := .none, consensusHash := .none, appHash := [],
            lastResultsHash := .none, proposerAddress := [] }
        txs := [], evidence := [], lastCommit := ⟨0, 0, .zero, []⟩ }⟩

/-- A request to one of the routes of `Routes`, with its parameters. -/
inductive Route where
  | validators (heightPtr pagePtr perPagePtr : Option Int)
  | block (heightPtr : Option Int)
  | broadcastTxCommit (tx : Bytes)
  | broadcastTxSync (tx : Bytes)
  | broadcastTxAsync (tx : Bytes)
  | abciQuery (path : String) (data : Bytes) (height : Int) (prove : Bool)

/-- What a route returns. The broadcasts return empty results. -/
inductive RouteResult where
  | validators (r : ResultValidators)
  | block (r : ResultBlock)
  | broadcastTxCommit
  | broadcastTx
  | abciQuery (r : ResultABCIQuery)

/-- One request served against the global engine; `now` is the wall clock a broadcast's round
reads. -/
def serve (env : Env) (now : Int) : Route → ClientM RouteResult
  | .validators heightPtr pagePtr perPagePtr => do
    return .validators (← liftGo (validators (← getClient) heightPtr pagePtr perPagePtr))
  | .block heightPtr => do return .block (← liftGo (block (← getClient) heightPtr))
  | .broadcastTxCommit tx => do broadcastTx env now tx; return .broadcastTxCommit
  | .broadcastTxSync tx => do broadcastTx env now tx; return .broadcastTx
  | .broadcastTxAsync tx => do broadcastTx env now tx; return .broadcastTx
  | .abciQuery path data height prove => .abciQuery <$> abciQuery env path data height prove

end RpcServer

end CometMock
