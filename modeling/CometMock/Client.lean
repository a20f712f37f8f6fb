import CometMock.State

/-!
`AbciClient`, the engine's state, and the world it runs in: the requests sent to the application
backends so far. This module holds the per-backend calls, the broadcasts that send one request to
every backend (`SendCheckTx`, `SendFinalizeBlock`, `SendCommit`, `SendAbciInfo`, `SendInitChain`),
`callClientsWithTimeout`, which marks a failing backend unreachable, `SendAbciQuery`, and the
administrative controls (signing status, time offset).
-/

namespace CometMock

/-- `AbciCounterpartyClient`: one application backend and the validator it runs for. -/
structure Counterparty where
  networkAddress : Bytes
  validatorAddress : Bytes
  privValidator : PrivValidator
  isConnected : Bool
  deriving Repr, DecidableEq

/-- Modelled from the spec: the storage collaborator is not under `src/`. It holds the state
snapshot stored for each height, which `GetState` reads, and the state-update lock taken by
`LockBeforeStateUpdate`. -/
structure Storage where
  locked : Bool
  states : List (Int × State)
  deriving Repr, DecidableEq

/-- `AbciClient`. Go maps are association lists keyed by address strings. -/
structure AbciClient where
  clients : List Counterparty
  curState : State
  lastBlock : Block
  lastCommit : ExtendedCommit
  storage : Storage
  privValidators : List (Bytes × PrivValidator)
  errorOnUnequalResponses : Bool
  signingStatus : List (Bytes × Bool)
  timeOffset : Int
  deriving Repr, DecidableEq

/-- The engine and the requests it has sent so far, oldest first. -/
structure World where
  client : AbciClient
  sent : List Message
  deriving Repr, DecidableEq

/-- The collaborators outside the engine: what the backends answer, and whether the storage
collaborator fails to record a height (modelled from the spec: `Storage.UpdateStores` is not
under `src/`). -/
structure Env where
  backends : Backends
  updateStoresFails : Int → Bool

/-- A computation of the engine. A Go error or panic keeps the world as it was at that point. -/
abbrev ClientM := EStateM Failure World

/-- The world a computation ends in, whether it returned or failed. -/
def finalWorld {α : Type} : EStateM.Result Failure World α → World
  | .ok _ w => w
  | .error _ w => w

/-- Run a pure library computation inside the engine. -/
def liftGo {α : Type} : Except Failure α → ClientM α
  | .error f => throw f
  | .ok a => pure a

/-- A Go error value returned by a pure function. -/
def liftErr {α : Type} : Except String α → ClientM α
  | .error e => throw (.error e)
  | .ok a => pure a

/-- A request to one backend: the message is sent, then the backend's answer is read. -/
def send {α : Type} (dest : Bytes) (request : Request) (answer : List Message → Except String α) :
    ClientM α := fun w =>
  let w' := { w with sent := w.sent ++ [⟨dest, request⟩] }
  match answer w.sent with
  | .ok a => .ok a w'
  | .error e => .error (.error e) w'

/-- The engine's own state. -/
def getClient : ClientM AbciClient := do return (← get).client

/-- Update the engine's own state. -/
def modifyClient (f : AbciClient → AbciClient) : ClientM Unit :=
  modify fun w => { w with client := f w.client }

namespace AbciClient

/-- `AbciClient.GetCounterpartyFromAddress`: the first backend running for `address`. -/
def getCounterpartyFromAddress (a : AbciClient) (address : Bytes) : Except String Counterparty :=
  match a.clients.find? (·.validatorAddress = address) with
  | some c => .ok c
  | none => .error ("client with address " ++ bytesToString address ++ " not found")

/-- `AbciClient.GetValidatorFromAddress`. -/
def getValidatorFromAddress (a : AbciClient) (address : Bytes) : Except String Validator :=
  match a.curState.validators.validators.find? (hexString ·.address = address) with
  | some v => .ok v
  | none => .error ("validator with address " ++ bytesToString address ++ " not found")

/-- `AbciClient.GetSigningStatus`. The error text leaves out the address that Go prints in it. -/
def getSigningStatus (a : AbciClient) (address : Bytes) : Except String Bool :=
  match a.signingStatus.lookup address with
  | some status => .ok status
  | none => .error "address not found in signing status map, please double-check this is the key address of a validator key"

/-- `AbciClient.SetSigningStatus`. -/
def setSigningStatus (a : AbciClient) (address : Bytes) (status : Bool) :
    Except String AbciClient :=
  match a.signingStatus.lookup address with
  | none => .error ("address " ++ bytesToString address ++
      " not found in signing status map, please double-check this is the key address of a validator key")
  | some _ =>
    .ok { a with signingStatus := a.signingStatus.map fun (k, v) => (k, if k = address then status else v) }

/-- `AbciClient.GetSigningStatusMap`: a copy of the signing-status map. -/
def getSigningStatusMap (a : AbciClient) : List (Bytes × Bool) := a.signingStatus

/-- `NewAbciClient`: every key address of `privValidators` starts out signing, and the time
offset starts at 0. The event bus and the indexer service it also starts are not modelled. -/
def newAbciClient (clients : List Counterparty) (curState : State) (lastBlock : Block)
    (lastCommit : ExtendedCommit) (storage : Storage) (privValidators : List (Bytes × PrivValidator))
    (errorOnUnequalResponses : Bool) : AbciClient :=
  { clients, curState, lastBlock, lastCommit, storage, privValidators, errorOnUnequalResponses,
    signingStatus := privValidators.map fun (addr, _) => (addr, true), timeOffset := 0 }

/-- `AbciClient.GetTimeOffset`. -/
def getTimeOffset (a : AbciClient) : Int := a.timeOffset

/-- `int64` wrap-around of an exact sum. -/
def toInt64 (x : Int) : Int := (x + 2 ^ 63) % 2 ^ 64 - 2 ^ 63

/-- `AbciClient.IncrementTimeOffset`: a negative increment is rejected; the sum is an `int64`
addition. -/
def incrementTimeOffset (a : AbciClient) (additionalOffset : Int) : Except String AbciClient :=
  if additionalOffset < 0 then
    .error "time offset cannot be decremented, please provide a positive offset"
  else .ok { a with timeOffset := toInt64 (a.timeOffset + additionalOffset) }

end AbciClient

namespace Counterparty

/-- `Client.Info`. -/
def info (env : Env) (c : Counterparty) : ClientM ResponseInfo :=
  send c.networkAddress .info (env.backends.info · c.networkAddress)

/-- `Client.InitChain`. -/
def initChain (env : Env) (c : Counterparty) (r : RequestInitChain) : ClientM ResponseInitChain :=
  send c.networkAddress (.initChain r) (env.backends.initChain · c.networkAddress r)

/-- `Client.CheckTx`. -/
def checkTx (env : Env) (c : Counterparty) (tx : Bytes) : ClientM ResponseCheckTx :=
  send c.networkAddress (.checkTx tx) (env.backends.checkTx · c.networkAddress tx)

/-- `Client.PrepareProposal`; the response is its transaction list. -/
def prepareProposal (env : Env) (c : Counterparty) (r : RequestPrepareProposal) :
    ClientM (List Bytes) :=
  send c.networkAddress (.prepareProposal r) (env.backends.prepareProposal · c.networkAddress r)

/-- `Client.ProcessProposal`. -/
def processProposal (env : Env) (c : Counterparty) (r : RequestProcessProposal) :
    ClientM ResponseStatus :=
  send c.networkAddress (.processProposal r) (env.backends.processProposal · c.networkAddress r)

/-- `Client.ExtendVote`; the response is the vote extension. -/
def extendVote (env : Env) (c : Counterparty) (r : RequestExtendVote) : ClientM Bytes :=
  send c.networkAddress (.extendVote r) (env.backends.extendVote · c.networkAddress r)

/-- `Client.VerifyVoteExtension`. -/
def verifyVoteExtension (env : Env) (c : Counterparty) (r : RequestVerifyVoteExtension) :
    ClientM ResponseStatus :=
  send c.networkAddress (.verifyVoteExtension r)
    (env.backends.verifyVoteExtension · c.networkAddress r)

/-- `Client.FinalizeBlock`. -/
def finalizeBlock (env : Env) (c : Counterparty) (r : RequestFinalizeBlock) :
    ClientM ResponseFinalizeBlock :=
  send c.networkAddress (.finalizeBlock r) (env.backends.finalizeBlock · c.networkAddress r)

/-- `Client.Commit`. -/
def commit (env : Env) (c : Counterparty) : ClientM ResponseCommit :=
  send c.networkAddress .commit (env.backends.commit · c.networkAddress)

/-- `Client.Query`. -/
def query (env : Env) (c : Counterparty) (r : RequestQuery) : ClientM ResponseQuery :=
  send c.networkAddress (.query r) (env.backends.query · c.networkAddress r)

end Counterparty

/-- The response a broadcast returns: with `ErrorOnUnequalResponses`, every response has to equal
the first; then `responses[0]`, which panics when there is none. -/
def firstResponse {α : Type} [DecidableEq α] (errorOnUnequalResponses : Bool) :
    List α → Except Failure α
  | [] => .error (.panic "runtime error: index out of range [0] with length 0")
  | r :: rest =>
    if errorOnUnequalResponses && rest.any (· ≠ r) then .error (.error "responses are not all equal")
    else .ok r

/-- The loop the broadcasts share: call every backend of `a.Clients` in turn, whether it is
connected or not, and stop at the first error. -/
def broadcast {α : Type} [DecidableEq α] (call : Counterparty → ClientM α) : ClientM α := do
  let responses ← (← getClient).clients.mapM call
  liftGo (firstResponse (← getClient).errorOnUnequalResponses responses)

/-- Go errors of a call become `none`; panics still propagate. -/
def catchError {α : Type} (x : ClientM α) : ClientM (Option α) := fun w =>
  match x w with
  | .ok a w' => .ok (some a) w'
  | .error (.error _) w' => .ok none w'
  | .error f w' => .error f w'

namespace AbciClient

/-- `AbciClient.SendAbciInfo`. -/
def sendAbciInfo (env : Env) : ClientM ResponseInfo :=
  broadcast (·.info env)

/-- `AbciClient.SendCheckTx`. -/
def sendCheckTx (env : Env) (tx : Bytes) : ClientM ResponseCheckTx :=
  broadcast (·.checkTx env tx)

/-- `AbciClient.SendCommit`. -/
def sendCommit (env : Env) : ClientM ResponseCommit :=
  broadcast (·.commit env)

/-- `AbciClient.SendFinalizeBlock`. -/
def sendFinalizeBlock (env : Env) (block : Block) (lastCommitInfo : CommitInfo) :
    ClientM ResponseFinalizeBlock :=
  let request : RequestFinalizeBlock :=
    { txs := block.txs, decidedLastCommit := lastCommitInfo,
      misbehavior := evidenceToAbci block.evidence, hash := block.hash,
      height := block.header.height, time := block.header.time,
      nextValidatorsHash := block.header.nextValidatorsHash,
      proposerAddress := block.header.proposerAddress }
  broadcast (·.finalizeBlock env request)

/-- The parts of `types.GenesisDoc` that `CreateInitChainRequest` reads. -/
structure GenesisDoc where
  genesisTime : Int
  validators : List (PubKey × Int)
  appState : Bytes
  deriving Repr, DecidableEq

/-- `CreateInitChainRequest`; building the genesis validator set may panic. -/
def createInitChainRequest (genesisState : State) (genesisDoc : GenesisDoc) :
    Except Failure RequestInitChain := do
  let validatorSet ← newValidatorSet (genesisDoc.validators.map fun (pk, power) => newValidator pk power)
  pure { validators := tm2pbValidatorUpdates validatorSet,
         initialHeight := genesisState.initialHeight, time := genesisDoc.genesisTime,
         chainId := genesisState.chainId, consensusParams := genesisState.consensusParams.toProto,
         appStateBytes := genesisDoc.appState }

/-- `AbciClient.UpdateStateFromInit`, on the engine's current state. -/
def updateStateFromInit (res : ResponseInitChain) : ClientM Unit := fun w =>
  match CometMock.updateStateFromInit res w.client.curState with
  | .ok () s => .ok () { w with client := { w.client with curState := s } }
  | .error f s => .error f { w with client := { w.client with curState := s } }

/-- `AbciClient.SendInitChain`. -/
def sendInitChain (env : Env) (genesisState : State) (genesisDoc : GenesisDoc) : ClientM Unit := do
  let initChainRequest ← liftGo (createInitChainRequest genesisState genesisDoc)
  let response ← broadcast (·.initChain env initChainRequest)
  updateStateFromInit response

/-- `AbciClient.SendAbciQuery`: the query goes to the first connected backend only. -/
def sendAbciQuery (env : Env) (data : Bytes) (path : String) (height : Int) (prove : Bool) :
    ClientM ResponseQuery := do
  match (← get).client.clients.find? (·.isConnected) with
  | none => throw (.error "no connected clients")
  | some c => c.query env ⟨data, path, height, prove⟩

/-- `AbciClient.callClientsWithTimeout`: call every connected backend; one whose call fails (a
timeout included) is marked not connected and skipped. It never returns an error. -/
def callClientsWithTimeout {α : Type} (f : Counterparty → ClientM α) : ClientM (List α) := do
  go (← get).client.clients 0
where
  go : List Counterparty → Nat → ClientM (List α)
    | [], _ => pure []
    | c :: cs, i => do
      if !c.isConnected then go cs (i + 1)
      else match ← catchError (f c) with
        | none =>
          modifyClient fun a => { a with clients := a.clients.set i { c with isConnected := false } }
          go cs (i + 1)
        | some result => return result :: (← go cs (i + 1))

end AbciClient

end CometMock
