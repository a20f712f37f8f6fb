import CometMock.Abci

/-!
The chain state CometMock keeps (`state.State`) and the source's state transition: `UpdateState`,
which computes the state after a block from the `FinalizeBlock` response, its validation of the
returned validator updates, and `UpdateStateFromInit`, which applies the `InitChain` response.
-/

namespace CometMock

/-- `state.State`, with `Version.Consensus.App` as `appVersion`. -/
structure State where
  appVersion : Nat
  chainId : String
  initialHeight : Int
  lastBlockHeight : Int
  lastBlockId : BlockID
  lastBlockTime : Int
  nextValidators : ValidatorSet
  validators : ValidatorSet
  lastValidators : ValidatorSet
  lastHeightValidatorsChanged : Int
  consensusParams : ConsensusParams
  lastHeightConsensusParamsChanged : Int
  lastResultsHash : Digest
  appHash : Bytes
  deriving Repr, DecidableEq

/-- `State.MakeBlock`: a block on top of the state. Its time is the genesis time at the initial
height and the weighted median time of the last commit after it. -/
def State.makeBlock (s : State) (height : Int) (txs : List Bytes) (lastCommit : Commit)
    (evidence : List Evidence) (proposerAddress : Bytes) : Block :=
  let b := CometMock.makeBlock height txs lastCommit evidence
  let timestamp :=
    if height = s.initialHeight then s.lastBlockTime else lastCommit.medianTime s.lastValidators
  { b with header := { b.header with
      appVersion := s.appVersion, chainId := s.chainId, time := timestamp,
      lastBlockId := s.lastBlockId, validatorsHash := s.validators.hash,
      nextValidatorsHash := s.nextValidators.hash, consensusHash := s.consensusParams.hash,
      appHash := s.appHash, lastResultsHash := s.lastResultsHash, proposerAddress } }

/-- `validateValidatorUpdates`: reject a negative power, and a key that does not decode or whose
type the params do not allow, except on a removal (power 0), whose key is not checked. -/
def validateValidatorUpdates (abciUpdates : List ValidatorUpdate) (params : ValidatorParams) :
    Except String Unit :=
  match abciUpdates with
  | [] => .ok ()
  | valUpdate :: rest =>
    if valUpdate.power < 0 then .error "voting power can't be negative"
    else if valUpdate.power = 0 then validateValidatorUpdates rest params
    else match pubKeyFromProto valUpdate.pubKey with
      | .error e => .error e
      | .ok pk =>
        if !isValidPubkeyType params pk.type then
          .error "validator is using a pubkey type which is unsupported for consensus"
        else validateValidatorUpdates rest params

/-- The validator set for the height after next: the updates applied to `nextValidators` when
there are any. -/
def applyValidatorUpdates (nextValidators : ValidatorSet) (validatorUpdates : List Validator) :
    Except Failure ValidatorSet :=
  if validatorUpdates.length > 0 then
    match nextValidators.UpdateWithChangeSet validatorUpdates with
    | .error (.error e) => .error (.error s!"error changing validator set: {e}")
    | r => r
  else .ok nextValidators

/-- The consensus-parameter check of `UpdateState`: when the response carries an update, the
updated parameters have to pass `ValidateBasic`. -/
def checkParamUpdates (updates : Option ParamsUpdate) (nextParams : ConsensusParams) :
    Except Failure Unit :=
  if updates.isSome then
    match nextParams.validateBasic with
    | .error e => .error (.error s!"error updating consensus params: {e}")
    | .ok () => .ok ()
  else .ok ()

/-- The state `UpdateState` returns once its checks have passed: the validator sets move one step
along, and the parameter update takes effect at the next height. -/
def nextState (curState : State) (blockId : BlockID) (blockHeader : Header)
    (finalizeBlockRes : ResponseFinalizeBlock) (validatorUpdates : List Validator)
    (nValSet : ValidatorSet) (lastResultsHash : Digest) : State :=
  let updated := finalizeBlockRes.consensusParamUpdates.isSome
  let nextParams := curState.consensusParams.update finalizeBlockRes.consensusParamUpdates
  { appVersion := if updated then nextParams.version.app else curState.appVersion
    chainId := curState.chainId
    initialHeight := curState.initialHeight
    lastBlockHeight := blockHeader.height
    lastBlockId := blockId
    lastBlockTime := blockHeader.time
    nextValidators := nValSet
    validators := curState.nextValidators
    lastValidators := curState.validators
    lastHeightValidatorsChanged :=
      if validatorUpdates.length > 0 then blockHeader.height + 1 + 1
      else curState.lastHeightValidatorsChanged
    consensusParams := nextParams
    lastHeightConsensusParamsChanged :=
      if updated then blockHeader.height + 1 else curState.lastHeightConsensusParamsChanged
    lastResultsHash
    appHash := [] }

/-- `UpdateState`: the state after the block with `blockHeader`. The validator updates reach the
set two heights later, the parameter updates one height later, and the app hash is left unset
until `Commit` returns. -/
def updateState (curState : State) (blockId : BlockID) (blockHeader : Header)
    (finalizeBlockRes : ResponseFinalizeBlock) (validatorUpdates : List Validator) :
    Except Failure State := do
  let nValSet ← applyValidatorUpdates curState.nextValidators validatorUpdates
  let nValSet ← nValSet.incrementProposerPriority 1
  checkParamUpdates finalizeBlockRes.consensusParamUpdates
    (curState.consensusParams.update finalizeBlockRes.consensusParamUpdates)
  let lastResultsHash ← txResultsHash finalizeBlockRes.txResults
  return nextState curState blockId blockHeader finalizeBlockRes validatorUpdates nValSet
    lastResultsHash

/-- The validator sets `UpdateStateFromInit` installs when the `InitChain` response names
validators: three `NewValidatorSet`s of them, the last one incremented once. A key that does not
decode is an error; a list `NewValidatorSet` rejects panics. -/
def initValidatorSets (validatorUpdates : List ValidatorUpdate) :
    Except Failure (ValidatorSet × ValidatorSet × ValidatorSet) := do
  let validators ← match pb2tmValidatorUpdates validatorUpdates with
    | .error e => throw (.error e)
    | .ok vs => pure vs
  let lastValidators ← newValidatorSet validators
  let vals ← newValidatorSet validators
  let next ← (newValidatorSet validators).bind (·.copyIncrementProposerPriority 1)
  pure (lastValidators, vals, next)

/-- `AbciClient.UpdateStateFromInit`, as a computation on the chain state. A key that does not
decode returns the error after the app hash has already been written. -/
def updateStateFromInit (res : ResponseInitChain) : EStateM Failure State Unit := do
  if res.appHash.length > 0 then modify fun s => { s with appHash := res.appHash }
  if res.validators.length > 0 then
    let (lastValidators, validators, nextValidators) ← liftExcept (initValidatorSets res.validators)
    modify fun s => { s with lastValidators, validators, nextValidators }
  if let some p := res.consensusParams then
    modify fun s =>
      let params := s.consensusParams.update (some p)
      { s with consensusParams := params, appVersion := params.version.app }
  modify fun s => { s with lastResultsHash := .results [] }
where
  liftExcept {α : Type} : Except Failure α → EStateM Failure State α
    | .error f => throw f
    | .ok a => pure a

end CometMock

namespace CometMock

/-- What `UpdateState` is given for one block: the block's ID and header, the `FinalizeBlock`
response, and the validator updates converted from it. -/
structure BlockResult where
  blockId : BlockID
  header : Header
  response : ResponseFinalizeBlock
  validatorUpdates : List Validator

/-- `UpdateState` on one block's result. -/
def BlockResult.apply (r : BlockResult) (s : State) : Except Failure State :=
  updateState s r.blockId r.header r.response r.validatorUpdates

/-- A run of successful `UpdateState` steps from `s` over the results `rs` of consecutive heights;
`ss` lists the state after each step. -/
inductive UpdateTrace : State → List BlockResult → List State → Prop
  | nil (s : State) : UpdateTrace s [] []
  | cons {s s' : State} {r : BlockResult} {rs : List BlockResult} {ss : List State} :
      r.header.height = s.lastBlockHeight + 1 → r.apply s = .ok s' → UpdateTrace s' rs ss →
      UpdateTrace s (r :: rs) (s' :: ss)

end CometMock
