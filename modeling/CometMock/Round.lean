import CometMock.Client

/-!
One block-production round, `AbciClient.RunBlockWithTimeAndProposer`, and the functions it calls:
evidence construction, `CreateProposalBlock`, `ProcessProposal`, `ExtendAndSignVote`, the vote set
and commit checks, `SendFinalizeBlock`, the storage update, `UpdateStateFromBlock` and `SendCommit`.
Each loop of the Go function is a helper of its own, named after what the loop does.
-/

namespace CometMock

/-- `MisbehaviourType`. -/
inductive MisbehaviourType where
  | duplicateVote
  | lunatic
  | amnesia
  | equivocation
  deriving Repr, DecidableEq

/-- `maxDataBytes`: the round sends and checks transaction lists against `-1`. -/
def maxDataBytes : Int := -1

/-- `Txs.Validate`: the running sum of the transactions' lengths may never exceed
`maxSizeBytes`. -/
def validateTxs (txs : List Bytes) (maxSizeBytes : Int) : Except String Unit :=
  go txs 0
where
  go : List Bytes → Int → Except String Unit
    | [], _ => .ok ()
    | tx :: rest, size =>
      if maxSizeBytes < size + tx.length then .error "transaction data size exceeds maximum"
      else go rest (size + tx.length)

/-- `types.Proposal`, which `decideProposal` signs and the round then drops. -/
structure Proposal where
  height : Int
  round : Int
  polRound : Int
  blockId : BlockID
  timestamp : Int
  signature : Option Sig
  deriving Repr, DecidableEq

/-- Modelled from the spec: `utils.GetBlockIdFromBlock` is not under `src/`; it returns the ID
votes for the block carry, its hash and part-set header. -/
def getBlockIdFromBlock (b : Block) : BlockID := b.blockId

/-- Modelled from the spec: `Storage.GetState` returns the state snapshot stored for a height. -/
def Storage.getState (st : Storage) (height : Int) : Except String State :=
  match st.states.lookup height with
  | some s => .ok s
  | none => .error "state not found for height"

namespace AbciClient

/-- `AbciClient.ConstructDuplicateVoteEvidence`: two precommits for the last block that differ
only in their round, signed by `v`'s priv validator. A missing priv validator is a nil interface,
and calling `SignVote` on it panics. -/
def constructDuplicateVoteEvidence (v : Validator) (now : Int) : ClientM Evidence := do
  let a ← getClient
  let privVal := a.privValidators.lookup (hexString v.address)
  let lastBlock := a.lastBlock
  let blockId := getBlockIdFromBlock lastBlock
  let lastState ← liftErr (a.storage.getState lastBlock.header.height)
  let (index, valInLastState) := lastState.validators.getByAddress v.address
  let voteA : Vote :=
    { validatorAddress := v.address, validatorIndex := index, height := lastBlock.header.height,
      round := 1, timestamp := now + a.timeOffset, type := .precommit, blockId,
      signature := none, extension := [], extensionSignature := none }
  let voteB := { voteA with round := 2 }
  let some pv := privVal
    | throw (.panic "runtime error: invalid memory address or nil pointer dereference")
  let voteA := (pv.signVote a.curState.chainId voteA).toOption.getD voteA
  let voteB := (pv.signVote a.curState.chainId voteB).toOption.getD voteB
  liftErr voteA.validateBasic
  liftErr voteB.validateBasic
  let some val := valInLastState
    | throw (.panic "runtime error: invalid memory address or nil pointer dereference")
  return .duplicateVote voteA voteB lastState.validators.totalVotingPower val.votingPower
    lastBlock.header.time

/-- `AbciClient.ConstructLightClientAttackEvidence`: a copy of the last block, altered by the
attack kind (`Amnesia` leaves it as it is), as a light block signed by the last commit. -/
def constructLightClientAttackEvidence (v : Validator) (misbehaviourType : MisbehaviourType) :
    ClientM Evidence := do
  let a ← getClient
  let lastBlock := a.lastBlock
  let lastState ← liftErr (a.storage.getState lastBlock.header.height)
  let conflictingBlock ← match misbehaviourType with
    | .lunatic =>
      pure { lastBlock with header := { lastBlock.header with
        appHash := "some other app hash".toUTF8.toList } }
    | .amnesia => pure lastBlock
    | .equivocation =>
      pure { lastBlock with header := { lastBlock.header with
        time := lastBlock.header.time + 1000000000 } }
    | .duplicateVote => throw (.error "unknown misbehaviour type for light client misbehaviour")
  let conflictingLightBlock : LightBlock :=
    ⟨⟨conflictingBlock.header, a.lastCommit.toCommit⟩, a.curState.validators⟩
  return .lightClientAttack conflictingLightBlock (lastBlock.header.height - 1) [v]
    lastState.validators.totalVotingPower lastBlock.header.time

/-- The evidence loop of the round, over the misbehaving validators in map iteration order. -/
def constructEvidences (now : Int) (misbehavingValidators : List (Validator × MisbehaviourType)) :
    ClientM (List Evidence) :=
  misbehavingValidators.mapM fun (v, m) =>
    if m = .duplicateVote then constructDuplicateVoteEvidence v now
    else constructLightClientAttackEvidence v m

/-- `AbciClient.CreateProposalBlock`: build the block, let the proposer's backend prepare it,
check the returned transactions, and rebuild the block around them. A failed `PrepareProposal`
call panics. -/
def createProposalBlock (env : Env) (proposerApp : Counterparty) (height : Int) (curState : State)
    (lastExtCommit : ExtendedCommit) (txs : List Bytes) (misbehaviour : List Evidence) :
    ClientM Block := do
  let commit := lastExtCommit.toCommit
  let proposerAddr := proposerApp.validatorAddress
  let block := curState.makeBlock height txs commit misbehaviour proposerAddr
  let localLastCommit ← liftGo (buildExtendedCommitInfo lastExtCommit curState.lastValidators
    curState.initialHeight curState.consensusParams.abci)
  let request : RequestPrepareProposal :=
    { maxTxBytes := maxDataBytes, txs := block.txs, localLastCommit,
      misbehavior := evidenceToAbci block.evidence, height := block.header.height,
      time := block.header.time, nextValidatorsHash := block.header.nextValidatorsHash,
      proposerAddress := block.header.proposerAddress }
  let some modifiedTxs ← catchError (proposerApp.prepareProposal env request)
    | throw (.panic "PrepareProposal failed")
  liftErr (validateTxs modifiedTxs maxDataBytes)
  return curState.makeBlock height modifiedTxs commit misbehaviour proposerAddr

/-- `AbciClient.decideProposal`: the proposal block and the proposal for it. The proposal's
signature is only logged when signing fails. -/
def decideProposal (env : Env) (now : Int) (proposerApp : Counterparty) (height round : Int)
    (txs : List Bytes) (misbehaviour : List Evidence) : ClientM (Proposal × Block) := do
  let a ← getClient
  let block ← createProposalBlock env proposerApp height a.curState a.lastCommit txs misbehaviour
  let propBlockId := block.blockId
  let proposal : Proposal := ⟨height, round, 0, propBlockId, now, none⟩
  let signature := proposerApp.privValidator.sign
    (.proposal a.curState.chainId height round 0 propBlockId now)
  return ({ proposal with signature }, block)

/-- `AbciClient.ProcessProposal`: ask one backend to process the block. An `UNKNOWN` status panics;
the result says whether the backend accepted. -/
def processProposal (env : Env) (app : Counterparty) (block : Block) : ClientM Bool := do
  let a ← getClient
  let proposedLastCommit ←
    liftGo (buildLastCommitInfo block a.curState.validators a.curState.initialHeight)
  let response ← app.processProposal env
    { hash := block.header.hash, height := block.header.height, time := block.header.time,
      txs := block.txs, proposedLastCommit, misbehavior := evidenceToAbci block.evidence,
      proposerAddress := block.header.proposerAddress,
      nextValidatorsHash := block.header.nextValidatorsHash }
  if response.isStatusUnknown then throw (.panic "ProcessProposal responded with status UNKNOWN")
  return response.isAccepted

/-- `AbciClient.ExtendAndSignVote`. The index is looked up with the bytes of the backend's address
string, the vote's address is those bytes too, and `SignVote` signs the protobuf copy that
`vote.ToProto()` makes, so the vote it returns carries no signature. -/
def extendAndSignVote (env : Env) (app : Counterparty) (block : Block) : ClientM Vote := do
  let a ← getClient
  let addr := app.validatorAddress
  let (index, _) := a.curState.validators.getByAddress addr
  let vote : Vote :=
    { validatorAddress := app.validatorAddress, validatorIndex := index,
      height := block.header.height, round := block.lastCommit.round,
      timestamp := block.header.time, type := .precommit, blockId := block.blockId,
      signature := none, extension := [], extensionSignature := none }
  let vote ← if ← liftGo (a.curState.consensusParams.abci.voteExtensionsEnabled vote.height) then do
      let proposedLastCommit ←
        liftGo (buildLastCommitInfo block a.curState.validators a.curState.initialHeight)
      let ext ← app.extendVote env
        { hash := vote.blockId.hash, height := vote.height, time := block.header.time,
          txs := block.txs, proposedLastCommit, misbehavior := evidenceToAbci block.evidence,
          nextValidatorsHash := block.header.nextValidatorsHash,
          proposerAddress := block.header.proposerAddress }
      pure { vote with extension := ext }
    else pure vote
  let _ ← liftErr (app.privValidator.signVote a.curState.chainId vote)
  return vote

/-- The round's non-proposers: the backend of each current validator, in set order, except the
proposer's. A validator without a backend is an error. -/
def nonProposers (a : AbciClient) (proposerAddress : Bytes) : Except String (List Counterparty) := do
  let clients ← a.curState.validators.validators.mapM fun v =>
    a.getCounterpartyFromAddress (hexString v.address)
  return clients.filter (·.validatorAddress ≠ hexString proposerAddress)

/-- The `ProcessProposal` loop: every non-proposer has to accept the block. -/
def processProposals (env : Env) (block : Block) (nonProposers : List Counterparty) : ClientM Unit :=
  nonProposers.forM fun c => do
    let accepted ← processProposal env c block
    if !accepted then throw (.error "non-proposer did not accept the proposal")

/-- The signing loop: each current validator whose signing status is true extends and signs a
precommit through its backend; the others abstain with a nil vote. -/
def collectVotes (env : Env) (block : Block) (vals : List Validator) :
    ClientM (List (Option Vote)) :=
  vals.mapM fun v => do
    let a ← getClient
    let shouldSign ← liftErr (a.getSigningStatus (hexString v.address))
    if shouldSign then do
      let client ← liftErr (a.getCounterpartyFromAddress (hexString v.address))
      some <$> extendAndSignVote env client block
    else pure none

/-- The engine with `vs` as the list of current validators. -/
def setCurValidators (a : AbciClient) (vs : List Validator) : AbciClient :=
  { a with curState := { a.curState with
      validators := { a.curState.validators with validators := vs } } }

/-- The order `sort.Slice` gives `curVals`: by the network address of each validator's backend.
Go's comparator panics on a validator without a backend; with fewer than two validators it is
never called. -/
def sortedByNetworkAddress (a : AbciClient) : Except Failure (List Validator) := do
  let curVals := a.curState.validators.validators
  if curVals.length < 2 then return curVals
  let keyed ← curVals.mapM fun v => match a.getCounterpartyFromAddress (hexString v.address) with
    | .ok c => pure (v, c.networkAddress)
    | .error _ => throw (.panic "Did not find client for validator")
  return (keyed.insertionSort fun x y => bytesLt x.2 y.2).map (·.1)

/-- `sort.Slice` on `curVals`, the slice that backs `CurState.Validators.Validators`: the current
validators are reordered in place. -/
def sortValidatorsByNetworkAddress : ClientM (List Validator) := do
  let sorted ← liftGo (sortedByNetworkAddress (← getClient))
  modifyClient (·.setCurValidators sorted)
  return sorted

/-- One backend's part of the vote-extension loop: it verifies every non-nil vote whose address,
rendered as a string, differs from its own address string. A failed call, an `UNKNOWN` status
and a rejection all panic. -/
def verifyVotes (env : Env) (block : Block) (client : Counterparty) (votes : List (Option Vote)) :
    ClientM Unit :=
  votes.forM fun
    | none => pure ()
    | some vote => do
      if hexString vote.validatorAddress ≠ client.validatorAddress then
        let some resp ← catchError (client.verifyVoteExtension env
            ⟨block.hash, vote.validatorAddress, block.header.height, vote.extension⟩)
          | throw (.panic "Verify vote extension failed with error")
        if resp.isStatusUnknown then throw (.panic "Verify vote extension responded with status UNKNOWN")
        if !resp.isAccepted then throw (.panic "Verify vote extension rejected an extension!")

/-- The vote-extension loop, over the current validators in sorted order. -/
def verifyVoteExtensions (env : Env) (block : Block) (votes : List (Option Vote))
    (curVals : List Validator) : ClientM Unit :=
  curVals.forM fun val => do
    let client ← liftErr ((← getClient).getCounterpartyFromAddress (hexString val.address))
    verifyVotes env block client votes

/-- The loop adding the votes to the vote set: a vote that fails to add, or is not added, is an
error. -/
def addVotes (voteSet : VoteSet) : List (Option Vote) → Except Failure VoteSet
  | [] => .ok voteSet
  | none :: votes => addVotes voteSet votes
  | some vote :: votes => do
    let (added, voteSet) ← voteSet.addVote vote
    if !added then throw (.error "could not add vote to vote set")
    addVotes voteSet votes

/-- Modelled from the spec: `Storage.LockBeforeStateUpdate` takes the storage's state-update
lock; taking it while it is held blocks for ever. -/
def lockBeforeStateUpdate : ClientM Unit := do
  if (← getClient).storage.locked then throw .blocked
  modifyClient fun a => { a with storage := { a.storage with locked := true } }

/-- Modelled from the spec: `Storage.UnlockAfterStateUpdate` releases the lock. -/
def unlockAfterStateUpdate : ClientM Unit :=
  modifyClient fun a => { a with storage := { a.storage with locked := false } }

/-- Modelled from the spec: `Storage.UpdateStores` records the height's block, commit, state
snapshot and results; the model keeps the snapshot, which `GetState` reads. -/
def updateStores (env : Env) (height : Int) (state : State) : ClientM Unit := do
  if env.updateStoresFails height then throw (.error "failed to update stores")
  modifyClient fun a => { a with storage := { a.storage with states := (height, state) :: a.storage.states } }

/-- `fireEvents`. Publication failures are only logged; reading the result of each transaction of
the block panics when `TxResults` is too short or the entry is nil. -/
def fireEvents (block : Block) (res : ResponseFinalizeBlock) : Except Failure Unit :=
  go block.txs res.txResults
where
  go : List Bytes → List (Option ExecTxResult) → Except Failure Unit
    | [], _ => .ok ()
    | _ :: _, [] => .error (.panic "runtime error: index out of range")
    | _ :: _, none :: _ => .error (.panic "runtime error: invalid memory address or nil pointer dereference")
    | _ :: txs, some _ :: rs => go txs rs

/-- `AbciClient.UpdateStateFromBlock`: validate and convert the validator updates, compute the
next state, install it, and fire the block's events. -/
def updateStateFromBlock (blockId : BlockID) (block : Block) (res : ResponseFinalizeBlock) :
    ClientM Unit := do
  let a ← getClient
  if let .error e := validateValidatorUpdates res.validatorUpdates a.curState.consensusParams.validator then
    throw (.error s!"error in validator updates: {e}")
  let validatorUpdates ← match pb2tmValidatorUpdates res.validatorUpdates with
    | .error e => throw (.error s!"error converting validator updates: {e}")
    | .ok vs => pure vs
  let newState ← match updateState a.curState blockId block.header res validatorUpdates with
    | .error (.error e) => throw (.error s!"error updating state: {e}")
    | .error f => throw f
    | .ok s => pure s
  modifyClient fun a => { a with curState := newState }
  liftGo (fireEvents block res)

/-- The round's vote set for the block, with every vote added, and the extended commit made from
it. -/
def makeLastCommit (a : AbciClient) (block : Block) (votes : List (Option Vote)) :
    Except Failure ExtendedCommit := do
  let voteSet ← newExtendedVoteSet a.curState.chainId block.header.height 0 .precommit
    a.curState.validators
  let voteSet ← addVotes voteSet votes
  voteSet.makeExtendedCommit a.curState.consensusParams.abci

/-- The round from the vote set on: aggregate the votes into the last commit, check it, finalize
the block on every backend, store and install the new state under the storage lock, and send
`Commit`. -/
def commitBlock (env : Env) (newHeight : Int) (block : Block) (votes : List (Option Vote)) :
    ClientM (ResponseFinalizeBlock × ResponseCommit) := do
  let a ← getClient
  let lastCommit ← liftGo (makeLastCommit a block votes)
  modifyClient fun a => { a with lastCommit }
  liftErr (a.curState.validators.verifyCommitLightTrusting a.curState.chainId lastCommit.toCommit 1 3)
  liftErr (LightBlock.validateBasic ⟨⟨block.header, lastCommit.toCommit⟩, a.curState.validators⟩
    a.curState.chainId)
  let lastCommitInfo ←
    liftGo (buildLastCommitInfo block a.curState.validators a.curState.initialHeight)
  let resFinalizeBlock ← sendFinalizeBlock env block lastCommitInfo
  lockBeforeStateUpdate
  modifyClient fun a => { a with lastBlock := block }
  updateStores env newHeight (← getClient).curState
  updateStateFromBlock (getBlockIdFromBlock block) block resFinalizeBlock
  unlockAfterStateUpdate
  let resCommit ← sendCommit env
  modifyClient fun a => { a with curState := { a.curState with appHash := resFinalizeBlock.appHash } }
  return (resFinalizeBlock, resCommit)

/-- The round's proposal after `CheckTx`: the evidence, the proposer's backend, the proposal block
around `txs`, and `ProcessProposal` on every non-proposer. -/
def buildProposal (env : Env) (now : Int) (txs : List Bytes) (proposer : Option Validator)
    (misbehavingValidators : List (Validator × MisbehaviourType)) : ClientM Block := do
  let proposerAddress := (proposer.map (·.address)).getD []
  let evidences ← constructEvidences now misbehavingValidators
  let some proposerApp := (← getClient).clients.find? (·.validatorAddress = hexString proposerAddress)
    | throw (.error "could not find proposer app for address")
  let (_, block) ← decideProposal env now proposerApp ((← getClient).curState.lastBlockHeight + 1) 0
    txs evidences
  let nonProposers ← liftErr ((← getClient).nonProposers proposerAddress)
  processProposals env block nonProposers
  return block

/-- The round up to an accepted proposal: `CheckTx` of the transaction, then the proposal. -/
def proposeBlock (env : Env) (now : Int) (tx : Option Bytes) (proposer : Option Validator)
    (misbehavingValidators : List (Validator × MisbehaviourType)) :
    ClientM (Option ResponseCheckTx × Block) := do
  let resCheckTx ← match tx with
    | some t => some <$> sendCheckTx env t
    | none => pure none
  let block ← buildProposal env now tx.toList proposer misbehavingValidators
  return (resCheckTx, block)

/-- The round from the votes on: the precommit of every signing validator, the in-place sort of
the current validators, the vote-extension checks, and the commit. -/
def voteAndCommit (env : Env) (newHeight : Int) (block : Block) :
    ClientM (ResponseFinalizeBlock × ResponseCommit) := do
  let votes ← collectVotes env block (← getClient).curState.validators.validators
  let curVals ← sortValidatorsByNetworkAddress
  verifyVoteExtensions env block votes curVals
  commitBlock env newHeight block votes

/-- `AbciClient.RunBlockWithTimeAndProposer`: one round. `blockTime` is not read. `now` is the
wall clock the evidence and the proposal read. -/
def runBlockWithTimeAndProposer (env : Env) (now : Int) (tx : Option Bytes) (blockTime : Int)
    (proposer : Option Validator) (misbehavingValidators : List (Validator × MisbehaviourType)) :
    ClientM (Option ResponseCheckTx × ResponseFinalizeBlock × ResponseCommit) := do
  let newHeight := (← getClient).curState.lastBlockHeight + 1
  let (resCheckTx, block) ← proposeBlock env now tx proposer misbehavingValidators
  let (resFinalizeBlock, resCommit) ← voteAndCommit env newHeight block
  return (resCheckTx, resFinalizeBlock, resCommit)

/-- `AbciClient.RunBlock`: a round at the current time plus the offset, proposed by
`CurState.LastValidators.Proposer`, without evidence. -/
def runBlock (env : Env) (now : Int) (tx : Option Bytes) :
    ClientM (Option ResponseCheckTx × ResponseFinalizeBlock × ResponseCommit) := do
  let a ← getClient
  runBlockWithTimeAndProposer env now tx (now + a.timeOffset) a.curState.lastValidators.proposer []

/-- `AbciClient.RunBlockWithEvidence`. -/
def runBlockWithEvidence (env : Env) (now : Int) (tx : Option Bytes)
    (misbehavingValidators : List (Validator × MisbehaviourType)) :
    ClientM (Option ResponseCheckTx × ResponseFinalizeBlock × ResponseCommit) := do
  let a ← getClient
  runBlockWithTimeAndProposer env now tx (now + a.timeOffset) a.curState.lastValidators.proposer
    misbehavingValidators

/-- `AbciClient.RunEmptyBlocks`: empty rounds until `numBlocks` are done or one fails; round `i`
reads the clock `clock i`. -/
def runEmptyBlocks (env : Env) (clock : Nat → Int) (numBlocks : Int) : ClientM Unit :=
  go numBlocks.toNat 0
where
  go : Nat → Nat → ClientM Unit
    | 0, _ => pure ()
    | n + 1, i => do
      let _ ← runBlock env (clock i) none
      go n (i + 1)

/-- `AbciClient.CauseDoubleSign`. -/
def causeDoubleSign (env : Env) (now : Int) (address : Bytes) : ClientM Unit := do
  let validator ← liftErr ((← getClient).getValidatorFromAddress address)
  let _ ← runBlockWithEvidence env now none [(validator, .duplicateVote)]

/-- `AbciClient.CauseLightClientAttack`: the kind is parsed before any block is touched. -/
def causeLightClientAttack (env : Env) (now : Int) (address : Bytes) (misbehaviourType : String) :
    ClientM Unit := do
  let validator ← liftErr ((← getClient).getValidatorFromAddress address)
  let misbehaviour ← match misbehaviourType with
    | "Lunatic" => pure MisbehaviourType.lunatic
    | "Amnesia" => pure .amnesia
    | "Equivocation" => pure .equivocation
    | _ => throw (.error "unknown misbehaviour type, possible types are: Equivocation, Lunatic, Amnesia")
  let _ ← runBlockWithEvidence env now none [(validator, misbehaviour)]

end AbciClient

end CometMock
