import CometMock.Types.VoteSet

/-!
The application-consensus interface between CometMock and each application backend: the data
types of ABCI, the request and response of every call CometMock makes, the conversions between
CometBFT and ABCI values, and `Backends`, which says what the applications answer.
-/

namespace CometMock

/-- `abci.Validator`. -/
structure AbciValidator where
  address : Bytes
  power : Int
  deriving Repr, DecidableEq

/-- `abci.VoteInfo`. -/
structure VoteInfo where
  validator : AbciValidator
  blockIdFlag : BlockIDFlag
  deriving Repr, DecidableEq

/-- `abci.CommitInfo`. -/
structure CommitInfo where
  round : Int
  votes : List VoteInfo
  deriving Repr, DecidableEq

/-- `abci.ExtendedVoteInfo`. -/
structure ExtendedVoteInfo where
  validator : AbciValidator
  voteExtension : Bytes
  extensionSignature : Option Sig
  blockIdFlag : BlockIDFlag
  deriving Repr, DecidableEq

/-- `abci.ExtendedCommitInfo`. -/
structure ExtendedCommitInfo where
  round : Int
  votes : List ExtendedVoteInfo
  deriving Repr, DecidableEq

/-- `abci.MisbehaviorType`. -/
inductive MisbehaviorType where
  | unknown
  | duplicateVote
  | lightClientAttack
  deriving Repr, DecidableEq

/-- `abci.Misbehavior`. -/
structure Misbehavior where
  type : MisbehaviorType
  validator : AbciValidator
  height : Int
  time : Int
  totalVotingPower : Int
  deriving Repr, DecidableEq

/-- `abci.ValidatorUpdate`. -/
structure ValidatorUpdate where
  pubKey : PublicKey
  power : Int
  deriving Repr, DecidableEq

/-- `abci.ExecTxResult`, without its events. -/
structure ExecTxResult where
  code : Nat
  data : Bytes
  log : String
  gasWanted : Int
  gasUsed : Int
  deriving Repr, DecidableEq

/-- `TM2PB.Validator`. -/
def Validator.toAbci (v : Validator) : AbciValidator := ⟨v.address, v.votingPower⟩

/-- `Evidence.ABCI`, and so `EvidenceList.ToABCI` over a block's evidence. -/
def Evidence.toAbci : Evidence → List Misbehavior
  | .duplicateVote voteA _ total power time =>
    [⟨.duplicateVote, ⟨voteA.validatorAddress, power⟩, voteA.height, time, total⟩]
  | .lightClientAttack _ commonHeight byzantine total time =>
    byzantine.map fun v => ⟨.lightClientAttack, v.toAbci, commonHeight, time, total⟩

/-- `EvidenceList.ToABCI`. -/
def evidenceToAbci (evs : List Evidence) : List Misbehavior := evs.flatMap Evidence.toAbci

/-- `PB2TM.ValidatorUpdates`: decode each key and build a validator with priority 0. -/
def pb2tmValidatorUpdates (vals : List ValidatorUpdate) : Except String (List Validator) :=
  vals.mapM fun v => (pubKeyFromProto v.pubKey).map fun pk => newValidator pk v.power

/-- `TM2PB.ValidatorUpdates`. -/
def tm2pbValidatorUpdates (vals : ValidatorSet) : List ValidatorUpdate :=
  vals.validators.map fun v => ⟨v.pubKey.toProto, v.votingPower⟩

/-- `state.TxResultsHash`. Building the deterministic results dereferences every entry, so a nil
result panics. -/
def txResultsHash (txResults : List (Option ExecTxResult)) : Except Failure Digest :=
  match txResults.mapM id with
  | none => .error (.panic "runtime error: invalid memory address or nil pointer dereference")
  | some rs => .ok (.results (rs.map fun r => (r.code, r.data, r.gasWanted, r.gasUsed)))

/-- `state.BuildLastCommitInfo`: the block's last commit, listed against `lastValSet`. Nothing is
listed at the initial height; a commit of another size than the set panics. -/
def buildLastCommitInfo (block : Block) (lastValSet : ValidatorSet) (initialHeight : Int) :
    Except Failure CommitInfo :=
  if block.header.height = initialHeight then .ok ⟨0, []⟩
  else if block.lastCommit.signatures.length ≠ lastValSet.validators.length then
    .error (.panic "commit size doesn't match validator set length")
  else .ok ⟨block.lastCommit.round, (lastValSet.validators.zip block.lastCommit.signatures).map
    fun (val, cs) => ⟨val.toAbci, cs.blockIdFlag⟩⟩

/-- `state.BuildExtendedCommitInfo`: the extended commit listed against `valSet`, with the
extension checks of the commit's height. It panics on a size or address mismatch and on
extension data that does not match whether extensions were enabled. -/
def buildExtendedCommitInfo (ec : ExtendedCommit) (valSet : ValidatorSet) (initialHeight : Int)
    (ap : ABCIParams) : Except Failure ExtendedCommitInfo :=
  if ec.height < initialHeight then .ok ⟨0, []⟩
  else if ec.extendedSignatures.length ≠ valSet.validators.length then
    .error (.panic "extended commit size doesn't match validator set length")
  else do
    let votes ← (valSet.validators.zip ec.extendedSignatures).mapM fun (val, ecs) => do
      if ecs.commitSig.blockIdFlag ≠ .absent ∧ ecs.commitSig.validatorAddress ≠ val.address then
        throw (.panic "validator address of extended commit signature does not match")
      let enabled ← ap.voteExtensionsEnabled ec.height
      if let .error e := ecs.ensureExtension enabled then
        throw (.panic s!"commit has problems with vote extension data: {e}")
      pure ⟨val.toAbci, ecs.extension, ecs.extensionSignature, ecs.commitSig.blockIdFlag⟩
    pure ⟨ec.round, votes⟩

/-- `abci.RequestInitChain`. -/
structure RequestInitChain where
  time : Int
  chainId : String
  consensusParams : ParamsUpdate
  validators : List ValidatorUpdate
  appStateBytes : Bytes
  initialHeight : Int
  deriving Repr, DecidableEq

/-- `abci.RequestPrepareProposal`. -/
structure RequestPrepareProposal where
  maxTxBytes : Int
  txs : List Bytes
  localLastCommit : ExtendedCommitInfo
  misbehavior : List Misbehavior
  height : Int
  time : Int
  nextValidatorsHash : Digest
  proposerAddress : Bytes
  deriving Repr, DecidableEq

/-- `abci.RequestProcessProposal`. -/
structure RequestProcessProposal where
  txs : List Bytes
  proposedLastCommit : CommitInfo
  misbehavior : List Misbehavior
  hash : Digest
  height : Int
  time : Int
  nextValidatorsHash : Digest
  proposerAddress : Bytes
  deriving Repr, DecidableEq

/-- `abci.RequestExtendVote`. -/
structure RequestExtendVote where
  hash : Digest
  height : Int
  time : Int
  txs : List Bytes
  proposedLastCommit : CommitInfo
  misbehavior : List Misbehavior
  nextValidatorsHash : Digest
  proposerAddress : Bytes
  deriving Repr, DecidableEq

/-- `abci.RequestVerifyVoteExtension`. -/
structure RequestVerifyVoteExtension where
  hash : Digest
  validatorAddress : Bytes
  height : Int
  voteExtension : Bytes
  deriving Repr, DecidableEq

/-- `abci.RequestFinalizeBlock`. -/
structure RequestFinalizeBlock where
  txs : List Bytes
  decidedLastCommit : CommitInfo
  misbehavior : List Misbehavior
  hash : Digest
  height : Int
  time : Int
  nextValidatorsHash : Digest
  proposerAddress : Bytes
  deriving Repr, DecidableEq

/-- `abci.RequestQuery`. -/
structure RequestQuery where
  data : Bytes
  path : String
  height : Int
  prove : Bool
  deriving Repr, DecidableEq

/-- A request CometMock sends to a backend. -/
inductive Request where
  | info
  | initChain (r : RequestInitChain)
  | checkTx (tx : Bytes)
  | prepareProposal (r : RequestPrepareProposal)
  | processProposal (r : RequestProcessProposal)
  | extendVote (r : RequestExtendVote)
  | verifyVoteExtension (r : RequestVerifyVoteExtension)
  | finalizeBlock (r : RequestFinalizeBlock)
  | commit
  | query (r : RequestQuery)
  deriving Repr, DecidableEq

/-- A request as it travels: the network address of the backend it is sent to, and the request. -/
structure Message where
  dest : Bytes
  request : Request
  deriving Repr, DecidableEq

/-- `abci.ResponseInfo`. -/
structure ResponseInfo where
  data : String
  version : String
  appVersion : Nat
  lastBlockHeight : Int
  lastBlockAppHash : Bytes
  deriving Repr, DecidableEq

/-- `abci.ResponseInitChain`. -/
structure ResponseInitChain where
  consensusParams : Option ParamsUpdate
  validators : List ValidatorUpdate
  appHash : Bytes
  deriving Repr, DecidableEq

/-- `abci.ResponseCheckTx`, without its events; code 0 is `CodeTypeOK`. -/
structure ResponseCheckTx where
  code : Nat
  data : Bytes
  log : String
  gasWanted : Int
  gasUsed : Int
  deriving Repr, DecidableEq

/-- `abci.ResponseProcessProposal` and `abci.ResponseVerifyVoteExtension` carry a protobuf enum:
0 is `UNKNOWN`, 1 is `ACCEPT`, 2 is `REJECT`, and an application may send any other value. -/
structure ResponseStatus where
  status : Int
  deriving Repr, DecidableEq

/-- `IsStatusUnknown`. -/
def ResponseStatus.isStatusUnknown (r : ResponseStatus) : Bool := r.status == 0

/-- `IsAccepted`. -/
def ResponseStatus.isAccepted (r : ResponseStatus) : Bool := r.status == 1

/-- `abci.ResponseFinalizeBlock`, without its events. Go's `TxResults` is a slice of pointers,
so an entry may be nil. -/
structure ResponseFinalizeBlock where
  txResults : List (Option ExecTxResult)
  validatorUpdates : List ValidatorUpdate
  consensusParamUpdates : Option ParamsUpdate
  appHash : Bytes
  deriving Repr, DecidableEq

/-- `abci.ResponseCommit`. -/
structure ResponseCommit where
  retainHeight : Int
  deriving Repr, DecidableEq

/-- `abci.ResponseQuery`, without the proof operations. -/
structure ResponseQuery where
  code : Nat
  log : String
  info : String
  index : Int
  key : Bytes
  value : Bytes
  height : Int
  codespace : String
  deriving Repr, DecidableEq

/--
What the application backends answer. A backend is named by its network address, and its answer
may depend on every request sent so far to any backend (`sent`, oldest first), so that any
deterministic, stateful application is covered. A Go error (a transport error, a timeout or an
error the application returns) is `.error`.
-/
structure Backends where
  info : List Message → Bytes → Except String ResponseInfo
  initChain : List Message → Bytes → RequestInitChain → Except String ResponseInitChain
  checkTx : List Message → Bytes → Bytes → Except String ResponseCheckTx
  prepareProposal : List Message → Bytes → RequestPrepareProposal →
    Except String (List Bytes)
  processProposal : List Message → Bytes → RequestProcessProposal → Except String ResponseStatus
  extendVote : List Message → Bytes → RequestExtendVote → Except String Bytes
  verifyVoteExtension : List Message → Bytes → RequestVerifyVoteExtension →
    Except String ResponseStatus
  finalizeBlock : List Message → Bytes → RequestFinalizeBlock →
    Except String ResponseFinalizeBlock
  commit : List Message → Bytes → Except String ResponseCommit
  query : List Message → Bytes → RequestQuery → Except String ResponseQuery

end CometMock
