import CometMock.Types.Validator
import CometMock.Types.Params

/-!
CometBFT's votes, commits, headers, blocks and evidence, with the functions on them that
CometMock's round calls: signing and verifying votes, turning votes into commit signatures, the
block hash and part set, `types.MakeBlock`, and the weighted median time of a commit.
-/

namespace CometMock

/-- `types.BlockIDFlag`. -/
inductive BlockIDFlag where
  | unknown
  | absent
  | commit
  | nil
  deriving Repr, DecidableEq

/-- `types.Vote` (and its protobuf form, which has the same fields). -/
structure Vote where
  type : SignedMsgType
  height : Int
  round : Int
  blockId : BlockID
  timestamp : Int
  validatorAddress : Bytes
  validatorIndex : Int
  signature : Option Sig
  extension : Bytes
  extensionSignature : Option Sig
  deriving Repr, DecidableEq

namespace Vote

/-- `types.VoteSignBytes`. -/
def signBytes (chainId : String) (v : Vote) : SignBytes :=
  .vote chainId v.type v.height v.round v.blockId v.timestamp

/-- `types.VoteExtensionSignBytes`. -/
def extensionSignBytes (chainId : String) (v : Vote) : SignBytes :=
  .voteExtension chainId v.height v.round v.extension

/-- Whether the vote is a precommit for a block (the votes that carry extensions). -/
def isNonNilPrecommit (v : Vote) : Bool :=
  v.type == .precommit && !v.blockId.isZero

/-- `Vote.Verify`, and with `withExtension` also the extension signature of a non-nil precommit
(`Vote.VerifyVoteAndExtension`). -/
def verify (v : Vote) (chainId : String) (pubKey : PubKey) (withExtension : Bool) :
    Except String Unit :=
  if pubKey.address ≠ v.validatorAddress then .error "invalid validator address"
  else if !pubKey.verifySignature (v.signBytes chainId) v.signature then .error "invalid signature"
  else if withExtension && v.isNonNilPrecommit &&
      !pubKey.verifySignature (v.extensionSignBytes chainId) v.extensionSignature then
    .error "invalid signature"
  else .ok ()

/-- `Vote.ValidateBasic`; block IDs are symbolic, so their own size checks always pass. -/
def validateBasic (v : Vote) : Except String Unit := do
  if v.type ≠ .prevote ∧ v.type ≠ .precommit then throw "invalid Type"
  if v.height ≤ 0 then throw "negative or zero Height"
  if v.round < 0 then throw "negative Round"
  if !v.blockId.isZero && !v.blockId.isComplete then
    throw "blockID must be either empty or complete"
  if v.validatorAddress.length ≠ 20 then throw "expected ValidatorAddress size to be 20 bytes"
  if v.validatorIndex < 0 then throw "negative ValidatorIndex"
  if v.signature = none then throw "signature is missing"
  if !v.isNonNilPrecommit then
    if v.extension ≠ [] then throw "unexpected vote extension"
    if v.extensionSignature ≠ none then throw "unexpected vote extension signature"
  else if v.extensionSignature = none ∧ v.extension ≠ [] then
    throw "vote extension signature absent on vote with extension"

end Vote

/-- `PrivValidator.SignVote`: sign the vote, and the extension of a non-nil precommit. -/
def PrivValidator.signVote (pv : PrivValidator) (chainId : String) (v : Vote) :
    Except String Vote :=
  let v := { v with signature := pv.sign (v.signBytes chainId) }
  if v.isNonNilPrecommit then
    .ok { v with extensionSignature := pv.sign (v.extensionSignBytes chainId) }
  else if v.extension ≠ [] then
    .error "unexpected vote extension - vote extensions are only allowed in non-nil precommits"
  else .ok { v with extensionSignature := none }

/-- `types.CommitSig`. -/
structure CommitSig where
  blockIdFlag : BlockIDFlag
  validatorAddress : Bytes
  timestamp : Int
  signature : Option Sig
  deriving Repr, DecidableEq

/-- `types.ExtendedCommitSig`. -/
structure ExtendedCommitSig where
  commitSig : CommitSig
  extension : Bytes
  extensionSignature : Option Sig
  deriving Repr, DecidableEq

/-- `NewExtendedCommitSigAbsent`. -/
def ExtendedCommitSig.absent : ExtendedCommitSig := ⟨⟨.absent, [], 0, none⟩, [], none⟩

/-- `Vote.ExtendedCommitSig`; a vote whose block ID is neither zero nor complete panics. -/
def Vote.extendedCommitSig : Option Vote → Except Failure ExtendedCommitSig
  | none => .ok .absent
  | some v =>
    if v.blockId.isComplete then
      .ok ⟨⟨.commit, v.validatorAddress, v.timestamp, v.signature⟩, v.extension, v.extensionSignature⟩
    else if v.blockId.isZero then
      .ok ⟨⟨.nil, v.validatorAddress, v.timestamp, v.signature⟩, v.extension, v.extensionSignature⟩
    else .error (.panic "Invalid vote - expected BlockID to be either empty or complete")

/-- `ExtendedCommitSig.EnsureExtension`. -/
def ExtendedCommitSig.ensureExtension (ecs : ExtendedCommitSig) (extEnabled : Bool) :
    Except String Unit :=
  if extEnabled then
    if ecs.commitSig.blockIdFlag = .commit ∧ ecs.extensionSignature = none then
      .error "vote extension signature is missing"
    else if ecs.commitSig.blockIdFlag ≠ .commit ∧ ecs.extension ≠ [] then
      .error "non-commit vote extension present"
    else if ecs.commitSig.blockIdFlag ≠ .commit ∧ ecs.extensionSignature ≠ none then
      .error "non-commit vote extension signature present"
    else .ok ()
  else if ecs.extension ≠ [] then .error "vote extension present but extensions disabled"
  else if ecs.extensionSignature ≠ none then
    .error "vote extension signature present but extensions disabled"
  else .ok ()

/-- `types.Commit`. -/
structure Commit where
  height : Int
  round : Int
  blockId : BlockID
  signatures : List CommitSig
  deriving Repr, DecidableEq

/-- `types.ExtendedCommit`. -/
structure ExtendedCommit where
  height : Int
  round : Int
  blockId : BlockID
  extendedSignatures : List ExtendedCommitSig
  deriving Repr, DecidableEq

/-- `ExtendedCommit.ToCommit`: drop the extensions. -/
def ExtendedCommit.toCommit (ec : ExtendedCommit) : Commit :=
  ⟨ec.height, ec.round, ec.blockId, ec.extendedSignatures.map (·.commitSig)⟩

/-- `cmttime.WeightedMedian` over `(time, weight)` pairs; Go's zero time is `0`. -/
def weightedMedian (weightedTimes : List (Int × Int)) (totalVotingPower : Int) : Int :=
  go (weightedTimes.insertionSort fun a b => a.1 < b.1) (totalVotingPower / 2)
where
  go : List (Int × Int) → Int → Int
    | [], _ => 0
    | (t, w) :: rest, median => if median ≤ w then t else go rest (median - w)

/-- `Commit.MedianTime`: the power-weighted median of the timestamps of the present signatures
whose validator is in `validators`. -/
def Commit.medianTime (commit : Commit) (validators : ValidatorSet) : Int :=
  let weighted := commit.signatures.filterMap fun cs =>
    if cs.blockIdFlag = .absent then none
    else (validators.getByAddress cs.validatorAddress).2.map fun v => (cs.timestamp, v.votingPower)
  weightedMedian weighted (weighted.map (·.2)).sum

/-- `types.Header`, without the hashes of the last commit and of the evidence, which no modelled
function reads. -/
structure Header where
  appVersion : Nat
  chainId : String
  height : Int
  time : Int
  lastBlockId : BlockID
  dataHash : Digest
  validatorsHash : Digest
  nextValidatorsHash : Digest
  consensusHash : Digest
  appHash : Bytes
  lastResultsHash : Digest
  proposerAddress : Bytes
  deriving Repr, DecidableEq

/-- `Header.Hash`; a header without a validators hash hashes to nil. -/
def Header.hash (h : Header) : Digest :=
  if h.validatorsHash = .none then .none
  else .header h.chainId h.appVersion h.height h.time h.lastBlockId.hash
    h.lastBlockId.partSetHeader.total h.lastBlockId.partSetHeader.hash h.dataHash h.validatorsHash
    h.nextValidatorsHash h.consensusHash h.appHash h.lastResultsHash h.proposerAddress

/-- `types.SignedHeader`. -/
structure SignedHeader where
  header : Header
  commit : Commit
  deriving Repr, DecidableEq

/-- `types.LightBlock`. -/
structure LightBlock where
  signedHeader : SignedHeader
  validatorSet : ValidatorSet
  deriving Repr, DecidableEq

/-- `types.Evidence`: the two kinds of misbehaviour evidence. -/
inductive Evidence where
  | duplicateVote (voteA voteB : Vote) (totalVotingPower validatorPower timestamp : Int)
  | lightClientAttack (conflictingBlock : LightBlock) (commonHeight : Int)
      (byzantineValidators : List Validator) (totalVotingPower timestamp : Int)
  deriving Repr, DecidableEq

/-- `types.Block`. -/
structure Block where
  header : Header
  txs : List Bytes
  evidence : List Evidence
  lastCommit : Commit
  deriving Repr, DecidableEq

namespace Block

/-- `Block.Hash`: the hash of the filled-in header. -/
def hash (b : Block) : Digest := b.header.hash

/-- `Block.MakePartSet(BlockPartSizeBytes).Header()`. -/
def partSetHeader (b : Block) : PartSetHeader := ⟨1, .parts b.hash⟩

/-- The `BlockID` that votes for `b` carry. -/
def blockId (b : Block) : BlockID := ⟨b.hash, b.partSetHeader⟩

end Block

/-- `types.MakeBlock`: a block with the given data whose header still has to be populated. -/
def makeBlock (height : Int) (txs : List Bytes) (lastCommit : Commit) (evidence : List Evidence) :
    Block :=
  { header := { appVersion := 0, chainId := "", height, time := 0, lastBlockId := .zero,
                dataHash := .txs txs, validatorsHash := .none, nextValidatorsHash := .none,
                consensusHash := .none, appHash := [], lastResultsHash := .none,
                proposerAddress := [] }
    txs, evidence, lastCommit }

/-- `Header.ValidateBasic`, for the fields of the model. -/
def Header.validateBasic (h : Header) : Except String Unit := do
  if h.chainId.length > 50 then throw "chainID is too long"
  if h.height < 0 then throw "negative Header.Height"
  if h.height = 0 then throw "zero Header.Height"
  if !h.lastBlockId.isZero && !h.lastBlockId.isComplete then throw "wrong LastBlockID"
  if h.proposerAddress.length ≠ 20 then throw "invalid ProposerAddress length"

/-- `Commit.ValidateBasic`, for the fields of the model. -/
def Commit.validateBasic (c : Commit) : Except String Unit := do
  if c.height < 0 then throw "negative Height"
  if c.round < 0 then throw "negative Round"
  if c.height ≥ 1 then
    if c.blockId.isZero then throw "commit cannot be for nil block"
    if c.signatures = [] then throw "no signatures in commit"

/-- `SignedHeader.ValidateBasic`. -/
def SignedHeader.validateBasic (sh : SignedHeader) (chainId : String) : Except String Unit := do
  sh.header.validateBasic
  sh.commit.validateBasic
  if sh.header.chainId ≠ chainId then throw "header belongs to another chain"
  if sh.commit.height ≠ sh.header.height then throw "header and commit height mismatch"
  if sh.header.hash ≠ sh.commit.blockId.hash then throw "commit signs block, header is block"

/-- `LightBlock.ValidateBasic`: a well-formed signed header whose validators hash is the hash of
the light block's validator set. -/
def LightBlock.validateBasic (lb : LightBlock) (chainId : String) : Except String Unit := do
  lb.signedHeader.validateBasic chainId
  if lb.validatorSet.validators = [] then throw "validator set is nil or empty"
  if lb.signedHeader.header.validatorsHash ≠ lb.validatorSet.hash then
    throw "expected validator hash of header to match validator set hash"

end CometMock
