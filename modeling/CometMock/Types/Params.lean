import CometMock.Crypto

/-!
CometBFT's consensus parameters: the record the chain state carries, the protobuf update an
application returns from `InitChain` or `FinalizeBlock`, `Update`, `ValidateBasic`, and the vote
extension switch `ABCIParams.VoteExtensionsEnabled`.
-/

namespace CometMock

/-- `types.BlockParams`. -/
structure BlockParams where
  maxBytes : Int
  maxGas : Int
  deriving Repr, DecidableEq

/-- `types.EvidenceParams`; the duration is in nanoseconds. -/
structure EvidenceParams where
  maxAgeNumBlocks : Int
  maxAgeDuration : Int
  maxBytes : Int
  deriving Repr, DecidableEq

/-- `types.ValidatorParams`. -/
structure ValidatorParams where
  pubKeyTypes : List String
  deriving Repr, DecidableEq

/-- `types.VersionParams`. -/
structure VersionParams where
  app : Nat
  deriving Repr, DecidableEq

/-- `types.ABCIParams`. -/
structure ABCIParams where
  voteExtensionsEnableHeight : Int
  deriving Repr, DecidableEq

/-- `types.ConsensusParams`. -/
structure ConsensusParams where
  block : BlockParams
  evidence : EvidenceParams
  validator : ValidatorParams
  version : VersionParams
  abci : ABCIParams
  deriving Repr, DecidableEq

/-- The protobuf `cmtproto.ConsensusParams`, whose sub-messages may each be nil. -/
structure ParamsUpdate where
  block : Option BlockParams
  evidence : Option EvidenceParams
  validator : Option ValidatorParams
  version : Option VersionParams
  abci : Option ABCIParams
  deriving Repr, DecidableEq

/-- `types.MaxBlockSizeBytes`. -/
def maxBlockSizeBytes : Int := 104857600

/-- The keys of `types.ABCIPubKeyTypesToNames`. -/
def abciPubKeyTypes : List String := ["ed25519", "secp256k1"]

/-- `types.IsValidPubkeyType`. -/
def isValidPubkeyType (params : ValidatorParams) (pubkeyType : String) : Bool :=
  params.pubKeyTypes.contains pubkeyType

/-- `ABCIParams.VoteExtensionsEnabled`: extensions are on from the enable height on, and never
when it is 0. It panics on heights below 1. -/
def ABCIParams.voteExtensionsEnabled (a : ABCIParams) (h : Int) : Except Failure Bool :=
  if h < 1 then .error (.panic "cannot check if vote extensions enabled for height (< 1)")
  else .ok (a.voteExtensionsEnableHeight ≠ 0 && a.voteExtensionsEnableHeight ≤ h)

namespace ConsensusParams

/-- `ConsensusParams.Update`: every sub-message present in `params2` replaces its counterpart. -/
def update (params : ConsensusParams) : Option ParamsUpdate → ConsensusParams
  | none => params
  | some p =>
    { block := p.block.getD params.block
      evidence := p.evidence.getD params.evidence
      validator := p.validator.getD params.validator
      version := p.version.getD params.version
      abci := p.abci.getD params.abci }

/-- `ConsensusParams.ValidateBasic`: the first failing check's error. -/
def validateBasic (params : ConsensusParams) : Except String Unit :=
  if params.block.maxBytes = 0 then .error "block.MaxBytes cannot be 0"
  else if params.block.maxBytes < -1 then .error "block.MaxBytes must be -1 or greater than 0"
  else if maxBlockSizeBytes < params.block.maxBytes then .error "block.MaxBytes is too big"
  else if params.block.maxGas < -1 then .error "block.MaxGas must be greater or equal to -1"
  else if params.evidence.maxAgeNumBlocks ≤ 0 then
    .error "evidence.MaxAgeNumBlocks must be greater than 0"
  else if params.evidence.maxAgeDuration ≤ 0 then
    .error "evidence.MaxAgeDuration must be grater than 0 if provided"
  else
    let maxBytes := if params.block.maxBytes = -1 then maxBlockSizeBytes else params.block.maxBytes
    if maxBytes < params.evidence.maxBytes then
      .error "evidence.MaxBytesEvidence is greater than upper bound"
    else if params.evidence.maxBytes < 0 then .error "evidence.MaxBytes must be non negative"
    else if params.abci.voteExtensionsEnableHeight < 0 then
      .error "ABCI.VoteExtensionsEnableHeight cannot be negative"
    else if params.validator.pubKeyTypes = [] then
      .error "len(Validator.PubKeyTypes) must be greater than 0"
    else if params.validator.pubKeyTypes.any (!abciPubKeyTypes.contains ·) then
      .error "params.Validator.PubKeyTypes is an unknown pubkey type"
    else .ok ()

/-- `ConsensusParams.Hash`: CometBFT hashes only the block size limits. -/
def hash (params : ConsensusParams) : Digest :=
  .params params.block.maxBytes params.block.maxGas

/-- `ConsensusParams.ToProto`. -/
def toProto (params : ConsensusParams) : ParamsUpdate :=
  ⟨some params.block, some params.evidence, some params.validator, some params.version,
    some params.abci⟩

end ConsensusParams

end CometMock
