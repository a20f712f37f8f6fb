import CometMock.Types.Block

/-!
CometBFT's `types.VoteSet` for one height, round and vote type: `AddVote` with every check it
makes before tallying, the tally by block that detects a two-thirds majority, and
`MakeExtendedCommit`. Also the light client's `VerifyCommitLightTrusting`, the other commit check
CometMock's round runs.
-/

namespace CometMock

/-- `blockVotes`: the votes for one block, indexed by validator. -/
structure BlockVotes where
  peerMaj23 : Bool
  votes : List (Option Vote)
  sum : Int
  deriving Repr, DecidableEq

/-- `blockVotes.addVerifiedVote`: count a vote once per validator. -/
def BlockVotes.addVerifiedVote (bv : BlockVotes) (vote : Vote) (votingPower : Int) : BlockVotes :=
  let i := vote.validatorIndex.toNat
  if (bv.votes.getD i none).isNone then
    { bv with votes := bv.votes.set i (some vote), sum := bv.sum + votingPower }
  else bv

/-- `types.VoteSet`; `votesByBlock` is keyed by the block ID instead of its key string. -/
structure VoteSet where
  chainId : String
  height : Int
  round : Int
  signedMsgType : SignedMsgType
  valSet : ValidatorSet
  extensionsEnabled : Bool
  votes : List (Option Vote)
  sum : Int
  maj23 : Option BlockID
  votesByBlock : List (BlockID × BlockVotes)
  deriving Repr, DecidableEq

/-- `types.NewExtendedVoteSet`: a vote set that verifies vote extensions. -/
def newExtendedVoteSet (chainId : String) (height round : Int) (signedMsgType : SignedMsgType)
    (valSet : ValidatorSet) : Except Failure VoteSet :=
  if height = 0 then .error (.panic "Cannot make VoteSet for height == 0, doesn't make sense.")
  else .ok ⟨chainId, height, round, signedMsgType, valSet, true,
    List.replicate valSet.size none, 0, none, []⟩

namespace VoteSet

/-- `VoteSet.getVote`: the vote of validator `i` for `blockId` that the set already holds. -/
def getVote (vs : VoteSet) (i : Nat) (blockId : BlockID) : Option Vote :=
  match vs.votes.getD i none with
  | some existing => if existing.blockId = blockId then some existing else none
  | none => ((vs.votesByBlock.lookup blockId).bind fun bv => bv.votes.getD i none)

/-- `VoteSet.addVerifiedVote`: record a verified vote. Returns whether it was added, whether it
conflicts with an earlier vote of the same validator, and the new set. -/
def addVerifiedVote (vs : VoteSet) (vote : Vote) (votingPower : Int) :
    Except Failure (Bool × Bool × VoteSet) := do
  let i := vote.validatorIndex.toNat
  let (conflicting, vs) ← match vs.votes.getD i none with
    | some existing =>
      if existing.blockId = vote.blockId then
        throw (.panic "addVerifiedVote does not expect duplicate votes")
      else if vs.maj23 = some vote.blockId then
        pure (true, { vs with votes := vs.votes.set i (some vote) })
      else pure (true, vs)
    | none => pure (false, { vs with votes := vs.votes.set i (some vote), sum := vs.sum + votingPower })
  let bv ← match vs.votesByBlock.lookup vote.blockId with
    | some bv => if conflicting && !bv.peerMaj23 then return (false, true, vs) else pure bv
    | none =>
      if conflicting then return (false, true, vs)
      else pure ⟨false, List.replicate vs.valSet.size none, 0⟩
  let origSum := bv.sum
  let quorum := vs.valSet.totalVotingPower * 2 / 3 + 1
  let bv := bv.addVerifiedVote vote votingPower
  let vs := { vs with votesByBlock := (vote.blockId, bv) :: vs.votesByBlock.filter (·.1 ≠ vote.blockId) }
  if origSum < quorum && quorum ≤ bv.sum && vs.maj23.isNone then
    let votes := (vs.votes.zip bv.votes).map fun (old, new) => new.orElse fun _ => old
    return (true, conflicting, { vs with maj23 := some vote.blockId, votes })
  return (true, conflicting, vs)

/-- `VoteSet.AddVote`, with its checks in CometBFT's order: the index and address are set, the
height, round and type are the set's, the index names a validator with that address, the vote is
new, and its signature (and the extension signature) verify. -/
def addVote (vs : VoteSet) (vote : Vote) : Except Failure (Bool × VoteSet) := do
  let valIndex := vote.validatorIndex
  if valIndex < 0 then throw (.error "index < 0: invalid validator index")
  if vote.validatorAddress = [] then throw (.error "empty address: invalid validator address")
  if vote.height ≠ vs.height ∨ vote.round ≠ vs.round ∨ vote.type ≠ vs.signedMsgType then
    throw (.error "unexpected step")
  let some val := vs.valSet.getByIndex valIndex
    | throw (.error "cannot find validator in valSet: invalid validator index")
  if vote.validatorAddress ≠ val.address then
    throw (.error "vote.ValidatorAddress does not match address for vote.ValidatorIndex")
  if let some existing := vs.getVote valIndex.toNat vote.blockId then
    if existing.signature = vote.signature then return (false, vs)
    else throw (.error "existing vote: non-deterministic signature")
  match vote.verify vs.chainId val.pubKey vs.extensionsEnabled with
  | .error e => throw (.error s!"failed to verify vote: {e}")
  | .ok () => pure ()
  if !vs.extensionsEnabled && (vote.extensionSignature ≠ none || vote.extension ≠ []) then
    throw (.error "unexpected vote extension data present in vote")
  let (added, conflicting, vs) ← vs.addVerifiedVote vote val.votingPower
  if conflicting then throw (.error "conflicting vote")
  if !added then throw (.panic "Expected to add non-conflicting vote")
  return (added, vs)

/-- `ExtendedCommit.EnsureExtensions`. -/
def ensureExtensions (sigs : List ExtendedCommitSig) (extEnabled : Bool) : Except String Unit :=
  sigs.forM fun ecs => ecs.ensureExtension extEnabled

/-- `VoteSet.MakeExtendedCommit`. It panics unless some block has a two-thirds majority. -/
def makeExtendedCommit (vs : VoteSet) (ap : ABCIParams) : Except Failure ExtendedCommit := do
  if vs.signedMsgType ≠ .precommit then
    throw (.panic "Cannot MakeExtendCommit() unless VoteSet.Type is PrecommitType")
  let some maj23 := vs.maj23
    | throw (.panic "Cannot MakeExtendCommit() unless a blockhash has +2/3")
  let sigs ← vs.votes.mapM fun v => do
    let sig ← Vote.extendedCommitSig v
    if sig.commitSig.blockIdFlag = .commit ∧ (v.map (·.blockId)) ≠ some maj23 then
      pure ExtendedCommitSig.absent
    else pure sig
  let enabled ← ap.voteExtensionsEnabled vs.height
  match ensureExtensions sigs enabled with
  | .error e => throw (.panic s!"problem with vote extension data when making extended commit: {e}")
  | .ok () => pure ⟨vs.height, vs.round, maj23, sigs⟩

end VoteSet

/-- The sign-bytes of the vote behind commit signature `cs` (`Commit.VoteSignBytes`). -/
def Commit.voteSignBytes (c : Commit) (chainId : String) (cs : CommitSig) : SignBytes :=
  .vote chainId .precommit c.height c.round (if cs.blockIdFlag = .commit then c.blockId else .zero)
    cs.timestamp

/-- `ValidatorSet.VerifyCommitLightTrusting`: the commit signatures of validators of the set
verify and carry more than `numerator / denominator` of its power. Left out: `CommitSig.ValidateBasic`
on each signature, the nil-set, nil-commit and zero-denominator guards, and the `int64` overflow
check of the needed power. -/
def ValidatorSet.verifyCommitLightTrusting (vals : ValidatorSet) (chainId : String) (c : Commit)
    (numerator denominator : Int) : Except String Unit :=
  go c.signatures [] 0
where
  needed : Int := vals.totalVotingPower * numerator / denominator
  go : List CommitSig → List Int → Int → Except String Unit
    | [], _, tallied =>
      if tallied ≤ needed then .error "not enough voting power signed" else .ok ()
    | cs :: rest, seen, tallied =>
      if cs.blockIdFlag ≠ .commit then go rest seen tallied
      else match vals.getByAddress cs.validatorAddress with
        | (_, none) => go rest seen tallied
        | (i, some val) =>
          if i ∈ seen then .error "double vote"
          else if !val.pubKey.verifySignature (c.voteSignBytes chainId cs) cs.signature then
            .error "wrong signature"
          else if needed < tallied + val.votingPower then .ok ()
          else go rest (i :: seen) (tallied + val.votingPower)

end CometMock
