import Mathlib.Data.List.Sort
import CometMock.Crypto

/-!
CometBFT's `types.Validator` and `types.ValidatorSet`, as far as CometMock calls them: lookups by
address and index, the total power, the set hash, and the two algorithms that move a set from one
height to the next, `UpdateWithChangeSet` and `IncrementProposerPriority`.
-/

namespace CometMock

/-- `types.Validator`. -/
structure Validator where
  address : Bytes
  pubKey : PubKey
  votingPower : Int
  proposerPriority : Int
  deriving Repr, DecidableEq

/-- `types.NewValidator`. -/
def newValidator (pubKey : PubKey) (votingPower : Int) : Validator :=
  ⟨pubKey.address, pubKey, votingPower, 0⟩

/-- `types.MaxTotalVotingPower = math.MaxInt64 / 8`. -/
def maxTotalVotingPower : Int := maxInt64 / 8

/-- `ValidatorsByAddress.Less`. -/
def byAddress (a b : Validator) : Prop := bytesLt a.address b.address

instance : DecidableRel byAddress := fun a b => inferInstanceAs (Decidable (bytesLt a.address b.address))

/-- `ValidatorsByVotingPower.Less`: higher power first, ties broken by the smaller address. -/
def byVotingPower (a b : Validator) : Prop :=
  if a.votingPower = b.votingPower then bytesLt a.address b.address else b.votingPower < a.votingPower

instance : DecidableRel byVotingPower := fun a b => by unfold byVotingPower; infer_instance

/-- `Validator.CompareProposerPriority`: the higher priority wins, then the smaller address. Go
panics on two validators with the same priority and address; the model returns `other`. -/
def compareProposerPriority (v other : Validator) : Validator :=
  if other.proposerPriority < v.proposerPriority then v
  else if v.proposerPriority < other.proposerPriority then other
  else if bytesLt v.address other.address then v
  else other

/-- Sum of the voting powers of a validator list. -/
def totalPower (vs : List Validator) : Int := (vs.map (·.votingPower)).sum

/-- `ValidatorSet`: the validators in voting-power order and the current proposer pointer. -/
structure ValidatorSet where
  validators : List Validator
  proposer : Option Validator
  deriving Repr, DecidableEq

namespace ValidatorSet

/-- `ValidatorSet.Size`. -/
def size (vals : ValidatorSet) : Nat := vals.validators.length

/-- `ValidatorSet.TotalVotingPower`. -/
def totalVotingPower (vals : ValidatorSet) : Int := totalPower vals.validators

/-- `ValidatorSet.Hash`: the Merkle root over each validator's key and power, in set order. -/
def hash (vals : ValidatorSet) : Digest :=
  .validators (vals.validators.map fun v => (v.pubKey, v.votingPower))

/-- `ValidatorSet.GetByAddress`: the first index holding `address`, or `-1`. -/
def getByAddress (vals : ValidatorSet) (address : Bytes) : Int × Option Validator :=
  go vals.validators 0
where
  go : List Validator → Int → Int × Option Validator
    | [], _ => (-1, none)
    | v :: vs, i => if v.address = address then (i, some v) else go vs (i + 1)

/-- `ValidatorSet.GetByIndex`. -/
def getByIndex (vals : ValidatorSet) (index : Int) : Option Validator :=
  if index < 0 then none else vals.validators.get? index.toNat

/-- Whether some validator of the set has `address`. -/
def hasAddress (vals : ValidatorSet) (address : Bytes) : Bool :=
  vals.validators.any (·.address == address)

end ValidatorSet

/-- `computeMaxMinPriorityDiff`. -/
def maxMinPriorityDiff (vs : List Validator) : Int :=
  let ps := vs.map (·.proposerPriority)
  (ps.foldl max minInt64 - ps.foldl min maxInt64).natAbs

/-- `ValidatorSet.RescalePriorities`: divide all priorities so that they span at most `diffMax`. -/
def rescalePriorities (vs : List Validator) (diffMax : Int) : List Validator :=
  if diffMax ≤ 0 then vs
  else
    let diff := maxMinPriorityDiff vs
    let ratio := (diff + diffMax - 1) / diffMax
    if diffMax < diff then vs.map fun v => { v with proposerPriority := v.proposerPriority.tdiv ratio }
    else vs

/-- `ValidatorSet.shiftByAvgProposerPriority`; `big.Int.Div` is Euclidean division. -/
def shiftByAvgProposerPriority (vs : List Validator) : List Validator :=
  let avg := (vs.map (·.proposerPriority)).sum / vs.length
  vs.map fun v => { v with proposerPriority := safeSubClip v.proposerPriority avg }

/-- `getValWithMostPriority`: the left fold of `CompareProposerPriority` over the list, with the
index of the validator it returns. -/
def mostPriority (vs : List Validator) : Option (Nat × Validator) :=
  go vs 0 none
where
  go : List Validator → Nat → Option (Nat × Validator) → Option (Nat × Validator)
    | [], _, res => res
    | v :: vs, i, none => go vs (i + 1) (some (i, v))
    | v :: vs, i, some (j, r) =>
      go vs (i + 1) (if compareProposerPriority r v = r then some (j, r) else some (i, v))

/-- One round of `incrementProposerPriority`: every priority grows by the validator's power and
the winner pays the total power back. Returns the new list and the winner. -/
def incrementOnce (vs : List Validator) (total : Int) : List Validator × Option Validator :=
  let vs := vs.map fun v => { v with proposerPriority := safeAddClip v.proposerPriority v.votingPower }
  match mostPriority vs with
  | none => (vs, none)
  | some (i, m) =>
    let m := { m with proposerPriority := safeSubClip m.proposerPriority total }
    (vs.set i m, some m)

/-- `incrementOnce` applied `times` times; the proposer is the last winner. -/
def incrementTimes (vs : List Validator) (total : Int) : Nat → List Validator × Option Validator
  | 0 => (vs, none)
  | 1 => incrementOnce vs total
  | n + 2 => incrementTimes (incrementOnce vs total).1 total (n + 1)

namespace ValidatorSet

/-- `ValidatorSet.IncrementProposerPriority`. It panics on an empty set and on `times = 0`. -/
def incrementProposerPriority (vals : ValidatorSet) (times : Nat) : Except Failure ValidatorSet :=
  if vals.validators = [] then .error (.panic "empty validator set")
  else if times = 0 then
    .error (.panic "Cannot call IncrementProposerPriority with non-positive times")
  else
    let total := vals.totalVotingPower
    let vs := shiftByAvgProposerPriority (rescalePriorities vals.validators (2 * total))
    let (vs, p) := incrementTimes vs total times
    .ok ⟨vs, p⟩

end ValidatorSet

/-- `processChanges`: sort the changes by address, reject duplicates and out-of-range powers,
and split them into updates (positive power) and removals (power zero). `prevAddr` starts as
Go's nil address, which `bytes.Equal` treats as the empty address. -/
def processChanges (changes : List Validator) : Except Failure (List Validator × List Validator) :=
  go (changes.insertionSort byAddress) []
where
  go : List Validator → Bytes → Except Failure (List Validator × List Validator)
    | [], _ => .ok ([], [])
    | v :: vs, prevAddr =>
      if v.address = prevAddr then .error (.error "duplicate entry")
      else if v.votingPower < 0 then .error (.error "voting power can't be negative")
      else if maxTotalVotingPower < v.votingPower then
        .error (.error "to prevent clipping/overflow, voting power can't be higher than the maximum")
      else do
        let (updates, removals) ← go vs v.address
        if v.votingPower = 0 then pure (updates, v :: removals) else pure (v :: updates, removals)

/-- `numNewValidators`: how many updates name an address the set does not hold. -/
def numNewValidators (updates : List Validator) (vals : ValidatorSet) : Nat :=
  (updates.filter fun u => !vals.hasAddress u.address).length

/-- `verifyRemovals`: every removal names a validator of the set; returns the removed power. -/
def verifyRemovals (deletes : List Validator) (vals : ValidatorSet) : Except Failure Int :=
  deletes.foldlM (fun removed d =>
    match (vals.getByAddress d.address).2 with
    | none => .error (.error "failed to find validator to remove")
    | some v => .ok (removed + v.votingPower)) 0

/-- The power change an update makes to the set (`delta` in `verifyUpdates`). -/
def powerDelta (vals : ValidatorSet) (u : Validator) : Int :=
  match (vals.getByAddress u.address).2 with
  | some v => u.votingPower - v.votingPower
  | none => u.votingPower

/-- `verifyUpdates`: apply the power changes in increasing order and fail as soon as the running
total would exceed `MaxTotalVotingPower`. Returns the total after updates, before removals. -/
def verifyUpdates (updates : List Validator) (vals : ValidatorSet) (removedPower : Int) :
    Except Failure Int := do
  let sorted := updates.insertionSort fun a b => powerDelta vals a < powerDelta vals b
  let tvpAfterRemovals ← sorted.foldlM (fun tvp u =>
      let tvp := tvp + powerDelta vals u
      if maxTotalVotingPower < tvp then
        .error (.error "failed to add/update validator, total voting power would exceed the max allowed")
      else .ok tvp) (vals.totalVotingPower - removedPower)
  pure (tvpAfterRemovals + removedPower)

/-- `computeNewPriorities`: a new validator starts at `-1.125` times the updated total power, an
existing one keeps its priority. -/
def computeNewPriorities (updates : List Validator) (vals : ValidatorSet)
    (updatedTotalVotingPower : Int) : List Validator :=
  updates.map fun u =>
    match (vals.getByAddress u.address).2 with
    | none => { u with proposerPriority := -(updatedTotalVotingPower + updatedTotalVotingPower / 8) }
    | some v => { u with proposerPriority := v.proposerPriority }

/-- The merge loop of `applyUpdates` while `e :: es` remains of the existing validators: `rest`
merges `es` with what remains of the updates. -/
def applyUpdatesFrom (e : Validator) (es : List Validator) (rest : List Validator → List Validator) :
    List Validator → List Validator
  | [] => e :: es
  | u :: us =>
    if bytesLt e.address u.address then e :: rest (u :: us)
    else if e.address = u.address then u :: rest us
    else u :: applyUpdatesFrom e es rest us

/-- `applyUpdates`: merge two address-sorted lists; an update replaces the validator it names. -/
def applyUpdates : List Validator → List Validator → List Validator
  | [], updates => updates
  | e :: es, updates => applyUpdatesFrom e es (applyUpdates es) updates

theorem applyUpdates_cons_cons (e u : Validator) (es us : List Validator) :
    applyUpdates (e :: es) (u :: us) =
      if bytesLt e.address u.address then e :: applyUpdates es (u :: us)
      else if e.address = u.address then u :: applyUpdates es us
      else u :: applyUpdates (e :: es) us := rfl

/-- `applyRemovals`: drop the validators that a removal names. Go walks the two address-sorted
lists in step; on the sorted, verified lists it receives that walk is this filter. -/
def applyRemovals (existing deletes : List Validator) : List Validator :=
  existing.filter fun v => !deletes.any (·.address == v.address)

namespace ValidatorSet

/-- `ValidatorSet.updateWithChangeSet`. Any error leaves the set as it was; on success the
proposer pointer is left untouched. -/
def updateWithChangeSet (vals : ValidatorSet) (changes : List Validator) (allowDeletes : Bool) :
    Except Failure ValidatorSet := do
  if changes = [] then return vals
  let (updates, deletes) ← processChanges changes
  if !allowDeletes && deletes ≠ [] then
    throw (.error "cannot process validators with voting power 0")
  if numNewValidators updates vals = 0 && vals.validators.length = deletes.length then
    throw (.error "applying the validator changes would result in empty set")
  let removedVotingPower ← verifyRemovals deletes vals
  let tvp ← verifyUpdates updates vals removedVotingPower
  let updates := computeNewPriorities updates vals tvp
  let vs := applyRemovals (applyUpdates (vals.validators.insertionSort byAddress) updates) deletes
  let vs := shiftByAvgProposerPriority (rescalePriorities vs (2 * totalPower vs))
  return { vals with validators := vs.insertionSort byVotingPower }

/-- `ValidatorSet.UpdateWithChangeSet`, which allows removals. -/
def UpdateWithChangeSet (vals : ValidatorSet) (changes : List Validator) :
    Except Failure ValidatorSet :=
  vals.updateWithChangeSet changes true

end ValidatorSet

/-- `types.NewValidatorSet`: build a set from scratch and pick its first proposer. It panics on a
list that `updateWithChangeSet` rejects, removals included. -/
def newValidatorSet (valz : List Validator) : Except Failure ValidatorSet :=
  match (ValidatorSet.mk [] none).updateWithChangeSet valz false with
  | .error (.error e) => .error (.panic s!"Cannot create validator set: {e}")
  | .error f => .error f
  | .ok vals => if valz = [] then .ok vals else vals.incrementProposerPriority 1

/-- `ValidatorSet.CopyIncrementProposerPriority`. -/
def ValidatorSet.copyIncrementProposerPriority (vals : ValidatorSet) (times : Nat) :
    Except Failure ValidatorSet :=
  vals.incrementProposerPriority times

end CometMock
