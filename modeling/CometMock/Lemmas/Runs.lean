import CometMock.Lemmas.Round
import CometMock.RpcServer

/-!
Runs of rounds. `RunBlock`, `RunBlockWithEvidence` and `BroadcastTx` each run one round, and
`RunEmptyBlocks` runs rounds until one fails. Over any run, the chain height grows by one per
round that returned, and the last block, the last commit and the chain state keep describing the
same block.
-/

namespace CometMock

open AbciClient

/-- One round from `w`: a call of `RunBlockWithTimeAndProposer`, with any arguments, that ends in
`w'` and returned exactly when `ok`. -/
def RoundStep (env : Env) (w : World) (ok : Bool) (w' : World) : Prop :=
  ∃ now tx blockTime proposer misbehavingValidators,
    (ok = true ∧ ∃ r, runBlockWithTimeAndProposer env now tx blockTime proposer
      misbehavingValidators w = .ok r w') ∨
    (ok = false ∧ ∃ f, runBlockWithTimeAndProposer env now tx blockTime proposer
      misbehavingValidators w = .error f w')

/-- A run of rounds from `w` to `w'`, with the outcome of each. -/
inductive RoundRun (env : Env) : World → List Bool → World → Prop
  | nil (w : World) : RoundRun env w [] w
  | cons {w w₁ w₂ : World} {ok : Bool} {outcomes : List Bool} :
      RoundStep env w ok w₁ → RoundRun env w₁ outcomes w₂ → RoundRun env w (ok :: outcomes) w₂

theorem roundStep_of_call (env : Env) (now : Int) (tx : Option Bytes) (blockTime : Int)
    (proposer : Option Validator) (misbehavingValidators : List (Validator × MisbehaviourType))
    (w : World) :
    ∃ ok, RoundStep env w ok
      (finalWorld (runBlockWithTimeAndProposer env now tx blockTime proposer misbehavingValidators w)) := by
  cases h : runBlockWithTimeAndProposer env now tx blockTime proposer misbehavingValidators w with
  | ok r w' => exact ⟨true, now, tx, blockTime, proposer, misbehavingValidators, .inl ⟨rfl, r, h⟩⟩
  | error f w' => exact ⟨false, now, tx, blockTime, proposer, misbehavingValidators, .inr ⟨rfl, f, h⟩⟩

theorem runBlock_roundStep (env : Env) (now : Int) (tx : Option Bytes) (w : World) :
    ∃ ok, RoundStep env w ok (finalWorld (runBlock env now tx w)) := by
  rw [runBlock_apply]
  exact roundStep_of_call ..

theorem runBlockWithEvidence_roundStep (env : Env) (now : Int) (tx : Option Bytes)
    (misbehavingValidators : List (Validator × MisbehaviourType)) (w : World) :
    ∃ ok, RoundStep env w ok (finalWorld (runBlockWithEvidence env now tx misbehavingValidators w)) := by
  rw [runBlockWithEvidence, getClient_bind]
  exact roundStep_of_call ..

theorem broadcastTx_roundStep (env : Env) (now : Int) (tx : Bytes) (w : World) :
    ∃ ok, RoundStep env w ok (finalWorld (broadcastTx env now tx w)) := by
  rw [broadcastTx, finalWorld_bind_pure]
  exact runBlock_roundStep ..

theorem runEmptyBlocks_roundRun (env : Env) (clock : Nat → Int) (numBlocks : Int) (w : World) :
    ∃ outcomes, RoundRun env w outcomes (finalWorld (runEmptyBlocks env clock numBlocks w)) := by
  unfold runEmptyBlocks
  suffices h : ∀ n i w, ∃ outcomes, RoundRun env w outcomes
      (finalWorld (runEmptyBlocks.go env clock n i w)) from h _ _ w
  intro n
  induction n with
  | zero => exact fun i w => ⟨[], .nil w⟩
  | succ n ih =>
    intro i w
    unfold runEmptyBlocks.go
    obtain ⟨ok, hs⟩ := runBlock_roundStep env (clock i) none w
    cases h : runBlock env (clock i) none w with
    | ok r w' =>
      simp only [h, finalWorld_ok] at hs
      obtain ⟨outcomes, hrun⟩ := ih (i + 1) w'
      exact ⟨ok :: outcomes, .cons hs (by rwa [bind_of_ok h])⟩
    | error f w' =>
      simp only [h, finalWorld_error] at hs
      exact ⟨[ok], .cons hs (by rw [bind_of_error h]; exact .nil _)⟩

/-- The engine's last block, its last commit and its chain state describe the same block. -/
structure LastBlockCoherent (a : AbciClient) : Prop where
  blockHeight : a.lastBlock.header.height = a.curState.lastBlockHeight
  blockId : getBlockIdFromBlock a.lastBlock = a.curState.lastBlockId
  commitHeight : a.lastCommit.height = a.curState.lastBlockHeight
  commitBlockId : a.lastCommit.blockId = a.curState.lastBlockId

theorem LastBlockCoherent.setCurValidators {a : AbciClient} (hc : LastBlockCoherent a)
    (vs : List Validator) : LastBlockCoherent (a.setCurValidators vs) :=
  ⟨hc.1, hc.2, hc.3, hc.4⟩

/-- Over every run of rounds from a state whose last block, last commit and chain state agree,
the chain height grows by one per round that returned, and the three still describe one block:
the last block of the start while no round has returned. -/
theorem roundRun_height_and_last_block {env : Env} {w w' : World} {outcomes : List Bool}
    (hrun : RoundRun env w outcomes w') (hc : LastBlockCoherent w.client) :
    w'.client.curState.lastBlockHeight = w.client.curState.lastBlockHeight + outcomes.count true ∧
      LastBlockCoherent w'.client ∧
      (outcomes.count true = 0 → w'.client.lastBlock = w.client.lastBlock) := by
  induction hrun with
  | nil => simpa using hc
  | @cons w w₁ w₂ ok outcomes hs _ ih =>
    obtain ⟨now, tx, blockTime, proposer, mis, hs⟩ := hs
    obtain ⟨f, w₃, hfail, vs, -, hw⟩ :=
      runBlockWithTimeAndProposer_fails env now tx blockTime proposer mis w
    obtain ⟨-, r, hok⟩ | ⟨rfl, f', herr⟩ := hs
    · rw [hfail] at hok; cases hok
    rw [hfail] at herr
    cases herr
    obtain ⟨hh, hc₂, hb⟩ := ih (hw ▸ hc.setCurValidators vs)
    refine ⟨by simp [hh, hw, AbciClient.setCurValidators], hc₂, fun h0 => ?_⟩
    rw [hb (by simpa using h0), hw]
    rfl

/-- `oneValidatorWorld` with its chain state and last commit pointing at its last block. -/
def coherentWorld : World :=
  let a := oneValidatorWorld.client
  let blockId := getBlockIdFromBlock a.lastBlock
  ⟨{ a with
      lastCommit := { a.lastCommit with blockId }
      curState := { a.curState with lastBlockId := blockId } }, []⟩

theorem roundRun_height_and_last_block_of_one_round :
    ∃ w', RoundRun acceptingEnv coherentWorld [false] w' ∧ LastBlockCoherent coherentWorld.client ∧
      (w'.client.curState.lastBlockHeight =
          coherentWorld.client.curState.lastBlockHeight + [false].count true ∧
        LastBlockCoherent w'.client ∧
        ([false].count true = 0 → w'.client.lastBlock = coherentWorld.client.lastBlock)) := by
  obtain ⟨f, w', h, -⟩ :=
    runBlockWithTimeAndProposer_fails acceptingEnv 0 none 0 (some genesisValidator) [] coherentWorld
  have hrun : RoundRun acceptingEnv coherentWorld [false] w' :=
    .cons ⟨0, none, 0, some genesisValidator, [], .inr ⟨rfl, f, h⟩⟩ (.nil _)
  have hc : LastBlockCoherent coherentWorld.client := ⟨rfl, rfl, rfl, rfl⟩
  exact ⟨w', hrun, hc, roundRun_height_and_last_block hrun hc⟩

end CometMock
