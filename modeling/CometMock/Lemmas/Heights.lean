import CometMock.Lemmas.Messages

/-!
Which block the requests of a round concern. The proposal is built at the engine's next height,
`LastBlockHeight + 1`, and every `PrepareProposal`, `ProcessProposal`, `ExtendVote` and
`VerifyVoteExtension` request of the round is about that block. No call of a session moves
`LastBlockHeight` or `InitialHeight`, so from an engine that has not passed its initial height,
no round of any session ever shows a backend a block above `InitialHeight`.
-/

namespace CometMock

open AbciClient

/-- The height of the block a request is about, for the requests of a block's execution. -/
def Request.blockHeight : Request → Option Int
  | .prepareProposal r => some r.height
  | .processProposal r => some r.height
  | .extendVote r => some r.height
  | .verifyVoteExtension r => some r.height
  | .finalizeBlock r => some r.height
  | .info | .initChain _ | .checkTx _ | .commit | .query _ => none

/-- `r` is about no block, or about the block at height `h`. -/
def Request.AtHeight (h : Int) (r : Request) : Prop :=
  match r.blockHeight with
  | some h' => h' = h
  | none => True

/-- A round from world `w` asks only about the block at `w`'s next height. -/
theorem runBlockWithTimeAndProposer_atHeight (env : Env) (now : Int) (tx : Option Bytes)
    (blockTime : Int) (proposer : Option Validator) (mis : List (Validator × MisbehaviourType))
    (w : World) :
    ∃ ms, (finalWorld (runBlockWithTimeAndProposer env now tx blockTime proposer mis w)).sent =
      w.sent ++ ms ∧ ∀ m ∈ ms, m.request.AtHeight (w.client.curState.lastBlockHeight + 1) := by
  obtain ⟨ms, hms, hP⟩ := proposeBlock_emitsOn (P := Request.AtHeight _) env w.client now proposer
    mis tx (fun _ => trivial) (fun _ h => h) (fun _ h => h) w rfl
  unfold runBlockWithTimeAndProposer
  rw [getClient_bind]
  cases hx : proposeBlock env now tx proposer mis w with
  | error e w₁ =>
    rw [hx] at hms
    rw [bind_of_error hx]
    exact ⟨ms, congrArg World.sent hms, hP⟩
  | ok rb w₁ =>
    obtain ⟨r, b⟩ := rb
    have hb := proposeBlock_height env w.client now proposer mis tx w rfl _ _ hx
    rw [hx, finalWorld_ok] at hms
    rw [bind_of_ok hx]
    obtain ⟨ms', hms', hP'⟩ := ((voteAndCommit_sendsOnly (P := Request.AtHeight _) env _ b
      (fun _ h => h.trans hb) fun _ h => h.trans hb).bind fun _ => (emits_pure _).sendsOnly) w₁
    exact ⟨ms ++ ms', by rw [hms', hms, List.append_assoc],
      fun m hm => (List.mem_append.mp hm).elim (hP m) (hP' m)⟩

theorem runSession_heights (env : Env) (calls : List Call) (w : World) :
    (runSession env calls w).client.curState.lastBlockHeight = w.client.curState.lastBlockHeight ∧
      (runSession env calls w).client.curState.initialHeight = w.client.curState.initialHeight := by
  obtain ⟨vs, -, h⟩ := runSession_client env calls w
  have hcur := (controlFrame_foldl_applyControl calls w.client).curState
  rw [h]
  exact ⟨congrArg (·.lastBlockHeight) hcur, congrArg (·.initialHeight) hcur⟩

/-- From an engine that has not passed its initial height, as at genesis, in every world a
session of calls reaches, a round asks its backends only about the block at the next height, which
is at most `InitialHeight`. -/
theorem rounds_stay_at_initial_height (env : Env) (calls : List Call) (w₀ : World)
    (h₀ : w₀.client.curState.lastBlockHeight < w₀.client.curState.initialHeight) (now : Int)
    (tx : Option Bytes) (blockTime : Int) (proposer : Option Validator)
    (mis : List (Validator × MisbehaviourType)) :
    let w := runSession env calls w₀
    w.client.curState.lastBlockHeight + 1 ≤ w.client.curState.initialHeight ∧
      ∃ ms, (finalWorld (runBlockWithTimeAndProposer env now tx blockTime proposer mis w)).sent =
        w.sent ++ ms ∧ ∀ m ∈ ms, m.request.AtHeight (w.client.curState.lastBlockHeight + 1) := by
  intro w
  obtain ⟨hlast, hinit⟩ := runSession_heights env calls w₀
  exact ⟨by rw [hlast, hinit]; omega,
    runBlockWithTimeAndProposer_atHeight env now tx blockTime proposer mis w⟩

theorem rounds_stay_at_initial_height_from_genesis :
    oneValidatorWorld.client.curState.lastBlockHeight <
        oneValidatorWorld.client.curState.initialHeight ∧
      let w := runSession acceptingEnv [.runBlock 0 none] oneValidatorWorld
      w.client.curState.lastBlockHeight + 1 ≤ w.client.curState.initialHeight ∧
        ∃ ms, (finalWorld (runBlockWithTimeAndProposer acceptingEnv 0 none 0
            (some genesisValidator) [] w)).sent = w.sent ++ ms ∧
          ∀ m ∈ ms, m.request.AtHeight (w.client.curState.lastBlockHeight + 1) :=
  have h₀ : oneValidatorWorld.client.curState.lastBlockHeight <
      oneValidatorWorld.client.curState.initialHeight := by decide
  ⟨h₀, rounds_stay_at_initial_height acceptingEnv [.runBlock 0 none] oneValidatorWorld h₀ 0 none 0
    (some genesisValidator) []⟩

end CometMock
