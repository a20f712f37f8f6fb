import CometMock.Lemmas.Proposer

/-!
What happens to a transaction. `RunBlock` sends it to every backend's `CheckTx` and carries on
with whatever they answer: `SendCheckTx` fails only on a transport error, or on unequal responses
when asked to compare them, and the rest of the round never reads a response. The proposer's
`PrepareProposal` then sees the transaction, but `Txs.Validate` checks the list it returns against
`maxDataBytes = -1`, which every non-empty list exceeds, so `CreateProposalBlock` only returns
blocks without transactions.
-/

namespace CometMock

open AbciClient

/-- With `maxDataBytes = -1`, `Txs.Validate` accepts only the empty list. -/
theorem validateTxs_maxDataBytes {txs : List Bytes} :
    validateTxs txs maxDataBytes = .ok () ↔ txs = [] := by
  cases txs with
  | nil => exact iff_of_true rfl rfl
  | cons tx txs =>
    rw [validateTxs, validateTxs.go, if_pos (by simp only [maxDataBytes]; omega)]
    simp

namespace AbciClient

theorem createProposalBlock_txs (env : Env) (proposerApp : Counterparty) (height : Int)
    (curState : State) (lastExtCommit : ExtendedCommit) (txs : List Bytes)
    (misbehaviour : List Evidence) :
    Returns (createProposalBlock env proposerApp height curState lastExtCommit txs misbehaviour)
      (·.txs = []) :=
  Returns.imp (createProposalBlock_returns env proposerApp height curState lastExtCommit txs
    misbehaviour) fun _ ⟨_, hv, hb⟩ =>
    hb ▸ validateTxs_maxDataBytes.mp hv

/-- When every backend answers and the responses are not compared, `SendCheckTx` returns the
first backend's response, whatever its code. -/
theorem sendCheckTx_returns_first (env : Env) (tx : Bytes) {w : World} {c : Counterparty}
    {cs : List Counterparty} (hclients : w.client.clients = c :: cs)
    (hunequal : w.client.errorOnUnequalResponses = false)
    (hanswer : ∀ (c : Counterparty) msgs, ∃ r, env.backends.checkTx msgs c.networkAddress tx = .ok r) :
    ∃ r, env.backends.checkTx w.sent c.networkAddress tx = .ok r ∧
      sendCheckTx env tx w =
        .ok r { w with sent := w.sent ++ (c :: cs).map (Message.of (.checkTx tx)) } := by
  obtain ⟨r, hr⟩ := hanswer c w.sent
  obtain ⟨rs, hrs⟩ := mapM_send (.checkTx tx)
    (fun (c : Counterparty) msgs => env.backends.checkTx msgs c.networkAddress tx)
    (fun c msgs => hanswer c msgs) cs { w with sent := w.sent ++ [⟨c.networkAddress, .checkTx tx⟩] }
  have hmap : ((c :: cs).mapM fun c : Counterparty => c.checkTx env tx) w =
      .ok (r :: rs) { w with sent := w.sent ++ (c :: cs).map (Message.of (.checkTx tx)) } := by
    simp only [List.mapM_cons, Counterparty.checkTx]
    rw [bind_of_ok (send_ok hr), bind_of_ok hrs]
    simp [Message.of]
  refine ⟨r, hr, ?_⟩
  unfold sendCheckTx broadcast
  rw [getClient_bind, hclients, bind_of_ok hmap]
  simp [firstResponse, hunequal]

end AbciClient

/-- The round reads no `CheckTx` response: after `SendCheckTx` it builds the block around the
transaction and votes on it whatever the backends answered, and `SendCheckTx` returns the first
backend's response, whatever its code, when every backend answers. -/
theorem runBlockWithTimeAndProposer_checkTx_unread (env : Env) (now : Int) (t : Bytes)
    (blockTime : Int) (proposer : Option Validator)
    (misbehavingValidators : List (Validator × MisbehaviourType)) :
    runBlockWithTimeAndProposer env now (some t) blockTime proposer misbehavingValidators = (do
      let a ← getClient
      let resCheckTx ← sendCheckTx env t
      let block ← buildProposal env now [t] proposer misbehavingValidators
      let (resFinalizeBlock, resCommit) ← voteAndCommit env (a.curState.lastBlockHeight + 1) block
      return (some resCheckTx, resFinalizeBlock, resCommit)) ∧
    ∀ (w : World) c cs, w.client.clients = c :: cs → w.client.errorOnUnequalResponses = false →
      (∀ (c : Counterparty) msgs, ∃ r, env.backends.checkTx msgs c.networkAddress t = .ok r) →
      ∃ r, env.backends.checkTx w.sent c.networkAddress t = .ok r ∧
        sendCheckTx env t w =
          .ok r { w with sent := w.sent ++ (c :: cs).map (Message.of (.checkTx t)) } := by
  refine ⟨?_, fun _ _ _ => sendCheckTx_returns_first env t⟩
  simp only [runBlockWithTimeAndProposer, proposeBlock, map_eq_bind, bind_assoc, pure_bind,
    Option.toList_some]

/-- Backends whose `CheckTx` rejects every transaction with code 1. -/
def rejectingCheckTxEnv : Env :=
  ⟨{ acceptingBackends with checkTx := fun _ _ _ => .ok ⟨1, [], "rejected", 0, 0⟩ }, fun _ => false⟩

/-- A transaction that the only backend rejects in `CheckTx` still reaches `PrepareProposal`:
the round reads no response code. It fails only afterwards, when `Txs.Validate` rejects the
returned list, and leaves the engine as it was. -/
theorem runBlock_prepares_a_transaction_checkTx_rejected :
    ∃ w', runBlock rejectingCheckTxEnv 0 (some [1]) oneValidatorWorld =
        .error (.error "transaction data size exceeds maximum") w' ∧
      w'.client = oneValidatorWorld.client ∧
      ∃ r, w'.sent = [⟨[97], .checkTx [1]⟩, ⟨[97], .prepareProposal r⟩] ∧ r.txs = [[1]] :=
  ⟨_, rfl, rfl, _, rfl, rfl⟩

/-- No block a round proposes holds a transaction: `Txs.Validate` against `maxDataBytes = -1`
rejects every non-empty list, so the transaction that the proposer's application returns from
`PrepareProposal` makes the round fail. -/
theorem runBlock_rejects_the_transactions_prepareProposal_returns :
    (∀ env proposerApp height curState lastExtCommit txs misbehaviour,
      Returns (createProposalBlock env proposerApp height curState lastExtCommit txs misbehaviour)
        (·.txs = [])) ∧
      ∃ w', runBlock acceptingEnv 0 (some [1]) oneValidatorWorld =
          .error (.error "transaction data size exceeds maximum") w' ∧
        ∃ r, w'.sent = [⟨[97], .checkTx [1]⟩, ⟨[97], .prepareProposal r⟩] ∧ r.txs = [[1]] ∧
          r.maxTxBytes = -1 :=
  ⟨createProposalBlock_txs, _, rfl, _, rfl, rfl, rfl⟩

end CometMock
