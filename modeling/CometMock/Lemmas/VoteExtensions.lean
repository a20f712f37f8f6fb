import CometMock.Lemmas.Proposer

/-!
The vote-extension loop of a round. For each current validator, in network-address order, its
backend verifies every collected vote whose address, rendered as a string, differs from the
backend's own address string. The loop never asks whether vote extensions are enabled. A vote
from `ExtendAndSignVote` carries the bytes of its backend's address string, whose rendering is
twice as long as an address string, so the comparison never matches: every backend is asked
about every signing validator's vote, its own included.
-/

namespace CometMock

open AbciClient

/-- The `VerifyVoteExtension` request a backend gets for a vote. -/
def verifyRequest (block : Block) (client : Counterparty) (vote : Vote) : Message :=
  ⟨client.networkAddress,
    .verifyVoteExtension ⟨block.hash, vote.validatorAddress, block.header.height, vote.extension⟩⟩

/-- The requests one backend's part of the loop sends: one for each collected vote whose address
string differs from the backend's. -/
def verifyRequests (block : Block) (client : Counterparty) (votes : List (Option Vote)) :
    List Message :=
  ((votes.filterMap id).filter fun v =>
    decide (hexString v.validatorAddress ≠ client.validatorAddress)).map (verifyRequest block client)

theorem hexString_ne_of_length_eq {a b : Bytes} (h : a.length = b.length) (hb : b ≠ []) :
    hexString a ≠ b := by
  intro heq
  have hlen := congrArg List.length heq
  have hpos : 0 < b.length := List.length_pos.mpr hb
  simp only [length_hexString] at hlen
  omega

namespace AbciClient

theorem verifyVotes_sent (env : Env) (block : Block) (client : Counterparty)
    (hacc : ∀ msgs addr r, env.backends.verifyVoteExtension msgs addr r = .ok ⟨1⟩) :
    ∀ (votes : List (Option Vote)) (w : World),
      verifyVotes env block client votes w =
        .ok () { w with sent := w.sent ++ verifyRequests block client votes }
  | [], w => by simp [verifyVotes, verifyRequests]
  | none :: votes, w => by
    simpa [verifyVotes, verifyRequests] using verifyVotes_sent env block client hacc votes w
  | some vote :: votes, w => by
    have ih := verifyVotes_sent env block client hacc votes
    unfold verifyVotes at ih ⊢
    rw [List.forM_cons']
    dsimp only
    by_cases hne : hexString vote.validatorAddress ≠ client.validatorAddress
    · have hcatch : catchError (client.verifyVoteExtension env
          ⟨block.hash, vote.validatorAddress, block.header.height, vote.extension⟩) w =
          .ok (some ⟨1⟩) { w with sent := w.sent ++ [verifyRequest block client vote] } := by
        simp [catchError, Counterparty.verifyVoteExtension, send, hacc, verifyRequest]
      rw [if_pos hne, bind_assoc, bind_of_ok hcatch]
      dsimp only
      rw [if_neg (by decide), pure_bind, if_neg (by decide), pure_bind, ih]
      simp [verifyRequests, hne]
    · rw [if_neg hne, pure_bind, ih]
      simp [verifyRequests, hne]

theorem verifyVoteExtensions_sent (env : Env) (block : Block) (votes : List (Option Vote))
    (hacc : ∀ msgs addr r, env.backends.verifyVoteExtension msgs addr r = .ok ⟨1⟩) :
    ∀ (vals : List Validator) (w : World) (clients : List Counterparty),
      vals.mapM (fun v => w.client.getCounterpartyFromAddress (hexString v.address)) =
          .ok clients →
        verifyVoteExtensions env block votes vals w =
          .ok () { w with sent := w.sent ++ clients.flatMap (verifyRequests block · votes) }
  | [], w, clients, h => by
    cases h
    simp [verifyVoteExtensions]
  | v :: vals, w, clients, h => by
    simp only [List.mapM_cons, except_bind_eq_ok] at h
    obtain ⟨c, hc, cs, hcs, h⟩ := h
    cases h
    have ih := verifyVoteExtensions_sent env block votes hacc vals
      { w with sent := w.sent ++ verifyRequests block c votes } cs hcs
    have hl : liftErr (w.client.getCounterpartyFromAddress (hexString v.address)) w = .ok c w := by
      rw [liftErr_apply, hc]
    unfold verifyVoteExtensions at ih ⊢
    rw [List.forM_cons', bind_assoc, getClient_bind, bind_assoc, bind_of_ok hl,
      bind_of_ok (verifyVotes_sent env block c hacc votes w), ih]
    simp

end AbciClient

theorem verifyRequests_of_length (block : Block) (client : Counterparty)
    (votes : List (Option Vote)) (hc : client.validatorAddress ≠ [])
    (hlen : ∀ v, some v ∈ votes → v.validatorAddress.length = client.validatorAddress.length) :
    verifyRequests block client votes = (votes.filterMap id).map (verifyRequest block client) := by
  unfold verifyRequests
  rw [List.filter_eq_self.mpr]
  intro v hv
  simp only [List.mem_filterMap, id_eq, exists_eq_right] at hv
  simpa using hexString_ne_of_length_eq (hlen v hv) hc

/-- `oneValidatorWorld` with vote extensions never enabled (`VoteExtensionsEnableHeight = 0`). -/
def noExtensionsWorld : World :=
  ⟨engineAt { genesisState with consensusParams := { genesisParams with abci := ⟨0⟩ } }
    [backendFor genesisValidator [97]], []⟩

/-- The only validator's backend is asked to verify the validator's own vote extension, both when
extensions are enabled at the block's height and when they are not. -/
theorem runBlock_asks_a_backend_to_verify_its_own_extension :
    (genesisParams.abci.voteExtensionsEnabled 1 = .ok true ∧
      ∃ f w', runBlock acceptingEnv 0 none oneValidatorWorld = .error f w' ∧
        ∃ rp re rv, w'.sent = [⟨[97], .prepareProposal rp⟩, ⟨[97], .extendVote re⟩,
            ⟨[97], .verifyVoteExtension rv⟩] ∧
          rv.validatorAddress = (backendFor genesisValidator [97]).validatorAddress) ∧
      noExtensionsWorld.client.curState.consensusParams.abci.voteExtensionsEnabled 1 = .ok false ∧
      ∃ f w', runBlock acceptingEnv 0 none noExtensionsWorld = .error f w' ∧
        ∃ rp rv, w'.sent = [⟨[97], .prepareProposal rp⟩, ⟨[97], .verifyVoteExtension rv⟩] ∧
          rv.validatorAddress = (backendFor genesisValidator [97]).validatorAddress :=
  ⟨⟨rfl, _, _, rfl, _, _, _, rfl, rfl⟩, rfl, _, _, rfl, _, _, rfl, rfl⟩

end CometMock
