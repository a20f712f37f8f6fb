import CometMock.Lemmas.Votes
import CometMock.Lemmas.UpdateState

/-!
What a round does to the engine. Up to the vote set, every step only reads the engine's state and
sends requests; the in-place sort of `curVals` reorders the current validators; and the vote set,
built from the unsigned votes the round collects, never yields a commit. So
`RunBlockWithTimeAndProposer` never returns, and the state it leaves differs from the one it
started from at most in the order of the current validators.
-/

namespace CometMock

/-- `b` is `a` with its current validators possibly in another order. -/
def Reordered (a b : AbciClient) : Prop :=
  ∃ vs, vs.Perm a.curState.validators.validators ∧ b = a.setCurValidators vs

namespace AbciClient

@[simp]
theorem setCurValidators_validators (a : AbciClient) (vs : List Validator) :
    (a.setCurValidators vs).curState.validators.validators = vs := rfl

@[simp]
theorem setCurValidators_self (a : AbciClient) :
    a.setCurValidators a.curState.validators.validators = a := rfl

@[simp]
theorem setCurValidators_setCurValidators (a : AbciClient) (vs vs' : List Validator) :
    (a.setCurValidators vs).setCurValidators vs' = a.setCurValidators vs' := rfl

end AbciClient

theorem Reordered.refl (a : AbciClient) : Reordered a a :=
  ⟨_, .refl _, (AbciClient.setCurValidators_self a).symm⟩

theorem Reordered.trans {a b c : AbciClient} : Reordered a b → Reordered b c → Reordered a c := by
  rintro ⟨vs, hvs, rfl⟩ ⟨vs', hvs', rfl⟩
  exact ⟨vs', hvs'.trans (by simpa using hvs), by simp⟩

theorem Reordered.of_eq {a b : AbciClient} (h : b = a) : Reordered a b := h ▸ .refl a

section
variable {α β : Type}

theorem Keeps.reordered_bind {x : ClientM α} {f : α → ClientM β} {P : α → Prop}
    (hx : Keeps Reordered x) (hxP : Returns x P) (hf : ∀ a, P a → Keeps Reordered (f a)) :
    Keeps Reordered (x >>= f) :=
  Keeps.bind (fun _ _ _ h₁ h₂ => h₁.trans h₂) hx hxP hf

theorem KeepsClient.reordered {x : ClientM α} (hx : KeepsClient x) : Keeps Reordered x :=
  hx.mono fun _ _ => Reordered.of_eq

end

/-- Backends that answer every call and accept every proposal and extension. -/
def acceptingBackends : Backends where
  info _ _ := .ok ⟨"", "", 0, 0, []⟩
  initChain _ _ _ := .ok ⟨none, [], []⟩
  checkTx _ _ _ := .ok ⟨0, [], "", 0, 0⟩
  prepareProposal _ _ r := .ok r.txs
  processProposal _ _ _ := .ok ⟨1⟩
  extendVote _ _ _ := .ok []
  verifyVoteExtension _ _ _ := .ok ⟨1⟩
  finalizeBlock _ _ r := .ok ⟨r.txs.map fun _ => some ⟨0, [], "", 0, 0⟩, [], none, []⟩
  commit _ _ := .ok ⟨0⟩
  query _ _ _ := .ok ⟨0, "", "", 0, [], [], 0, ""⟩

def acceptingEnv : Env := ⟨acceptingBackends, fun _ => false⟩

/-- The backend of `v` at `networkAddress`, registered under `v`'s address string. -/
def backendFor (v : Validator) (networkAddress : Bytes) : Counterparty :=
  ⟨networkAddress, hexString v.address, ⟨v.pubKey⟩, true⟩

/-- An engine at chain state `s` before its first block, where every validator signs. -/
def engineAt (s : State) (clients : List Counterparty) : AbciClient :=
  { clients, curState := s, lastBlock := makeBlock s.lastBlockHeight [] ⟨0, 0, .zero, []⟩ [],
    lastCommit := ⟨s.lastBlockHeight, 0, .zero, []⟩, storage := ⟨false, []⟩,
    privValidators := s.validators.validators.map fun v => (hexString v.address, ⟨v.pubKey⟩),
    errorOnUnequalResponses := false,
    signingStatus := s.validators.validators.map fun v => (hexString v.address, true),
    timeOffset := 0 }

/-- `genesisState` with its validator's backend at network address "a". -/
def oneValidatorWorld : World :=
  ⟨engineAt genesisState [backendFor genesisValidator [97]], []⟩

/-- The first block of `oneValidatorWorld`, as its round builds it. -/
def firstBlock : Block :=
  genesisState.makeBlock 1 [] ⟨0, 0, .zero, []⟩ [] (hexString genesisValidator.address)

def secondValidator : Validator := newValidator (.ed25519 (List.replicate 32 2)) 5

def twoValidatorSet : ValidatorSet := ⟨[genesisValidator, secondValidator], some genesisValidator⟩

def twoValidatorState : State :=
  { genesisState with
    validators := twoValidatorSet, nextValidators := twoValidatorSet, lastValidators := twoValidatorSet }

/-- Two validators whose backends' network addresses, "b" and "a", run against the set's order. -/
def twoValidatorWorld : World :=
  ⟨engineAt twoValidatorState [backendFor genesisValidator [98], backendFor secondValidator [97]], []⟩

namespace AbciClient

section Emits
variable {P : Request → Prop} (env : Env)

theorem constructDuplicateVoteEvidence_emits (v : Validator) (now : Int) :
    Emits P (constructDuplicateVoteEvidence v now) :=
  emits_getClient.bind fun a => (emits_liftErr _).bind fun lastState =>
    match lastState.validators.getByAddress v.address with
    | (_, valInLastState) =>
      match a.privValidators.lookup (hexString v.address) with
      | some _ => (emits_liftErr _).bind fun _ => (emits_liftErr _).bind fun _ =>
        match valInLastState with
        | some _ => emits_pure _
        | none => emits_throw _
      | none => emits_throw _

theorem constructLightClientAttackEvidence_emits (v : Validator) (m : MisbehaviourType) :
    Emits P (constructLightClientAttackEvidence v m) :=
  emits_getClient.bind fun _ => (emits_liftErr _).bind fun _ =>
    match m with
    | .duplicateVote => emits_throw _
    | .lunatic | .amnesia | .equivocation => (emits_pure _).bind fun _ => emits_pure _

theorem constructEvidences_emits (now : Int) (mis : List (Validator × MisbehaviourType)) :
    Emits P (constructEvidences now mis) :=
  emits_mapM _ (fun (v, m) => Emits.ite (constructDuplicateVoteEvidence_emits v now)
    (constructLightClientAttackEvidence_emits v m)) mis

theorem sendCheckTx_emits (tx : Bytes) (hP : P (.checkTx tx)) : Emits P (sendCheckTx env tx) :=
  emits_broadcast fun _ => emits_send _ _ hP

theorem createProposalBlock_emits (app : Counterparty) (height : Int) (s : State)
    (ec : ExtendedCommit) (txs : List Bytes) (ev : List Evidence)
    (hP : ∀ r : RequestPrepareProposal, r.height = height → P (.prepareProposal r)) :
    Emits P (createProposalBlock env app height s ec txs ev) :=
  (emits_liftGo _).bind fun _ => (emits_send _ _ (hP _ rfl)).catchError.bind fun
    | some _ => (emits_liftErr _).bind fun _ => emits_pure _
    | none => emits_throw _

/-- The spec of `CreateProposalBlock`: the state's block at the given height, around a
transaction list that `Txs.Validate` accepted. -/
theorem createProposalBlock_returns (app : Counterparty) (height : Int) (s : State)
    (ec : ExtendedCommit) (txs : List Bytes) (ev : List Evidence) :
    Returns (createProposalBlock env app height s ec txs ev)
      fun b => ∃ modifiedTxs, validateTxs modifiedTxs maxDataBytes = .ok () ∧
        b = s.makeBlock height modifiedTxs ec.toCommit ev app.validatorAddress := by
  unfold createProposalBlock
  refine Returns.bind (returns_true _) fun _ _ => Returns.bind (returns_true _) fun r _ => ?_
  split
  · exact (returns_liftErr _).bind fun _ hv => Returns.pure ⟨_, hv, rfl⟩
  · exact returns_throw _ _

theorem decideProposal_emits (now : Int) (app : Counterparty) (height round : Int)
    (txs : List Bytes) (ev : List Evidence)
    (hP : ∀ r : RequestPrepareProposal, r.height = height → P (.prepareProposal r)) :
    Emits P (decideProposal env now app height round txs ev) :=
  emits_getClient.bind fun _ => (createProposalBlock_emits env app height _ _ txs ev hP).bind fun _ =>
    emits_pure _

theorem decideProposal_height (now : Int) (app : Counterparty) (height round : Int)
    (txs : List Bytes) (ev : List Evidence) :
    Returns (decideProposal env now app height round txs ev) (·.2.header.height = height) :=
  Returns.bind (returns_true _) fun _ _ => (createProposalBlock_returns env app height _ _ txs ev).bind
    fun _ ⟨_, _, hb⟩ => Returns.pure (hb ▸ rfl)

theorem processProposals_emits (block : Block) (cs : List Counterparty)
    (hP : ∀ r : RequestProcessProposal, r.height = block.header.height → P (.processProposal r)) :
    Emits P (processProposals env block cs) :=
  emits_forM _ (fun _ => (emits_getClient.bind fun _ => (emits_liftGo _).bind fun _ =>
    (emits_send _ _ (hP _ rfl)).bind fun _ => Emits.ite (emits_throw _) (emits_pure _)).bind fun _ =>
      Emits.ite (emits_throw _) (emits_pure _)) cs

section Proposal
variable (a : AbciClient) (now : Int) (txs : List Bytes) (p : Option Validator)
  (mis : List (Validator × MisbehaviourType))

/-- From an engine in state `a`, the proposal concerns the block at `a`'s next height. -/
theorem buildProposal_emitsOn
    (hprep : ∀ r : RequestPrepareProposal, r.height = a.curState.lastBlockHeight + 1 →
      P (.prepareProposal r))
    (hproc : ∀ r : RequestProcessProposal, r.height = a.curState.lastBlockHeight + 1 →
      P (.processProposal r)) :
    EmitsOn a P (buildProposal env now txs p mis) :=
  ((constructEvidences_emits now mis).on a).bind_returns (returns_true _) fun _ _ =>
    EmitsOn.getClient_bind <| by
      split
      · refine EmitsOn.getClient_bind <| ((decideProposal_emits env now _ _ 0 txs _ hprep).on a).bind_returns
          (decideProposal_height env now _ _ 0 txs _) fun _ hb => EmitsOn.getClient_bind ?_
        exact ((emits_liftErr _).bind fun _ => (processProposals_emits env _ _ fun r hr =>
          hproc r (hr.trans hb)).bind fun _ => emits_pure _).on a
      · exact (emits_throw _).on a

theorem buildProposal_height :
    ReturnsOn a (buildProposal env now txs p mis) (·.header.height = a.curState.lastBlockHeight + 1) :=
  ((returns_true _).on a).bind (constructEvidences_emits (P := fun _ => True) now mis).keepsClient
    fun _ _ => ReturnsOn.getClient_bind <| by
      split
      · refine ReturnsOn.getClient_bind <| ((decideProposal_height env now _ _ 0 txs _).on a).bind
          (decideProposal_emits (P := fun _ => True) env now _ _ 0 txs _ fun _ _ => trivial).keepsClient
          fun _ hb => ReturnsOn.getClient_bind ?_
        exact ((returns_true _).bind fun _ _ => (returns_true _).bind fun _ _ =>
          Returns.pure (Q := (·.header.height = _)) hb).on a
      · exact (returns_throw _ _).on a

theorem proposeBlock_emitsOn (tx : Option Bytes) (hcheck : ∀ tx, P (.checkTx tx))
    (hprep : ∀ r : RequestPrepareProposal, r.height = a.curState.lastBlockHeight + 1 →
      P (.prepareProposal r))
    (hproc : ∀ r : RequestProcessProposal, r.height = a.curState.lastBlockHeight + 1 →
      P (.processProposal r)) :
    EmitsOn a P (proposeBlock env now tx p mis) :=
  match tx with
  | some t => (((sendCheckTx_emits env t (hcheck t)).map _).on a).bind_returns (returns_true _)
    fun _ _ => (buildProposal_emitsOn env a now _ p mis hprep hproc).bind_returns (returns_true _)
      fun _ _ => (emits_pure _).on a
  | none => ((emits_pure _).on a).bind_returns (returns_true _) fun _ _ =>
    (buildProposal_emitsOn env a now _ p mis hprep hproc).bind_returns (returns_true _) fun _ _ =>
      (emits_pure _).on a

theorem proposeBlock_height (tx : Option Bytes) :
    ReturnsOn a (proposeBlock env now tx p mis) (·.2.header.height = a.curState.lastBlockHeight + 1) :=
  have hbuild : ∀ r, ReturnsOn a (do let b ← buildProposal env now tx.toList p mis; pure (r, b))
      (·.2.header.height = a.curState.lastBlockHeight + 1) := fun _ =>
    (buildProposal_height env a now _ p mis).bind
      (emits_of_on fun a => buildProposal_emitsOn (P := fun _ => True) env a now _ p mis
        (fun _ _ => trivial) fun _ _ => trivial).keepsClient fun _ hb =>
      (Returns.pure (Q := (·.2.header.height = _)) hb).on a
  match tx with
  | some t => ((returns_true _).on a).bind ((sendCheckTx_emits (P := fun _ => True) env t trivial).map
    _).keepsClient fun _ _ => hbuild _
  | none => ((returns_true _).on a).bind (emits_pure (P := fun _ => True) _).keepsClient fun _ _ =>
    hbuild _

end Proposal

theorem proposeBlock_emits (hcheck : ∀ tx, P (.checkTx tx)) (hprep : ∀ r, P (.prepareProposal r))
    (hproc : ∀ r, P (.processProposal r)) (now : Int) (tx : Option Bytes) (p : Option Validator)
    (mis : List (Validator × MisbehaviourType)) : Emits P (proposeBlock env now tx p mis) :=
  emits_of_on fun a => proposeBlock_emitsOn env a now p mis tx hcheck (fun r _ => hprep r)
    fun r _ => hproc r

theorem extendAndSignVote_emits (app : Counterparty) (block : Block)
    (hP : ∀ r : RequestExtendVote, r.height = block.header.height → P (.extendVote r)) :
    Emits P (extendAndSignVote env app block) :=
  emits_getClient.bind fun a => match a.curState.validators.getByAddress app.validatorAddress with
    | (_, _) => (emits_liftGo _).bind fun _ => Emits.ite
        ((emits_liftGo _).bind fun _ => (emits_send _ _ (hP _ rfl)).bind fun _ =>
          (emits_pure _).bind fun _ => (emits_liftErr _).bind fun _ => emits_pure _)
        ((emits_pure _).bind fun _ => (emits_liftErr _).bind fun _ => emits_pure _)

theorem collectVotes_emits (block : Block) (vals : List Validator)
    (hP : ∀ r : RequestExtendVote, r.height = block.header.height → P (.extendVote r)) :
    Emits P (collectVotes env block vals) :=
  emits_mapM _ (fun _ => emits_getClient.bind fun _ => (emits_liftErr _).bind fun _ =>
    Emits.ite ((emits_liftErr _).bind fun _ => (extendAndSignVote_emits env _ block hP).map _)
      (emits_pure _)) vals

theorem verifyVoteExtensions_emits (block : Block) (votes : List (Option Vote)) (vals : List Validator)
    (hP : ∀ r : RequestVerifyVoteExtension, r.height = block.header.height →
      P (.verifyVoteExtension r)) :
    Emits P (verifyVoteExtensions env block votes vals) :=
  emits_forM _ (fun _ => emits_getClient.bind fun _ => (emits_liftErr _).bind fun _ =>
    emits_forM _ (fun
      | none => emits_pure _
      | some _ => Emits.ite ((emits_send _ _ (hP _ rfl)).catchError.bind fun
          | some _ => Emits.ite
              ((emits_throw _).bind fun _ => Emits.ite (emits_throw _) (emits_pure _))
              ((emits_pure _).bind fun _ => Emits.ite (emits_throw _) (emits_pure _))
          | none => emits_throw _) (emits_pure _)) votes) vals

end Emits

theorem extendAndSignVote_returns (env : Env) (app : Counterparty) (block : Block) :
    Returns (extendAndSignVote env app block) fun vote =>
      vote.signature = none ∧ vote.validatorAddress = app.validatorAddress := by
  unfold extendAndSignVote
  refine Returns.bind (returns_true _) fun a _ => ?_
  dsimp only
  refine Returns.bind (returns_true _) fun b _ => ?_
  have hsign : ∀ v : Vote, v.signature = none ∧ v.validatorAddress = app.validatorAddress →
      Returns (liftErr (app.privValidator.signVote a.curState.chainId v) >>= fun _ => pure v)
        fun vote => vote.signature = none ∧ vote.validatorAddress = app.validatorAddress :=
    fun v hv => Returns.bind (returns_true _) fun _ _ => Returns.pure hv
  split
  · refine Returns.bind (returns_true _) fun _ _ => ?_
    refine Returns.bind (returns_true _) fun _ _ => ?_
    exact Returns.bind (returns_pure_eq _) fun v hv => hsign v (hv ▸ ⟨rfl, rfl⟩)
  · exact Returns.bind (returns_pure_eq _) fun v hv => hsign v (hv ▸ ⟨rfl, rfl⟩)

theorem collectVotes_allUnsigned (env : Env) (block : Block) (vals : List Validator) :
    Returns (collectVotes env block vals) AllUnsigned := by
  unfold collectVotes
  refine (Returns.mapM (fun v => ∀ vote, v = some vote → vote.signature = none) (fun v => ?_) vals).imp
    fun votes h vote hv => h _ hv vote rfl
  refine Returns.bind (returns_true _) fun a _ => ?_
  refine Returns.bind (returns_true _) fun shouldSign _ => ?_
  split
  · refine Returns.bind (returns_true _) fun c _ => ?_
    exact Returns.map (extendAndSignVote_returns env c block) fun x hx y hy => by cases hy; exact hx.1
  · exact Returns.pure fun y hy => by cases hy

/-- The precommit `ExtendAndSignVote` returns for the only validator names it by its address
string, at index `-1`, unsigned, and the round's vote set rejects it. -/
theorem extendAndSignVote_vote_rejected_by_vote_set :
    oneValidatorWorld.client.getCounterpartyFromAddress (hexString genesisValidator.address) =
        .ok (backendFor genesisValidator [97]) ∧
      ∃ vote w', extendAndSignVote acceptingEnv (backendFor genesisValidator [97]) firstBlock
          oneValidatorWorld = .ok vote w' ∧
        vote.validatorAddress = hexString genesisValidator.address ∧
        vote.validatorAddress ≠ genesisValidator.address ∧ vote.validatorIndex = -1 ∧
        vote.signature = none ∧
        (newExtendedVoteSet "test-chain" 1 0 .precommit genesisSet).bind (·.addVote vote) =
          .error (.error "index < 0: invalid validator index") :=
  ⟨rfl, _, _, rfl, rfl, hexString_ne_self (by decide), rfl, rfl, rfl⟩

theorem sortedByNetworkAddress_perm {a : AbciClient} {sorted : List Validator}
    (h : sortedByNetworkAddress a = .ok sorted) : sorted.Perm a.curState.validators.validators := by
  unfold sortedByNetworkAddress at h
  dsimp only at h
  split at h
  · cases h; rfl
  · simp only [pure_bind, except_bind_eq_ok] at h
    obtain ⟨keyed, hkeyed, h⟩ := h
    cases h
    have hfst : keyed.map (·.1) = a.curState.validators.validators.map id :=
      mapM_eq_ok_map (fun v p hp => by split at hp <;> cases hp; rfl) hkeyed
    rw [List.map_id] at hfst
    exact hfst ▸ (List.perm_insertionSort _ _).map _

theorem sortValidatorsByNetworkAddress_keeps : Keeps Reordered sortValidatorsByNetworkAddress := by
  intro w
  unfold sortValidatorsByNetworkAddress
  cases h : sortedByNetworkAddress w.client with
  | error f => simp [h, Reordered.refl]
  | ok sorted => simpa [h] using ⟨sorted, sortedByNetworkAddress_perm h, rfl⟩

theorem commitBlock_eq_error {env : Env} {newHeight : Int} {block : Block}
    {votes : List (Option Vote)} (hu : AllUnsigned votes) (w : World) :
    ∃ f, commitBlock env newHeight block votes w = .error f w := by
  unfold commitBlock
  cases h : makeLastCommit w.client block votes with
  | error f => exact ⟨f, by simp [h]⟩
  | ok ec => exact absurd h (makeLastCommit_ne_ok hu ec)

theorem commitBlock_neverOk {env : Env} {newHeight : Int} {block : Block}
    {votes : List (Option Vote)} (hu : AllUnsigned votes) :
    NeverOk (commitBlock env newHeight block votes) := fun w _ _ h => by
  obtain ⟨f, hf⟩ := @commitBlock_eq_error env newHeight block votes hu w
  rw [hf] at h
  cases h

theorem commitBlock_keepsClient {env : Env} {newHeight : Int} {block : Block}
    {votes : List (Option Vote)} (hu : AllUnsigned votes) :
    KeepsClient (commitBlock env newHeight block votes) := fun w => by
  obtain ⟨f, hf⟩ := @commitBlock_eq_error env newHeight block votes hu w
  rw [hf]
  rfl

theorem voteAndCommit_neverOk (env : Env) (newHeight : Int) (block : Block) :
    NeverOk (voteAndCommit env newHeight block) := by
  unfold voteAndCommit
  exact NeverOk.bind (returns_true _) fun a _ =>
    NeverOk.bind (collectVotes_allUnsigned env block _) fun _ hu =>
      NeverOk.bind (returns_true _) fun _ _ => NeverOk.bind (returns_true _) fun _ _ =>
        commitBlock_neverOk hu

theorem voteAndCommit_keeps (env : Env) (newHeight : Int) (block : Block) :
    Keeps Reordered (voteAndCommit env newHeight block) := by
  unfold voteAndCommit
  exact keepsClient_getClient.reordered.reordered_bind (returns_true _) fun a _ =>
    (collectVotes_emits (P := fun _ => True) env block _ fun _ _ => trivial).keepsClient.reordered.reordered_bind
      (collectVotes_allUnsigned env block _) fun votes hu =>
    sortValidatorsByNetworkAddress_keeps.reordered_bind (returns_true _) fun curVals _ =>
    (verifyVoteExtensions_emits (P := fun _ => True) env block votes curVals
      fun _ _ => trivial).keepsClient.reordered.reordered_bind
      (returns_true _) fun _ _ => (commitBlock_keepsClient hu).reordered

theorem runBlockWithTimeAndProposer_neverOk (env : Env) (now : Int) (tx : Option Bytes)
    (blockTime : Int) (proposer : Option Validator)
    (misbehavingValidators : List (Validator × MisbehaviourType)) :
    NeverOk (runBlockWithTimeAndProposer env now tx blockTime proposer misbehavingValidators) := by
  unfold runBlockWithTimeAndProposer
  exact NeverOk.bind (returns_true _) fun a _ => NeverOk.bind (returns_true _) fun p _ =>
    NeverOk.bind_left (voteAndCommit_neverOk env _ p.2)

/-- A round fails although its only validator, which holds all the power, signs. -/
theorem runBlock_fails_when_the_only_validator_signs :
    oneValidatorWorld.client.curState.validators.validators = [genesisValidator] ∧
      oneValidatorWorld.client.getSigningStatus (hexString genesisValidator.address) = .ok true ∧
      ∃ w', runBlock acceptingEnv 0 none oneValidatorWorld =
        .error (.error "index < 0: invalid validator index") w' :=
  ⟨rfl, rfl, _, rfl⟩

theorem runBlockWithTimeAndProposer_keeps (env : Env) (now : Int) (tx : Option Bytes)
    (blockTime : Int) (proposer : Option Validator)
    (misbehavingValidators : List (Validator × MisbehaviourType)) :
    Keeps Reordered (runBlockWithTimeAndProposer env now tx blockTime proposer misbehavingValidators) := by
  unfold runBlockWithTimeAndProposer
  exact keepsClient_getClient.reordered.reordered_bind (returns_true _) fun a _ =>
    (proposeBlock_emits (P := fun _ => True) env (fun _ => trivial) (fun _ => trivial)
      (fun _ => trivial) now tx proposer misbehavingValidators).keepsClient.reordered.reordered_bind
      (returns_true _) fun p _ =>
    (voteAndCommit_keeps env _ p.2).reordered_bind (returns_true _) fun _ _ =>
      (keepsClient_pure _).reordered

theorem runBlock_apply (env : Env) (now : Int) (tx : Option Bytes) (w : World) :
    runBlock env now tx w = runBlockWithTimeAndProposer env now tx (now + w.client.timeOffset)
      w.client.curState.lastValidators.proposer [] w :=
  getClient_bind _ w

/-- Every round fails, and leaves the engine as it found it up to the order of the current
validators. -/
theorem runBlockWithTimeAndProposer_fails (env : Env) (now : Int) (tx : Option Bytes)
    (blockTime : Int) (proposer : Option Validator)
    (misbehavingValidators : List (Validator × MisbehaviourType)) (w : World) :
    ∃ f w', runBlockWithTimeAndProposer env now tx blockTime proposer misbehavingValidators w =
      .error f w' ∧ Reordered w.client w'.client := by
  have hkeeps := runBlockWithTimeAndProposer_keeps env now tx blockTime proposer
    misbehavingValidators w
  cases h : runBlockWithTimeAndProposer env now tx blockTime proposer misbehavingValidators w with
  | ok r w' => exact absurd h (runBlockWithTimeAndProposer_neverOk env now tx blockTime proposer
    misbehavingValidators w r w')
  | error f w' => exact ⟨f, w', rfl, by simpa [h] using hkeeps⟩

/-- A failed round leaves the current validators sorted by their backends' network addresses. -/
theorem runBlock_error_leaves_validators_reordered :
    ∃ w', runBlock acceptingEnv 0 none twoValidatorWorld =
        .error (.error "index < 0: invalid validator index") w' ∧
      twoValidatorWorld.client.curState.validators.validators = [genesisValidator, secondValidator] ∧
      w'.client.curState.validators.validators = [secondValidator, genesisValidator] :=
  ⟨_, rfl, rfl, rfl⟩

/-- The in-place sort changes the current validators' hash from the one the round's block
header was built with. -/
theorem runBlock_sorts_validators_the_header_hashed :
    sortedByNetworkAddress twoValidatorWorld.client = .ok [secondValidator, genesisValidator] ∧
      (finalWorld (runBlock acceptingEnv 0 none twoValidatorWorld)).client.curState.validators.hash ≠
        twoValidatorWorld.client.curState.validators.hash :=
  ⟨rfl, by decide⟩

end AbciClient

end CometMock
