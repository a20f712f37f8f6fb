import CometMock.Lemmas.Round

/-!
Where the round's proposer comes from. `RunBlock` proposes with `CurState.LastValidators.Proposer`.
Every validator set CometMock builds gets its proposer from `IncrementProposerPriority`, which
picks it among the set's own validators, and `UpdateState` moves each set one slot along
unchanged. So in every state reached from `UpdateStateFromInit` the proposer is one of
`LastValidators`, the set that signed the previous block. It need not be one of `Validators`,
which sign the next one. The block a round proposes names its proposer by the proposer backend's
address string.
-/

namespace CometMock

/-- The set's proposer, when it has one, is one of its validators. -/
def ValidatorSet.ProposerIsMember (vals : ValidatorSet) : Prop :=
  ∀ p ∈ vals.proposer, p ∈ vals.validators

instance (vals : ValidatorSet) : Decidable vals.ProposerIsMember :=
  inferInstanceAs (Decidable (∀ p ∈ vals.proposer, p ∈ vals.validators))

theorem mostPriority_go_getElem? (l vs : List Validator) (i : Nat) (res : Option (Nat × Validator))
    (hres : ∀ j r, res = some (j, r) → l[j]? = some r)
    (hvs : ∀ k v, vs[k]? = some v → l[i + k]? = some v) :
    ∀ j r, mostPriority.go vs i res = some (j, r) → l[j]? = some r := by
  induction vs, i, res using mostPriority.go.induct with
  | case1 i res => exact hres
  | case2 v vs i ih =>
    refine ih (fun j r h => ?_) fun k v' h => ?_
    · cases h; simpa using hvs 0 v (by simp)
    · simpa [Nat.add_right_comm, Nat.add_assoc] using hvs (k + 1) v' (by simpa using h)
  | case3 v vs i j r ih =>
    refine ih (fun j' r' h => ?_) fun k v' h => ?_
    · split at h
      · cases h; exact hres j r rfl
      · cases h; simpa using hvs 0 v (by simp)
    · simpa [Nat.add_right_comm, Nat.add_assoc] using hvs (k + 1) v' (by simpa using h)

theorem mostPriority_getElem? {vs : List Validator} {i : Nat} {v : Validator}
    (h : mostPriority vs = some (i, v)) : vs[i]? = some v :=
  mostPriority_go_getElem? vs vs 0 none (by simp) (by simp) i v h

theorem incrementOnce_proposer_mem (vs : List Validator) (total : Int) :
    ∀ p ∈ (incrementOnce vs total).2, p ∈ (incrementOnce vs total).1 := by
  unfold incrementOnce
  dsimp only
  split
  · simp
  · rename_i i m hm
    simp only [Option.mem_def, Option.some.injEq]
    rintro p rfl
    exact List.getElem?_mem
      (List.getElem?_set_self (List.getElem?_eq_some_iff.mp (mostPriority_getElem? hm)).1)

theorem incrementTimes_proposer_mem (vs : List Validator) (total : Int) (times : Nat) :
    ∀ p ∈ (incrementTimes vs total times).2, p ∈ (incrementTimes vs total times).1 := by
  induction vs, total, times using incrementTimes.induct with
  | case1 => simp [incrementTimes]
  | case2 vs total => exact incrementOnce_proposer_mem vs total
  | case3 vs total n ih => exact ih

theorem ValidatorSet.incrementProposerPriority_proposerIsMember {vals vals' : ValidatorSet}
    {times : Nat} (h : vals.incrementProposerPriority times = .ok vals') : vals'.ProposerIsMember := by
  unfold incrementProposerPriority at h
  split_ifs at h
  cases h
  exact incrementTimes_proposer_mem _ _ _

theorem newValidatorSet_proposerIsMember {valz : List Validator} {vals : ValidatorSet}
    (h : newValidatorSet valz = .ok vals) : vals.ProposerIsMember := by
  unfold newValidatorSet at h
  split at h
  · cases h
  · cases h
  · rename_i vs hvs
    split at h
    · subst valz; cases hvs; cases h; simp [ValidatorSet.ProposerIsMember]
    · exact ValidatorSet.incrementProposerPriority_proposerIsMember h

theorem initValidatorSets_proposerIsMember {vus : List ValidatorUpdate}
    {l v n : ValidatorSet} (h : initValidatorSets vus = .ok (l, v, n)) :
    l.ProposerIsMember ∧ v.ProposerIsMember ∧ n.ProposerIsMember := by
  unfold initValidatorSets at h
  split at h
  · cases h
  · simp only [except_bind_eq_ok] at h
    obtain ⟨vs, -, l', hl, v', hv, n', hn, h⟩ := h
    cases h
    obtain ⟨x, -, hx⟩ := except_bind_eq_ok.mp hn
    exact ⟨newValidatorSet_proposerIsMember hl, newValidatorSet_proposerIsMember hv,
      ValidatorSet.incrementProposerPriority_proposerIsMember hx⟩

theorem updateStateFromInit_validatorSets {res : ResponseInitChain} {s s' : State}
    (h : updateStateFromInit res s = .ok () s') :
    (s'.lastValidators = s.lastValidators ∧ s'.validators = s.validators ∧
        s'.nextValidators = s.nextValidators) ∨
      initValidatorSets res.validators = .ok (s'.lastValidators, s'.validators, s'.nextValidators) := by
  unfold updateStateFromInit at h
  by_cases hv : res.validators.length > 0
  · rcases hsets : initValidatorSets res.validators with f | ⟨l, v, n⟩ <;>
      simp only [hv, hsets, if_true] at h <;> split at h <;> split at h <;> cases h
    all_goals exact .inr rfl
  · simp only [hv, if_false] at h
    split at h <;> split at h <;> cases h <;> exact .inl ⟨rfl, rfl, rfl⟩

/-- Each of the chain state's three validator sets has its proposer among its validators. -/
structure State.ProposersAreMembers (s : State) : Prop where
  lastValidators : s.lastValidators.ProposerIsMember
  validators : s.validators.ProposerIsMember
  nextValidators : s.nextValidators.ProposerIsMember

instance (s : State) : Decidable s.ProposersAreMembers :=
  decidable_of_iff (s.lastValidators.ProposerIsMember ∧ s.validators.ProposerIsMember ∧
      s.nextValidators.ProposerIsMember)
    ⟨fun ⟨h₁, h₂, h₃⟩ => ⟨h₁, h₂, h₃⟩, fun ⟨h₁, h₂, h₃⟩ => ⟨h₁, h₂, h₃⟩⟩

theorem updateStateFromInit_proposersAreMembers {res : ResponseInitChain} {s s' : State}
    (h : updateStateFromInit res s = .ok () s') (hs : s.ProposersAreMembers) :
    s'.ProposersAreMembers := by
  rcases updateStateFromInit_validatorSets h with ⟨h₁, h₂, h₃⟩ | hsets
  · exact ⟨h₁ ▸ hs.1, h₂ ▸ hs.2, h₃ ▸ hs.3⟩
  · obtain ⟨h₁, h₂, h₃⟩ := initValidatorSets_proposerIsMember hsets
    exact ⟨h₁, h₂, h₃⟩

theorem StepLaw.proposersAreMembers {s s' : State} {r : BlockResult} (hstep : StepLaw s r s')
    (hs : s.ProposersAreMembers) : s'.ProposersAreMembers := by
  obtain ⟨nv, -, hnv⟩ := except_bind_eq_ok.mp hstep.nextValidators
  exact ⟨hstep.lastValidators ▸ hs.validators, hstep.validators ▸ hs.nextValidators,
    ValidatorSet.incrementProposerPriority_proposerIsMember hnv⟩

theorem UpdateTrace.proposersAreMembers {s : State} {rs : List BlockResult} {ss : List State}
    (htr : UpdateTrace s rs ss) (hs : s.ProposersAreMembers) :
    ∀ s' ∈ s :: ss, s'.ProposersAreMembers := by
  induction htr with
  | nil s => simpa using hs
  | cons _ happ _ ih =>
    have hs' := (stepLaw_of_apply happ).proposersAreMembers hs
    exact List.forall_mem_cons.mpr ⟨hs, ih hs'⟩

@[simp]
theorem State.makeBlock_proposerAddress (s : State) (height : Int) (txs : List Bytes)
    (lastCommit : Commit) (evidence : List Evidence) (proposerAddress : Bytes) :
    (s.makeBlock height txs lastCommit evidence proposerAddress).header.proposerAddress =
      proposerAddress := rfl

namespace AbciClient

theorem createProposalBlock_proposerAddress (env : Env) (proposerApp : Counterparty)
    (height : Int) (curState : State) (lastExtCommit : ExtendedCommit) (txs : List Bytes)
    (misbehaviour : List Evidence) :
    Returns (createProposalBlock env proposerApp height curState lastExtCommit txs misbehaviour)
      (·.header.proposerAddress = proposerApp.validatorAddress) :=
  (createProposalBlock_returns env proposerApp height curState lastExtCommit txs misbehaviour).imp
    fun _ ⟨_, _, hb⟩ => hb ▸ rfl

theorem decideProposal_proposerAddress (env : Env) (now : Int) (proposerApp : Counterparty)
    (height round : Int) (txs : List Bytes) (misbehaviour : List Evidence) :
    Returns (decideProposal env now proposerApp height round txs misbehaviour)
      (·.2.header.proposerAddress = proposerApp.validatorAddress) :=
  Returns.bind (returns_true _) fun a _ =>
    (createProposalBlock_proposerAddress env proposerApp height a.curState a.lastCommit txs
      misbehaviour).bind fun _ hb => Returns.pure hb

theorem buildProposal_proposerAddress (env : Env) (now : Int) (txs : List Bytes)
    (proposer : Option Validator) (misbehavingValidators : List (Validator × MisbehaviourType)) :
    Returns (buildProposal env now txs proposer misbehavingValidators)
      (·.header.proposerAddress = hexString ((proposer.map (·.address)).getD [])) := by
  unfold buildProposal
  refine Returns.bind (returns_true _) fun _ _ => Returns.bind (returns_true _) fun _ _ => ?_
  split
  · rename_i app happ
    have hname : app.validatorAddress = hexString ((proposer.map (·.address)).getD []) := by
      simpa using List.find?_some happ
    refine Returns.bind (returns_true _) fun _ _ =>
      (decideProposal_proposerAddress env now app _ 0 _ _).bind fun _ hb => ?_
    exact Returns.bind (returns_true _) fun _ _ => Returns.bind (returns_true _) fun _ _ =>
      Returns.bind (returns_true _) fun _ _ => Returns.pure (hb.trans hname)
  · exact returns_throw _ _

theorem proposeBlock_proposerAddress (env : Env) (now : Int) (tx : Option Bytes)
    (proposer : Option Validator) (misbehavingValidators : List (Validator × MisbehaviourType)) :
    Returns (proposeBlock env now tx proposer misbehavingValidators)
      (·.2.header.proposerAddress = hexString ((proposer.map (·.address)).getD [])) := by
  cases tx <;> exact Returns.bind (returns_true _) fun _ _ =>
    (buildProposal_proposerAddress env now _ proposer misbehavingValidators).bind fun _ hb =>
      Returns.pure hb

end AbciClient

/-- In every state that `UpdateState` steps reach from the state `UpdateStateFromInit` leaves,
the proposer `RunBlock` and `RunBlockWithEvidence` select, `LastValidators.Proposer`, is one of
`LastValidators`, the validators that signed the previous block. -/
theorem lastValidators_proposer_mem {res : ResponseInitChain} {s₀ s : State}
    {rs : List BlockResult} {ss : List State} (h₀ : s₀.ProposersAreMembers)
    (hinit : updateStateFromInit res s₀ = .ok () s) (htr : UpdateTrace s rs ss) :
    ∀ s' ∈ s :: ss, ∀ p ∈ s'.lastValidators.proposer, p ∈ s'.lastValidators.validators :=
  fun s' hs' => (htr.proposersAreMembers (updateStateFromInit_proposersAreMembers hinit h₀) s'
    hs').lastValidators

/-- The `InitChain` response of an application that keeps the genesis validator. -/
def genesisInitResponse : ResponseInitChain :=
  ⟨none, [⟨genesisValidator.pubKey.toProto, 10⟩], []⟩

/-- Block 1 of `genesisState`: replaces the genesis validator by `secondValidator`. -/
def replaceGenesisResult : BlockResult :=
  { emptyBlockResult 1 with
    response := { (emptyBlockResult 1).response with
      validatorUpdates := [⟨genesisValidator.pubKey.toProto, 0⟩, ⟨secondValidator.pubKey.toProto, 5⟩] }
    validatorUpdates := [newValidator genesisValidator.pubKey 0, secondValidator] }

theorem lastValidators_proposer_mem_after_replacement :
    genesisState.ProposersAreMembers ∧
      updateStateFromInit genesisInitResponse genesisState = .ok () genesisState ∧
      ∃ ss, UpdateTrace genesisState [replaceGenesisResult, emptyBlockResult 2] ss ∧
        ∀ s' ∈ genesisState :: ss, ∀ p ∈ s'.lastValidators.proposer,
          p ∈ s'.lastValidators.validators := by
  have h₀ : genesisState.ProposersAreMembers := by decide
  have hinit : updateStateFromInit genesisInitResponse genesisState = .ok () genesisState := rfl
  have htr : UpdateTrace genesisState [replaceGenesisResult, emptyBlockResult 2] _ :=
    .cons rfl rfl (.cons rfl rfl (.nil _))
  exact ⟨h₀, hinit, _, htr, lastValidators_proposer_mem h₀ hinit htr⟩

def secondValidatorSet : ValidatorSet := ⟨[secondValidator], some secondValidator⟩

/-- The chain state two heights after `replaceGenesisResult`. -/
def replacedState : State :=
  { genesisState with
    lastBlockHeight := 2, validators := secondValidatorSet, nextValidators := secondValidatorSet,
    lastHeightValidatorsChanged := 3 }

/-- Two heights after an update removes the genesis validator, it is still `LastValidators`'
proposer, which `RunBlock` selects, but it is not one of `Validators`. -/
theorem runBlock_proposer_not_in_validators :
    updateStateFromInit genesisInitResponse genesisState = .ok () genesisState ∧
      (∃ s₁, UpdateTrace genesisState [replaceGenesisResult, emptyBlockResult 2] [s₁, replacedState]) ∧
      replacedState.lastValidators.proposer = some genesisValidator ∧
      genesisValidator ∉ replacedState.validators.validators :=
  ⟨rfl, ⟨_, .cons rfl rfl (.cons rfl rfl (.nil _))⟩, rfl, by decide⟩

end CometMock
