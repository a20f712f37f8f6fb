import CometMock.State

/-!
Facts about `UpdateState`: its spec lemma, what one step does to the validator sets and the
parameters, and what that means over a run of steps at consecutive heights.
-/

namespace CometMock

/-- The spec of `updateState`: it succeeds exactly when its four checks pass, and then returns
`nextState`. -/
theorem updateState_eq_ok {s s' : State} {blockId : BlockID} {header : Header}
    {res : ResponseFinalizeBlock} {vu : List Validator} :
    updateState s blockId header res vu = .ok s' ↔
      ∃ nv nv' lrh, applyValidatorUpdates s.nextValidators vu = .ok nv ∧
        nv.incrementProposerPriority 1 = .ok nv' ∧
        checkParamUpdates res.consensusParamUpdates
          (s.consensusParams.update res.consensusParamUpdates) = .ok () ∧
        txResultsHash res.txResults = .ok lrh ∧
        nextState s blockId header res vu nv' lrh = s' := by
  simp only [updateState, except_bind_eq_ok]
  constructor
  · rintro ⟨nv, h1, nv', h2, u, h3, lrh, h4, h5⟩
    exact ⟨nv, nv', lrh, h1, h2, h3, h4, by simpa [pure, Except.pure] using h5⟩
  · rintro ⟨nv, nv', lrh, h1, h2, h3, h4, rfl⟩
    exact ⟨nv, h1, nv', h2, (), h3, lrh, h4, rfl⟩

theorem checkParamUpdates_eq_ok {u : Option ParamsUpdate} {p : ConsensusParams} :
    checkParamUpdates u p = .ok () ↔ (u.isSome → p.validateBasic = .ok ()) := by
  unfold checkParamUpdates
  split
  · split <;> simp_all
  · simp_all

@[simp]
theorem ValidatorSet.UpdateWithChangeSet_nil (vals : ValidatorSet) :
    vals.UpdateWithChangeSet [] = .ok vals := rfl

theorem applyValidatorUpdates_eq_ok {nv x : ValidatorSet} {vu : List Validator}
    (h : applyValidatorUpdates nv vu = .ok x) : nv.UpdateWithChangeSet vu = .ok x := by
  unfold applyValidatorUpdates at h
  split at h
  · split at h
    · cases h
    · assumption
  · cases vu with
    | nil => simpa using h
    | cons => simp at *

/-- What one successful `UpdateState` step does to the validator sets and the parameters. -/
structure StepLaw (s : State) (r : BlockResult) (s' : State) : Prop where
  lastValidators : s'.lastValidators = s.validators
  validators : s'.validators = s.nextValidators
  nextValidators : (s.nextValidators.UpdateWithChangeSet r.validatorUpdates).bind
    (·.incrementProposerPriority 1) = .ok s'.nextValidators
  lastHeightValidatorsChanged : s'.lastHeightValidatorsChanged =
    if r.validatorUpdates = [] then s.lastHeightValidatorsChanged else r.header.height + 2
  consensusParams : s'.consensusParams = s.consensusParams.update r.response.consensusParamUpdates
  lastHeightConsensusParamsChanged : s'.lastHeightConsensusParamsChanged =
    if r.response.consensusParamUpdates.isSome then r.header.height + 1
    else s.lastHeightConsensusParamsChanged
  lastBlockHeight : s'.lastBlockHeight = r.header.height

theorem stepLaw_of_apply {s s' : State} {r : BlockResult} (h : r.apply s = .ok s') :
    StepLaw s r s' := by
  obtain ⟨nv, nv', lrh, h1, h2, -, -, rfl⟩ := updateState_eq_ok.mp h
  refine ⟨rfl, rfl, ?_, ?_, rfl, rfl, rfl⟩
  · simp [applyValidatorUpdates_eq_ok h1, Except.bind, h2, nextState]
  · cases hvu : r.validatorUpdates <;> simp [nextState, hvu]; omega

theorem UpdateTrace.length_eq {s : State} {rs : List BlockResult} {ss : List State}
    (htr : UpdateTrace s rs ss) : ss.length = rs.length := by
  induction htr with
  | nil => rfl
  | cons _ _ _ ih => simp [ih]

theorem UpdateTrace.step {s : State} {rs : List BlockResult} {ss : List State}
    (htr : UpdateTrace s rs ss) {i : Nat} {r : BlockResult} (hr : rs[i]? = some r) :
    ∃ si si', (s :: ss)[i]? = some si ∧ ss[i]? = some si' ∧
      si.lastBlockHeight = s.lastBlockHeight + i ∧ r.header.height = si.lastBlockHeight + 1 ∧
      r.apply si = .ok si' := by
  induction htr generalizing i with
  | nil => simp at hr
  | @cons s s' r₀ rs ss hh happ _ ih =>
    cases i with
    | zero =>
      simp only [List.getElem?_cons_zero, Option.some.injEq] at hr
      subst hr
      exact ⟨s, s', by simp, by simp, by simp, hh, happ⟩
    | succ i =>
      obtain ⟨si, si', h0, h1, hb, hr', ha⟩ := ih (by simpa using hr)
      have hs' : s'.lastBlockHeight = s.lastBlockHeight + 1 :=
        (stepLaw_of_apply happ).lastBlockHeight.trans hh
      exact ⟨si, si', by simpa using h0, by simpa using h1, by rw [hb, hs']; omega,
        hr', ha⟩

/-- Over every run of `UpdateState` steps at consecutive heights, each step obeys `StepLaw`, so
the validator updates of height `h` first sign at height `h + 2`. -/
theorem updateTrace_validator_updates_take_effect_two_heights_later {s : State}
    {rs : List BlockResult} {ss : List State} (htr : UpdateTrace s rs ss) {i : Nat}
    {r : BlockResult} (hr : rs[i]? = some r) :
    ∃ si si', (s :: ss)[i]? = some si ∧ ss[i]? = some si' ∧
      r.header.height = s.lastBlockHeight + i + 1 ∧ StepLaw si r si' ∧
      ∀ si'', ss[i + 1]? = some si'' → si''.validators = si'.nextValidators := by
  obtain ⟨si, si', h0, h1, hb, hh, ha⟩ := htr.step hr
  refine ⟨si, si', h0, h1, by rw [hh, hb], stepLaw_of_apply ha, fun si'' h2 => ?_⟩
  have hlen : i + 1 < rs.length := by
    rw [← htr.length_eq]; exact (List.getElem?_eq_some_iff.mp h2).1
  obtain ⟨sj, sj', hj0, hj1, -, -, hja⟩ := htr.step (List.getElem?_eq_getElem hlen)
  have hsj : sj = si' := by simpa [h1] using hj0.symm
  have hsj' : sj' = si'' := by simpa [h2] using hj1.symm
  subst hsj hsj'
  exact (stepLaw_of_apply hja).validators

def genesisValidator : Validator := newValidator (.ed25519 (List.replicate 32 1)) 10

def genesisSet : ValidatorSet := ⟨[genesisValidator], some genesisValidator⟩

def genesisParams : ConsensusParams :=
  ⟨⟨22020096, -1⟩, ⟨100000, 172800000000000, 1048576⟩, ⟨["ed25519"]⟩, ⟨0⟩, ⟨1⟩⟩

/-- A one-validator chain before its first block, with vote extensions enabled from height 1. -/
def genesisState : State :=
  { appVersion := 0, chainId := "test-chain", initialHeight := 1, lastBlockHeight := 0,
    lastBlockId := .zero, lastBlockTime := 0, nextValidators := genesisSet,
    validators := genesisSet, lastValidators := genesisSet, lastHeightValidatorsChanged := 1,
    consensusParams := genesisParams, lastHeightConsensusParamsChanged := 1,
    lastResultsHash := .results [], appHash := [] }

/-- The result of an empty block whose application returned no updates. -/
def emptyBlockResult (height : Int) : BlockResult :=
  ⟨.zero, { (makeBlock height [] ⟨0, 0, .zero, []⟩ []).header with height }, ⟨[], [], none, []⟩, []⟩

/-- Block 1 of `genesisState`: adds a validator of power 5, moves the enable height to 2. -/
def addValidatorResult : BlockResult :=
  { emptyBlockResult 1 with
    response := { (emptyBlockResult 1).response with
      validatorUpdates := [⟨(PubKey.ed25519 (List.replicate 32 2)).toProto, 5⟩]
      consensusParamUpdates := some ⟨none, none, none, none, some ⟨2⟩⟩ }
    validatorUpdates := [newValidator (.ed25519 (List.replicate 32 2)) 5] }

theorem updateTrace_adds_a_validator :
    ∃ ss, UpdateTrace genesisState [addValidatorResult, emptyBlockResult 2] ss ∧
      ss.map (·.validators.validators.length) = [1, 2] ∧
      ∃ si si', (genesisState :: ss)[0]? = some si ∧ ss[0]? = some si' ∧
        addValidatorResult.header.height = genesisState.lastBlockHeight + (0 : Nat) + 1 ∧
        StepLaw si addValidatorResult si' ∧
        ∀ si'', ss[0 + 1]? = some si'' → si''.validators = si'.nextValidators :=
  have htr : UpdateTrace genesisState [addValidatorResult, emptyBlockResult 2] _ :=
    .cons rfl rfl (.cons rfl rfl (.nil _))
  ⟨_, htr, rfl, updateTrace_validator_updates_take_effect_two_heights_later htr rfl⟩

namespace ConsensusParams

@[simp]
theorem update_abci (p : ConsensusParams) (u : Option ParamsUpdate) :
    (p.update u).abci = (u.bind (·.abci)).getD p.abci := by
  cases u <;> rfl

end ConsensusParams

/-- An ABCI validator update that `validateValidatorUpdates` lets through: its power is not
negative, and unless it removes the validator (power 0) its key decodes to a type the
parameters allow. -/
def ValidatorUpdate.Admissible (params : ValidatorParams) (u : ValidatorUpdate) : Prop :=
  0 ≤ u.power ∧
    (0 < u.power → ∃ pk, pubKeyFromProto u.pubKey = .ok pk ∧ isValidPubkeyType params pk.type)

theorem ValidatorUpdate.admissible_congr {params : ValidatorParams} {u u' : ValidatorUpdate}
    (hpower : u'.power = u.power) (hkey : u.power ≠ 0 → u'.pubKey = u.pubKey) :
    u'.Admissible params ↔ u.Admissible params := by
  unfold Admissible
  by_cases h0 : u.power = 0
  · simp [hpower, h0]
  · rw [hpower, hkey h0]

theorem validateValidatorUpdates_eq_ok_iff {params : ValidatorParams} :
    ∀ {us : List ValidatorUpdate},
      validateValidatorUpdates us params = .ok () ↔ ∀ u ∈ us, u.Admissible params
  | [] => by simp [validateValidatorUpdates]
  | u :: us => by
    rw [List.forall_mem_cons, ← validateValidatorUpdates_eq_ok_iff]
    simp only [validateValidatorUpdates]
    split_ifs with hneg hzero
    · exact iff_of_false nofun fun h => absurd h.1.1 (by omega)
    · exact (and_iff_right ⟨by omega, fun h => absurd h (by omega)⟩).symm
    · split
      · rename_i e he
        refine iff_of_false nofun fun h => ?_
        obtain ⟨pk, hpk, -⟩ := h.1.2 (by omega)
        rw [he] at hpk
        cases hpk
      · rename_i pk hpk
        split_ifs with hvalid
        · refine iff_of_false nofun fun h => ?_
          obtain ⟨pk', hpk', hvalid'⟩ := h.1.2 (by omega)
          rw [hpk] at hpk'
          cases hpk'
          simp [hvalid'] at hvalid
        · exact (and_iff_right ⟨by omega, fun _ => ⟨pk, hpk, by simpa using hvalid⟩⟩).symm

/-- `validateValidatorUpdates` accepts a list exactly when every update has a power of at least
0 and every update that is not a removal has a key that decodes to an allowed type. So whether
it accepts depends neither on the order of the list nor on the keys of the removals. -/
theorem validateValidatorUpdates_ok_iff_admissible (params : ValidatorParams) :
    (∀ us, validateValidatorUpdates us params = .ok () ↔ ∀ u ∈ us, u.Admissible params) ∧
      (∀ us us', us.Perm us' → (validateValidatorUpdates us params = .ok () ↔
        validateValidatorUpdates us' params = .ok ())) ∧
      ∀ us us', List.Forall₂ (fun u u' : ValidatorUpdate =>
          u'.power = u.power ∧ (u.power ≠ 0 → u'.pubKey = u.pubKey)) us us' →
        (validateValidatorUpdates us params = .ok () ↔
          validateValidatorUpdates us' params = .ok ()) := by
  refine ⟨fun _ => validateValidatorUpdates_eq_ok_iff, fun us us' hp => ?_, fun us us' h => ?_⟩
  · simp only [validateValidatorUpdates_eq_ok_iff, hp.mem_iff]
  · simp only [validateValidatorUpdates_eq_ok_iff]
    induction h with
    | nil => simp
    | cons huu' _ ih =>
      simp only [List.forall_mem_cons, ih, ValidatorUpdate.admissible_congr huu'.1 huu'.2]

end CometMock
