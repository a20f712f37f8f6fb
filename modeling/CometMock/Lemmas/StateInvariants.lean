import CometMock.Lemmas.Proposer
import CometMock.Lemmas.ChangeSet

/-!
Invariants of the chain state over whole runs of `UpdateStateFromInit` and `UpdateState`.

The three validator sets. `UpdateStateFromInit` builds them with
`NewValidatorSet`, which is `UpdateWithChangeSet` applied to the empty set, and each `UpdateState`
step shifts them down by one height and builds the new `NextValidators` with
`UpdateWithChangeSet` followed by `IncrementProposerPriority`. Neither the priority increments nor
the shifts change an address, key or power, so the refinement of `UpdateWithChangeSet` in
`Lemmas/ChangeSet` lifts to every run: the sets stay well-formed, and the last `NextValidators`
is the first one with each block's updates applied in turn.

The consensus parameters. `UpdateState` installs updated parameters only once they pass
`ValidateBasic`, and copies their app version into `Version.Consensus.App`; `UpdateStateFromInit`
copies the version too but checks nothing. So valid parameters stay valid along a run of steps,
and the version agrees with the parameters from the start through `InitChain` and every step.
-/

namespace CometMock

theorem set_eq_of_getElem? {α : Type} {l : List α} {i : Nat} {a : α} (h : l[i]? = some a) :
    l.set i a = l := by
  apply List.ext_getElem?
  intro j
  rw [List.getElem?_set]
  split_ifs with hij hlt
  · exact hij ▸ h.symm
  · exact absurd (List.getElem?_eq_some_iff.mp h).1 hlt
  · rfl

theorem map_entry_incrementOnce (vs : List Validator) (total : Int) :
    (incrementOnce vs total).1.map Validator.entry = vs.map Validator.entry := by
  unfold incrementOnce
  dsimp only
  split
  · simp [List.map_map, Function.comp_def, Validator.entry]
  · rename_i i m hm
    have hi := mostPriority_getElem? hm
    have hmap : (vs.map fun v : Validator =>
        { v with proposerPriority := safeAddClip v.proposerPriority v.votingPower }).map
          Validator.entry = vs.map Validator.entry := by
      simp [List.map_map, Function.comp_def, Validator.entry]
    rw [List.map_set]
    exact (set_eq_of_getElem? (by rw [List.getElem?_map, hi]; rfl)).trans hmap

theorem map_entry_incrementTimes (vs : List Validator) (total : Int) (times : Nat) :
    (incrementTimes vs total times).1.map Validator.entry = vs.map Validator.entry := by
  induction vs, total, times using incrementTimes.induct with
  | case1 => rfl
  | case2 vs total => exact map_entry_incrementOnce vs total
  | case3 vs total n ih => exact ih.trans (map_entry_incrementOnce vs total)

namespace ValidatorSet

theorem map_entry_incrementProposerPriority {vals vals' : ValidatorSet} {times : Nat}
    (h : vals.incrementProposerPriority times = .ok vals') :
    vals'.validators.map Validator.entry = vals.validators.map Validator.entry := by
  unfold incrementProposerPriority at h
  split_ifs at h
  cases h
  rw [map_entry_incrementTimes, map_entry_shiftByAvgProposerPriority, map_entry_rescalePriorities]

theorem wellFormed_empty (proposer : Option Validator) : (ValidatorSet.mk [] proposer).WellFormed :=
  ⟨List.nodup_nil, fun _ h => nomatch h⟩

theorem WellFormed.of_map_entry {vals vals' : ValidatorSet} (hwf : vals.WellFormed)
    (h : vals'.validators.map Validator.entry = vals.validators.map Validator.entry) :
    vals'.WellFormed := by
  refine ⟨(map_address_eq_of_map_entry h) ▸ hwf.nodup, fun v hv => ?_⟩
  obtain ⟨w, hw, hwv⟩ := List.mem_map.mp (h ▸ List.mem_map_of_mem Validator.entry hv)
  exact (congrArg (·.2.2) hwv : w.votingPower = v.votingPower) ▸ hwf.pos w hw

end ValidatorSet

theorem entries_eq_of_map_entry {vs ws : List Validator}
    (h : vs.map Validator.entry = ws.map Validator.entry) : entries vs = entries ws := by
  unfold entries
  rw [h]

theorem newValidatorSet_refines {valz : List Validator} {vals : ValidatorSet}
    (h : newValidatorSet valz = .ok vals) :
    vals.WellFormed ∧ entries vals.validators = applyChanges (fun _ => none) valz := by
  unfold newValidatorSet at h
  split at h
  · cases h
  · cases h
  · rename_i vs hvs
    obtain ⟨hwf, hent⟩ :=
      ValidatorSet.updateWithChangeSet_wellFormed (ValidatorSet.wellFormed_empty none) hvs
    split at h
    · cases h
      exact ⟨hwf, hent⟩
    · have hmap := ValidatorSet.map_entry_incrementProposerPriority h
      exact ⟨hwf.of_map_entry hmap, (entries_eq_of_map_entry hmap).trans hent⟩

theorem initValidatorSets_wellFormed {vus : List ValidatorUpdate} {l v n : ValidatorSet}
    (h : initValidatorSets vus = .ok (l, v, n)) : l.WellFormed ∧ v.WellFormed ∧ n.WellFormed := by
  unfold initValidatorSets at h
  split at h
  · cases h
  · simp only [except_bind_eq_ok] at h
    obtain ⟨vs, -, l', hl, v', hv, n', hn, h⟩ := h
    cases h
    obtain ⟨n₀, hn₀, hinc⟩ := except_bind_eq_ok.mp hn
    exact ⟨(newValidatorSet_refines hl).1, (newValidatorSet_refines hv).1,
      (newValidatorSet_refines hn₀).1.of_map_entry (ValidatorSet.map_entry_incrementProposerPriority hinc)⟩

/-- Each of the chain state's three validator sets is well-formed. -/
structure State.ValidatorSetsWellFormed (s : State) : Prop where
  lastValidators : s.lastValidators.WellFormed
  validators : s.validators.WellFormed
  nextValidators : s.nextValidators.WellFormed

theorem updateStateFromInit_validatorSetsWellFormed {res : ResponseInitChain} {s s' : State}
    (h : updateStateFromInit res s = .ok () s') (hs : s.ValidatorSetsWellFormed) :
    s'.ValidatorSetsWellFormed := by
  rcases updateStateFromInit_validatorSets h with ⟨h₁, h₂, h₃⟩ | hsets
  · exact ⟨h₁ ▸ hs.1, h₂ ▸ hs.2, h₃ ▸ hs.3⟩
  · obtain ⟨h₁, h₂, h₃⟩ := initValidatorSets_wellFormed hsets
    exact ⟨h₁, h₂, h₃⟩

theorem StepLaw.validatorSetsWellFormed {s s' : State} {r : BlockResult} (hstep : StepLaw s r s')
    (hs : s.ValidatorSetsWellFormed) :
    s'.ValidatorSetsWellFormed ∧ entries s'.nextValidators.validators =
      applyChanges (entries s.nextValidators.validators) r.validatorUpdates := by
  obtain ⟨nv, hnv, hinc⟩ := except_bind_eq_ok.mp hstep.nextValidators
  obtain ⟨hwf, hent⟩ := ValidatorSet.updateWithChangeSet_wellFormed hs.nextValidators hnv
  have hmap := ValidatorSet.map_entry_incrementProposerPriority hinc
  exact ⟨⟨hstep.lastValidators ▸ hs.validators, hstep.validators ▸ hs.nextValidators,
    hwf.of_map_entry hmap⟩, (entries_eq_of_map_entry hmap).trans hent⟩

theorem UpdateTrace.validatorSetsWellFormed {s : State} {rs : List BlockResult} {ss : List State}
    (htr : UpdateTrace s rs ss) (hs : s.ValidatorSetsWellFormed) :
    (∀ s' ∈ s :: ss, s'.ValidatorSetsWellFormed) ∧
      entries ((s :: ss).getLast (List.cons_ne_nil _ _)).nextValidators.validators =
        rs.foldl (fun m r => applyChanges m r.validatorUpdates) (entries s.nextValidators.validators) := by
  induction htr with
  | nil s => exact ⟨by simpa using hs, rfl⟩
  | cons _ happ _ ih =>
    obtain ⟨hs', hent⟩ := (stepLaw_of_apply happ).validatorSetsWellFormed hs
    obtain ⟨hall, hlast⟩ := ih hs'
    exact ⟨List.forall_mem_cons.mpr ⟨hs, hall⟩, by rw [List.getLast_cons (List.cons_ne_nil _ _), hlast, List.foldl_cons, hent]⟩

/-- From a state whose validator sets are well-formed, `UpdateStateFromInit` and any run of
`UpdateState` steps keep all three sets well-formed (distinct addresses, positive powers), and
the last state's `NextValidators` holds, address by address, what applying each block's
`ValidatorUpdates` in turn to the first state's `NextValidators` gives. -/
theorem validatorSets_wellFormed_along_runs {res : ResponseInitChain} {s₀ s : State}
    {rs : List BlockResult} {ss : List State} (h₀ : s₀.ValidatorSetsWellFormed)
    (hinit : updateStateFromInit res s₀ = .ok () s) (htr : UpdateTrace s rs ss) :
    (∀ s' ∈ s :: ss, s'.ValidatorSetsWellFormed) ∧
      entries ((s :: ss).getLast (List.cons_ne_nil _ _)).nextValidators.validators =
        rs.foldl (fun m r => applyChanges m r.validatorUpdates) (entries s.nextValidators.validators) :=
  htr.validatorSetsWellFormed (updateStateFromInit_validatorSetsWellFormed hinit h₀)

theorem validatorSets_wellFormed_after_replacement :
    genesisState.ValidatorSetsWellFormed ∧
      updateStateFromInit genesisInitResponse genesisState = .ok () genesisState ∧
      ∃ ss, UpdateTrace genesisState [replaceGenesisResult, emptyBlockResult 2] ss ∧
        (∀ s' ∈ genesisState :: ss, s'.ValidatorSetsWellFormed) ∧
        entries ((genesisState :: ss).getLast (List.cons_ne_nil _ _)).nextValidators.validators =
          [replaceGenesisResult, emptyBlockResult 2].foldl (fun m r => applyChanges m r.validatorUpdates)
            (entries genesisState.nextValidators.validators) := by
  have hwf : genesisSet.WellFormed := ⟨by decide, by decide⟩
  have h₀ : genesisState.ValidatorSetsWellFormed := ⟨hwf, hwf, hwf⟩
  have hinit : updateStateFromInit genesisInitResponse genesisState = .ok () genesisState := rfl
  have htr : UpdateTrace genesisState [replaceGenesisResult, emptyBlockResult 2] _ :=
    .cons rfl rfl (.cons rfl rfl (.nil _))
  exact ⟨h₀, hinit, _, htr, validatorSets_wellFormed_along_runs h₀ hinit htr⟩

/-- The parameter part of the chain state: the parameters pass `ValidateBasic`, the state's
`Version.Consensus.App` is theirs, and neither change height lies past the height it takes
effect at. -/
structure State.ParamsCoherent (s : State) : Prop where
  valid : s.consensusParams.validateBasic = .ok ()
  appVersion : s.appVersion = s.consensusParams.version.app
  validatorsChanged : s.lastHeightValidatorsChanged ≤ s.lastBlockHeight + 2
  paramsChanged : s.lastHeightConsensusParamsChanged ≤ s.lastBlockHeight + 1

theorem updateState_params {s s' : State} {r : BlockResult} (h : r.apply s = .ok s') :
    (r.response.consensusParamUpdates.isSome → s'.consensusParams.validateBasic = .ok ()) ∧
      s'.appVersion = if r.response.consensusParamUpdates.isSome then s'.consensusParams.version.app
        else s.appVersion := by
  obtain ⟨nv, nv', lrh, -, -, h3, -, rfl⟩ := updateState_eq_ok.mp h
  exact ⟨checkParamUpdates_eq_ok.mp h3, rfl⟩

theorem BlockResult.apply_paramsCoherent {s s' : State} {r : BlockResult}
    (h : r.apply s = .ok s') (hh : r.header.height = s.lastBlockHeight + 1)
    (hs : s.ParamsCoherent) : s'.ParamsCoherent := by
  have hstep := stepLaw_of_apply h
  obtain ⟨hvalid, hver⟩ := updateState_params h
  have hb : s'.lastBlockHeight = s.lastBlockHeight + 1 := hstep.lastBlockHeight.trans hh
  have hvc : s'.lastHeightValidatorsChanged ≤ s'.lastBlockHeight + 2 := by
    have := hs.validatorsChanged
    rw [hstep.lastHeightValidatorsChanged, hb]
    split_ifs <;> omega
  have hpc := hstep.lastHeightConsensusParamsChanged
  cases hu : r.response.consensusParamUpdates with
  | none =>
    have hp : s'.consensusParams = s.consensusParams := by rw [hstep.consensusParams, hu]; rfl
    simp only [hu, Option.isSome_none, Bool.false_eq_true, if_false] at hver hpc
    exact ⟨hp ▸ hs.valid, by rw [hver, hp, hs.appVersion], hvc, by rw [hpc, hb]; have := hs.4; omega⟩
  | some u =>
    simp only [hu, Option.isSome_some, if_true, forall_const] at hvalid hver hpc
    exact ⟨hvalid, hver, hvc, by rw [hpc, hb, hh]⟩

theorem updateStateFromInit_params {res : ResponseInitChain} {s s' : State}
    (h : updateStateFromInit res s = .ok () s') :
    s'.consensusParams = s.consensusParams.update res.consensusParams ∧
      s'.appVersion = (if res.consensusParams.isSome then s'.consensusParams.version.app
        else s.appVersion) ∧
      s'.lastBlockHeight = s.lastBlockHeight ∧
      s'.lastHeightValidatorsChanged = s.lastHeightValidatorsChanged ∧
      s'.lastHeightConsensusParamsChanged = s.lastHeightConsensusParamsChanged := by
  unfold updateStateFromInit at h
  rcases hp : res.consensusParams with _ | p <;>
    rcases hsets : initValidatorSets res.validators with f | ⟨l, v, n⟩ <;>
    simp only [hp, hsets] at h <;> split at h <;> split at h <;> cases h <;>
    exact ⟨rfl, rfl, rfl, rfl, rfl⟩

theorem updateStateFromInit_paramsCoherent {res : ResponseInitChain} {s s' : State}
    (h : updateStateFromInit res s = .ok () s') (hs : s.ParamsCoherent)
    (hvalid : res.consensusParams.isSome → s'.consensusParams.validateBasic = .ok ()) :
    s'.ParamsCoherent := by
  obtain ⟨hp, hv, hb, hvc, hpc⟩ := updateStateFromInit_params h
  have hheights : s'.lastHeightValidatorsChanged ≤ s'.lastBlockHeight + 2 ∧
      s'.lastHeightConsensusParamsChanged ≤ s'.lastBlockHeight + 1 := by
    rw [hb, hvc, hpc]; exact ⟨hs.validatorsChanged, hs.paramsChanged⟩
  cases hu : res.consensusParams with
  | none =>
    simp only [hu, Option.isSome_none, Bool.false_eq_true, if_false] at hp hv
    exact ⟨hp ▸ hs.valid, hv.trans (hp ▸ hs.appVersion), hheights.1, hheights.2⟩
  | some u =>
    simp only [hu, Option.isSome_some, if_true, forall_const] at hv hvalid
    exact ⟨hvalid, hv, hheights.1, hheights.2⟩

theorem UpdateTrace.paramsCoherent {s : State} {rs : List BlockResult} {ss : List State}
    (htr : UpdateTrace s rs ss) (hs : s.ParamsCoherent) : ∀ s' ∈ s :: ss, s'.ParamsCoherent := by
  induction htr with
  | nil s => simpa using hs
  | cons hh happ _ ih =>
    exact List.forall_mem_cons.mpr ⟨hs, ih (BlockResult.apply_paramsCoherent happ hh hs)⟩

/-- From a state with coherent parameters, every state of a run has coherent parameters, provided
those the `InitChain` response installs pass `ValidateBasic`: `UpdateStateFromInit` does not check
them, and every `UpdateState` step rejects an update that fails. -/
theorem consensusParams_valid_along_runs {res : ResponseInitChain} {s₀ s : State}
    {rs : List BlockResult} {ss : List State} (h₀ : s₀.ParamsCoherent)
    (hinit : updateStateFromInit res s₀ = .ok () s)
    (hvalid : res.consensusParams.isSome → s.consensusParams.validateBasic = .ok ())
    (htr : UpdateTrace s rs ss) : ∀ s' ∈ s :: ss, s'.ParamsCoherent :=
  htr.paramsCoherent (updateStateFromInit_paramsCoherent hinit h₀ hvalid)

theorem consensusParams_valid_after_two_blocks :
    genesisState.ParamsCoherent ∧
      updateStateFromInit genesisInitResponse genesisState = .ok () genesisState ∧
      (genesisInitResponse.consensusParams.isSome →
        genesisState.consensusParams.validateBasic = .ok ()) ∧
      ∃ ss, UpdateTrace genesisState [replaceGenesisResult, emptyBlockResult 2] ss ∧
        ∀ s' ∈ genesisState :: ss, s'.ParamsCoherent := by
  have h₀ : genesisState.ParamsCoherent := ⟨rfl, rfl, by decide, by decide⟩
  have hinit : updateStateFromInit genesisInitResponse genesisState = .ok () genesisState := rfl
  have hvalid : genesisInitResponse.consensusParams.isSome →
      genesisState.consensusParams.validateBasic = .ok () := fun _ => rfl
  have htr : UpdateTrace genesisState [replaceGenesisResult, emptyBlockResult 2] _ :=
    .cons rfl rfl (.cons rfl rfl (.nil _))
  exact ⟨h₀, hinit, hvalid, _, htr, consensusParams_valid_along_runs h₀ hinit hvalid htr⟩

end CometMock
