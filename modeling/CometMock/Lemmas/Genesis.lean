import Mathlib.Algebra.Order.BigOperators.Group.List
import Mathlib.Algebra.Order.Group.Int
import CometMock.Lemmas.StateInvariants

/-!
Start-up. `SendInitChain` sends the application the genesis validators, as `NewValidatorSet`
builds them and `TM2PB.ValidatorUpdates` encodes them, and `UpdateStateFromInit` decodes the
validators of the answer with `PB2TM.ValidatorUpdates` into the engine's three sets.
`NewValidatorSet` accepts every non-empty list with distinct non-empty addresses, positive powers
and a total within `MaxTotalVotingPower`, and keeps exactly its validators; the two encodings are
inverse on keys of the sizes `PubKeyFromProto` decodes. So an application that answers with the
validators it was sent leaves the engine with exactly the genesis validators.
-/

namespace CometMock

open AbciClient

/-- A list `NewValidatorSet` accepts: non-empty, with distinct non-empty addresses, positive
powers and a total of at most `MaxTotalVotingPower`. -/
structure AcceptableValidators (valz : List Validator) : Prop where
  ne_nil : valz ≠ []
  nodup : (valz.map (·.address)).Nodup
  address_ne_nil : ∀ v ∈ valz, v.address ≠ []
  pos : ∀ v ∈ valz, 0 < v.votingPower
  total_le : totalPower valz ≤ maxTotalVotingPower

theorem totalPower_eq_of_perm_entry {vs ws : List Validator}
    (h : (vs.map Validator.entry).Perm (ws.map Validator.entry)) : totalPower vs = totalPower ws := by
  have hp := h.map (·.2.2)
  simp only [List.map_map, Function.comp_def, Validator.entry] at hp
  exact hp.sum_eq

namespace AcceptableValidators

variable {valz : List Validator}

theorem power_le (h : AcceptableValidators valz) {v : Validator} (hv : v ∈ valz) :
    v.votingPower ≤ maxTotalVotingPower := by
  have hnn : ∀ x ∈ valz.map (·.votingPower), 0 ≤ x := fun x hx => by
    obtain ⟨u, hu, rfl⟩ := List.mem_map.mp hx
    exact (h.pos u hu).le
  exact le_trans (List.single_le_sum hnn _ (List.mem_map_of_mem _ hv)) h.total_le

theorem of_perm_entry (h : AcceptableValidators valz) {ws : List Validator}
    (hp : (ws.map Validator.entry).Perm (valz.map Validator.entry)) : AcceptableValidators ws := by
  have hsame : ∀ v ∈ ws, ∃ u ∈ valz, u.entry = v.entry := fun v hv =>
    List.mem_map.mp (hp.subset (List.mem_map_of_mem _ hv))
  refine ⟨fun hw => h.ne_nil ?_, ?_, fun v hv => ?_, fun v hv => ?_, ?_⟩
  · simpa [hw] using hp.length_eq.symm
  · have hnd := h.nodup
    rw [← map_fst_map_entry] at hnd ⊢
    exact (hp.map Prod.fst).nodup_iff.mpr hnd
  · obtain ⟨u, hu, he⟩ := hsame v hv
    exact fun h0 => h.address_ne_nil u hu ((congrArg Prod.fst he).trans h0)
  · obtain ⟨u, hu, he⟩ := hsame v hv
    have hpow : u.votingPower = v.votingPower := congrArg (·.2.2) he
    exact hpow ▸ h.pos u hu
  · exact (totalPower_eq_of_perm_entry hp) ▸ h.total_le

end AcceptableValidators

section Acceptance

theorem processChanges_go_of_sorted : ∀ {s : List Validator} {prevAddr : Bytes},
    s.Sorted byAddress → (∀ v ∈ s.head?, v.address ≠ prevAddr) →
      (∀ v ∈ s, 0 < v.votingPower ∧ v.votingPower ≤ maxTotalVotingPower) →
      processChanges.go s prevAddr = .ok (s, [])
  | [], _, _, _, _ => rfl
  | v :: vs, prevAddr, hs, hhead, hpow => by
    rw [List.sorted_cons] at hs
    obtain ⟨h₀, h₁⟩ := hpow v (List.mem_cons_self v vs)
    have hgo := processChanges_go_of_sorted hs.2
      (fun w hw => (address_ne_of_byAddress (hs.1 w (List.mem_of_mem_head? hw))).symm)
      fun w hw => hpow w (List.mem_cons_of_mem v hw)
    simp only [processChanges.go, if_neg (hhead v rfl), if_neg (not_lt.mpr h₀.le),
      if_neg (not_lt.mpr h₁), hgo, except_bind_ok, if_neg h₀.ne']
    rfl

theorem foldlM_running_total {δ : Validator → Int} {f : Int → Validator → Except Failure Int}
    (hf : ∀ t u, t + δ u ≤ maxTotalVotingPower → f t u = .ok (t + δ u)) :
    ∀ {l : List Validator} {t : Int}, (∀ u ∈ l, 0 ≤ δ u) →
      t + (l.map δ).sum ≤ maxTotalVotingPower → l.foldlM f t = .ok (t + (l.map δ).sum)
  | [], t, _, _ => by rw [List.map_nil, List.sum_nil, add_zero]; rfl
  | u :: l, t, hδ, hle => by
    have hl : 0 ≤ (l.map δ).sum :=
      List.sum_nonneg fun x hx => by
        obtain ⟨w, hw, rfl⟩ := List.mem_map.mp hx
        exact hδ w (List.mem_cons_of_mem u hw)
    rw [List.map_cons, List.sum_cons] at hle ⊢
    rw [List.foldlM_cons, hf t u (by omega), except_bind_ok,
      foldlM_running_total hf (fun w hw => hδ w (List.mem_cons_of_mem u hw)) (by omega), add_assoc]

theorem verifyUpdates_of_nonneg {updates : List Validator} {vals : ValidatorSet} {removed : Int}
    (hδ : ∀ u ∈ updates, 0 ≤ powerDelta vals u)
    (hle : vals.totalVotingPower - removed + (updates.map (powerDelta vals)).sum ≤
      maxTotalVotingPower) :
    verifyUpdates updates vals removed =
      .ok (vals.totalVotingPower + (updates.map (powerDelta vals)).sum) := by
  have hp := List.perm_insertionSort (fun a b => powerDelta vals a < powerDelta vals b) updates
  unfold verifyUpdates
  refine (congrArg (· >>= _) (@foldlM_running_total (powerDelta vals) _
    (fun t u h => if_neg (not_lt.mpr h)) _ _ (fun u hu => hδ u (hp.subset hu))
    ((hp.map (powerDelta vals)).sum_eq ▸ hle))).trans ?_
  rw [except_bind_ok, (hp.map (powerDelta vals)).sum_eq]
  congr 1
  omega

@[simp]
theorem totalVotingPower_empty (p : Option Validator) : (ValidatorSet.mk [] p).totalVotingPower = 0 :=
  rfl

theorem updateWithChangeSet_empty {valz : List Validator} (h : AcceptableValidators valz)
    (p : Option Validator) :
    ∃ vs, (ValidatorSet.mk [] p).updateWithChangeSet valz false = .ok ⟨vs, p⟩ ∧
      (vs.map Validator.entry).Perm (valz.map Validator.entry) := by
  have hp := List.perm_insertionSort byAddress valz
  have hsorted : (valz.insertionSort byAddress).Sorted byAddress :=
    @sorted_insertionSort_of_nodup _ _ byAddress _ (·.address) (fun _ _ _ => byAddress_trans)
      (fun _ _ => byAddress_total) _ h.nodup
  have hpc : processChanges valz = .ok (valz.insertionSort byAddress, []) :=
    processChanges_go_of_sorted hsorted
      (fun v hv => h.address_ne_nil v (hp.subset (List.mem_of_mem_head? hv)))
      fun v hv => ⟨h.pos v (hp.subset hv), h.power_le (hp.subset hv)⟩
  have hsum : ((valz.insertionSort byAddress).map (powerDelta ⟨[], p⟩)).sum = totalPower valz :=
    (hp.map _).sum_eq
  have hupd : verifyUpdates (valz.insertionSort byAddress) ⟨[], p⟩ 0 = .ok (totalPower valz) := by
    rw [@verifyUpdates_of_nonneg _ ⟨[], p⟩ 0 (fun u hu => (h.pos u (hp.subset hu)).le)
      (by rw [totalVotingPower_empty, hsum, sub_zero, zero_add]; exact h.total_le),
      totalVotingPower_empty, hsum, zero_add]
  have hnew : numNewValidators (valz.insertionSort byAddress) ⟨[], p⟩ ≠ 0 := by
    simpa [numNewValidators, ValidatorSet.hasAddress] using h.ne_nil
  unfold ValidatorSet.updateWithChangeSet
  simp only [h.ne_nil, ↓reduceIte, hpc, Bool.not_false, ne_eq, decide_not, Bool.true_and,
    Bool.not_eq_eq_eq_not, Bool.not_true, decide_eq_false_iff_not, List.length_nil, Bool.and_eq_true,
    decide_eq_true_eq, verifyRemovals, List.insertionSort, bind_pure_comp, pure_bind, ite_not,
    except_bind_ok, hnew, and_true, List.foldlM_nil, hupd, Except.map_ok, Except.ok.injEq,
    ValidatorSet.mk.injEq, exists_eq_left']
  refine ((List.perm_insertionSort _ _).map _).trans ?_
  rw [map_entry_shiftByAvgProposerPriority, map_entry_rescalePriorities]
  simp only [applyRemovals, List.any_nil, Bool.not_false, List.filter_true]
  exact (map_entry_computeNewPriorities _ _ _).symm ▸ hp.map _

theorem ValidatorSet.incrementProposerPriority_ok {vals : ValidatorSet} (hne : vals.validators ≠ [])
    {times : Nat} (ht : times ≠ 0) : ∃ vals', vals.incrementProposerPriority times = .ok vals' := by
  unfold ValidatorSet.incrementProposerPriority
  rw [if_neg hne, if_neg ht]
  exact ⟨_, rfl⟩

theorem newValidatorSet_of_acceptable {valz : List Validator} (h : AcceptableValidators valz) :
    ∃ vals, newValidatorSet valz = .ok vals ∧
      (vals.validators.map Validator.entry).Perm (valz.map Validator.entry) := by
  obtain ⟨vs, hvs, hperm⟩ := updateWithChangeSet_empty h none
  obtain ⟨vals, hinc⟩ := ValidatorSet.incrementProposerPriority_ok
    (show (ValidatorSet.mk vs none).validators ≠ [] from (h.of_perm_entry hperm).ne_nil) one_ne_zero
  refine ⟨vals, ?_, (ValidatorSet.map_entry_incrementProposerPriority hinc).symm ▸ hperm⟩
  unfold newValidatorSet
  rw [hvs]
  exact (if_neg h.ne_nil).trans hinc

end Acceptance

section RoundTrip

/-- A key of the size `PubKeyFromProto` decodes for its kind. -/
def PubKey.HasProtoSize : PubKey → Prop
  | .ed25519 b => b.length = 32
  | .secp256k1 b => b.length = 33

instance : DecidablePred PubKey.HasProtoSize
  | .ed25519 b => inferInstanceAs (Decidable (b.length = 32))
  | .secp256k1 b => inferInstanceAs (Decidable (b.length = 33))

theorem pubKeyFromProto_toProto : ∀ {pk : PubKey}, pk.HasProtoSize → pubKeyFromProto pk.toProto = .ok pk
  | .ed25519 _, h => if_pos h
  | .secp256k1 _, h => if_pos h

theorem pb2tm_tm2pbValidatorUpdates {vals : ValidatorSet}
    (h : ∀ v ∈ vals.validators, v.pubKey.HasProtoSize) :
    pb2tmValidatorUpdates (tm2pbValidatorUpdates vals) =
      .ok (vals.validators.map fun v => newValidator v.pubKey v.votingPower) := by
  obtain ⟨vs, p⟩ := vals
  induction vs with
  | nil => rfl
  | cons v vs ih =>
    have ih := ih fun w hw => h w (List.mem_cons_of_mem v hw)
    unfold pb2tmValidatorUpdates tm2pbValidatorUpdates at ih ⊢
    simp only [List.map_cons, List.mapM_cons, ih, pubKeyFromProto_toProto (h v (List.mem_cons_self v vs))]
    rfl

theorem map_entry_rebuild {vs : List Validator} {keys : List (PubKey × Int)}
    (hkeys : ∀ p ∈ keys, p.1.HasProtoSize)
    (hp : (vs.map Validator.entry).Perm
      ((keys.map fun (pk, power) => newValidator pk power).map Validator.entry)) :
    (∀ v ∈ vs, v.pubKey.HasProtoSize) ∧
      (vs.map fun v => newValidator v.pubKey v.votingPower).map Validator.entry =
        vs.map Validator.entry := by
  have hkeyed : ∀ v ∈ vs, v.address = v.pubKey.address ∧ v.pubKey.HasProtoSize := fun v hv => by
    obtain ⟨u, hu, he⟩ := List.mem_map.mp (hp.subset (List.mem_map_of_mem Validator.entry hv))
    obtain ⟨⟨pk, power⟩, hk, rfl⟩ := List.mem_map.mp hu
    simp only [newValidator, Validator.entry, Prod.mk.injEq] at he
    obtain ⟨h₁, rfl, -⟩ := he
    exact ⟨h₁.symm, hkeys _ hk⟩
  refine ⟨fun v hv => (hkeyed v hv).2, ?_⟩
  rw [List.map_map]
  exact List.map_congr_left fun v hv => by
    show (v.pubKey.address, v.pubKey, v.votingPower) = (v.address, v.pubKey, v.votingPower)
    rw [(hkeyed v hv).1]

end RoundTrip

section Startup

theorem initValidatorSets_of_acceptable {vus : List ValidatorUpdate} {vs : List Validator}
    (hdec : pb2tmValidatorUpdates vus = .ok vs) (h : AcceptableValidators vs) :
    ∃ l v n, initValidatorSets vus = .ok (l, v, n) ∧
      ∀ vals ∈ [l, v, n], (vals.validators.map Validator.entry).Perm (vs.map Validator.entry) := by
  obtain ⟨vals, hvals, hperm⟩ := newValidatorSet_of_acceptable h
  obtain ⟨next, hnext⟩ :=
    ValidatorSet.incrementProposerPriority_ok (h.of_perm_entry hperm).ne_nil one_ne_zero
  refine ⟨vals, vals, next, ?_, ?_⟩
  · simp only [initValidatorSets, hdec, pure_bind, hvals, except_bind_ok, Except.bind,
      ValidatorSet.copyIncrementProposerPriority, hnext]
    rfl
  · simp only [List.mem_cons, List.mem_singleton, List.not_mem_nil, or_false]
    rintro _ (rfl | rfl | rfl)
    · exact hperm
    · exact hperm
    · exact (ValidatorSet.map_entry_incrementProposerPriority hnext).symm ▸ hperm

theorem updateStateFromInit_of_initValidatorSets {res : ResponseInitChain} {l v n : ValidatorSet}
    (hne : res.validators ≠ []) (h : initValidatorSets res.validators = .ok (l, v, n)) (s : State) :
    ∃ s', updateStateFromInit res s = .ok () s' ∧
      s'.lastValidators = l ∧ s'.validators = v ∧ s'.nextValidators = n := by
  have hlen : res.validators.length > 0 := List.length_pos.mpr hne
  unfold updateStateFromInit
  by_cases ha : res.appHash.length > 0 <;> rcases hp : res.consensusParams with _ | p <;>
    simp only [ha, hlen, h, hp, if_true, if_false] <;> exact ⟨_, rfl, rfl, rfl, rfl⟩

variable {α : Type}

theorem mapM_send_same (request : Request) (answer : Counterparty → List Message → Except String α)
    {a : α} (ha : ∀ c msgs, answer c msgs = .ok a) :
    ∀ (l : List Counterparty) (w : World),
      (l.mapM fun c => send c.networkAddress request (answer c)) w =
        .ok (l.map fun _ => a) { w with sent := w.sent ++ l.map (Message.of request) }
  | [], w => by simp [List.mapM_nil]; rfl
  | c :: l, w => by
    rw [List.mapM_cons, bind_of_ok (send_ok (ha c w.sent)),
      bind_of_ok (mapM_send_same request answer ha l _)]
    simp [Message.of]

theorem broadcast_same_answer [DecidableEq α] (request : Request)
    (answer : Counterparty → List Message → Except String α) {a : α}
    (ha : ∀ c msgs, answer c msgs = .ok a) {w : World} (hne : w.client.clients ≠ []) :
    broadcast (fun c => send c.networkAddress request (answer c)) w =
      .ok a { w with sent := w.sent ++ w.client.clients.map (Message.of request) } := by
  obtain ⟨c, cs, hcs⟩ := List.exists_cons_of_ne_nil hne
  unfold broadcast
  rw [getClient_bind, bind_of_ok (mapM_send_same request answer ha _ w), getClient_bind]
  simp [hcs, firstResponse]

/-- Start-up through an application that answers `InitChain` with the validators it was sent:
`SendInitChain` returns, and each of the engine's three validator sets holds exactly the genesis
validators, with the same addresses, keys and powers. -/
theorem sendInitChain_keeps_genesis_validators {env : Env} {genesisState : State}
    {genesisDoc : GenesisDoc} {app : RequestInitChain → ResponseInitChain} {w : World}
    (hvals : AcceptableValidators (genesisDoc.validators.map fun (pk, power) => newValidator pk power))
    (hkeys : ∀ p ∈ genesisDoc.validators, p.1.HasProtoSize) (hclients : w.client.clients ≠ [])
    (happ : ∀ sent address r, env.backends.initChain sent address r = .ok (app r))
    (hecho : ∀ r, (app r).validators = r.validators) :
    ∃ w', sendInitChain env genesisState genesisDoc w = .ok () w' ∧
      ∀ vals ∈ [w'.client.curState.lastValidators, w'.client.curState.validators,
          w'.client.curState.nextValidators],
        (vals.validators.map Validator.entry).Perm
          ((genesisDoc.validators.map fun (pk, power) => newValidator pk power).map Validator.entry) := by
  obtain ⟨gs, hgs, hperm⟩ := newValidatorSet_of_acceptable hvals
  obtain ⟨hsize, hrebuilt⟩ := map_entry_rebuild hkeys hperm
  rw [← hrebuilt] at hperm
  obtain ⟨l, v, n, hsets, hl⟩ := initValidatorSets_of_acceptable (pb2tm_tm2pbValidatorUpdates hsize)
    (hvals.of_perm_entry hperm)
  obtain ⟨req, hreq, hreqv⟩ : ∃ req, createInitChainRequest genesisState genesisDoc = .ok req ∧
      req.validators = tm2pbValidatorUpdates gs := ⟨_, by unfold createInitChainRequest; rw [hgs]; rfl, rfl⟩
  have hne : (app req).validators ≠ [] := by
    simpa [hecho, hreqv, tm2pbValidatorUpdates] using (hvals.of_perm_entry hperm).ne_nil
  obtain ⟨s', hs', rfl, rfl, rfl⟩ := updateStateFromInit_of_initValidatorSets hne
    (by rw [hecho, hreqv]; exact hsets) w.client.curState
  have hrun : sendInitChain env genesisState genesisDoc w =
      .ok () { w with sent := w.sent ++ w.client.clients.map (Message.of (.initChain req)),
                      client := { w.client with curState := s' } } := by
    unfold sendInitChain
    rw [hreq, liftGo_ok_bind]
    refine (bind_of_ok (broadcast_same_answer _ _ (fun c msgs => happ msgs c.networkAddress req)
      hclients)).trans ?_
    unfold AbciClient.updateStateFromInit
    dsimp only
    rw [hs']
  exact ⟨_, hrun, fun vals hv => (hl vals hv).trans hperm⟩

/-- Backends that accept everything and answer `InitChain` with the validators they were sent. -/
def echoingEnv : Env :=
  ⟨{ acceptingBackends with initChain := fun _ _ r => .ok ⟨none, r.validators, []⟩ }, fun _ => false⟩

/-- A genesis document listing the validator of `genesisState`. -/
def oneValidatorGenesisDoc : GenesisDoc := ⟨0, [(genesisValidator.pubKey, 10)], []⟩

theorem sendInitChain_echo_one_validator :
    AcceptableValidators
        (oneValidatorGenesisDoc.validators.map fun (pk, power) => newValidator pk power) ∧
      (∀ p ∈ oneValidatorGenesisDoc.validators, p.1.HasProtoSize) ∧
      oneValidatorWorld.client.clients ≠ [] ∧
      (∀ sent address r, echoingEnv.backends.initChain sent address r =
        .ok (⟨none, r.validators, []⟩ : ResponseInitChain)) ∧
      (∀ r : RequestInitChain,
        (⟨none, r.validators, []⟩ : ResponseInitChain).validators = r.validators) ∧
      ∃ w', sendInitChain echoingEnv genesisState oneValidatorGenesisDoc oneValidatorWorld =
          .ok () w' ∧
        ∀ vals ∈ [w'.client.curState.lastValidators, w'.client.curState.validators,
            w'.client.curState.nextValidators],
          (vals.validators.map Validator.entry).Perm
            ((oneValidatorGenesisDoc.validators.map fun (pk, power) => newValidator pk power).map
              Validator.entry) := by
  have hvals : AcceptableValidators
      (oneValidatorGenesisDoc.validators.map fun (pk, power) => newValidator pk power) :=
    ⟨by decide, by decide, by decide, by decide, by decide⟩
  have hkeys : ∀ p ∈ oneValidatorGenesisDoc.validators, p.1.HasProtoSize := by decide
  have hclients : oneValidatorWorld.client.clients ≠ [] := List.cons_ne_nil _ _
  exact ⟨hvals, hkeys, hclients, fun _ _ _ => rfl, fun _ => rfl,
    sendInitChain_keeps_genesis_validators hvals hkeys hclients (fun _ _ _ => rfl) fun _ => rfl⟩

end Startup

end CometMock
