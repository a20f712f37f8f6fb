import CometMock.Lemmas.VoteTally

/-!
`VerifyCommitLightTrusting`, the light client's check that `commitBlock` runs on the commit the
round made. It accepts a commit only when commit signatures of distinct validators of the set
verify and carry more than the trusted fraction of the set's power. Conversely, on a set with
distinct addresses and positive powers it accepts, at the one-third trust level `commitBlock`
asks for, every commit for a block that the round's vote set makes with `MakeExtendedCommit`: the
check after `makeLastCommit` never fails.

The light-block check that follows it is what stops the round instead. `CreateProposalBlock`
names the proposer by the bytes of its backend's address string, the 40-character hex rendering
of a 20-byte address, and `Header.ValidateBasic` wants 20 bytes: committing a proposal block
fails before `FinalizeBlock`, however the votes come out.
-/

namespace CometMock

/-- `c` holds a commit signature that `VerifyCommitLightTrusting` counts for `val`: a commit for
the block, from `val`'s address, whose signature verifies under `val`'s key over the sign-bytes of
the vote it stands for. -/
def Commit.SignedBy (c : Commit) (chainId : String) (val : Validator) : Prop :=
  ∃ cs ∈ c.signatures, cs.blockIdFlag = .commit ∧ cs.validatorAddress = val.address ∧
    val.pubKey.verifySignature (c.voteSignBytes chainId cs) cs.signature = true

theorem Vote.verifySignature_of_verify {v : Vote} {chainId : String} {pubKey : PubKey}
    {withExtension : Bool} (h : v.verify chainId pubKey withExtension = .ok ()) :
    pubKey.verifySignature (v.signBytes chainId) v.signature = true := by
  unfold Vote.verify at h
  split_ifs at h
  simp_all

/-- The commit signature `Vote.ExtendedCommitSig` makes for a vote for a complete block. -/
def Vote.commitSig (vote : Vote) : CommitSig :=
  ⟨.commit, vote.validatorAddress, vote.timestamp, vote.signature⟩

namespace ValidatorSet

theorem getByAddress_go_eq_some {address : Bytes} {v : Validator} :
    ∀ {vs : List Validator} {i j : Int}, getByAddress.go address vs i = (j, some v) →
      v.address = address ∧ i ≤ j ∧ vs[(j - i).toNat]? = some v
  | [], _, _, h => by simp [getByAddress.go] at h
  | w :: ws, i, j, h => by
    unfold getByAddress.go at h
    split_ifs at h with hw
    · simp only [Prod.mk.injEq, Option.some.injEq] at h
      obtain ⟨rfl, rfl⟩ := h
      simp [hw]
    · obtain ⟨ha, hij, hk⟩ := getByAddress_go_eq_some h
      refine ⟨ha, by omega, ?_⟩
      rw [show (j - i).toNat = (j - (i + 1)).toNat + 1 by omega, List.getElem?_cons_succ]
      exact hk

theorem getByAddress_eq_some {vals : ValidatorSet} {address : Bytes} {i : Int} {v : Validator}
    (h : vals.getByAddress address = (i, some v)) :
    v.address = address ∧ 0 ≤ i ∧ vals.validators[i.toNat]? = some v := by
  obtain ⟨ha, hi, hv⟩ := getByAddress_go_eq_some h
  exact ⟨ha, hi, by simpa using hv⟩

theorem getByAddress_inj {vals : ValidatorSet} {a a' : Bytes} {i : Int} {v v' : Validator}
    (h : vals.getByAddress a = (i, some v)) (h' : vals.getByAddress a' = (i, some v')) : a = a' := by
  obtain ⟨ha, -, hv⟩ := getByAddress_eq_some h
  obtain ⟨ha', -, hv'⟩ := getByAddress_eq_some h'
  rw [hv] at hv'
  cases hv'
  exact ha.symm.trans ha'

theorem getByAddress_of_mem {vals : ValidatorSet} {v : Validator}
    (hnd : (vals.validators.map (·.address)).Nodup) (hv : v ∈ vals.validators) :
    (vals.getByAddress v.address).2 = some v := by
  unfold getByAddress
  generalize vals.validators = vs at hnd hv
  generalize (0 : Int) = i
  induction vs generalizing i with
  | nil => cases hv
  | cons w ws ih =>
    rw [List.map_cons, List.nodup_cons] at hnd
    unfold getByAddress.go
    split_ifs with hw
    · rcases List.mem_cons.mp hv with rfl | hv
      · rfl
      · exact absurd (by rw [hw]; exact List.mem_map_of_mem _ hv) hnd.1
    · exact ih hnd.2 (List.mem_of_ne_of_mem (fun h => hw (by rw [h])) hv) _

section Verify

variable {vals : ValidatorSet} {chainId : String} {c : Commit} {numerator denominator : Int}

theorem verifyCommitLightTrusting_go_sound {sigs : List CommitSig} {seen : List Int} {tallied : Int}
    (hsub : ∀ cs ∈ sigs, cs ∈ c.signatures)
    (h : verifyCommitLightTrusting.go vals chainId c numerator denominator sigs seen tallied = .ok ()) :
    ∃ signers : List Validator, (signers.map fun v => (vals.getByAddress v.address).1).Nodup ∧
      (∀ v ∈ signers,
        (vals.getByAddress v.address).1 ∉ seen ∧ v ∈ vals.validators ∧ c.SignedBy chainId v) ∧
      verifyCommitLightTrusting.needed vals numerator denominator < tallied + totalPower signers := by
  induction sigs, seen, tallied using verifyCommitLightTrusting.go.induct vals chainId c numerator
    denominator with
  | case1 _ _ hle => simp [verifyCommitLightTrusting.go, hle] at h
  | case2 _ _ hgt => exact ⟨[], List.nodup_nil, by simp, by simpa [totalPower] using hgt⟩
  | case3 _ _ _ _ hflag ih =>
    rw [verifyCommitLightTrusting.go, if_pos hflag] at h
    exact ih (fun cs h => hsub cs (List.mem_cons_of_mem _ h)) h
  | case4 _ _ _ _ hflag _ hget ih =>
    simp only [verifyCommitLightTrusting.go, if_neg hflag, hget] at h
    exact ih (fun cs h => hsub cs (List.mem_cons_of_mem _ h)) h
  | case5 _ _ _ _ hflag _ _ hget hseen =>
    simp [verifyCommitLightTrusting.go, hflag, hget, hseen] at h
  | case6 _ _ _ _ hflag _ _ hget hseen hsig =>
    simp [verifyCommitLightTrusting.go, hflag, hget, hseen, hsig] at h
  | case7 cs _ _ _ hflag i val hget hseen hsig hpow =>
    obtain ⟨ha, -, hv⟩ := getByAddress_eq_some hget
    refine ⟨[val], List.nodup_singleton _, ?_, by simpa [totalPower] using hpow⟩
    simp only [List.mem_singleton, forall_eq, ha, hget]
    exact ⟨hseen, List.getElem?_mem hv, cs, hsub cs (List.mem_cons_self _ _), not_not.mp hflag,
      ha.symm, by simpa using hsig⟩
  | case8 cs _ _ _ hflag i val hget hseen hsig hpow ih =>
    rw [verifyCommitLightTrusting.go, if_neg hflag] at h
    simp only [hget, if_neg hseen, hsig, if_neg hpow] at h
    obtain ⟨signers, hnd, hs, hp⟩ := ih (fun cs h => hsub cs (List.mem_cons_of_mem _ h)) h
    obtain ⟨ha, -, hv⟩ := getByAddress_eq_some hget
    refine ⟨val :: signers, ?_, ?_, ?_⟩
    · rw [List.map_cons, List.nodup_cons, ha, hget]
      exact ⟨fun hi => by
        obtain ⟨v, hv, hvi⟩ := List.mem_map.mp hi
        exact (hs v hv).1 (hvi ▸ List.mem_cons_self _ _), hnd⟩
    · rintro v (_ | ⟨_, hv'⟩)
      · rw [ha, hget]
        exact ⟨hseen, List.getElem?_mem hv, cs, hsub cs (List.mem_cons_self _ _),
          not_not.mp hflag, ha.symm, by simpa using hsig⟩
      · exact ⟨fun h => (hs v hv').1 (List.mem_cons_of_mem _ h), (hs v hv').2⟩
    · simp only [totalPower, List.map_cons, List.sum_cons] at hp ⊢
      omega

/-- Whenever `VerifyCommitLightTrusting` accepts a commit, distinct validators of the set, each
with a commit signature in the commit that verifies under its key, hold more than
`numerator / denominator` of the set's power. -/
theorem verifyCommitLightTrusting_sound
    (h : vals.verifyCommitLightTrusting chainId c numerator denominator = .ok ()) :
    ∃ signers : List Validator, (signers.map (·.address)).Nodup ∧
      (∀ v ∈ signers, v ∈ vals.validators ∧ c.SignedBy chainId v) ∧
      vals.totalVotingPower * numerator / denominator < totalPower signers := by
  obtain ⟨signers, hnd, hs, hp⟩ := verifyCommitLightTrusting_go_sound (fun _ h => h) h
  refine ⟨signers, List.Nodup.of_map (fun a => (vals.getByAddress a).1) (by rwa [List.map_map]),
    fun v hv => (hs v hv).2, ?_⟩
  simpa [verifyCommitLightTrusting.needed] using hp

/-- The commit for `firstBlock` carrying the precommit of the only validator of `genesisSet`. -/
def genesisCommit : Commit :=
  ⟨1, 0, firstBlock.blockId, [⟨.commit, genesisValidator.address, 0, VoteSet.genesisPrecommit.signature⟩]⟩

theorem genesisCommit_signed_by_genesis_validator :
    genesisSet.verifyCommitLightTrusting "test-chain" genesisCommit 1 3 = .ok () ∧
      ∃ signers : List Validator, (signers.map (·.address)).Nodup ∧
        (∀ v ∈ signers, v ∈ genesisSet.validators ∧ genesisCommit.SignedBy "test-chain" v) ∧
        genesisSet.totalVotingPower * 1 / 3 < totalPower signers :=
  have h : genesisSet.verifyCommitLightTrusting "test-chain" genesisCommit 1 3 = .ok () := rfl
  ⟨h, verifyCommitLightTrusting_sound h⟩

/-- The power the loop counts for a commit signature: its validator's, if the set has one at
that address. -/
def countedPower (vals : ValidatorSet) (cs : CommitSig) : Int :=
  ((vals.getByAddress cs.validatorAddress).2.map (·.votingPower)).getD 0

theorem verifyCommitLightTrusting_go_ok {sigs : List CommitSig} {seen : List Int} {tallied : Int}
    (hgood : ∀ cs ∈ sigs, cs.blockIdFlag = .commit → ∃ i val,
      vals.getByAddress cs.validatorAddress = (i, some val) ∧ i ∉ seen ∧
        val.pubKey.verifySignature (c.voteSignBytes chainId cs) cs.signature = true)
    (hnd : ((sigs.filter (·.blockIdFlag = .commit)).map fun cs =>
      (vals.getByAddress cs.validatorAddress).1).Nodup)
    (hpow : verifyCommitLightTrusting.needed vals numerator denominator <
      tallied + ((sigs.filter (·.blockIdFlag = .commit)).map vals.countedPower).sum) :
    verifyCommitLightTrusting.go vals chainId c numerator denominator sigs seen tallied = .ok () := by
  induction sigs, seen, tallied using verifyCommitLightTrusting.go.induct vals chainId c numerator
    denominator with
  | case1 _ _ hle => simp at hpow; omega
  | case2 _ _ hgt => simp [verifyCommitLightTrusting.go, hgt]
  | case3 _ _ _ _ hflag ih =>
    rw [verifyCommitLightTrusting.go, if_pos hflag]
    simp only [List.filter_cons, decide_eq_true_eq, if_neg hflag] at hnd hpow
    exact ih (fun cs h => hgood cs (List.mem_cons_of_mem _ h)) hnd hpow
  | case4 cs _ _ _ hflag _ hget _ =>
    obtain ⟨_, _, h, -⟩ := hgood cs (List.mem_cons_self _ _) (not_not.mp hflag)
    rw [hget] at h
    cases h
  | case5 cs _ _ _ hflag _ _ hget hseen =>
    obtain ⟨_, _, h, hnot, -⟩ := hgood cs (List.mem_cons_self _ _) (not_not.mp hflag)
    rw [hget] at h
    cases h
    exact absurd hseen hnot
  | case6 cs _ _ _ hflag _ _ hget _ hsig =>
    obtain ⟨_, _, h, -, hv⟩ := hgood cs (List.mem_cons_self _ _) (not_not.mp hflag)
    rw [hget] at h
    cases h
    simp [hv] at hsig
  | case7 _ _ _ _ hflag _ _ hget hseen hsig hpow' =>
    simp only [verifyCommitLightTrusting.go, if_neg hflag, hget, if_neg hseen, if_pos hpow', hsig,
      Bool.false_eq_true, if_false]
  | case8 cs rest _ _ hflag i val hget hseen hsig hpow' ih =>
    rw [verifyCommitLightTrusting.go, if_neg hflag]
    simp only [hget, if_neg hseen, hsig, if_neg hpow']
    have hcount : vals.countedPower cs = val.votingPower := by simp [countedPower, hget]
    simp only [List.filter_cons, decide_eq_true_eq, if_pos (not_not.mp hflag), List.map_cons,
      List.nodup_cons, List.sum_cons, hcount, hget] at hnd hpow
    refine ih (fun cs' h hc => ?_) hnd.2 (by omega)
    obtain ⟨i', val', h', hnot, hv⟩ := hgood cs' (List.mem_cons_of_mem _ h) hc
    refine ⟨i', val', h', fun hi => ?_, hv⟩
    rcases List.mem_cons.mp hi with rfl | hi
    · exact hnd.1 (List.mem_map.mpr ⟨cs', List.mem_filter.mpr ⟨h, by simpa using hc⟩, by rw [h']⟩)
    · exact hnot hi

end Verify

end ValidatorSet

theorem forall_mem_of_mapM_eq_ok {ε α β : Type} {f : α → Except ε β} {P : α → Prop}
    (hf : ∀ a b, f a = .ok b → P a) : ∀ {l : List α} {bs : List β}, l.mapM f = .ok bs → ∀ a ∈ l, P a
  | [], _, _ => fun _ h => by cases h
  | a :: _, _, hl => by
    simp only [List.mapM_cons, except_bind_eq_ok] at hl
    obtain ⟨b, hb, _, hbs, -⟩ := hl
    rintro a' (_ | ⟨_, ha'⟩)
    · exact hf a b hb
    · exact forall_mem_of_mapM_eq_ok hf hbs a' ha'

theorem filter_map_eq_filterMap {α β : Type} (f : α → β) (p : β → Bool) :
    ∀ l : List α, (l.map f).filter p = l.filterMap fun a => if p (f a) then some (f a) else none
  | [] => rfl
  | a :: l => by
    by_cases h : p (f a) <;> simp [List.filter_cons, h, filter_map_eq_filterMap f p l]

namespace VoteSet

theorem makeExtendedCommit_eq_ok {vs : VoteSet} {ap : ABCIParams} {ec : ExtendedCommit}
    (h : vs.makeExtendedCommit ap = .ok ec) :
    vs.signedMsgType = .precommit ∧ vs.maj23 = some ec.blockId ∧ ec.height = vs.height ∧
      ec.round = vs.round ∧
      (∀ vote, some vote ∈ vs.votes → vote.blockId.isComplete ∨ vote.blockId.isZero) ∧
      (ec.blockId.isComplete → ec.toCommit.signatures.filter (·.blockIdFlag = .commit) =
        vs.votes.filterMap fun v => v.bind fun vote =>
          if vote.blockId = ec.blockId then some vote.commitSig else none) := by
  unfold makeExtendedCommit at h
  simp only [bind, Except.bind, pure, Except.pure, throw, throwThe, MonadExceptOf.throw,
    MonadExcept.throw, ite_error_eq_ok] at h
  obtain ⟨htype, h⟩ := h
  cases hm : vs.maj23 with
  | none => simp only [hm] at h; cases h
  | some B =>
    simp only [hm] at h
    split at h
    · cases h
    rename_i sigs hsigs
    split at h
    · cases h
    split at h
    · cases h
    cases h
    refine ⟨not_not.mp htype, rfl, rfl, rfl, fun vote hv => ?_, fun hB => ?_⟩
    · refine @forall_mem_of_mapM_eq_ok _ _ _ _
        (fun v => ∀ vote, v = some vote → vote.blockId.isComplete ∨ vote.blockId.isZero)
        (fun v b hf vote hv => ?_) _ _ hsigs (some vote) hv vote rfl
      subst hv
      simp only [Vote.extendedCommitSig] at hf
      split_ifs at hf with hc hz
      · exact .inl hc
      · exact .inr hz
    · have hmap := @mapM_eq_ok_map _ _ _ _ _
        (fun v => v.bind fun vote => if vote.blockId = B then some vote.commitSig else none)
        (fun ecs => if ecs.commitSig.blockIdFlag = .commit then some ecs.commitSig else none)
        ?_ _ _ hsigs
      · show (sigs.map (·.commitSig)).filter _ = _
        rw [filter_map_eq_filterMap]
        have := congrArg (List.filterMap id) hmap
        rw [List.filterMap_map, List.filterMap_map] at this
        simpa using this
      · rintro (_ | vote) b hf
        · simp only [Vote.extendedCommitSig] at hf
          cases hf
          rfl
        · simp only [Vote.extendedCommitSig] at hf
          have hne : vote.blockId.isComplete = false → vote.blockId ≠ B := fun h hb => by
            rw [hb, hB] at h; cases h
          split_ifs at hf with hc hz
          · by_cases hb : vote.blockId = B
            · simp [hb] at hf
              subst hf
              simp [hb, Vote.commitSig]
            · simp [hb] at hf
              subst hf
              simp [ExtendedCommitSig.absent, hb]
          · simp at hf
            subst hf
            simp [hne (by simpa using hc)]

theorem map_votesFor_eq_filterMap {vs : VoteSet} {blockId : BlockID} {β : Type} (F : Vote → β)
    (hlen : vs.votes.length ≤ vs.valSet.validators.length) :
    (vs.votesFor blockId).map (fun p => F p.2) =
      vs.votes.filterMap fun v => v.bind fun vote =>
        if vote.blockId = blockId then some (F vote) else none := by
  unfold votesFor
  conv_rhs => rw [← List.map_snd_zip _ _ hlen]
  rw [List.map_filterMap, List.filterMap_map]
  refine List.filterMap_congr fun ⟨val, v⟩ _ => ?_
  cases v with
  | none => rfl
  | some vote => by_cases hb : vote.blockId = blockId <;> simp [hb]

section CommitCheck

variable {vs : VoteSet} {ap : ABCIParams} {ec : ExtendedCommit} {blockId : BlockID}

theorem Tallied.getByAddress_voter (ht : vs.Tallied)
    (hnd : (vs.valSet.validators.map (·.address)).Nodup) {val : Validator} {vote : Vote}
    (hp : (val, vote) ∈ vs.votesFor blockId) :
    (vs.valSet.getByAddress vote.validatorAddress).2 = some val := by
  obtain ⟨hz, -⟩ := mem_votesFor.mp hp
  rw [(ht.signed _ _ hz).1]
  exact ValidatorSet.getByAddress_of_mem hnd (List.of_mem_zip hz).1

theorem Tallied.commit_blockId_complete (ht : vs.Tallied) (hT : 0 ≤ vs.valSet.totalVotingPower)
    (hmake : vs.makeExtendedCommit ap = .ok ec) (hblock : ec.blockId.isZero = false) :
    ec.blockId.isComplete = true := by
  obtain ⟨-, hmaj, -, -, hshape, -⟩ := makeExtendedCommit_eq_ok hmake
  have hq := ht.maj23 _ hmaj
  obtain ⟨⟨val, vote⟩, hp⟩ : ∃ p, p ∈ vs.votesFor ec.blockId :=
    List.exists_mem_of_ne_nil _ fun hnil => by
      simp only [quorum, tally, hnil, List.map_nil, totalPower, List.sum_nil] at hq
      omega
  obtain ⟨hz, hb⟩ := mem_votesFor.mp hp
  rcases hshape vote (List.of_mem_zip hz).2 with hc | hz'
  · rwa [hb] at hc
  · rw [hb, hblock] at hz'
    cases hz'

theorem Tallied.commit_signatures (ht : vs.Tallied) (hmake : vs.makeExtendedCommit ap = .ok ec)
    (hcomplete : ec.blockId.isComplete = true) :
    ec.toCommit.signatures.filter (·.blockIdFlag = .commit) =
      (vs.votesFor ec.blockId).map (·.2.commitSig) := by
  rw [(makeExtendedCommit_eq_ok hmake).2.2.2.2.2 hcomplete,
    map_votesFor_eq_filterMap Vote.commitSig ht.length_votes.le]

theorem Tallied.voter_signature_verifies (ht : vs.Tallied) (hmake : vs.makeExtendedCommit ap = .ok ec)
    {val : Validator} {vote : Vote} (hp : (val, vote) ∈ vs.votesFor ec.blockId) :
    val.pubKey.verifySignature (ec.toCommit.voteSignBytes vs.chainId vote.commitSig)
      vote.commitSig.signature = true := by
  obtain ⟨htype, -, hheight, hround, -⟩ := makeExtendedCommit_eq_ok hmake
  obtain ⟨hz, hb⟩ := mem_votesFor.mp hp
  obtain ⟨-, hh, hr, hty, hv⟩ := ht.signed _ _ hz
  convert Vote.verifySignature_of_verify hv using 2
  simp [Commit.voteSignBytes, Vote.signBytes, Vote.commitSig, ExtendedCommit.toCommit, hb, hheight,
    hround, hh, hr, hty, htype]

theorem Tallied.voter_indices_nodup (ht : vs.Tallied)
    (hnd : (vs.valSet.validators.map (·.address)).Nodup) (blockId : BlockID) :
    (((vs.votesFor blockId).map (·.2.commitSig)).map fun cs =>
      (vs.valSet.getByAddress cs.validatorAddress).1).Nodup := by
  have hsub := map_fst_votesFor_sublist vs blockId
  have hidx : ((vs.votesFor blockId).map (·.2.commitSig)).map (fun cs =>
      (vs.valSet.getByAddress cs.validatorAddress).1) =
      (((vs.votesFor blockId).map (·.1)).map (·.address)).map fun x => (vs.valSet.getByAddress x).1 := by
    simp only [List.map_map]
    exact List.map_congr_left fun ⟨val, vote⟩ hp => by
      simp [Vote.commitSig, (ht.signed _ _ (mem_votesFor.mp hp).1).1]
  rw [hidx]
  refine List.Nodup.map_on (fun x hx y hy hxy => ?_) ((hsub.map _).nodup hnd)
  obtain ⟨vx, hvx, rfl⟩ := List.mem_map.mp hx
  obtain ⟨vy, hvy, rfl⟩ := List.mem_map.mp hy
  exact ValidatorSet.getByAddress_inj
    (Prod.ext rfl (ValidatorSet.getByAddress_of_mem hnd (hsub.subset hvx)))
    (Prod.ext hxy.symm (ValidatorSet.getByAddress_of_mem hnd (hsub.subset hvy)))

theorem Tallied.countedPower_voters (ht : vs.Tallied)
    (hnd : (vs.valSet.validators.map (·.address)).Nodup) (blockId : BlockID) :
    (((vs.votesFor blockId).map (·.2.commitSig)).map vs.valSet.countedPower).sum =
      vs.tally blockId := by
  unfold tally totalPower
  rw [List.map_map, List.map_map]
  exact congrArg List.sum (List.map_congr_left fun ⟨val, vote⟩ hp => by
    simp [ValidatorSet.countedPower, Vote.commitSig, ht.getByAddress_voter hnd hp])

theorem Tallied.makeExtendedCommit_passes_light_check (ht : vs.Tallied) (hwf : vs.valSet.WellFormed)
    (hmake : vs.makeExtendedCommit ap = .ok ec) (hblock : ec.blockId.isZero = false) :
    vs.valSet.verifyCommitLightTrusting vs.chainId ec.toCommit 1 3 = .ok () := by
  have hT : 0 ≤ vs.valSet.totalVotingPower :=
    List.sum_nonneg fun _ hx => by
      obtain ⟨v, hv, rfl⟩ := List.mem_map.mp hx
      exact (hwf.pos v hv).le
  have hq := ht.maj23 _ (makeExtendedCommit_eq_ok hmake).2.1
  have hfilter := ht.commit_signatures hmake (ht.commit_blockId_complete hT hmake hblock)
  unfold ValidatorSet.verifyCommitLightTrusting
  apply ValidatorSet.verifyCommitLightTrusting_go_ok
  · intro cs hcs hc
    obtain ⟨⟨val, vote⟩, hp, rfl⟩ :=
      List.mem_map.mp (hfilter ▸ List.mem_filter.mpr ⟨hcs, by simpa using hc⟩)
    exact ⟨_, val, Prod.ext rfl (ht.getByAddress_voter hwf.nodup hp), List.not_mem_nil _,
      ht.voter_signature_verifies hmake hp⟩
  · rw [hfilter]
    exact ht.voter_indices_nodup hwf.nodup _
  · rw [hfilter, ht.countedPower_voters hwf.nodup]
    unfold ValidatorSet.verifyCommitLightTrusting.needed
    unfold quorum at hq
    omega

end CommitCheck

end VoteSet

theorem Header.validateBasic_ne_ok {hdr : Header} (h : hdr.proposerAddress.length ≠ 20) :
    hdr.validateBasic ≠ .ok () := by
  intro hok
  simp only [Header.validateBasic, bind, Except.bind, pure, Except.pure, throw, throwThe,
    MonadExceptOf.throw, ite_error_eq_ok] at hok
  obtain ⟨-, -, -, -, hlen, -⟩ := hok
  exact hlen h

theorem LightBlock.validateBasic_ne_ok {lb : LightBlock} {chainId : String}
    (h : lb.signedHeader.header.proposerAddress.length ≠ 20) : lb.validateBasic chainId ≠ .ok () := by
  intro hok
  obtain ⟨_, hsh, -⟩ := except_bind_eq_ok.mp hok
  obtain ⟨_, hh, -⟩ := except_bind_eq_ok.mp hsh
  exact Header.validateBasic_ne_ok h hh

namespace AbciClient

/-- On a current validator set with distinct addresses and positive powers, the commit that
`makeLastCommit` makes for a block passes `VerifyCommitLightTrusting` at the one-third trust level
`commitBlock` checks next, whatever votes the round collected: the check never rejects a commit
the round made. -/
theorem makeLastCommit_passes_light_check {a : AbciClient} {block : Block}
    {votes : List (Option Vote)} {ec : ExtendedCommit} (hwf : a.curState.validators.WellFormed)
    (h : makeLastCommit a block votes = .ok ec) (hblock : ec.blockId.isZero = false) :
    a.curState.validators.verifyCommitLightTrusting a.curState.chainId ec.toCommit 1 3 = .ok () := by
  simp only [makeLastCommit, except_bind_eq_ok] at h
  obtain ⟨vs₀, hnew, vs, hrun, hmake⟩ := h
  obtain ⟨ht₀, hc, -, -, -, hv, -⟩ := VoteSet.newExtendedVoteSet_eq_ok hnew
  obtain ⟨ht, hs⟩ := ht₀.addVotes (hv ▸ fun v hv => (hwf.pos v hv).le) hrun
  have hvals : vs.valSet = a.curState.validators := hs.valSet.trans hv
  rw [← hvals, ← hs.chainId.trans hc]
  exact ht.makeExtendedCommit_passes_light_check (hvals ▸ hwf) hmake hblock

theorem firstBlock_commit_passes_light_check :
    ∃ ec, oneValidatorWorld.client.curState.validators.WellFormed ∧
      makeLastCommit oneValidatorWorld.client firstBlock [some VoteSet.genesisPrecommit] = .ok ec ∧
      ec.blockId.isZero = false ∧
      oneValidatorWorld.client.curState.validators.verifyCommitLightTrusting
        oneValidatorWorld.client.curState.chainId ec.toCommit 1 3 = .ok () :=
  have hwf : oneValidatorWorld.client.curState.validators.WellFormed := ⟨by decide, by decide⟩
  ⟨_, hwf, rfl, rfl,
    @makeLastCommit_passes_light_check _ firstBlock [some VoteSet.genesisPrecommit] _ hwf rfl rfl⟩

/-- Committing a block whose proposer address is not 20 bytes long fails at the latest at the
light-block check, before anything is sent. -/
theorem commitBlock_fails_before_finalizing {env : Env} {newHeight : Int} {block : Block}
    {votes : List (Option Vote)} (h : block.header.proposerAddress.length ≠ 20) (w : World) :
    ∃ f w', commitBlock env newHeight block votes w = .error f w' ∧ w'.sent = w.sent := by
  unfold commitBlock
  rw [getClient_bind]
  cases hm : makeLastCommit w.client block votes with
  | error f => exact ⟨f, w, by simp [hm], rfl⟩
  | ok ec =>
    simp only [hm, liftGo_ok_bind, modifyClient_bind]
    cases w.client.curState.validators.verifyCommitLightTrusting w.client.curState.chainId
      ec.toCommit 1 3 with
    | error e => exact ⟨_, _, rfl, rfl⟩
    | ok u =>
      cases hl : LightBlock.validateBasic ⟨⟨block.header, ec.toCommit⟩, w.client.curState.validators⟩
        w.client.curState.chainId with
      | error e => exact ⟨_, _, rfl, rfl⟩
      | ok u' => exact absurd hl (LightBlock.validateBasic_ne_ok h)

/-- A round never gets past committing its own proposal: the proposal block names a proposer with a
20-byte address by the 40 bytes of its hex rendering, so whatever votes the round collects,
committing the block fails before `FinalizeBlock` or any other request is sent. -/
theorem proposed_block_never_finalized (env : Env) (now : Int) (tx : Option Bytes)
    (proposer : Option Validator) (misbehavingValidators : List (Validator × MisbehaviourType))
    (hlen : ((proposer.map (·.address)).getD []).length = 20) :
    Returns (proposeBlock env now tx proposer misbehavingValidators) fun r =>
      ∀ newHeight votes w, ∃ f w', commitBlock env newHeight r.2 votes w = .error f w' ∧
        w'.sent = w.sent := by
  refine (proposeBlock_proposerAddress env now tx proposer misbehavingValidators).imp ?_
  intro r hr newHeight votes
  exact commitBlock_fails_before_finalizing (by rw [hr, length_hexString]; omega)

theorem genesis_proposal_never_finalized :
    (((some genesisValidator).map (·.address)).getD []).length = 20 ∧
      Returns (proposeBlock acceptingEnv 0 none (some genesisValidator) []) fun r =>
        ∀ newHeight votes w, ∃ f w', commitBlock acceptingEnv newHeight r.2 votes w = .error f w' ∧
          w'.sent = w.sent :=
  have hlen : (((some genesisValidator).map (·.address)).getD []).length = 20 := by decide
  ⟨hlen, proposed_block_never_finalized acceptingEnv 0 none (some genesisValidator) [] hlen⟩

end AbciClient

end CometMock
