import Mathlib.Algebra.Order.BigOperators.Group.List
import Mathlib.Algebra.Order.Group.Int
import CometMock.Lemmas.StateInvariants

/-!
The vote set over whole runs of `AddVote`. In a vote set that `NewExtendedVoteSet` made and
`AddVote` grew, each validator's slot holds at most one vote, signed by that validator for the
set's height, round and type; each block's `blockVotes` holds exactly the set's votes for the
block and their power; and a two-thirds majority is declared only for a block whose voters hold
more than two thirds of the set's power. Since a slot votes for one block, no two blocks can both
gather that much power: once declared, the majority stays, and no other block reaches a quorum.
-/

namespace CometMock

theorem filterMap_zip_set_perm {α β γ : Type} {f : α × β → Option γ} {a : α} {b : β} (y : β) :
    ∀ {l₁ : List α} {l₂ : List β} {i : Nat}, l₁[i]? = some a → l₂[i]? = some b → f (a, b) = none →
      ((l₁.zip (l₂.set i y)).filterMap f).Perm ((f (a, y)).toList ++ (l₁.zip l₂).filterMap f)
  | a' :: _, b' :: _, 0, h₁, h₂, hf => by
    simp only [List.getElem?_cons_zero, Option.some.injEq] at h₁ h₂
    subst h₁ h₂
    cases hy : f (a', y) <;> simp [List.filterMap_cons, hf, hy]
  | a' :: l₁, b' :: l₂, i + 1, h₁, h₂, hf => by
    rw [List.getElem?_cons_succ] at h₁ h₂
    have ih := @filterMap_zip_set_perm _ _ _ f a b y l₁ l₂ i h₁ h₂ hf
    simp only [List.set_cons_succ, List.zip_cons_cons]
    cases hc : f (a', b') with
    | none => simpa only [List.filterMap_cons_none hc] using ih
    | some c =>
      simpa only [List.filterMap_cons_some hc] using (ih.cons c).trans List.perm_middle.symm

theorem mem_zip_set {α β : Type} {a : α} {b y : β} :
    ∀ {l₁ : List α} {l₂ : List β} {i : Nat}, (a, b) ∈ l₁.zip (l₂.set i y) →
      (a, b) ∈ l₁.zip l₂ ∨ (l₁[i]? = some a ∧ b = y)
  | _ :: _, _ :: _, 0, h => by
    simp only [List.set_cons_zero, List.zip_cons_cons, List.mem_cons, Prod.mk.injEq] at h
    rcases h with ⟨rfl, rfl⟩ | h
    · exact .inr ⟨by simp, rfl⟩
    · exact .inl (List.mem_cons_of_mem _ h)
  | _ :: l₁, _ :: l₂, i + 1, h => by
    simp only [List.set_cons_succ, List.zip_cons_cons, List.mem_cons] at h
    rw [List.zip_cons_cons, List.getElem?_cons_succ]
    rcases h with h | h
    · exact .inl (h ▸ List.mem_cons_self _ _)
    · exact (@mem_zip_set _ _ a b y l₁ l₂ i h).imp (List.mem_cons_of_mem _) id

theorem zip_map_filter_orElse {α : Type} (p : α → Bool) :
    ∀ l : List (Option α), (l.zip (l.map (Option.filter p))).map (fun x => x.2.orElse fun _ => x.1) = l
  | [] => rfl
  | none :: l => congrArg _ (zip_map_filter_orElse p l)
  | some a :: l => by
    rw [List.map_cons, List.zip_cons_cons, List.map_cons, zip_map_filter_orElse p l]
    by_cases ha : p a <;> simp [Option.filter, ha]

theorem lookup_filter_ne {β : Type} {k k' : BlockID} (hk : k' ≠ k) :
    ∀ l : List (BlockID × β), (l.filter (·.1 ≠ k)).lookup k' = l.lookup k'
  | [] => rfl
  | (k'', b) :: l => by
    rw [List.filter_cons]
    by_cases h : k'' = k
    · rw [if_neg (by simp [h]), lookup_filter_ne hk l]
      simp only [List.lookup_cons, h, beq_eq_false_iff_ne.mpr hk]
    · rw [if_pos (by simp [h])]
      simp only [List.lookup_cons, lookup_filter_ne hk l]

theorem map_fst_filterMap_zip_sublist {α β γ : Type} {f : α × β → Option (α × γ)}
    (hf : ∀ p q, f p = some q → q.1 = p.1) :
    ∀ (l₁ : List α) (l₂ : List β), (((l₁.zip l₂).filterMap f).map Prod.fst).Sublist l₁
  | [], _ => by simp
  | _ :: _, [] => by simp
  | a :: l₁, b :: l₂ => by
    rw [List.zip_cons_cons]
    cases hq : f (a, b) with
    | none =>
      rw [List.filterMap_cons_none hq]
      exact (map_fst_filterMap_zip_sublist hf l₁ l₂).cons a
    | some q =>
      rw [List.filterMap_cons_some hq, List.map_cons, hf _ _ hq]
      exact (map_fst_filterMap_zip_sublist hf l₁ l₂).cons₂ a

namespace VoteSet

/-- The votes of the set for `blockId`, each with the validator of its slot. -/
def votesFor (vs : VoteSet) (blockId : BlockID) : List (Validator × Vote) :=
  (vs.valSet.validators.zip vs.votes).filterMap fun (val, v) =>
    v.bind fun vote => if vote.blockId = blockId then some (val, vote) else none

/-- The power of the validators whose slot holds a vote for `blockId`. -/
def tally (vs : VoteSet) (blockId : BlockID) : Int := totalPower ((vs.votesFor blockId).map (·.1))

/-- The power at which `addVerifiedVote` declares a two-thirds majority. -/
def quorum (vs : VoteSet) : Int := vs.valSet.totalVotingPower * 2 / 3 + 1

theorem mem_votesFor {vs : VoteSet} {blockId : BlockID} {val : Validator} {vote : Vote} :
    (val, vote) ∈ vs.votesFor blockId ↔
      (val, some vote) ∈ vs.valSet.validators.zip vs.votes ∧ vote.blockId = blockId := by
  unfold votesFor
  simp only [List.mem_filterMap, Prod.exists]
  constructor
  · rintro ⟨val', (_ | vote'), hm, h⟩
    · cases h
    · simp only [Option.some_bind] at h
      split_ifs at h with hb
      cases h
      exact ⟨hm, hb⟩
  · rintro ⟨hm, hb⟩
    exact ⟨val, some vote, hm, by simp [hb]⟩

theorem map_fst_votesFor_sublist (vs : VoteSet) (blockId : BlockID) :
    ((vs.votesFor blockId).map (·.1)).Sublist vs.valSet.validators := by
  refine map_fst_filterMap_zip_sublist ?_ _ _
  rintro ⟨val, (_ | vote)⟩ q h
  · cases h
  · simp only [Option.some_bind] at h
    split_ifs at h
    cases h
    rfl

/-- `vs'` counts votes of the same chain, height, round and type, by the same validators, as
`vs`: the fields `AddVote` never writes. -/
structure SameRound (vs vs' : VoteSet) : Prop where
  chainId : vs'.chainId = vs.chainId
  height : vs'.height = vs.height
  round : vs'.round = vs.round
  signedMsgType : vs'.signedMsgType = vs.signedMsgType
  valSet : vs'.valSet = vs.valSet
  extensionsEnabled : vs'.extensionsEnabled = vs.extensionsEnabled

theorem SameRound.refl (vs : VoteSet) : SameRound vs vs := ⟨rfl, rfl, rfl, rfl, rfl, rfl⟩

theorem SameRound.trans {vs₁ vs₂ vs₃ : VoteSet} (h₁ : SameRound vs₁ vs₂) (h₂ : SameRound vs₂ vs₃) :
    SameRound vs₁ vs₃ :=
  ⟨h₂.chainId.trans h₁.chainId, h₂.height.trans h₁.height, h₂.round.trans h₁.round,
    h₂.signedMsgType.trans h₁.signedMsgType, h₂.valSet.trans h₁.valSet,
    h₂.extensionsEnabled.trans h₁.extensionsEnabled⟩

theorem tally_eq_of_set {vs vs' : VoteSet} {i : Nat} {val : Validator} {vote : Vote}
    (hvals : vs'.valSet = vs.valSet) (hvotes : vs'.votes = vs.votes.set i (some vote))
    (hval : vs.valSet.validators[i]? = some val) (hslot : vs.votes[i]? = some none)
    (blockId : BlockID) :
    vs'.tally blockId = vs.tally blockId + if vote.blockId = blockId then val.votingPower else 0 := by
  unfold tally votesFor totalPower
  rw [hvals, hvotes, (((filterMap_zip_set_perm _ hval hslot rfl).map _).map _).sum_eq]
  split_ifs with hb <;> simp [hb, add_comm]

theorem addVerifiedVote_eq_ok {vs vs' : VoteSet} {vote : Vote} {p : Int}
    (h : vs.addVerifiedVote vote p = .ok (true, false, vs')) :
    ∃ bv, vs.votes.getD vote.validatorIndex.toNat none = none ∧
      (vs.votesByBlock.lookup vote.blockId = some bv ∨ vs.votesByBlock.lookup vote.blockId = none ∧
        bv = ⟨false, List.replicate vs.valSet.size none, 0⟩) ∧
      SameRound vs vs' ∧
      vs'.votesByBlock =
        (vote.blockId, bv.addVerifiedVote vote p) :: vs.votesByBlock.filter (·.1 ≠ vote.blockId) ∧
      (vs'.votes = vs.votes.set vote.validatorIndex.toNat (some vote) ∨
        vs'.votes = ((vs.votes.set vote.validatorIndex.toNat (some vote)).zip
          (bv.addVerifiedVote vote p).votes).map fun x => x.2.orElse fun _ => x.1) ∧
      (vs'.maj23 = vs.maj23 ∨ vs.maj23 = none ∧
        vs.quorum ≤ (bv.addVerifiedVote vote p).sum ∧ vs'.maj23 = some vote.blockId) := by
  unfold addVerifiedVote at h
  simp only [bind, Except.bind, pure, Except.pure, throw, throwThe, MonadExceptOf.throw] at h
  split at h
  · split_ifs at h <;> (try split at h) <;> (try split_ifs at h) <;> cases h
  · rename_i hnone
    cases hl : vs.votesByBlock.lookup vote.blockId <;>
      simp only [hl, Bool.false_and, Bool.false_eq_true, if_false] at h <;>
      split_ifs at h with hq <;> cases h
    all_goals
      first
        | exact ⟨_, hnone, .inr ⟨rfl, rfl⟩, ⟨rfl, rfl, rfl, rfl, rfl, rfl⟩, rfl, .inl rfl, .inl rfl⟩
        | exact ⟨_, hnone, .inl rfl, ⟨rfl, rfl, rfl, rfl, rfl, rfl⟩, rfl, .inl rfl, .inl rfl⟩
        | simp only [Bool.and_eq_true, decide_eq_true_eq] at hq
          first
            | exact ⟨_, hnone, .inr ⟨rfl, rfl⟩, ⟨rfl, rfl, rfl, rfl, rfl, rfl⟩, rfl, .inr rfl,
                .inr ⟨Option.isNone_iff_eq_none.mp hq.2, hq.1.2, rfl⟩⟩
            | exact ⟨_, hnone, .inl rfl, ⟨rfl, rfl, rfl, rfl, rfl, rfl⟩, rfl, .inr rfl,
                .inr ⟨Option.isNone_iff_eq_none.mp hq.2, hq.1.2, rfl⟩⟩

theorem getByIndex_eq_some {vals : ValidatorSet} {index : Int} {val : Validator}
    (h : vals.getByIndex index = some val) : vals.validators[index.toNat]? = some val := by
  unfold ValidatorSet.getByIndex at h
  split_ifs at h
  rwa [List.get?_eq_getElem?] at h

theorem addVote_eq_ok {vs vs' : VoteSet} {vote : Vote} {added : Bool}
    (h : vs.addVote vote = .ok (added, vs')) :
    added = false ∧ vs' = vs ∨ added = true ∧ ∃ val, vs.valSet.getByIndex vote.validatorIndex = some val ∧
      vote.validatorAddress = val.address ∧ vote.height = vs.height ∧ vote.round = vs.round ∧
      vote.type = vs.signedMsgType ∧ vote.verify vs.chainId val.pubKey vs.extensionsEnabled = .ok () ∧
      vs.addVerifiedVote vote val.votingPower = .ok (true, false, vs') := by
  unfold addVote at h
  simp only [bind, Except.bind, throw, throwThe, MonadExceptOf.throw, pure, Except.pure, ite_error_eq_ok] at h
  obtain ⟨-, -, hstep, h⟩ := h
  simp only [ne_eq, not_or, not_not] at hstep
  cases hv : vs.valSet.getByIndex vote.validatorIndex with
  | none => simp only [hv] at h; cases h
  | some val =>
    simp only [hv, ite_error_eq_ok, ne_eq, not_not] at h
    obtain ⟨haddr, h⟩ := h
    cases hg : vs.getVote vote.validatorIndex.toNat vote.blockId with
    | some existing =>
      simp only [hg] at h
      split_ifs at h
      cases h
      exact .inl ⟨rfl, rfl⟩
    | none =>
      cases hver : vote.verify vs.chainId val.pubKey vs.extensionsEnabled with
      | error => simp only [hg, hver] at h; cases h
      | ok =>
        simp only [hg, hver, ite_error_eq_ok] at h
        cases hav : vs.addVerifiedVote vote val.votingPower with
        | error => simp only [hav] at h; cases h.2
        | ok r =>
          obtain ⟨added', conflicting, vs''⟩ := r
          simp only [hav, ite_error_eq_ok, Except.ok.injEq, Prod.mk.injEq] at h
          obtain ⟨-, hc, ha, rfl, rfl⟩ := h
          obtain rfl : conflicting = false := by simpa using hc
          obtain rfl : added' = true := by simpa using ha
          exact .inr ⟨rfl, val, rfl, haddr, hstep.1, hstep.2.1, hstep.2.2, hver, hav⟩

theorem addVotes_keeps (P : VoteSet → Prop)
    (hstep : ∀ vs vote vs', P vs → vs.addVote vote = .ok (true, vs') → P vs') :
    ∀ {vs vs' : VoteSet} {votes : List (Option Vote)}, P vs → AbciClient.addVotes vs votes = .ok vs' →
      P vs'
  | _, _, [], hp, h => by cases h; exact hp
  | _, _, none :: votes, hp, h => @addVotes_keeps P hstep _ _ votes hp h
  | vs, _, some vote :: _, hp, h => by
    simp only [AbciClient.addVotes, bind, Except.bind] at h
    cases hv : vs.addVote vote with
    | error => simp only [hv] at h; cases h
    | ok r =>
      obtain ⟨added, vs₁⟩ := r
      cases added
      · simp only [hv] at h; cases h
      · simp only [hv] at h
        exact addVotes_keeps P hstep (hstep _ _ _ hp hv) h

theorem addVote_maj23 {vs vs' : VoteSet} {vote : Vote} {added : Bool} {blockId : BlockID}
    (h : vs.addVote vote = .ok (added, vs')) (hmaj : vs.maj23 = some blockId) :
    vs'.maj23 = some blockId := by
  rcases addVote_eq_ok h with ⟨-, rfl⟩ | ⟨-, val, -, -, -, -, -, -, h⟩
  · exact hmaj
  · obtain ⟨-, -, -, -, -, -, hm | ⟨hnone, -⟩⟩ := addVerifiedVote_eq_ok h
    · exact hm.trans hmaj
    · rw [hmaj] at hnone; cases hnone

theorem addVotes_maj23 {vs vs' : VoteSet} {votes : List (Option Vote)} {blockId : BlockID}
    (h : AbciClient.addVotes vs votes = .ok vs') (hmaj : vs.maj23 = some blockId) :
    vs'.maj23 = some blockId :=
  addVotes_keeps (·.maj23 = some blockId) (fun _ _ _ hm hv => addVote_maj23 hv hm) hmaj h

end VoteSet

/-- `bv` holds exactly the votes of `vs` for `blockId`, and their power. -/
structure BlockVotes.Counts (bv : BlockVotes) (vs : VoteSet) (blockId : BlockID) : Prop where
  peerMaj23 : bv.peerMaj23 = false
  votes : bv.votes = vs.votes.map (Option.filter (·.blockId == blockId))
  sum : bv.sum = vs.tally blockId

/-- `vote` stands in the slot of `val` as `AddVote` admits it: from `val`, for the set's height,
round and type, with signatures that verify under `val`'s key. -/
def Vote.SignedFor (vote : Vote) (vs : VoteSet) (val : Validator) : Prop :=
  vote.validatorAddress = val.address ∧ vote.height = vs.height ∧ vote.round = vs.round ∧
    vote.type = vs.signedMsgType ∧ vote.verify vs.chainId val.pubKey vs.extensionsEnabled = .ok ()

theorem Vote.SignedFor.of_sameRound {vote : Vote} {vs vs' : VoteSet} {val : Validator}
    (h : vote.SignedFor vs val) (hs : VoteSet.SameRound vs vs') : vote.SignedFor vs' val := by
  obtain ⟨h₁, h₂, h₃, h₄, h₅⟩ := h
  refine ⟨h₁, h₂.trans hs.height.symm, h₃.trans hs.round.symm, h₄.trans hs.signedMsgType.symm, ?_⟩
  rwa [hs.chainId, hs.extensionsEnabled]

theorem map_filter_set (l : List (Option Vote)) (i : Nat) (vote : Vote) (blockId : BlockID) :
    (l.set i (some vote)).map (Option.filter (·.blockId == blockId)) =
      (l.map (Option.filter (·.blockId == blockId))).set i
        (if vote.blockId = blockId then some vote else none) := by
  rw [List.map_set]
  by_cases hb : vote.blockId = blockId <;> simp [Option.filter, hb]

namespace BlockVotes.Counts

variable {bv : BlockVotes} {vs vs' : VoteSet} {vote : Vote} {val : Validator}

theorem addVerifiedVote_eq (hc : bv.Counts vs vote.blockId)
    (hslot : vs.votes[vote.validatorIndex.toNat]? = some none) (p : Int) :
    bv.addVerifiedVote vote p =
      ⟨bv.peerMaj23, bv.votes.set vote.validatorIndex.toNat (some vote), bv.sum + p⟩ := by
  unfold BlockVotes.addVerifiedVote
  rw [if_pos]
  rw [hc.votes, List.getD_eq_getElem?_getD, List.getElem?_map, hslot]
  rfl

theorem record (hc : bv.Counts vs vote.blockId) (hvals : vs'.valSet = vs.valSet)
    (hvotes : vs'.votes = vs.votes.set vote.validatorIndex.toNat (some vote))
    (hval : vs.valSet.validators[vote.validatorIndex.toNat]? = some val)
    (hslot : vs.votes[vote.validatorIndex.toNat]? = some none) :
    (bv.addVerifiedVote vote val.votingPower).Counts vs' vote.blockId := by
  rw [hc.addVerifiedVote_eq hslot]
  refine ⟨hc.peerMaj23, ?_, ?_⟩
  · show bv.votes.set _ (some vote) = _
    rw [hvotes, map_filter_set, if_pos rfl, hc.votes]
  · show bv.sum + val.votingPower = _
    rw [VoteSet.tally_eq_of_set hvals hvotes hval hslot, if_pos rfl, hc.sum]

theorem of_ne {blockId : BlockID} (hc : bv.Counts vs blockId) (hb : vote.blockId ≠ blockId)
    (hvals : vs'.valSet = vs.valSet)
    (hvotes : vs'.votes = vs.votes.set vote.validatorIndex.toNat (some vote))
    (hval : vs.valSet.validators[vote.validatorIndex.toNat]? = some val)
    (hslot : vs.votes[vote.validatorIndex.toNat]? = some none) : bv.Counts vs' blockId := by
  refine ⟨hc.peerMaj23, ?_, ?_⟩
  · rw [hvotes, map_filter_set, if_neg hb, hc.votes]
    refine (set_eq_of_getElem? ?_).symm
    rw [List.getElem?_map, hslot]
    rfl
  · rw [VoteSet.tally_eq_of_set hvals hvotes hval hslot, if_neg hb, add_zero, hc.sum]

end BlockVotes.Counts

namespace VoteSet

/-- What a vote set grown by `AddVote` keeps: one slot per validator; in each slot at most one
vote, signed by the slot's validator; for each block a `blockVotes` that holds exactly the set's
votes for it and their power, and none for a block without votes; and a two-thirds majority only
for a block whose votes reached the quorum. -/
structure Tallied (vs : VoteSet) : Prop where
  length_votes : vs.votes.length = vs.valSet.size
  signed : ∀ val vote, (val, some vote) ∈ vs.valSet.validators.zip vs.votes → vote.SignedFor vs val
  byBlock : ∀ blockId bv, vs.votesByBlock.lookup blockId = some bv → bv.Counts vs blockId
  unseen : ∀ blockId, vs.votesByBlock.lookup blockId = none →
    ∀ vote, some vote ∈ vs.votes → vote.blockId ≠ blockId
  maj23 : ∀ blockId, vs.maj23 = some blockId → vs.quorum ≤ vs.tally blockId

theorem newExtendedVoteSet_eq_ok {chainId : String} {height round : Int} {t : SignedMsgType}
    {valSet : ValidatorSet} {vs : VoteSet}
    (h : newExtendedVoteSet chainId height round t valSet = .ok vs) :
    vs.Tallied ∧ vs.chainId = chainId ∧ vs.height = height ∧ vs.round = round ∧
      vs.signedMsgType = t ∧ vs.valSet = valSet ∧ vs.extensionsEnabled = true := by
  unfold newExtendedVoteSet at h
  split at h
  · cases h
  · cases h
    refine ⟨⟨List.length_replicate _ _, fun _ _ hm => ?_, fun _ _ hl => (by cases hl),
      fun _ _ _ hm => ?_, fun _ hm => (by cases hm)⟩, rfl, rfl, rfl, rfl, rfl, rfl⟩
    · exact absurd (List.of_mem_zip hm).2 (by simp)
    · exact absurd hm (by simp)

theorem Tallied.fresh {vs : VoteSet} {blockId : BlockID} (ht : vs.Tallied)
    (hl : vs.votesByBlock.lookup blockId = none) :
    BlockVotes.Counts ⟨false, List.replicate vs.valSet.size none, 0⟩ vs blockId := by
  have hnone : ∀ v ∈ vs.votes, v.filter (·.blockId == blockId) = none := by
    rintro (_ | vote) hv
    · rfl
    · simp [Option.filter, ht.unseen blockId hl vote hv]
  refine ⟨rfl, ?_, ?_⟩
  · rw [List.map_congr_left hnone, List.map_const', ht.length_votes]
  · refine (congrArg totalPower (List.map_eq_nil_iff.mpr (List.filterMap_eq_nil_iff.mpr ?_))).symm
    rintro ⟨val, (_ | vote)⟩ hm
    · rfl
    · simp [ht.unseen blockId hl vote (List.of_mem_zip hm).2]

theorem Tallied.addVerifiedVote {vs vs' : VoteSet} {vote : Vote} {val : Validator}
    (ht : vs.Tallied) (hval : vs.valSet.validators[vote.validatorIndex.toNat]? = some val)
    (hsigned : vote.SignedFor vs val) (hpow : 0 ≤ val.votingPower)
    (h : vs.addVerifiedVote vote val.votingPower = .ok (true, false, vs')) :
    vs'.Tallied ∧ SameRound vs vs' := by
  obtain ⟨bv, hnone, hbv, hsame, hby, hvotes, hmaj⟩ := addVerifiedVote_eq_ok h
  have hlt : vote.validatorIndex.toNat < vs.votes.length := by
    rw [ht.length_votes]; exact (List.getElem?_eq_some_iff.mp hval).1
  have hslot : vs.votes[vote.validatorIndex.toNat]? = some none := by
    rw [List.getD_eq_getElem?_getD, List.getElem?_eq_getElem hlt] at hnone
    rw [List.getElem?_eq_getElem hlt]
    exact congrArg some hnone
  have hcounts : bv.Counts vs vote.blockId :=
    hbv.elim (ht.byBlock _ _) fun ⟨hl, hbv⟩ => hbv ▸ ht.fresh hl
  have hvotes' : vs'.votes = vs.votes.set vote.validatorIndex.toNat (some vote) := by
    refine hvotes.elim id fun h => h.trans ?_
    have hself := map_filter_set vs.votes vote.validatorIndex.toNat vote vote.blockId
    rw [if_pos rfl] at hself
    rw [hcounts.addVerifiedVote_eq hslot]
    dsimp only
    rw [hcounts.votes, ← hself]
    exact zip_map_filter_orElse _ _
  have hrecord := hcounts.record hsame.valSet hvotes' hval hslot
  have hquorum : vs'.quorum = vs.quorum := by unfold quorum; rw [hsame.valSet]
  refine ⟨⟨?_, fun val' vote' hm => ?_, fun b bv₁ hl => ?_, fun b hl vote' hm => ?_, fun b hb => ?_⟩,
    hsame⟩
  · rw [hvotes', List.length_set, hsame.valSet, ht.length_votes]
  · rw [hsame.valSet, hvotes'] at hm
    rcases mem_zip_set hm with hm | ⟨hv, hv'⟩
    · exact (ht.signed _ _ hm).of_sameRound hsame
    · rw [hval] at hv
      cases hv; cases hv'
      exact hsigned.of_sameRound hsame
  · rw [hby, List.lookup_cons] at hl
    by_cases hb : b = vote.blockId
    · subst hb
      simp only [beq_self_eq_true, Option.some.injEq] at hl
      exact hl ▸ hrecord
    · simp only [beq_eq_false_iff_ne.mpr hb, lookup_filter_ne hb] at hl
      exact (ht.byBlock b bv₁ hl).of_ne (Ne.symm hb) hsame.valSet hvotes' hval hslot
  · rw [hby, List.lookup_cons] at hl
    by_cases hb : b = vote.blockId
    · subst hb; simp at hl
    · simp only [beq_eq_false_iff_ne.mpr hb, lookup_filter_ne hb] at hl
      rw [hvotes'] at hm
      rcases List.mem_or_eq_of_mem_set hm with hm | hm
      · exact ht.unseen b hl vote' hm
      · cases hm; exact Ne.symm hb
  · rw [hquorum]
    rcases hmaj with hm | ⟨-, hq, hm⟩
    · have := ht.maj23 b (hm ▸ hb)
      rw [tally_eq_of_set hsame.valSet hvotes' hval hslot]
      split_ifs <;> omega
    · rw [hm, Option.some.injEq] at hb
      subst hb
      exact hrecord.sum ▸ hq

theorem Tallied.addVote {vs vs' : VoteSet} {vote : Vote} {added : Bool} (ht : vs.Tallied)
    (hpow : ∀ val ∈ vs.valSet.validators, 0 ≤ val.votingPower)
    (h : vs.addVote vote = .ok (added, vs')) : vs'.Tallied ∧ SameRound vs vs' := by
  rcases addVote_eq_ok h with ⟨-, rfl⟩ | ⟨-, val, hv, ha, hh, hr, ht', hver, h⟩
  · exact ⟨ht, .refl _⟩
  · have hval := getByIndex_eq_some hv
    exact ht.addVerifiedVote hval ⟨ha, hh, hr, ht', hver⟩ (hpow val (List.getElem?_mem hval)) h

theorem Tallied.addVotes {vs vs' : VoteSet} {votes : List (Option Vote)} (ht : vs.Tallied)
    (hpow : ∀ val ∈ vs.valSet.validators, 0 ≤ val.votingPower)
    (h : AbciClient.addVotes vs votes = .ok vs') : vs'.Tallied ∧ SameRound vs vs' :=
  addVotes_keeps (fun vs₁ => vs₁.Tallied ∧ SameRound vs vs₁)
    (fun _ _ _ ⟨ht₁, hs₁⟩ hv =>
      have h₂ := ht₁.addVote (hs₁.valSet ▸ hpow) hv
      ⟨h₂.1, hs₁.trans h₂.2⟩)
    ⟨ht, .refl _⟩ h

/-- A vote set that `NewExtendedVoteSet` made and the round's loop grew declares a two-thirds
majority for a block only when distinct validators of the set holding more than two thirds of its
power each cast a vote for that block, at the set's height, round and type, that verifies under
the validator's key. -/
theorem addVotes_maj23_backed_by_two_thirds {chainId : String} {height round : Int}
    {t : SignedMsgType} {valSet : ValidatorSet} {vs₀ vs : VoteSet} {votes : List (Option Vote)}
    {blockId : BlockID} (hpow : ∀ val ∈ valSet.validators, 0 ≤ val.votingPower)
    (hnew : newExtendedVoteSet chainId height round t valSet = .ok vs₀)
    (hrun : AbciClient.addVotes vs₀ votes = .ok vs) (hmaj : vs.maj23 = some blockId) :
    ((vs.votesFor blockId).map (·.1)).Sublist valSet.validators ∧
      valSet.totalVotingPower * 2 / 3 < totalPower ((vs.votesFor blockId).map (·.1)) ∧
      ∀ val vote, (val, vote) ∈ vs.votesFor blockId → vote.blockId = blockId ∧
        vote.validatorAddress = val.address ∧ vote.height = height ∧ vote.round = round ∧
        vote.type = t ∧ vote.verify chainId val.pubKey true = .ok () := by
  obtain ⟨ht₀, hc, hh, hr, hty, hv, he⟩ := newExtendedVoteSet_eq_ok hnew
  obtain ⟨ht, hs⟩ := ht₀.addVotes (hv ▸ hpow) hrun
  have hvals : vs.valSet = valSet := hs.valSet.trans hv
  refine ⟨hvals ▸ map_fst_votesFor_sublist vs blockId, ?_, fun val vote hm => ?_⟩
  · have hq := ht.maj23 blockId hmaj
    unfold quorum tally at hq
    rw [hvals] at hq
    omega
  · obtain ⟨hm, hb⟩ := mem_votesFor.mp hm
    obtain ⟨ha, hh', hr', hty', hver⟩ := ht.signed val vote hm
    rw [hs.chainId, hs.extensionsEnabled, hc, he] at hver
    exact ⟨hb, ha, hh'.trans (hs.height.trans hh), hr'.trans (hs.round.trans hr),
      hty'.trans (hs.signedMsgType.trans hty), hver⟩

/-- The precommit the only validator of `genesisSet` signs for `firstBlock`, extension signed. -/
def genesisPrecommit : Vote :=
  ⟨.precommit, 1, 0, firstBlock.blockId, 0, genesisValidator.address, 0,
    PrivValidator.sign ⟨genesisValidator.pubKey⟩ (.vote "test-chain" .precommit 1 0 firstBlock.blockId 0), [],
    PrivValidator.sign ⟨genesisValidator.pubKey⟩ (.voteExtension "test-chain" 1 0 [])⟩

theorem genesis_precommit_declares_majority :
    ∃ vs₀ vs, (∀ val ∈ genesisSet.validators, 0 ≤ val.votingPower) ∧
      newExtendedVoteSet "test-chain" 1 0 .precommit genesisSet = .ok vs₀ ∧
      AbciClient.addVotes vs₀ [some genesisPrecommit] = .ok vs ∧ vs.maj23 = some firstBlock.blockId ∧
      ((vs.votesFor firstBlock.blockId).map (·.1)).Sublist genesisSet.validators ∧
      genesisSet.totalVotingPower * 2 / 3 < totalPower ((vs.votesFor firstBlock.blockId).map (·.1)) ∧
      ∀ val vote, (val, vote) ∈ vs.votesFor firstBlock.blockId → vote.blockId = firstBlock.blockId ∧
        vote.validatorAddress = val.address ∧ vote.height = 1 ∧ vote.round = 0 ∧
        vote.type = .precommit ∧ vote.verify "test-chain" val.pubKey true = .ok () :=
  have hpow : ∀ val ∈ genesisSet.validators, 0 ≤ val.votingPower := by decide
  ⟨_, _, hpow, rfl, rfl, rfl,
    @addVotes_maj23_backed_by_two_thirds _ _ _ _ _ _ _ [some genesisPrecommit] _ hpow rfl rfl rfl⟩

theorem tally_add_tally_le (vs : VoteSet) {b b' : BlockID} (hne : b ≠ b')
    (hpow : ∀ val ∈ vs.valSet.validators, 0 ≤ val.votingPower) :
    vs.tally b + vs.tally b' ≤ totalPower ((vs.valSet.validators.zip vs.votes).map (·.1)) := by
  unfold tally votesFor
  have hpow' : ∀ p ∈ vs.valSet.validators.zip vs.votes, 0 ≤ p.1.votingPower :=
    fun p hp => hpow _ (List.of_mem_zip hp).1
  generalize vs.valSet.validators.zip vs.votes = l at hpow'
  induction l with
  | nil => simp [totalPower]
  | cons p l ih =>
    obtain ⟨val, slot⟩ := p
    have hp : 0 ≤ val.votingPower := hpow' _ (List.mem_cons_self _ _)
    have ih := ih fun q hq => hpow' q (List.mem_cons_of_mem _ hq)
    simp only [totalPower, List.map_map] at ih ⊢
    rcases slot with _ | vote
    · simp only [List.filterMap_cons, Option.none_bind, List.map_cons, List.sum_cons,
        Function.comp_apply]
      omega
    · simp only [List.filterMap_cons, Option.some_bind]
      split_ifs with hb hb' hb'
      · exact absurd (hb.symm.trans hb') hne
      all_goals simp only [List.map_cons, List.sum_cons, Function.comp_apply]; omega

/-- Quorum intersection: two blocks that both reach the quorum are the same block. -/
theorem Tallied.eq_of_quorum_le {vs : VoteSet} {b b' : BlockID} (ht : vs.Tallied)
    (hpow : ∀ val ∈ vs.valSet.validators, 0 ≤ val.votingPower)
    (hb : vs.quorum ≤ vs.tally b) (hb' : vs.quorum ≤ vs.tally b') : b = b' := by
  by_contra hne
  have hsum := vs.tally_add_tally_le hne hpow
  rw [List.map_fst_zip _ _ ht.length_votes.ge] at hsum
  have hT : 0 ≤ vs.valSet.totalVotingPower := List.sum_nonneg fun _ hx => by
    obtain ⟨v, hv, rfl⟩ := List.mem_map.mp hx
    exact hpow v hv
  unfold quorum at hb hb'
  unfold ValidatorSet.totalVotingPower at hT hb hb'
  omega

/-- Once the round's vote set declares a two-thirds majority, adding more votes never changes it,
and no other block ever holds more than two thirds of the set's power in its `blockVotes`: two
different blocks are never both backed by a two-thirds majority. -/
theorem addVotes_majority_final {chainId : String} {height round : Int} {t : SignedMsgType}
    {valSet : ValidatorSet} {vs₀ vs vs' : VoteSet} {votes more : List (Option Vote)}
    {blockId : BlockID} (hpow : ∀ val ∈ valSet.validators, 0 ≤ val.votingPower)
    (hnew : newExtendedVoteSet chainId height round t valSet = .ok vs₀)
    (hrun : AbciClient.addVotes vs₀ votes = .ok vs) (hmaj : vs.maj23 = some blockId)
    (hmore : AbciClient.addVotes vs more = .ok vs') :
    vs'.maj23 = some blockId ∧ ∀ b bv, vs'.votesByBlock.lookup b = some bv →
      valSet.totalVotingPower * 2 / 3 < bv.sum → b = blockId := by
  obtain ⟨ht₀, -, -, -, -, hv, -⟩ := newExtendedVoteSet_eq_ok hnew
  obtain ⟨ht, hs⟩ := ht₀.addVotes (hv ▸ hpow) hrun
  obtain ⟨ht', hs'⟩ := ht.addVotes (hs.valSet.trans hv ▸ hpow) hmore
  have hvals : vs'.valSet = valSet := hs'.valSet.trans (hs.valSet.trans hv)
  have hmaj' := addVotes_maj23 hmore hmaj
  refine ⟨hmaj', fun b bv hl hsum => ht'.eq_of_quorum_le (hvals ▸ hpow) ?_ (ht'.maj23 _ hmaj')⟩
  rw [← (ht'.byBlock b bv hl).sum]
  unfold quorum
  rw [hvals]
  omega

/-- A validator of power 1 beside `genesisValidator`, too weak to outvote it. -/
def minorValidator : Validator := newValidator (.ed25519 (List.replicate 32 3)) 1

def majorMinorSet : ValidatorSet := ⟨[genesisValidator, minorValidator], some genesisValidator⟩

/-- A height-1 block other than `firstBlock`: it holds one transaction. -/
def otherBlockId : BlockID :=
  (genesisState.makeBlock 1 [[1]] ⟨0, 0, .zero, []⟩ [] (hexString genesisValidator.address)).blockId

/-- `minorValidator`'s signed precommit for `otherBlockId`, at index 1 of `majorMinorSet`. -/
def minorPrecommit : Vote :=
  ⟨.precommit, 1, 0, otherBlockId, 0, minorValidator.address, 1,
    PrivValidator.sign ⟨minorValidator.pubKey⟩ (.vote "test-chain" .precommit 1 0 otherBlockId 0), [],
    PrivValidator.sign ⟨minorValidator.pubKey⟩ (.voteExtension "test-chain" 1 0 [])⟩

theorem majority_final_after_a_vote_for_another_block :
    ∃ vs₀ vs vs', (∀ val ∈ majorMinorSet.validators, 0 ≤ val.votingPower) ∧
      newExtendedVoteSet "test-chain" 1 0 .precommit majorMinorSet = .ok vs₀ ∧
      AbciClient.addVotes vs₀ [some genesisPrecommit] = .ok vs ∧ vs.maj23 = some firstBlock.blockId ∧
      AbciClient.addVotes vs [some minorPrecommit] = .ok vs' ∧
      (vs'.votesByBlock.lookup otherBlockId).isSome ∧
      vs'.maj23 = some firstBlock.blockId ∧ ∀ b bv, vs'.votesByBlock.lookup b = some bv →
        majorMinorSet.totalVotingPower * 2 / 3 < bv.sum → b = firstBlock.blockId :=
  have hpow : ∀ val ∈ majorMinorSet.validators, 0 ≤ val.votingPower := by decide
  ⟨_, _, _, hpow, rfl, rfl, rfl, rfl, rfl,
    @addVotes_majority_final "test-chain" 1 0 .precommit _ _ _ _ [some genesisPrecommit]
      [some minorPrecommit] _ hpow rfl rfl rfl rfl⟩

end VoteSet

end CometMock
