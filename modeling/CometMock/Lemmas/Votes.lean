import CometMock.Lemmas.Engine

/-!
Why the round's vote set cannot reach a two-thirds majority from unsigned votes: `AddVote` only
adds a vote whose signature verifies, and without a majority `MakeExtendedCommit` panics.
-/

namespace CometMock

/-- The votes of a list that carry no signature. -/
def AllUnsigned (votes : List (Option Vote)) : Prop :=
  ∀ vote, some vote ∈ votes → vote.signature = none

theorem allUnsigned_cons {v : Option Vote} {votes : List (Option Vote)} :
    AllUnsigned (v :: votes) ↔ (∀ vote, v = some vote → vote.signature = none) ∧ AllUnsigned votes := by
  simp only [AllUnsigned, List.mem_cons]
  constructor
  · exact fun h => ⟨fun vote hv => h vote (.inl hv.symm), fun vote hv => h vote (.inr hv)⟩
  · rintro ⟨h₁, h₂⟩ vote (hv | hv)
    · exact h₁ vote hv.symm
    · exact h₂ vote hv

theorem Vote.verify_ne_ok_of_unsigned {v : Vote} (hs : v.signature = none) (chainId : String)
    (pubKey : PubKey) (withExtension : Bool) : v.verify chainId pubKey withExtension ≠ .ok () := by
  unfold Vote.verify
  split_ifs <;> simp_all

namespace VoteSet

theorem addVote_verified {vs vs' : VoteSet} {vote : Vote} (h : vs.addVote vote = .ok (true, vs')) :
    ∃ val, vs.valSet.getByIndex vote.validatorIndex = some val ∧
      vote.verify vs.chainId val.pubKey vs.extensionsEnabled = .ok () := by
  cases hv : vs.valSet.getByIndex vote.validatorIndex with
  | none =>
    simp only [addVote, hv, bind, Except.bind, throw, throwThe, MonadExceptOf.throw, pure,
      Except.pure] at h
    split_ifs at h
  | some val =>
    refine ⟨val, rfl, ?_⟩
    cases hver : vote.verify vs.chainId val.pubKey vs.extensionsEnabled with
    | ok => rfl
    | error e =>
      simp only [addVote, hv, hver, bind, Except.bind, throw, throwThe, MonadExceptOf.throw, pure,
        Except.pure] at h
      split_ifs at h
      split at h <;> (try split_ifs at h) <;> cases h

theorem addVote_ne_ok_of_unsigned {vs vs' : VoteSet} {vote : Vote} (hs : vote.signature = none) :
    vs.addVote vote ≠ .ok (true, vs') := fun h =>
  let ⟨_, _, hv⟩ := addVote_verified h
  Vote.verify_ne_ok_of_unsigned hs _ _ _ hv

theorem makeExtendedCommit_ne_ok_of_no_maj23 {vs : VoteSet} (h : vs.maj23 = none) (ap : ABCIParams)
    (ec : ExtendedCommit) : vs.makeExtendedCommit ap ≠ .ok ec := by
  unfold makeExtendedCommit
  simp only [bind, Except.bind, pure, Except.pure, throw, throwThe, MonadExcept.throw,
    MonadExceptOf.throw, h]
  split <;> simp

end VoteSet

theorem newExtendedVoteSet_maj23 {chainId : String} {height round : Int} {t : SignedMsgType}
    {valSet : ValidatorSet} {vs : VoteSet} (h : newExtendedVoteSet chainId height round t valSet = .ok vs) :
    vs.maj23 = none := by
  unfold newExtendedVoteSet at h
  split at h
  · cases h
  · cases h; rfl

namespace AbciClient

theorem addVotes_of_allUnsigned {vs vs' : VoteSet} :
    ∀ {votes : List (Option Vote)}, AllUnsigned votes → addVotes vs votes = .ok vs' → vs' = vs
  | [], _, h => by cases h; rfl
  | none :: votes, hu, h => addVotes_of_allUnsigned (allUnsigned_cons.mp hu).2 h
  | some vote :: votes, hu, h => by
    simp only [addVotes, bind, Except.bind] at h
    split at h
    · cases h
    · rename_i r hr
      obtain ⟨added, vs₁⟩ := r
      cases added
      · cases h
      · exact absurd hr (VoteSet.addVote_ne_ok_of_unsigned ((allUnsigned_cons.mp hu).1 vote rfl))

theorem makeLastCommit_ne_ok {a : AbciClient} {block : Block} {votes : List (Option Vote)}
    (hu : AllUnsigned votes) (ec : ExtendedCommit) : makeLastCommit a block votes ≠ .ok ec := by
  intro h
  simp only [makeLastCommit, bind, Except.bind] at h
  split at h
  · cases h
  rename_i vs hvs
  split at h
  · cases h
  rename_i vs' hvs'
  rw [addVotes_of_allUnsigned hu hvs'] at h
  exact VoteSet.makeExtendedCommit_ne_ok_of_no_maj23 (newExtendedVoteSet_maj23 hvs) _ ec h

end AbciClient

end CometMock
