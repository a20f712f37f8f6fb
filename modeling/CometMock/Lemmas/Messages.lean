import CometMock.Lemmas.Session

/-!
What the engine sends its backends while it serves calls. A round sends its requests in ABCI's
order for one block: the `CheckTx` of its transaction, `PrepareProposal` to the proposer,
`ProcessProposal` to the others, then `ExtendVote` and `VerifyVoteExtension`; it fails at
`MakeExtendedCommit`, before the `FinalizeBlock` and `Commit` that follow. The `abci_query` route
sends one `Query`, and nothing else sends. So over any session the traffic is one segment per call,
each in ABCI's order, and no block is ever finalized or committed on a backend.
-/

namespace CometMock

open AbciClient

/-- The step of a block's execution a request belongs to, in ABCI's order; requests outside a
block's execution are at 0. -/
def Request.phase : Request → Nat
  | .info | .initChain _ | .query _ => 0
  | .checkTx _ => 1
  | .prepareProposal _ => 2
  | .processProposal _ => 3
  | .extendVote _ => 4
  | .verifyVoteExtension _ => 5
  | .finalizeBlock _ => 6
  | .commit => 7

/-- The requests a session sends: those of a round up to its votes, and `Query`. `Info` and
`InitChain` belong to start-up, and `FinalizeBlock` and `Commit` are never sent. -/
def Request.SentInSession : Request → Prop
  | .checkTx _ | .prepareProposal _ | .processProposal _ | .extendVote _
  | .verifyVoteExtension _ | .query _ => True
  | .info | .initChain _ | .finalizeBlock _ | .commit => False

/-- A request of a session at phase `k`. -/
def Request.SentAt (k : Nat) (r : Request) : Prop := r.SentInSession ∧ r.phase = k

/-- Every message `x` sends, whether it returns or fails, carries a request satisfying `P`. -/
def SendsOnly {α : Type} (P : Request → Prop) (x : ClientM α) : Prop :=
  ∀ w, ∃ ms, (finalWorld (x w)).sent = w.sent ++ ms ∧ ∀ m ∈ ms, P m.request

section Rules
variable {α β γ : Type} {P : Request → Prop}

theorem SendsOnly.bind_returns {x : ClientM α} {f : α → ClientM β} {Q : α → Prop}
    (hx : SendsOnly P x) (hxQ : Returns x Q) (hf : ∀ a, Q a → SendsOnly P (f a)) :
    SendsOnly P (x >>= f) := by
  intro w
  obtain ⟨ms, hms, hP⟩ := hx w
  cases hxw : x w with
  | ok a w₁ =>
    rw [hxw, finalWorld_ok] at hms
    obtain ⟨ms', hms', hP'⟩ := hf a (hxQ _ _ _ hxw) w₁
    refine ⟨ms ++ ms', ?_, fun m hm => (List.mem_append.mp hm).elim (hP m) (hP' m)⟩
    rw [bind_of_ok hxw, hms', hms, List.append_assoc]
  | error e w₁ =>
    rw [hxw] at hms
    rw [bind_of_error hxw]
    exact ⟨ms, hms, hP⟩

theorem SendsOnly.bind {x : ClientM α} {f : α → ClientM β} (hx : SendsOnly P x)
    (hf : ∀ a, SendsOnly P (f a)) : SendsOnly P (x >>= f) :=
  hx.bind_returns (returns_true x) fun a _ => hf a

theorem sendsOnly_of_sent_eq {x : ClientM α} (h : ∀ w, (finalWorld (x w)).sent = w.sent) :
    SendsOnly P x :=
  fun w => ⟨[], by rw [h, List.append_nil], by simp⟩

theorem Emits.sendsOnly {x : ClientM α} (hx : Emits P x) : SendsOnly P x := fun w => by
  obtain ⟨ms, h, hP⟩ := hx w
  exact ⟨ms, by rw [h], hP⟩

theorem sendsOnly_modifyClient (g : AbciClient → AbciClient) : SendsOnly P (modifyClient g) :=
  sendsOnly_of_sent_eq fun _ => rfl

end Rules

/-- The messages `x` sends, whether it returns or fails, are requests of a session sent in ABCI's
order, at phases from `lo` to `hi`. -/
def SendsInOrder {α : Type} (lo hi : Nat) (x : ClientM α) : Prop :=
  ∀ w, ∃ ms, (finalWorld (x w)).sent = w.sent ++ ms ∧
    ms.Pairwise (fun m m' => m.request.phase ≤ m'.request.phase) ∧
    ∀ m ∈ ms, m.request.SentInSession ∧ lo ≤ m.request.phase ∧ m.request.phase ≤ hi

section InOrder
variable {α β : Type} {a b c : Nat}

theorem SendsOnly.inOrder {x : ClientM α} {k : Nat} (hx : SendsOnly (Request.SentAt k) x) :
    SendsInOrder k k x := fun w => by
  obtain ⟨ms, hms, hP⟩ := hx w
  refine ⟨ms, hms, List.pairwise_of_forall_mem_list fun m hm m' hm' => ?_, fun m hm => ?_⟩
  · rw [(hP m hm).2, (hP m' hm').2]
  · exact ⟨(hP m hm).1, (hP m hm).2.ge, (hP m hm).2.le⟩

theorem SendsOnly.silent {x : ClientM α} (hx : SendsOnly (fun _ => False) x) :
    SendsInOrder a b x := fun w => by
  obtain ⟨ms, hms, hP⟩ := hx w
  obtain rfl : ms = [] := List.eq_nil_iff_forall_not_mem.mpr hP
  exact ⟨[], hms, List.Pairwise.nil, by simp⟩

theorem Emits.inOrder {x : ClientM α} {k : Nat} (hx : Emits (Request.SentAt k) x) :
    SendsInOrder k k x :=
  hx.sendsOnly.inOrder

theorem Emits.silent {x : ClientM α} (hx : Emits (fun _ => False) x) : SendsInOrder a b x :=
  hx.sendsOnly.silent

theorem SendsInOrder.mono {a' b' : Nat} {x : ClientM α} (ha : a' ≤ a) (hb : b ≤ b')
    (hx : SendsInOrder a b x) : SendsInOrder a' b' x := fun w => by
  obtain ⟨ms, hms, hord, hP⟩ := hx w
  exact ⟨ms, hms, hord, fun m hm => ⟨(hP m hm).1, ha.trans (hP m hm).2.1, (hP m hm).2.2.trans hb⟩⟩

theorem SendsInOrder.bind_returns {x : ClientM α} {f : α → ClientM β} {Q : α → Prop}
    (hab : a ≤ b) (hbc : b ≤ c) (hx : SendsInOrder a b x) (hxQ : Returns x Q)
    (hf : ∀ v, Q v → SendsInOrder b c (f v)) : SendsInOrder a c (x >>= f) := by
  intro w
  obtain ⟨ms, hms, hord, hP⟩ := hx w
  have hP₁ : ∀ m ∈ ms, m.request.SentInSession ∧ a ≤ m.request.phase ∧ m.request.phase ≤ c :=
    fun m hm => ⟨(hP m hm).1, (hP m hm).2.1, (hP m hm).2.2.trans hbc⟩
  cases hxw : x w with
  | ok v w₁ =>
    rw [hxw, finalWorld_ok] at hms
    obtain ⟨ms', hms', hord', hP'⟩ := hf v (hxQ _ _ _ hxw) w₁
    refine ⟨ms ++ ms', by rw [bind_of_ok hxw, hms', hms, List.append_assoc],
      List.pairwise_append.mpr ⟨hord, hord', fun m hm m' hm' => (hP m hm).2.2.trans (hP' m' hm').2.1⟩,
      fun m hm => (List.mem_append.mp hm).elim (hP₁ m) fun hm => ?_⟩
    exact ⟨(hP' m hm).1, hab.trans (hP' m hm).2.1, (hP' m hm).2.2⟩
  | error e w₁ =>
    rw [hxw] at hms
    rw [bind_of_error hxw]
    exact ⟨ms, hms, hord, hP₁⟩

theorem SendsInOrder.bind {x : ClientM α} {f : α → ClientM β} (hab : a ≤ b) (hbc : b ≤ c)
    (hx : SendsInOrder a b x) (hf : ∀ v, SendsInOrder b c (f v)) : SendsInOrder a c (x >>= f) :=
  hx.bind_returns hab hbc (returns_true x) fun v _ => hf v

end InOrder

section Round
variable (env : Env)

theorem sortValidatorsByNetworkAddress_sendsOnly {P : Request → Prop} :
    SendsOnly P sortValidatorsByNetworkAddress :=
  emits_getClient.sendsOnly.bind fun _ => (emits_liftGo _).sendsOnly.bind fun _ =>
    (sendsOnly_modifyClient _).bind fun _ => (emits_pure _).sendsOnly

theorem commitBlock_sendsOnly {P : Request → Prop} {newHeight : Int} {block : Block}
    {votes : List (Option Vote)} (hu : AllUnsigned votes) :
    SendsOnly P (commitBlock env newHeight block votes) :=
  sendsOnly_of_sent_eq fun w => by
    obtain ⟨f, hf⟩ := @commitBlock_eq_error env newHeight block votes hu w
    rw [hf]
    rfl

theorem voteAndCommit_sendsOnly {P : Request → Prop} (newHeight : Int) (block : Block)
    (hext : ∀ r : RequestExtendVote, r.height = block.header.height → P (.extendVote r))
    (hver : ∀ r : RequestVerifyVoteExtension, r.height = block.header.height →
      P (.verifyVoteExtension r)) :
    SendsOnly P (voteAndCommit env newHeight block) :=
  emits_getClient.sendsOnly.bind fun _ => (collectVotes_emits env block _ hext).sendsOnly.bind_returns
    (collectVotes_allUnsigned env block _) fun votes hu =>
  sortValidatorsByNetworkAddress_sendsOnly.bind fun curVals =>
  (verifyVoteExtensions_emits env block votes curVals hver).sendsOnly.bind fun _ =>
    commitBlock_sendsOnly env hu

theorem buildProposal_sendsInOrder (now : Int) (txs : List Bytes) (p : Option Validator)
    (mis : List (Validator × MisbehaviourType)) : SendsInOrder 2 3 (buildProposal env now txs p mis) :=
  (constructEvidences_emits now mis).silent.bind le_rfl (by decide) fun _ =>
    emits_getClient.silent.bind le_rfl (by decide) fun _ => by
      split
      · exact emits_getClient.silent.bind le_rfl (by decide) fun _ =>
          (decideProposal_emits (P := Request.SentAt 2) env now _ _ 0 txs _
            fun _ _ => ⟨trivial, rfl⟩).inOrder.bind le_rfl (by decide) fun _ =>
          emits_getClient.silent.bind (by decide) le_rfl fun _ =>
          (emits_liftErr _).silent.bind (by decide) le_rfl fun _ =>
          (processProposals_emits (P := Request.SentAt 3) env _ _
            fun _ _ => ⟨trivial, rfl⟩).inOrder.bind le_rfl le_rfl fun _ => (emits_pure _).silent
      · exact (emits_throw _).silent

theorem proposeBlock_sendsInOrder (now : Int) (tx : Option Bytes) (p : Option Validator)
    (mis : List (Validator × MisbehaviourType)) : SendsInOrder 1 3 (proposeBlock env now tx p mis) :=
  have hbuild : ∀ r, SendsInOrder 1 3 (do let b ← buildProposal env now tx.toList p mis; pure (r, b)) :=
    fun _ => ((buildProposal_sendsInOrder env now _ p mis).bind (by decide) le_rfl fun _ =>
      (emits_pure _).silent).mono (by decide) le_rfl
  match tx with
  | some t => ((sendCheckTx_emits (P := Request.SentAt 1) env t ⟨trivial, rfl⟩).map _).inOrder.bind
    le_rfl (by decide) hbuild
  | none => (emits_pure _).silent.bind le_rfl (by decide) hbuild

theorem voteAndCommit_sendsInOrder (newHeight : Int) (block : Block) :
    SendsInOrder 4 5 (voteAndCommit env newHeight block) := by
  unfold voteAndCommit
  exact emits_getClient.silent.bind le_rfl (by decide) fun _ =>
    (collectVotes_emits (P := Request.SentAt 4) env block _
      fun _ _ => ⟨trivial, rfl⟩).inOrder.bind_returns le_rfl (by decide)
      (collectVotes_allUnsigned env block _) fun votes hu =>
    sortValidatorsByNetworkAddress_sendsOnly.silent.bind le_rfl (by decide) fun curVals =>
    ((verifyVoteExtensions_emits (P := Request.SentAt 5) env block votes curVals
      fun _ _ => ⟨trivial, rfl⟩).inOrder.mono (by decide) le_rfl).bind (by decide) le_rfl fun _ =>
      (commitBlock_sendsOnly env hu).silent

theorem runBlockWithTimeAndProposer_sendsInOrder (now : Int) (tx : Option Bytes) (blockTime : Int)
    (proposer : Option Validator) (mis : List (Validator × MisbehaviourType)) :
    SendsInOrder 1 5 (runBlockWithTimeAndProposer env now tx blockTime proposer mis) := by
  unfold runBlockWithTimeAndProposer
  exact emits_getClient.silent.bind le_rfl (by decide) fun _ =>
    (proposeBlock_sendsInOrder env now tx proposer mis).bind (by decide) (by decide) fun p =>
      ((voteAndCommit_sendsInOrder env _ p.2).mono (by decide) le_rfl).bind (by decide) le_rfl
        fun _ => (emits_pure _).silent

/-- No round gets to `UpdateStateFromBlock`, which reads the `FinalizeBlock` response: every round
fails before `FinalizeBlock` is sent, with the chain state as it was but for the order of the
current validators. -/
theorem runBlockWithTimeAndProposer_never_finalizes (now : Int) (tx : Option Bytes)
    (blockTime : Int) (proposer : Option Validator) (mis : List (Validator × MisbehaviourType))
    (w : World) :
    ∃ f w' ms, runBlockWithTimeAndProposer env now tx blockTime proposer mis w = .error f w' ∧
      Reordered w.client w'.client ∧ w'.sent = w.sent ++ ms ∧
      ∀ m ∈ ms, ∀ r, m.request ≠ .finalizeBlock r := by
  obtain ⟨f, w', hrun, hre⟩ := runBlockWithTimeAndProposer_fails env now tx blockTime proposer mis w
  obtain ⟨ms, hms, -, hP⟩ := runBlockWithTimeAndProposer_sendsInOrder env now tx blockTime proposer mis w
  rw [hrun] at hms
  refine ⟨f, w', ms, hrun, hre, hms, fun m hm r hr => ?_⟩
  have hphase := (hP m hm).2.2
  rw [hr] at hphase
  exact absurd (show 6 ≤ 5 from hphase) (by decide)

end Round

section Calls
variable {α : Type} (env : Env)

theorem sendsInOrder_discard {x : ClientM α} {a b : Nat} (hab : a ≤ b) (hx : SendsInOrder a b x) :
    SendsInOrder a b (do let _ ← x; pure () : ClientM Unit) :=
  hx.bind hab le_rfl fun _ => (emits_pure _).silent

theorem runBlock_sendsInOrder (now : Int) (tx : Option Bytes) :
    SendsInOrder 1 5 (runBlock env now tx) :=
  emits_getClient.silent.bind le_rfl (by decide) fun _ =>
    runBlockWithTimeAndProposer_sendsInOrder env now tx _ _ _

theorem runBlockWithEvidence_sendsInOrder (now : Int) (tx : Option Bytes)
    (mis : List (Validator × MisbehaviourType)) :
    SendsInOrder 1 5 (runBlockWithEvidence env now tx mis) :=
  emits_getClient.silent.bind le_rfl (by decide) fun _ =>
    runBlockWithTimeAndProposer_sendsInOrder env now tx _ _ _

theorem runEmptyBlocks_go_sendsInOrder (clock : Nat → Int) :
    ∀ n i, SendsInOrder 1 5 (runEmptyBlocks.go env clock n i)
  | 0, _ => (emits_pure _).silent
  | _ + 1, _ => (runBlock_sendsInOrder env _ none).bind_returns (by decide) le_rfl
      (NeverOk.returns (NeverOk.bind (returns_true _) fun _ _ =>
        runBlockWithTimeAndProposer_neverOk env _ _ _ _ _) fun _ => False) fun _ h => h.elim

theorem causeDoubleSign_sendsInOrder (now : Int) (address : Bytes) :
    SendsInOrder 1 5 (causeDoubleSign env now address) :=
  emits_getClient.silent.bind le_rfl (by decide) fun _ =>
    (emits_liftErr _).silent.bind le_rfl (by decide) fun _ =>
      sendsInOrder_discard (by decide) (runBlockWithEvidence_sendsInOrder env now none _)

theorem causeLightClientAttack_sendsInOrder (now : Int) (address : Bytes) (misbehaviourType : String) :
    SendsInOrder 1 5 (causeLightClientAttack env now address misbehaviourType) := by
  refine emits_getClient.silent.bind le_rfl (by decide) fun _ =>
    (emits_liftErr _).silent.bind le_rfl (by decide) fun _ => ?_
  split <;> refine SendsInOrder.bind le_rfl (by decide) ?_ fun _ =>
    sendsInOrder_discard (by decide) (runBlockWithEvidence_sendsInOrder env now none _)
  all_goals first | exact (emits_pure _).silent | exact (emits_throw _).silent

theorem serve_sendsInOrder (now : Int) (route : RpcServer.Route) :
    SendsInOrder 0 5 (RpcServer.serve env now route) := by
  cases route with
  | validators heightPtr pagePtr perPagePtr =>
    exact (emits_getClient.bind fun _ => (emits_liftGo _).bind fun _ => emits_pure _).silent
  | block heightPtr =>
    exact (emits_getClient.bind fun _ => (emits_liftGo _).bind fun _ => emits_pure _).silent
  | broadcastTxCommit tx | broadcastTxSync tx | broadcastTxAsync tx =>
    exact ((sendsInOrder_discard (by decide) (runBlock_sendsInOrder env now (some tx))).bind
      (by decide) le_rfl fun _ => (emits_pure _).silent).mono (by decide) le_rfl
  | abciQuery path data height prove =>
    exact ((abciQuery_emits env (fun _ => ⟨trivial, rfl⟩) path data height prove).map
      _).inOrder.mono le_rfl (by decide)

theorem Call.run_sendsInOrder (c : Call) : SendsInOrder 0 5 (c.run env) := by
  cases c with
  | rpc now route => exact sendsInOrder_discard (by decide) (serve_sendsInOrder env now route)
  | runBlock now tx =>
    exact (sendsInOrder_discard (by decide) (runBlock_sendsInOrder env now tx)).mono (by decide) le_rfl
  | runBlockWithEvidence now tx mis =>
    exact (sendsInOrder_discard (by decide)
      (runBlockWithEvidence_sendsInOrder env now tx mis)).mono (by decide) le_rfl
  | runEmptyBlocks clock numBlocks =>
    exact (runEmptyBlocks_go_sendsInOrder env clock _ 0).mono (by decide) le_rfl
  | causeDoubleSign now address =>
    exact (causeDoubleSign_sendsInOrder env now address).mono (by decide) le_rfl
  | causeLightClientAttack now address m =>
    exact (causeLightClientAttack_sendsInOrder env now address m).mono (by decide) le_rfl
  | setSigningStatus address status | incrementTimeOffset address =>
    exact (emits_getClient.sendsOnly.bind fun _ => (emits_liftErr _).sendsOnly.bind fun _ =>
      sendsOnly_modifyClient _).silent

end Calls

/-- Over any session of calls, the engine's traffic to its backends is one segment per call, each
in ABCI's order and made only of `CheckTx`, `PrepareProposal`, `ProcessProposal`, `ExtendVote`,
`VerifyVoteExtension` and `Query` requests. No backend is ever sent `FinalizeBlock` or `Commit`:
no block is ever finalized or committed on one. -/
theorem runSession_sends_rounds_in_abci_order (env : Env) (calls : List Call) (w : World) :
    ∃ segments : List (List Message), segments.length = calls.length ∧
      (runSession env calls w).sent = w.sent ++ segments.flatten ∧
      ∀ ms ∈ segments, ms.Pairwise (fun m m' => m.request.phase ≤ m'.request.phase) ∧
        ∀ m ∈ ms, m.request.SentInSession := by
  induction calls generalizing w with
  | nil => exact ⟨[], rfl, (List.append_nil _).symm, by simp⟩
  | cons c cs ih =>
    obtain ⟨ms, hms, hord, hP⟩ := Call.run_sendsInOrder env c w
    obtain ⟨segs, hlen, hsegs, hP'⟩ := ih (finalWorld (c.run env w))
    refine ⟨ms :: segs, by rw [List.length_cons, hlen, List.length_cons], ?_, ?_⟩
    · rw [runSession, hsegs, hms, List.flatten_cons, List.append_assoc]
    · rintro ms' (_ | ⟨_, hms'⟩)
      · exact ⟨hord, fun m hm => (hP m hm).1⟩
      · exact hP' ms' hms'

end CometMock
