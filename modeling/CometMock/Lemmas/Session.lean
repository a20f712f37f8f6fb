import CometMock.Session
import CometMock.Lemmas.Runs
import CometMock.Lemmas.BlockTime

/-!
The engine over whole sessions of calls. Every round fails and only reorders the current
validators, the reads and the query change nothing, and the two controls write one field each
when they accept. So a session changes the engine in three places only: the order of the current
validators, the signing statuses, which behave as a store whose last accepted write wins, and the
time offset, which is the `int64` sum of the accepted increments. Everything the RPC clients read
of the chain stays as it was at the start.
-/

namespace CometMock

namespace AbciClient

/-- What a call writes to the engine besides reordering its current validators: `SetSigningStatus`
and `IncrementTimeOffset` write when they accept, and no other call writes. -/
def applyControl (a : AbciClient) : Call → AbciClient
  | .setSigningStatus address status => (a.setSigningStatus address status).toOption.getD a
  | .incrementTimeOffset additionalOffset => (a.incrementTimeOffset additionalOffset).toOption.getD a
  | _ => a

theorem setSigningStatus_setCurValidators (a : AbciClient) (vs : List Validator) (address : Bytes)
    (status : Bool) :
    ((a.setCurValidators vs).setSigningStatus address status).toOption.getD (a.setCurValidators vs) =
      ((a.setSigningStatus address status).toOption.getD a).setCurValidators vs := by
  unfold setSigningStatus
  dsimp only [setCurValidators]
  cases a.signingStatus.lookup address <;> rfl

theorem incrementTimeOffset_setCurValidators (a : AbciClient) (vs : List Validator) (d : Int) :
    ((a.setCurValidators vs).incrementTimeOffset d).toOption.getD (a.setCurValidators vs) =
      ((a.incrementTimeOffset d).toOption.getD a).setCurValidators vs := by
  unfold incrementTimeOffset
  dsimp only [setCurValidators]
  split <;> rfl

@[simp]
theorem applyControl_setCurValidators (a : AbciClient) (vs : List Validator) (c : Call) :
    (a.setCurValidators vs).applyControl c = (a.applyControl c).setCurValidators vs := by
  cases c <;> simp only [applyControl, setSigningStatus_setCurValidators,
    incrementTimeOffset_setCurValidators]

@[simp]
theorem applyControl_curState (a : AbciClient) (c : Call) : (a.applyControl c).curState = a.curState := by
  cases c <;> simp only [applyControl]
  case setSigningStatus address status => unfold setSigningStatus; split <;> rfl
  case incrementTimeOffset d => unfold incrementTimeOffset; split <;> rfl

end AbciClient

open AbciClient

theorem Reordered.applyControl {a b : AbciClient} (h : Reordered a b) (c : Call) :
    Reordered (a.applyControl c) (b.applyControl c) := by
  obtain ⟨vs, hvs, rfl⟩ := h
  exact ⟨vs, by simpa using hvs, by simp⟩

theorem Reordered.foldl_applyControl {a b : AbciClient} (h : Reordered a b) (calls : List Call) :
    Reordered (calls.foldl AbciClient.applyControl a) (calls.foldl AbciClient.applyControl b) := by
  induction calls generalizing a b with
  | nil => exact h
  | cons c cs ih => exact ih (h.applyControl c)

section Calls
variable {α : Type} (env : Env)

theorem keeps_reordered_discard {x : ClientM α} (hx : Keeps Reordered x) :
    Keeps Reordered (do let _ ← x; pure () : ClientM Unit) :=
  hx.reordered_bind (returns_true _) fun _ _ => (keepsClient_pure _).reordered

theorem runBlock_keeps (now : Int) (tx : Option Bytes) : Keeps Reordered (runBlock env now tx) :=
  keepsClient_getClient.reordered.reordered_bind (returns_true _) fun _ _ =>
    runBlockWithTimeAndProposer_keeps env now tx _ _ _

theorem runBlockWithEvidence_keeps (now : Int) (tx : Option Bytes)
    (misbehavingValidators : List (Validator × MisbehaviourType)) :
    Keeps Reordered (runBlockWithEvidence env now tx misbehavingValidators) :=
  keepsClient_getClient.reordered.reordered_bind (returns_true _) fun _ _ =>
    runBlockWithTimeAndProposer_keeps env now tx _ _ _

theorem runEmptyBlocks_go_keeps (clock : Nat → Int) :
    ∀ n i, Keeps Reordered (runEmptyBlocks.go env clock n i)
  | 0, _ => (keepsClient_pure _).reordered
  | n + 1, i => (runBlock_keeps env _ none).reordered_bind (returns_true _) fun _ _ =>
    runEmptyBlocks_go_keeps clock n (i + 1)

theorem causeDoubleSign_keeps (now : Int) (address : Bytes) :
    Keeps Reordered (causeDoubleSign env now address) :=
  keepsClient_getClient.reordered.reordered_bind (returns_true _) fun _ _ =>
    (keepsClient_liftErr _).reordered.reordered_bind (returns_true _) fun _ _ =>
      keeps_reordered_discard (runBlockWithEvidence_keeps env now none _)

theorem causeLightClientAttack_keeps (now : Int) (address : Bytes) (misbehaviourType : String) :
    Keeps Reordered (causeLightClientAttack env now address misbehaviourType) := by
  refine keepsClient_getClient.reordered.reordered_bind (returns_true _) fun a _ =>
    (keepsClient_liftErr _).reordered.reordered_bind (returns_true _) fun v _ => ?_
  split <;> refine Keeps.reordered_bind ?_ (returns_true _) fun _ _ =>
    keeps_reordered_discard (runBlockWithEvidence_keeps env now none _)
  all_goals first | exact (keepsClient_pure _).reordered | exact (keepsClient_throw _).reordered

theorem abciQuery_emits {P : Request → Prop} (hP : ∀ r, P (.query r)) (path : String) (data : Bytes)
    (height : Int) (prove : Bool) : Emits P (RpcServer.abciQuery env path data height prove) :=
  (emits_get.bind fun _ => by
    split
    · exact emits_throw _
    · exact emits_send _ _ (hP _)).catchError.bind fun
    | some _ => emits_pure _
    | none => emits_throw _

theorem serve_keeps (now : Int) (route : RpcServer.Route) :
    Keeps Reordered (RpcServer.serve env now route) := by
  cases route with
  | validators heightPtr pagePtr perPagePtr =>
    exact (keepsClient_getClient.bind fun _ => (keepsClient_liftGo _).bind fun _ =>
      keepsClient_pure _).reordered
  | block heightPtr =>
    exact (keepsClient_getClient.bind fun _ => (keepsClient_liftGo _).bind fun _ =>
      keepsClient_pure _).reordered
  | broadcastTxCommit tx | broadcastTxSync tx | broadcastTxAsync tx =>
    exact (keeps_reordered_discard (runBlock_keeps env now (some tx))).reordered_bind
      (returns_true _) fun _ _ => (keepsClient_pure _).reordered
  | abciQuery path data height prove =>
    exact ((abciQuery_emits (P := fun _ => True) env (fun _ => trivial) path data height prove).map
      _).keepsClient.reordered

end Calls

theorem Call.run_keeps (env : Env) (c : Call) (w : World) :
    Reordered (w.client.applyControl c) (finalWorld (c.run env w)).client := by
  cases c with
  | rpc now route => exact keeps_reordered_discard (serve_keeps env now route) w
  | runBlock now tx => exact keeps_reordered_discard (runBlock_keeps env now tx) w
  | runBlockWithEvidence now tx mis =>
    exact keeps_reordered_discard (runBlockWithEvidence_keeps env now tx mis) w
  | runEmptyBlocks clock numBlocks => exact runEmptyBlocks_go_keeps env clock _ 0 w
  | causeDoubleSign now address => exact causeDoubleSign_keeps env now address w
  | causeLightClientAttack now address m => exact causeLightClientAttack_keeps env now address m w
  | setSigningStatus address status =>
    refine .of_eq ?_
    simp only [Call.run, getClient_bind, applyControl]
    cases w.client.setSigningStatus address status <;> rfl
  | incrementTimeOffset d =>
    refine .of_eq ?_
    simp only [Call.run, getClient_bind, applyControl]
    cases w.client.incrementTimeOffset d <;> rfl

theorem runSession_reordered (env : Env) (calls : List Call) (w : World) :
    Reordered (calls.foldl applyControl w.client) (runSession env calls w).client := by
  induction calls generalizing w with
  | nil => exact .refl _
  | cons c cs ih =>
    exact ((Call.run_keeps env c w).foldl_applyControl cs).trans (ih _)

/-! ### The controls over a session -/

/-- The status a call writes for `address`: a `SetSigningStatus` call for it writes its status. -/
def Call.signingWrite (address : Bytes) : Call → Option Bool
  | .setSigningStatus a status => if a = address then some status else none
  | _ => none

/-- The status the last `SetSigningStatus` call for `address` in a session writes. -/
def lastSigningStatus (address : Bytes) : List Call → Option Bool
  | [] => none
  | c :: cs => (lastSigningStatus address cs).or (c.signingWrite address)

/-- The increments of a session's `IncrementTimeOffset` calls, in order. -/
def timeOffsetIncrements : List Call → List Int
  | [] => []
  | .incrementTimeOffset d :: cs => d :: timeOffsetIncrements cs
  | _ :: cs => timeOffsetIncrements cs

theorem lookup_map_status (l : List (Bytes × Bool)) (address x : Bytes) (status : Bool) :
    (l.map fun (k, v) => (k, if k = address then status else v)).lookup x =
      (l.lookup x).map fun v => if x = address then status else v := by
  induction l with
  | nil => rfl
  | cons p l ih =>
    obtain ⟨k, v⟩ := p
    by_cases hx : x = k
    · subst hx; simp
    · simp [List.lookup_cons, beq_false_of_ne hx, ih]

namespace AbciClient

theorem setSigningStatus_timeOffset (a : AbciClient) (address : Bytes) (status : Bool) :
    ((a.setSigningStatus address status).toOption.getD a).timeOffset = a.timeOffset := by
  unfold setSigningStatus; split <;> rfl

theorem incrementTimeOffset_signingStatus (a : AbciClient) (d : Int) :
    ((a.incrementTimeOffset d).toOption.getD a).signingStatus = a.signingStatus := by
  unfold incrementTimeOffset; split <;> rfl

theorem lookup_applyControl (a : AbciClient) (c : Call) (x : Bytes) :
    (a.applyControl c).signingStatus.lookup x =
      (a.signingStatus.lookup x).map ((c.signingWrite x).getD ·) := by
  cases c with
  | setSigningStatus address status =>
    simp only [applyControl, Call.signingWrite]
    unfold setSigningStatus
    cases h : a.signingStatus.lookup address with
    | none =>
      simp only [Except.toOption, Option.getD_none]
      by_cases hx : x = address
      · subst hx; simp [h]
      · simp [Ne.symm hx]
    | some _ =>
      simp only [Except.toOption, Option.getD_some]
      rw [lookup_map_status]
      by_cases hx : x = address
      · subst hx; simp
      · simp [hx, Ne.symm hx]
  | incrementTimeOffset d => simp [applyControl, Call.signingWrite, incrementTimeOffset_signingStatus]
  | _ => simp [applyControl, Call.signingWrite]

theorem lookup_foldl_applyControl (calls : List Call) (a : AbciClient) (x : Bytes) :
    (calls.foldl applyControl a).signingStatus.lookup x =
      (a.signingStatus.lookup x).map ((lastSigningStatus x calls).getD ·) := by
  induction calls generalizing a with
  | nil => simp [lastSigningStatus]
  | cons c cs ih =>
    rw [List.foldl_cons, ih, lookup_applyControl, Option.map_map, lastSigningStatus]
    congr 1
    funext b
    cases lastSigningStatus x cs <;> rfl

theorem incrementTimeOffsets_timeOffset_congr {a b : AbciClient} (h : a.timeOffset = b.timeOffset)
    (ds : List Int) :
    (incrementTimeOffsets a ds).timeOffset = (incrementTimeOffsets b ds).timeOffset := by
  induction ds generalizing a b with
  | nil => exact h
  | cons d ds ih =>
    apply ih
    unfold incrementTimeOffset
    split
    · exact h
    · simp only [Except.toOption, Option.getD_some, h]

theorem timeOffset_foldl_applyControl (calls : List Call) (a : AbciClient) :
    (calls.foldl applyControl a).timeOffset =
      (incrementTimeOffsets a (timeOffsetIncrements calls)).timeOffset := by
  induction calls generalizing a with
  | nil => rfl
  | cons c cs ih =>
    rw [List.foldl_cons, ih]
    cases c with
    | incrementTimeOffset d => rfl
    | setSigningStatus address status =>
      exact incrementTimeOffsets_timeOffset_congr (setSigningStatus_timeOffset a address status) _
    | _ => rfl

/-- `b` is `a` with at most its signing statuses and its time offset changed. -/
def ControlFrame (a b : AbciClient) : Prop :=
  b = { a with signingStatus := b.signingStatus, timeOffset := b.timeOffset }

theorem ControlFrame.trans {a b c : AbciClient} (h₁ : ControlFrame a b) (h₂ : ControlFrame b c) :
    ControlFrame a c := by
  unfold ControlFrame at *
  exact h₂.trans (by rw [h₁])

theorem controlFrame_applyControl (a : AbciClient) (c : Call) : ControlFrame a (a.applyControl c) := by
  cases c with
  | setSigningStatus address status =>
    dsimp only [applyControl]; unfold setSigningStatus; split <;> rfl
  | incrementTimeOffset d => dsimp only [applyControl]; unfold incrementTimeOffset; split <;> rfl
  | _ => rfl

theorem ControlFrame.curState {a b : AbciClient} (h : ControlFrame a b) : b.curState = a.curState := by
  unfold ControlFrame at h
  rw [h]

theorem controlFrame_foldl_applyControl (calls : List Call) (a : AbciClient) :
    ControlFrame a (calls.foldl applyControl a) := by
  induction calls generalizing a with
  | nil => rfl
  | cons c cs ih => exact (controlFrame_applyControl a c).trans (ih _)

theorem keys_applyControl (a : AbciClient) (c : Call) :
    (a.applyControl c).signingStatus.map Prod.fst = a.signingStatus.map Prod.fst := by
  cases c with
  | setSigningStatus address status =>
    dsimp only [applyControl]; unfold setSigningStatus
    split
    · rfl
    · simp only [Except.toOption, Option.getD_some, List.map_map]; rfl
  | incrementTimeOffset d => rw [applyControl, incrementTimeOffset_signingStatus]
  | _ => rfl

theorem keys_foldl_applyControl (calls : List Call) (a : AbciClient) :
    (calls.foldl applyControl a).signingStatus.map Prod.fst = a.signingStatus.map Prod.fst := by
  induction calls generalizing a with
  | nil => rfl
  | cons c cs ih => rw [List.foldl_cons, ih, keys_applyControl]

theorem lookup_newAbciClient (privValidators : List (Bytes × PrivValidator)) (x : Bytes) :
    (privValidators.map fun (addr, _) => (addr, true)).lookup x =
      if x ∈ privValidators.map Prod.fst then some true else none := by
  induction privValidators with
  | nil => rfl
  | cons p ps ih =>
    obtain ⟨k, pv⟩ := p
    by_cases hx : x = k
    · subst hx; simp
    · have hmem : x ∈ List.map Prod.fst ((k, pv) :: ps) ↔ x ∈ ps.map Prod.fst := by simp [hx]
      rw [if_congr hmem rfl rfl, ← ih]
      simp [List.lookup_cons, beq_false_of_ne hx]

end AbciClient

/-- The engine after a session: its controls applied and its current validators reordered. -/
theorem runSession_client (env : Env) (calls : List Call) (w : World) :
    ∃ vs, vs.Perm w.client.curState.validators.validators ∧
      (runSession env calls w).client = (calls.foldl applyControl w.client).setCurValidators vs := by
  obtain ⟨vs, hvs, h⟩ := runSession_reordered env calls w
  exact ⟨vs, (controlFrame_foldl_applyControl calls w.client).curState ▸ hvs, h⟩

/-- Over every session of calls the engine changes in three places only: the order of its current
validators, the signing statuses (the session's last `SetSigningStatus` call per key), and the
time offset (what the session's `IncrementTimeOffset` calls make of it). -/
theorem runSession_changes_only_controls (env : Env) (calls : List Call) (w : World) :
    ∃ vs signingStatus, vs.Perm w.client.curState.validators.validators ∧
      (runSession env calls w).client =
        { w.client.setCurValidators vs with
          signingStatus
          timeOffset := (incrementTimeOffsets w.client (timeOffsetIncrements calls)).timeOffset } ∧
      signingStatus.map Prod.fst = w.client.signingStatus.map Prod.fst ∧
      ∀ x, signingStatus.lookup x =
        (w.client.signingStatus.lookup x).map ((lastSigningStatus x calls).getD ·) := by
  obtain ⟨vs, hvs, h⟩ := runSession_client env calls w
  refine ⟨vs, _, hvs, ?_, keys_foldl_applyControl calls w.client,
    lookup_foldl_applyControl calls w.client⟩
  rw [h, ← timeOffset_foldl_applyControl, controlFrame_foldl_applyControl calls w.client]
  rfl

/-- From `NewAbciClient`, over every session of calls, `GetSigningStatusMap` holds exactly the key
addresses of the private validators, and `GetSigningStatus` answers for each of them the status
the session's last `SetSigningStatus` call for it wrote, true when there was none, and an error for
any other address. -/
theorem signingStatus_after_session (env : Env) (clients : List Counterparty) (curState : State)
    (lastBlock : Block) (lastCommit : ExtendedCommit) (storage : Storage)
    (privValidators : List (Bytes × PrivValidator)) (errorOnUnequalResponses : Bool)
    (sent : List Message) (calls : List Call) :
    let w := runSession env calls ⟨newAbciClient clients curState lastBlock lastCommit storage
      privValidators errorOnUnequalResponses, sent⟩
    w.client.getSigningStatusMap.map Prod.fst = privValidators.map Prod.fst ∧
      ∀ address, w.client.getSigningStatus address =
        if address ∈ privValidators.map Prod.fst then .ok ((lastSigningStatus address calls).getD true)
        else .error "address not found in signing status map, please double-check this is the key address of a validator key" := by
  intro w
  obtain ⟨vs, -, h⟩ := runSession_client env calls ⟨newAbciClient clients curState lastBlock
    lastCommit storage privValidators errorOnUnequalResponses, sent⟩
  refine ⟨?_, fun address => ?_⟩
  · rw [getSigningStatusMap, h]
    exact (keys_foldl_applyControl calls _).trans (by simp [newAbciClient])
  · unfold getSigningStatus
    rw [h]
    show (match (calls.foldl applyControl _).signingStatus.lookup address with
      | some status => Except.ok status | none => Except.error _) = _
    rw [lookup_foldl_applyControl, newAbciClient, lookup_newAbciClient]
    split_ifs <;> rfl

theorem broadcastTx_neverOk (env : Env) (now : Int) (tx : Bytes) : NeverOk (broadcastTx env now tx) :=
  NeverOk.bind_left (NeverOk.bind (returns_true _) fun _ _ =>
    runBlockWithTimeAndProposer_neverOk env now _ _ _ _)

/-- Whatever session of calls the engine serves, the `block` and `validators` routes answer
exactly as before it, and no `broadcast_tx` request returns: the chain the RPC clients see never
moves. -/
theorem rpc_reads_unchanged_over_sessions (env : Env) (calls : List Call) (w : World)
    (heightPtr pagePtr perPagePtr : Option Int) :
    RpcServer.block (runSession env calls w).client heightPtr = RpcServer.block w.client heightPtr ∧
      RpcServer.validators (runSession env calls w).client heightPtr pagePtr perPagePtr =
        RpcServer.validators w.client heightPtr pagePtr perPagePtr ∧
      ∀ now tx, NeverOk (RpcServer.serve env now (.broadcastTxCommit tx)) ∧
        NeverOk (RpcServer.serve env now (.broadcastTxSync tx)) ∧
        NeverOk (RpcServer.serve env now (.broadcastTxAsync tx)) := by
  obtain ⟨vs, -, h⟩ := runSession_client env calls w
  have hcur := (controlFrame_foldl_applyControl calls w.client).curState
  refine ⟨?_, ?_, fun now tx => ⟨?_, ?_, ?_⟩⟩
  · simp only [h, RpcServer.block, setCurValidators, hcur]
  · simp only [h, RpcServer.validators, setCurValidators, hcur]
  all_goals exact NeverOk.bind_left (broadcastTx_neverOk env now tx)

end CometMock
