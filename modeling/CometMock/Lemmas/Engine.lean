import CometMock.Round

/-!
Reasoning about computations of the engine. `Returns` says what a computation returns, `NeverOk`
that it never returns, `Keeps R` that the engine's state before and after are related by `R`
whether it returns or fails, and `Emits P` that it leaves the engine's state alone and sends only
requests satisfying `P`; `EmitsOn` and `ReturnsOn` are the last two for the runs from one engine
state. Each comes with rules for `bind` and for the primitives, so that the round's phases are
checked one call at a time.
-/

namespace CometMock

section
variable {α β : Type}

theorem bind_of_ok {x : ClientM α} {f : α → ClientM β} {w w' : World} {a : α}
    (h : x w = .ok a w') : (x >>= f) w = f a w' := by
  show EStateM.bind x f w = _
  simp only [EStateM.bind, h]

theorem bind_of_error {x : ClientM α} {f : α → ClientM β} {w w' : World} {e : Failure}
    (h : x w = .error e w') : (x >>= f) w = .error e w' := by
  show EStateM.bind x f w = _
  simp only [EStateM.bind, h]

@[simp]
theorem get_bind (f : World → ClientM β) (w : World) : ((get : ClientM World) >>= f) w = f w w :=
  rfl

@[simp]
theorem getClient_bind (f : AbciClient → ClientM β) (w : World) : (getClient >>= f) w = f w.client w :=
  rfl

@[simp]
theorem liftGo_ok_bind (a : α) (f : α → ClientM β) (w : World) : (liftGo (.ok a) >>= f) w = f a w :=
  rfl

@[simp]
theorem liftGo_error_bind (e : Failure) (f : α → ClientM β) (w : World) :
    (liftGo (.error e) >>= f) w = .error e w := rfl

@[simp]
theorem modifyClient_bind (g : AbciClient → AbciClient) (f : Unit → ClientM β) (w : World) :
    (modifyClient g >>= f) w = f () { w with client := g w.client } := rfl

theorem map_eq_bind (f : α → β) (x : ClientM α) : f <$> x = x >>= fun a => pure (f a) := rfl

theorem finalWorld_bind_pure (x : ClientM α) (f : α → β) (w : World) :
    finalWorld ((x >>= fun a => pure (f a)) w) = finalWorld (x w) := by
  cases h : x w with
  | ok a w' => rw [bind_of_ok h]; rfl
  | error e w' => rw [bind_of_error h]; rfl

@[simp]
theorem pure_apply (a : α) (w : World) : (pure a : ClientM α) w = .ok a w := rfl

@[simp]
theorem throw_apply (e : Failure) (w : World) : (throw e : ClientM α) w = .error e w := rfl

@[simp]
theorem getClient_apply (w : World) : getClient w = .ok w.client w := rfl

@[simp]
theorem liftGo_apply (x : Except Failure α) (w : World) :
    liftGo x w = match x with
      | .ok a => .ok a w
      | .error f => .error f w := by
  cases x <;> rfl

@[simp]
theorem liftErr_apply (x : Except String α) (w : World) :
    liftErr x w = match x with
      | .ok a => .ok a w
      | .error e => .error (.error e) w := by
  cases x <;> rfl

theorem bind_eq_ok {x : ClientM α} {f : α → ClientM β} {w w' : World} {b : β} :
    (x >>= f) w = .ok b w' ↔ ∃ a w₁, x w = .ok a w₁ ∧ f a w₁ = .ok b w' := by
  constructor
  · intro h
    cases hx : x w with
    | ok a w₁ => exact ⟨a, w₁, rfl, by rwa [bind_of_ok hx] at h⟩
    | error e w₁ => rw [bind_of_error hx] at h; cases h
  · rintro ⟨a, w₁, hx, hf⟩
    rwa [bind_of_ok hx]

@[simp]
theorem finalWorld_ok (a : α) (w : World) :
    finalWorld (EStateM.Result.ok a w : EStateM.Result Failure World α) = w := rfl

@[simp]
theorem finalWorld_error (e : Failure) (w : World) :
    finalWorld (EStateM.Result.error e w : EStateM.Result Failure World α) = w := rfl

theorem send_ok {dest : Bytes} {request : Request} {answer : List Message → Except String α}
    {w : World} {a : α} (h : answer w.sent = .ok a) :
    send dest request answer w = .ok a { w with sent := w.sent ++ [⟨dest, request⟩] } := by
  simp [send, h]

/-- The message a call of backend `c` sends. -/
def Message.of (request : Request) (c : Counterparty) : Message := ⟨c.networkAddress, request⟩

theorem mapM_send (request : Request) (answer : Counterparty → List Message → Except String α)
    (hanswer : ∀ c msgs, ∃ a, answer c msgs = .ok a) :
    ∀ (l : List Counterparty) (w : World), ∃ rs,
      (l.mapM fun c => send c.networkAddress request (answer c)) w =
        .ok rs { w with sent := w.sent ++ l.map (Message.of request) }
  | [], w => ⟨[], by simp [List.mapM_nil]; rfl⟩
  | c :: l, w => by
    obtain ⟨a, ha⟩ := hanswer c w.sent
    obtain ⟨rs, hrs⟩ := mapM_send request answer hanswer l
      { w with sent := w.sent ++ [⟨c.networkAddress, request⟩] }
    refine ⟨a :: rs, ?_⟩
    rw [List.mapM_cons, bind_of_ok (send_ok ha), bind_of_ok hrs]
    simp [Message.of]

/-- Every value that `x` returns satisfies `Q`. -/
def Returns (x : ClientM α) (Q : α → Prop) : Prop :=
  ∀ w a w', x w = .ok a w' → Q a

/-- `x` never returns normally. -/
def NeverOk (x : ClientM α) : Prop :=
  ∀ w a w', x w ≠ .ok a w'

/-- Whether `x` returns or fails, the engine's state before and after it are related by `R`. -/
def Keeps (R : AbciClient → AbciClient → Prop) (x : ClientM α) : Prop :=
  ∀ w, R w.client (finalWorld (x w)).client

theorem Returns.bind {x : ClientM α} {f : α → ClientM β} {P : α → Prop} {Q : β → Prop}
    (hx : Returns x P) (hf : ∀ a, P a → Returns (f a) Q) : Returns (x >>= f) Q := by
  intro w b w' h
  cases hxw : x w with
  | ok a w₁ => exact hf a (hx _ _ _ hxw) _ _ _ (by rwa [bind_of_ok hxw] at h)
  | error e w₁ => rw [bind_of_error hxw] at h; cases h

theorem Returns.pure {a : α} {Q : α → Prop} (h : Q a) : Returns (pure a) Q := by
  intro w b w' hw
  cases hw
  exact h

theorem returns_pure_eq (a : α) : Returns (pure a) (· = a) :=
  Returns.pure rfl

theorem Returns.map {x : ClientM α} {f : α → β} {P : α → Prop} {Q : β → Prop}
    (hx : Returns x P) (hf : ∀ a, P a → Q (f a)) : Returns (f <$> x) Q := by
  rw [map_eq_bind]
  exact hx.bind fun a ha => Returns.pure (hf a ha)

theorem returns_throw (e : Failure) (Q : α → Prop) : Returns (throw e) Q := by
  intro w a w' h
  cases h

theorem returns_liftErr (x : Except String α) : Returns (liftErr x) (x = .ok ·) := by
  intro w a w' h
  cases x <;> cases h
  rfl

theorem Returns.imp {x : ClientM α} {P Q : α → Prop} (hx : Returns x P) (h : ∀ a, P a → Q a) :
    Returns x Q :=
  fun w a w' hw => h a (hx w a w' hw)

theorem Returns.mapM {γ : Type} {f : γ → ClientM α} (P : α → Prop) (hf : ∀ c, Returns (f c) P) :
    ∀ l : List γ, Returns (l.mapM f) fun as => ∀ a ∈ as, P a
  | [] => Returns.pure (by simp)
  | c :: l => by
    rw [List.mapM_cons]
    exact (hf c).bind fun a ha => (Returns.mapM P hf l).bind fun as has =>
      Returns.pure (List.forall_mem_cons.mpr ⟨ha, has⟩)

theorem returns_true (x : ClientM α) : Returns x fun _ => True :=
  fun _ _ _ _ => trivial

theorem NeverOk.bind {x : ClientM α} {f : α → ClientM β} {P : α → Prop}
    (hx : Returns x P) (hf : ∀ a, P a → NeverOk (f a)) : NeverOk (x >>= f) := by
  intro w b w' h
  cases hxw : x w with
  | ok a w₁ => exact hf a (hx _ _ _ hxw) _ _ _ (by rwa [bind_of_ok hxw] at h)
  | error e w₁ => rw [bind_of_error hxw] at h; cases h

theorem NeverOk.bind_left {x : ClientM α} {f : α → ClientM β} (hx : NeverOk x) :
    NeverOk (x >>= f) := by
  intro w b w' h
  cases hxw : x w with
  | ok a w₁ => exact hx _ _ _ hxw
  | error e w₁ => rw [bind_of_error hxw] at h; cases h

theorem NeverOk.returns {x : ClientM α} (hx : NeverOk x) (Q : α → Prop) : Returns x Q :=
  fun w a w' h => absurd h (hx w a w')

section Keeps
variable {R : AbciClient → AbciClient → Prop}

theorem Keeps.bind (htrans : ∀ a b c, R a b → R b c → R a c) {x : ClientM α}
    {f : α → ClientM β} {P : α → Prop} (hx : Keeps R x) (hxP : Returns x P)
    (hf : ∀ a, P a → Keeps R (f a)) : Keeps R (x >>= f) := by
  intro w
  have hw := hx w
  cases hxw : x w with
  | ok a w₁ =>
    rw [hxw] at hw
    rw [bind_of_ok hxw]
    exact htrans _ _ _ hw (hf a (hxP _ _ _ hxw) w₁)
  | error e w₁ =>
    rw [hxw] at hw
    rwa [bind_of_error hxw]

theorem Keeps.mono {S : AbciClient → AbciClient → Prop} (hRS : ∀ a b, R a b → S a b)
    {x : ClientM α} (hx : Keeps R x) : Keeps S x :=
  fun w => hRS _ _ (hx w)

end Keeps

/-- A computation that leaves the engine's state as it found it. -/
abbrev KeepsClient (x : ClientM α) : Prop := Keeps (fun a b => b = a) x

theorem KeepsClient.bind {x : ClientM α} {f : α → ClientM β} (hx : KeepsClient x)
    (hf : ∀ a, KeepsClient (f a)) : KeepsClient (x >>= f) :=
  Keeps.bind (fun _ _ _ h₁ h₂ => h₂.trans h₁) hx (returns_true x) fun a _ => hf a

theorem keepsClient_pure (a : α) : KeepsClient (pure a : ClientM α) := fun _ => rfl

theorem keepsClient_throw (e : Failure) : KeepsClient (throw e : ClientM α) := fun _ => rfl

theorem keepsClient_getClient : KeepsClient getClient := fun _ => rfl

theorem keepsClient_liftGo (x : Except Failure α) : KeepsClient (liftGo x) := by
  intro w; cases x <;> rfl

theorem keepsClient_liftErr (x : Except String α) : KeepsClient (liftErr x) := by
  intro w; cases x <;> rfl

end

section Emits
variable {α β γ : Type} {P : Request → Prop}

/-- `x` writes nothing but the message log, and every message it sends carries a request
satisfying `P`. -/
def Emits (P : Request → Prop) (x : ClientM α) : Prop :=
  ∀ w, ∃ ms, finalWorld (x w) = ⟨w.client, w.sent ++ ms⟩ ∧ ∀ m ∈ ms, P m.request

theorem Emits.keepsClient {x : ClientM α} (hx : Emits P x) : KeepsClient x := fun w => by
  obtain ⟨ms, h, -⟩ := hx w
  rw [h]

/-- `Emits P x` for the runs of `x` from an engine in state `a`. -/
def EmitsOn (a : AbciClient) (P : Request → Prop) (x : ClientM α) : Prop :=
  ∀ w, w.client = a → ∃ ms, finalWorld (x w) = ⟨a, w.sent ++ ms⟩ ∧ ∀ m ∈ ms, P m.request

/-- `Returns x Q` for the runs of `x` from an engine in state `a`. -/
def ReturnsOn (a : AbciClient) (x : ClientM α) (Q : α → Prop) : Prop :=
  ∀ w, w.client = a → ∀ v w', x w = .ok v w' → Q v

theorem Emits.on {x : ClientM α} (hx : Emits P x) (a : AbciClient) : EmitsOn a P x :=
  fun w hw => hw ▸ hx w

theorem emits_of_on {x : ClientM α} (h : ∀ a, EmitsOn a P x) : Emits P x :=
  fun w => h w.client w rfl

theorem Returns.on {x : ClientM α} {Q : α → Prop} (hx : Returns x Q) (a : AbciClient) :
    ReturnsOn a x Q :=
  fun w _ => hx w

theorem EmitsOn.bind_returns {a : AbciClient} {x : ClientM α} {f : α → ClientM β} {Q : α → Prop}
    (hx : EmitsOn a P x) (hxQ : Returns x Q) (hf : ∀ v, Q v → EmitsOn a P (f v)) :
    EmitsOn a P (x >>= f) := by
  intro w hw
  obtain ⟨ms, hms, hP⟩ := hx w hw
  cases hxw : x w with
  | ok v w₁ =>
    rw [hxw, finalWorld_ok] at hms
    subst hms
    obtain ⟨ms', hms', hP'⟩ := hf v (hxQ _ _ _ hxw) ⟨a, w.sent ++ ms⟩ rfl
    refine ⟨ms ++ ms', ?_, fun m hm => (List.mem_append.mp hm).elim (hP m) (hP' m)⟩
    rw [bind_of_ok hxw, hms', List.append_assoc]
  | error e w₁ =>
    rw [hxw] at hms
    rw [bind_of_error hxw]
    exact ⟨ms, hms, hP⟩

theorem EmitsOn.getClient_bind {a : AbciClient} {f : AbciClient → ClientM β}
    (hf : EmitsOn a P (f a)) : EmitsOn a P (getClient >>= f) := fun w hw => by
  subst hw
  exact hf w rfl

theorem ReturnsOn.bind {a : AbciClient} {x : ClientM α} {f : α → ClientM β} {Q : α → Prop}
    {R : β → Prop} (hk : KeepsClient x) (hx : ReturnsOn a x Q) (hf : ∀ v, Q v → ReturnsOn a (f v) R) :
    ReturnsOn a (x >>= f) R := fun w hw b w' h => by
  obtain ⟨v, w₁, hx₁, hf₁⟩ := bind_eq_ok.mp h
  have hw₁ : w₁.client = a := by simpa only [hx₁, finalWorld_ok, hw] using hk w
  exact hf v (hx w hw v w₁ hx₁) w₁ hw₁ b w' hf₁

theorem ReturnsOn.getClient_bind {a : AbciClient} {f : AbciClient → ClientM β} {R : β → Prop}
    (hf : ReturnsOn a (f a) R) : ReturnsOn a (getClient >>= f) R := fun w hw => by
  subst hw
  exact hf w rfl

theorem Emits.bind {x : ClientM α} {f : α → ClientM β} (hx : Emits P x) (hf : ∀ a, Emits P (f a)) :
    Emits P (x >>= f) :=
  emits_of_on fun a => (hx.on a).bind_returns (returns_true x) fun v _ => (hf v).on a

theorem emits_of_eq {x : ClientM α} (h : ∀ w, finalWorld (x w) = w) : Emits P x :=
  fun w => ⟨[], by rw [h, List.append_nil], by simp⟩

theorem emits_pure (a : α) : Emits P (pure a : ClientM α) := emits_of_eq fun _ => rfl

theorem emits_throw (e : Failure) : Emits P (throw e : ClientM α) := emits_of_eq fun _ => rfl

theorem emits_get : Emits P (get : ClientM World) := emits_of_eq fun _ => rfl

theorem emits_getClient : Emits P getClient := emits_of_eq fun _ => rfl

theorem emits_liftGo (x : Except Failure α) : Emits P (liftGo x) :=
  emits_of_eq fun _ => by cases x <;> rfl

theorem emits_liftErr (x : Except String α) : Emits P (liftErr x) :=
  emits_of_eq fun _ => by cases x <;> rfl

theorem emits_send (dest : Bytes) {request : Request} (answer : List Message → Except String α)
    (h : P request) : Emits P (send dest request answer) :=
  fun w => ⟨[⟨dest, request⟩], by unfold send; split <;> rfl, by simpa using h⟩

theorem Emits.map {x : ClientM α} (f : α → β) (hx : Emits P x) : Emits P (f <$> x) := by
  rw [map_eq_bind]
  exact hx.bind fun _ => emits_pure _

theorem Emits.catchError {x : ClientM α} (hx : Emits P x) : Emits P (catchError x) := fun w => by
  obtain ⟨ms, h, hP⟩ := hx w
  refine ⟨ms, ?_, hP⟩
  unfold CometMock.catchError
  split <;> simp_all

theorem Emits.ite {c : Prop} [Decidable c] {x y : ClientM α} (hx : Emits P x) (hy : Emits P y) :
    Emits P (if c then x else y) := by
  split
  · exact hx
  · exact hy

theorem emits_mapM (f : γ → ClientM α) (hf : ∀ c, Emits P (f c)) :
    ∀ l : List γ, Emits P (l.mapM f)
  | [] => emits_pure _
  | c :: l => by
    rw [List.mapM_cons]
    exact (hf c).bind fun _ => (emits_mapM f hf l).bind fun _ => emits_pure _

theorem emits_forM (f : γ → ClientM PUnit) (hf : ∀ c, Emits P (f c)) :
    ∀ l : List γ, Emits P (l.forM f)
  | [] => emits_pure _
  | c :: l => by
    rw [List.forM_cons']
    exact (hf c).bind fun _ => emits_forM f hf l

theorem emits_broadcast [DecidableEq α] {call : Counterparty → ClientM α}
    (hcall : ∀ c, Emits P (call c)) : Emits P (broadcast call) :=
  emits_getClient.bind fun a => (emits_mapM call hcall a.clients).bind fun _ =>
    emits_getClient.bind fun _ => emits_liftGo _

end Emits

end CometMock
