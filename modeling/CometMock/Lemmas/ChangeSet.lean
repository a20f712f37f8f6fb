import CometMock.Types.Validator

/-!
`ValidatorSet.UpdateWithChangeSet`, the algorithm `UpdateState` uses to apply the validator updates
of a `FinalizeBlock` response, against what it is for. The abstract view of a validator set is the
map from each address to the key and power of its validator; a change list overrides that map,
a change of power 0 removing its address. On a set with distinct addresses and positive powers,
every successful update returns such a set again, whose view is the old view overridden by the
changes. The proof follows the code: `processChanges` sorts the changes by address and rejects
duplicates, the merge loop of `applyUpdates` walks the existing validators and the updates in
address order, `applyRemovals` drops the removed addresses, and the priority passes change no
address, key or power.
-/

namespace CometMock

section Sorting

variable {α β : Type} {r : α → α → Prop} [DecidableRel r] (key : α → β)

theorem sorted_orderedInsert_of_ne (htrans : ∀ a b c, r a b → r b c → r a c)
    (htotal : ∀ a b, key a ≠ key b → r a b ∨ r b a) (a : α) :
    ∀ {l : List α}, l.Sorted r → (∀ b ∈ l, key b ≠ key a) → (l.orderedInsert r a).Sorted r
  | [], _, _ => List.sorted_singleton a
  | b :: l, hl, hne => by
    rw [List.sorted_cons] at hl
    simp only [List.orderedInsert]
    split_ifs with hab
    · exact List.sorted_cons.mpr ⟨fun c hc => (List.mem_cons.mp hc).elim (· ▸ hab)
        fun hc => htrans _ _ _ hab (hl.1 c hc), List.sorted_cons.mpr hl⟩
    · have hba : r b a := (htotal _ _ (hne b (List.mem_cons_self b l))).resolve_right hab
      refine List.sorted_cons.mpr ⟨fun c hc => ?_,
        sorted_orderedInsert_of_ne htrans htotal a hl.2 fun c hc => hne c (List.mem_cons_of_mem b hc)⟩
      rcases List.mem_cons.mp ((List.perm_orderedInsert r a l).subset hc) with rfl | hc
      · exact hba
      · exact hl.1 c hc

theorem sorted_insertionSort_of_nodup (htrans : ∀ a b c, r a b → r b c → r a c)
    (htotal : ∀ a b, key a ≠ key b → r a b ∨ r b a) :
    ∀ {l : List α}, (l.map key).Nodup → (l.insertionSort r).Sorted r
  | [], _ => List.sorted_nil
  | a :: l, hnd => by
    rw [List.map_cons, List.nodup_cons] at hnd
    refine sorted_orderedInsert_of_ne key htrans htotal a
      (sorted_insertionSort_of_nodup htrans htotal hnd.2) fun b hb heq => hnd.1 ?_
    exact heq ▸ List.mem_map_of_mem key ((List.mem_insertionSort r).mp hb)

theorem sorted_not_orderedInsert (hasymm : ∀ a b, r a b → ¬r b a)
    (htrans : ∀ a b c, ¬r b a → ¬r c b → ¬r c a) (a : α) :
    ∀ {l : List α}, l.Sorted (fun x y => ¬r y x) →
      (l.orderedInsert r a).Sorted (fun x y => ¬r y x)
  | [], _ => List.sorted_singleton a
  | b :: l, hl => by
    rw [List.sorted_cons] at hl
    simp only [List.orderedInsert]
    split_ifs with hab
    · refine List.sorted_cons.mpr ⟨fun c hc => ?_, List.sorted_cons.mpr hl⟩
      rcases List.mem_cons.mp hc with rfl | hc
      · exact hasymm _ _ hab
      · exact htrans _ _ _ (hasymm _ _ hab) (hl.1 c hc)
    · refine List.sorted_cons.mpr ⟨fun c hc => ?_, sorted_not_orderedInsert hasymm htrans a hl.2⟩
      rcases List.mem_cons.mp ((List.perm_orderedInsert r a l).subset hc) with rfl | hc
      · exact hab
      · exact hl.1 c hc

theorem sorted_not_insertionSort (hasymm : ∀ a b, r a b → ¬r b a)
    (htrans : ∀ a b c, ¬r b a → ¬r c b → ¬r c a) :
    ∀ l : List α, (l.insertionSort r).Sorted (fun x y => ¬r y x)
  | [] => List.sorted_nil
  | a :: l => sorted_not_orderedInsert hasymm htrans a (sorted_not_insertionSort hasymm htrans l)

end Sorting

theorem byAddress_trans {a b c : Validator} (h₁ : byAddress a b) (h₂ : byAddress b c) : byAddress a c :=
  bytesLt_trans h₁ h₂

theorem byAddress_total {a b : Validator} (h : a.address ≠ b.address) : byAddress a b ∨ byAddress b a :=
  (bytesLt_trichotomy a.address b.address).resolve_left h

theorem byAddress_asymm (a b : Validator) (h : byAddress a b) : ¬byAddress b a := by
  unfold byAddress at *; rw [bytesLt_asymm h]; decide

theorem not_byAddress_trans (a b c : Validator) (h₁ : ¬byAddress b a) (h₂ : ¬byAddress c b) :
    ¬byAddress c a := fun h₃ => by
  rcases bytesLt_trichotomy a.address b.address with heq | hab | hba
  · unfold byAddress at h₂ h₃; rw [heq] at h₃; exact h₂ h₃
  · exact h₂ (byAddress_trans h₃ hab)
  · exact h₁ hba

theorem byVotingPower_trans {a b c : Validator} (h₁ : byVotingPower a b) (h₂ : byVotingPower b c) :
    byVotingPower a c := by
  unfold byVotingPower at *
  split_ifs at h₁ h₂ ⊢ <;> simp only [decide_eq_true_eq] at * <;>
    first | omega | exact bytesLt_trans h₁ h₂

theorem byVotingPower_total {a b : Validator} (h : a.address ≠ b.address) :
    byVotingPower a b ∨ byVotingPower b a := by
  unfold byVotingPower
  split_ifs with h₁ h₂ h₂
  · exact byAddress_total h
  all_goals simp only [decide_eq_true_eq]; omega

theorem address_ne_of_byAddress {a b : Validator} (h : byAddress a b) : a.address ≠ b.address :=
  fun heq => by rw [byAddress, heq, bytesLt_self] at h; cases h

theorem applyUpdates_spec :
    ∀ {es us : List Validator}, es.Sorted byAddress → us.Sorted byAddress →
      (applyUpdates es us).Sorted byAddress ∧
        ∀ v, v ∈ applyUpdates es us ↔ v ∈ us ∨ (v ∈ es ∧ ∀ u ∈ us, u.address ≠ v.address)
  | [], us, _, hus => ⟨hus, fun v => by simp [applyUpdates]⟩
  | e :: es, us, hes, hus => by
    induction us with
    | nil => exact ⟨hes, fun v => by simp [applyUpdates, applyUpdatesFrom]⟩
    | cons u us ihU =>
      rw [List.sorted_cons] at hes hus
      rw [applyUpdates_cons_cons]
      split_ifs with hlt heq
      · -- the existing validator comes first
        have heu : ∀ w ∈ u :: us, byAddress e w := fun w hw =>
          (List.mem_cons.mp hw).elim (· ▸ hlt) fun hw => byAddress_trans hlt (hus.1 w hw)
        obtain ⟨hs, hm⟩ := applyUpdates_spec hes.2 (List.sorted_cons.mpr hus)
        refine ⟨List.sorted_cons.mpr ⟨fun w hw => ((hm w).mp hw).elim (heu w) (hes.1 w ·.1), hs⟩,
          fun v => ?_⟩
        rw [List.mem_cons, hm]
        by_cases hv : v = e
        · subst hv
          exact iff_of_true (.inl rfl)
            (.inr ⟨List.mem_cons_self _ _, fun w hw => (address_ne_of_byAddress (heu w hw)).symm⟩)
        · simp only [hv, false_or, List.mem_cons]
      · -- the update replaces the existing validator
        have hue : ∀ w ∈ es, byAddress u w := fun w hw => by
          rw [byAddress, ← heq]; exact hes.1 w hw
        obtain ⟨hs, hm⟩ := applyUpdates_spec hes.2 hus.2
        refine ⟨List.sorted_cons.mpr ⟨fun w hw => ((hm w).mp hw).elim (hus.1 w) (hue w ·.1), hs⟩,
          fun v => ?_⟩
        rw [List.mem_cons, hm]
        constructor
        · rintro (rfl | h | ⟨h₁, h₂⟩)
          · exact .inl (List.mem_cons_self _ _)
          · exact .inl (List.mem_cons_of_mem _ h)
          · refine .inr ⟨List.mem_cons_of_mem _ h₁, fun w hw => ?_⟩
            rcases List.mem_cons.mp hw with rfl | hw
            · exact address_ne_of_byAddress (hue v h₁)
            · exact h₂ w hw
        · rintro (h | ⟨h₁, h₂⟩)
          · exact (List.mem_cons.mp h).imp_right .inl
          · rcases List.mem_cons.mp h₁ with rfl | h₁
            · exact absurd heq.symm (h₂ u (List.mem_cons_self _ _))
            · exact .inr (.inr ⟨h₁, fun w hw => h₂ w (List.mem_cons_of_mem _ hw)⟩)
      · -- the new validator comes first
        have hue : byAddress u e :=
          ((bytesLt_trichotomy e.address u.address).resolve_left heq).resolve_left hlt
        have hues : ∀ w ∈ e :: es, byAddress u w := fun w hw =>
          (List.mem_cons.mp hw).elim (· ▸ hue) fun hw => byAddress_trans hue (hes.1 w hw)
        obtain ⟨hs, hm⟩ := ihU hus.2
        refine ⟨List.sorted_cons.mpr ⟨fun w hw => ((hm w).mp hw).elim (hus.1 w) (hues w ·.1), hs⟩,
          fun v => ?_⟩
        rw [List.mem_cons, hm]
        constructor
        · rintro (rfl | h | ⟨h₁, h₂⟩)
          · exact .inl (List.mem_cons_self _ _)
          · exact .inl (List.mem_cons_of_mem _ h)
          · refine .inr ⟨h₁, fun w hw => ?_⟩
            rcases List.mem_cons.mp hw with rfl | hw
            · exact address_ne_of_byAddress (hues v h₁)
            · exact h₂ w hw
        · rintro (h | ⟨h₁, h₂⟩)
          · exact (List.mem_cons.mp h).imp_right .inl
          · exact .inr (.inr ⟨h₁, fun w hw => h₂ w (List.mem_cons_of_mem _ hw)⟩)

theorem processChanges_go_eq_ok :
    ∀ {s : List Validator} {prevAddr : Bytes} {updates deletes : List Validator},
      s.Sorted (fun x y => ¬byAddress y x) → processChanges.go s prevAddr = .ok (updates, deletes) →
      s.Sorted byAddress ∧ (∀ v ∈ s.head?, v.address ≠ prevAddr) ∧ (∀ v ∈ s, 0 ≤ v.votingPower) ∧
        updates = s.filter (·.votingPower ≠ 0) ∧ deletes = s.filter (·.votingPower = 0)
  | [], _, _, _, _, h => by cases h; simp
  | v :: vs, prevAddr, updates, deletes, hs, h => by
    rw [List.sorted_cons] at hs
    simp only [processChanges.go, ite_error_eq_ok, except_bind_eq_ok] at h
    obtain ⟨h₁, h₂, h₃, ⟨updates', deletes'⟩, hgo, h⟩ := h
    obtain ⟨hsorted, hhead, hpow, rfl, rfl⟩ := processChanges_go_eq_ok hs.2 hgo
    have hlt : ∀ w ∈ vs, byAddress v w := by
      cases vs with
      | nil => simp
      | cons w ws =>
        have hvw : byAddress v w := ((byAddress_total (hhead w rfl).symm).resolve_right
          (hs.1 w (List.mem_cons_self w ws)))
        rw [List.sorted_cons] at hsorted
        exact fun u hu => (List.mem_cons.mp hu).elim (· ▸ hvw) fun hu => byAddress_trans hvw (hsorted.1 u hu)
    refine ⟨List.sorted_cons.mpr ⟨hlt, hsorted⟩, fun w hw => ?_, fun w hw => ?_, ?_⟩
    · cases hw; exact h₁
    · rcases List.mem_cons.mp hw with rfl | hw
      · omega
      · exact hpow w hw
    · split_ifs at h with h₄ <;> cases h <;> simp [List.filter_cons, h₄]

/-- A validator's address, key and power: all a set says about it apart from its priority. -/
def Validator.entry (v : Validator) : Bytes × PubKey × Int := (v.address, v.pubKey, v.votingPower)

/-- The abstract view of a validator list: the key and power of the validator it holds at an
address. -/
def entries (vs : List Validator) (address : Bytes) : Option (PubKey × Int) :=
  ((vs.map Validator.entry).find? (·.1 = address)).map (·.2)

/-- The abstract effect of a change list: a change of power 0 removes its address, any other sets
its address's key and power. -/
def applyChanges (m : Bytes → Option (PubKey × Int)) (changes : List Validator)
    (address : Bytes) : Option (PubKey × Int) :=
  match changes.find? (·.address = address) with
  | some c => if c.votingPower = 0 then none else some (c.pubKey, c.votingPower)
  | none => m address

/-- The invariant CometBFT keeps for a validator set: no two validators share an address, and
every power is positive. -/
structure ValidatorSet.WellFormed (vals : ValidatorSet) : Prop where
  nodup : (vals.validators.map (·.address)).Nodup
  pos : ∀ v ∈ vals.validators, 0 < v.votingPower

theorem map_address_eq_of_map_entry {vs ws : List Validator}
    (h : vs.map Validator.entry = ws.map Validator.entry) :
    vs.map (·.address) = ws.map (·.address) := by
  have := congrArg (List.map Prod.fst) h
  simpa [List.map_map, Function.comp_def, Validator.entry] using this

theorem entries_eq_some_iff {vs : List Validator} {x : Bytes} {e : PubKey × Int}
    (hnd : (vs.map (·.address)).Nodup) : entries vs x = some e ↔ (x, e) ∈ vs.map Validator.entry := by
  induction vs with
  | nil => simp [entries]
  | cons v vs ih =>
    rw [List.map_cons, List.nodup_cons] at hnd
    by_cases hv : v.address = x
    · subst hv
      have hnot : (v.address, e) ∉ vs.map Validator.entry := fun hmem => by
        obtain ⟨w, hw, hwe⟩ := List.mem_map.mp hmem
        exact hnd.1 (List.mem_map.mpr ⟨w, hw, congrArg Prod.fst hwe⟩)
      simp [entries, Validator.entry, hnot, eq_comm]
    · have hne : (x, e) ≠ v.entry := fun h => hv (congrArg Prod.fst h).symm
      rw [List.map_cons, List.mem_cons, ← ih hnd.2, or_iff_right hne]
      simp [entries, Validator.entry, hv]

theorem entries_eq_none_iff {vs : List Validator} {x : Bytes} :
    entries vs x = none ↔ ∀ v ∈ vs, v.address ≠ x := by
  simp [entries, List.find?_eq_none, Validator.entry]

theorem entries_eq_of_perm {vs ws : List Validator} (hnd : (vs.map (·.address)).Nodup)
    (hnd' : (ws.map (·.address)).Nodup) (h : (vs.map Validator.entry).Perm (ws.map Validator.entry)) :
    entries vs = entries ws := by
  funext x
  apply Option.ext
  intro e
  rw [Option.mem_def, Option.mem_def, entries_eq_some_iff hnd, entries_eq_some_iff hnd', h.mem_iff]

section Priorities

theorem map_entry_rescalePriorities (vs : List Validator) (diffMax : Int) :
    (rescalePriorities vs diffMax).map Validator.entry = vs.map Validator.entry := by
  unfold rescalePriorities
  dsimp only
  split_ifs <;> simp [List.map_map, Function.comp_def, Validator.entry]

theorem map_entry_shiftByAvgProposerPriority (vs : List Validator) :
    (shiftByAvgProposerPriority vs).map Validator.entry = vs.map Validator.entry := by
  simp [shiftByAvgProposerPriority, List.map_map, Function.comp_def, Validator.entry]

theorem map_entry_computeNewPriorities (updates : List Validator) (vals : ValidatorSet) (tvp : Int) :
    (computeNewPriorities updates vals tvp).map Validator.entry = updates.map Validator.entry := by
  simp only [computeNewPriorities, List.map_map]
  refine List.map_congr_left fun u _ => ?_
  simp only [Function.comp_apply]
  split <;> rfl

end Priorities

namespace ValidatorSet

theorem updateWithChangeSet_eq_ok {vals vals' : ValidatorSet} {changes : List Validator}
    {allowDeletes : Bool} (h : vals.updateWithChangeSet changes allowDeletes = .ok vals') :
    (changes = [] ∧ vals' = vals) ∨
      ∃ updates deletes removed tvp, processChanges changes = .ok (updates, deletes) ∧
        verifyRemovals deletes vals = .ok removed ∧ verifyUpdates updates vals removed = .ok tvp ∧
        vals'.validators = (shiftByAvgProposerPriority (rescalePriorities
          (applyRemovals (applyUpdates (vals.validators.insertionSort byAddress)
            (computeNewPriorities updates vals tvp)) deletes)
          (2 * totalPower (applyRemovals (applyUpdates (vals.validators.insertionSort byAddress)
            (computeNewPriorities updates vals tvp)) deletes)))).insertionSort byVotingPower := by
  unfold updateWithChangeSet at h
  split_ifs at h with h0
  · exact .inl ⟨h0, by cases h; rfl⟩
  · right
    rcases hpc : processChanges changes with _ | ⟨updates, deletes⟩ <;>
      simp only [hpc, pure_bind, except_bind_error, except_bind_ok] at h
    · cases h
    split_ifs at h
    · cases h
    · cases h
    · cases h
    simp only [pure_bind, except_bind_eq_ok] at h
    obtain ⟨removed, hrem, tvp, hupd, h⟩ := h
    cases h
    exact ⟨updates, deletes, removed, tvp, rfl, hrem, hupd, rfl⟩

end ValidatorSet

theorem mem_map_entry_applyRemovals {M D : List Validator} {x : Bytes} {e : PubKey × Int} :
    (x, e) ∈ (applyRemovals M D).map Validator.entry ↔
      (x, e) ∈ M.map Validator.entry ∧ x ∉ D.map (·.address) := by
  simp only [applyRemovals, List.mem_map, List.mem_filter, Bool.not_eq_true', List.any_eq_false,
    beq_iff_eq, Validator.entry, Prod.mk.injEq, not_exists, not_and]
  constructor
  · rintro ⟨v, ⟨hv, hd⟩, rfl, rfl⟩
    exact ⟨⟨v, hv, rfl, rfl⟩, hd⟩
  · rintro ⟨⟨v, hv, rfl, rfl⟩, hd⟩
    exact ⟨v, ⟨hv, hd⟩, rfl, rfl⟩

theorem applyChanges_eq_some_iff {m : Bytes → Option (PubKey × Int)} {changes : List Validator}
    {x : Bytes} {e : PubKey × Int} (hnd : (changes.map (·.address)).Nodup) :
    applyChanges m changes x = some e ↔
      (∃ c ∈ changes, c.votingPower ≠ 0 ∧ c.entry = (x, e)) ∨
        ((∀ c ∈ changes, c.address ≠ x) ∧ m x = some e) := by
  unfold applyChanges
  split
  · rename_i c hc
    have hcx : c.address = x := by simpa using List.find?_some hc
    have hcm := List.mem_of_find?_eq_some hc
    have hfirst : ¬∀ c ∈ changes, c.address ≠ x := fun h => h c hcm hcx
    simp only [hfirst, false_and, or_false]
    constructor
    · intro h
      split_ifs at h with h0
      cases h
      exact ⟨c, hcm, h0, by simp [Validator.entry, hcx]⟩
    · rintro ⟨c', hc', h0, he⟩
      have : c' = c := List.inj_on_of_nodup_map hnd hc' hcm
        ((congrArg Prod.fst he).trans hcx.symm)
      subst this
      simp only [Validator.entry, Prod.mk.injEq] at he
      rw [if_neg h0, he.2]
  · rename_i hnone
    have hall : ∀ c ∈ changes, c.address ≠ x := by simpa using List.find?_eq_none.mp hnone
    exact ⟨fun h => .inr ⟨hall, h⟩,
      fun h => h.elim (fun ⟨c, hc, _, he⟩ => absurd (congrArg Prod.fst he) (hall c hc)) And.right⟩

theorem nodup_map_address_of_sorted {l : List Validator} (h : l.Sorted byAddress) :
    (l.map (·.address)).Nodup :=
  List.pairwise_map.mpr (h.imp address_ne_of_byAddress)

theorem sorted_byAddress_of_map_address {l l' : List Validator}
    (h : l.map (·.address) = l'.map (·.address)) (hl : l.Sorted byAddress) : l'.Sorted byAddress := by
  have hp : (l.map (·.address)).Pairwise (bytesLt · ·) := List.pairwise_map.mpr hl
  rw [h, List.pairwise_map] at hp
  exact hp

@[simp]
theorem map_fst_map_entry (l : List Validator) :
    (l.map Validator.entry).map Prod.fst = l.map (·.address) := by
  simp [List.map_map, Function.comp_def, Validator.entry]

theorem not_mem_map_address {l : List Validator} {x : Bytes} :
    x ∉ l.map (·.address) ↔ ∀ v ∈ l, v.address ≠ x := by
  simp

theorem mem_map_entry_applyUpdates {es us : List Validator} (hes : es.Sorted byAddress)
    (hus : us.Sorted byAddress) {x : Bytes} {e : PubKey × Int} :
    (x, e) ∈ (applyUpdates es us).map Validator.entry ↔
      (x, e) ∈ us.map Validator.entry ∨
        ((x, e) ∈ es.map Validator.entry ∧ x ∉ us.map (·.address)) := by
  have hm := (applyUpdates_spec hes hus).2
  rw [not_mem_map_address]
  simp only [List.mem_map, hm]
  constructor
  · rintro ⟨v, hv | ⟨hv, hne⟩, hve⟩
    · exact .inl ⟨v, hv, hve⟩
    · have hvx : v.address = x := congrArg Prod.fst hve
      exact .inr ⟨⟨v, hv, hve⟩, hvx ▸ hne⟩
  · rintro (⟨v, hv, hve⟩ | ⟨⟨v, hv, hve⟩, hne⟩)
    · exact ⟨v, .inl hv, hve⟩
    · have hvx : v.address = x := congrArg Prod.fst hve
      exact ⟨v, .inr ⟨hv, hvx ▸ hne⟩, hve⟩

theorem update_entries_iff {changes s : List Validator} (hperm : s.Perm changes)
    (hnd : (changes.map (·.address)).Nodup) {P : Prop} {x : Bytes} {e : PubKey × Int} :
    ((x, e) ∈ (s.filter (·.votingPower ≠ 0)).map Validator.entry ∨
        (P ∧ x ∉ (s.filter (·.votingPower ≠ 0)).map (·.address))) ∧
      x ∉ (s.filter (·.votingPower = 0)).map (·.address) ↔
      (∃ c ∈ changes, c.votingPower ≠ 0 ∧ c.entry = (x, e)) ∨
        ((∀ c ∈ changes, c.address ≠ x) ∧ P) := by
  simp only [not_mem_map_address]
  simp only [List.mem_map, List.mem_filter, hperm.mem_iff, decide_eq_true_eq]
  constructor
  · rintro ⟨⟨c, ⟨hc, h0⟩, hce⟩ | ⟨hP, hu⟩, hd⟩
    · exact .inl ⟨c, hc, h0, hce⟩
    · refine .inr ⟨fun c hc => ?_, hP⟩
      by_cases h0 : c.votingPower = 0
      · exact hd c ⟨hc, h0⟩
      · exact hu c ⟨hc, h0⟩
  · rintro (⟨c, hc, h0, hce⟩ | ⟨hall, hP⟩)
    · refine ⟨.inl ⟨c, ⟨hc, h0⟩, hce⟩, fun d ⟨hd, hd0⟩ hdx => h0 ?_⟩
      have hcx : c.address = x := congrArg Prod.fst hce
      have : d = c := List.inj_on_of_nodup_map hnd hd hc (hdx.trans hcx.symm)
      exact this ▸ hd0
    · exact ⟨.inr ⟨hP, fun c hc => hall c hc.1⟩, fun c hc => hall c hc.1⟩

namespace ValidatorSet

theorem updateWithChangeSet_wellFormed {vals vals' : ValidatorSet} {changes : List Validator}
    {allowDeletes : Bool} (hwf : vals.WellFormed)
    (h : vals.updateWithChangeSet changes allowDeletes = .ok vals') :
    vals'.WellFormed ∧ entries vals'.validators = applyChanges (entries vals.validators) changes := by
  rcases updateWithChangeSet_eq_ok h with ⟨rfl, rfl⟩ | ⟨updates, deletes, removed, tvp, hpc, -, -, hval⟩
  · exact ⟨hwf, rfl⟩
  -- the changes, sorted and split by `processChanges`
  obtain ⟨hs, -, hpow, rfl, rfl⟩ := processChanges_go_eq_ok
    (sorted_not_insertionSort byAddress_asymm not_byAddress_trans changes) hpc
  have hperm := List.perm_insertionSort byAddress changes
  have hnd : (changes.map (·.address)).Nodup :=
    (hperm.map _).nodup_iff.mp (nodup_map_address_of_sorted hs)
  -- the merge of the existing validators, sorted by address, with the updates
  have hS := @sorted_insertionSort_of_nodup _ _ byAddress _ (·.address)
    (fun _ _ _ => byAddress_trans) (fun _ _ => byAddress_total) _ hwf.nodup
  have hU := map_entry_computeNewPriorities
    ((changes.insertionSort byAddress).filter (·.votingPower ≠ 0)) vals tvp
  have hU' := sorted_byAddress_of_map_address (map_address_eq_of_map_entry hU).symm (hs.filter _)
  set U' := computeNewPriorities ((changes.insertionSort byAddress).filter (·.votingPower ≠ 0))
    vals tvp
  set R := applyRemovals (applyUpdates (vals.validators.insertionSort byAddress) U')
    ((changes.insertionSort byAddress).filter (·.votingPower = 0))
  have hRnd : (R.map (·.address)).Nodup :=
    ((List.filter_sublist _).map _).nodup (nodup_map_address_of_sorted (applyUpdates_spec hS hU').1)
  -- the final list is a permutation of `R` up to priorities
  have hfin : (vals'.validators.map Validator.entry).Perm (R.map Validator.entry) := by
    rw [hval]
    refine ((List.perm_insertionSort _ _).map _).trans ?_
    rw [map_entry_shiftByAvgProposerPriority, map_entry_rescalePriorities]
  have hfnd : (vals'.validators.map (·.address)).Nodup := by
    rw [← map_fst_map_entry] at hRnd ⊢
    exact (hfin.map _).nodup_iff.mpr hRnd
  have hentries : entries vals'.validators = applyChanges (entries vals.validators) changes := by
    rw [entries_eq_of_perm hfnd hRnd hfin]
    funext x
    apply Option.ext
    intro e
    rw [Option.mem_def, Option.mem_def, entries_eq_some_iff hRnd, applyChanges_eq_some_iff hnd,
      mem_map_entry_applyRemovals, mem_map_entry_applyUpdates hS hU', hU,
      map_address_eq_of_map_entry hU, ((List.perm_insertionSort _ _).map _).mem_iff,
      ← entries_eq_some_iff hwf.nodup]
    exact update_entries_iff hperm hnd
  have hpos : ∀ v ∈ vals'.validators, 0 < v.votingPower := by
    intro v hv
    have hmem := hfin.mem_iff.mp (List.mem_map_of_mem Validator.entry hv)
    rw [show v.entry = (v.address, v.pubKey, v.votingPower) from rfl, mem_map_entry_applyRemovals,
      mem_map_entry_applyUpdates hS hU', hU] at hmem
    rcases hmem.1 with h | ⟨h, -⟩
    · obtain ⟨u, hu, hue⟩ := List.mem_map.mp h
      have hpw : u.votingPower = v.votingPower := congrArg (·.2.2) hue
      have hu' := List.mem_filter.mp hu
      have := hpow u hu'.1
      simp only [decide_eq_true_eq] at hu'
      omega
    · obtain ⟨w, hw, hwe⟩ := List.mem_map.mp h
      have hpw : w.votingPower = v.votingPower := congrArg (·.2.2) hwe
      exact hpw ▸ hwf.pos w ((List.mem_insertionSort _).mp hw)
  exact ⟨⟨hfnd, hpos⟩, hentries⟩

/-- `UpdateWithChangeSet` refines map override. On a well-formed set, a successful update returns
a well-formed set whose view is the old view with the changes applied (a change of power 0
removes its address, any other sets its address's key and power), and whose validators, when
there were changes, are in `ValidatorsByVotingPower` order. -/
theorem updateWithChangeSet_refines {vals vals' : ValidatorSet} {changes : List Validator}
    {allowDeletes : Bool} (hwf : vals.WellFormed)
    (h : vals.updateWithChangeSet changes allowDeletes = .ok vals') :
    vals'.WellFormed ∧ entries vals'.validators = applyChanges (entries vals.validators) changes ∧
      (changes ≠ [] → vals'.validators.Sorted byVotingPower) := by
  obtain ⟨hwf', hentries⟩ := updateWithChangeSet_wellFormed hwf h
  refine ⟨hwf', hentries, fun hne => ?_⟩
  rcases updateWithChangeSet_eq_ok h with ⟨rfl, -⟩ | ⟨_, _, _, _, -, -, -, hval⟩
  · exact absurd rfl hne
  have hnd := hwf'.nodup
  rw [hval] at hnd ⊢
  exact @sorted_insertionSort_of_nodup _ _ byVotingPower _ (·.address)
    (fun _ _ _ => byVotingPower_trans) (fun _ _ => byVotingPower_total) _
    (((List.perm_insertionSort _ _).map _).nodup_iff.mp hnd)

/-- On a set of two validators, one change removes one, one reweights the other, and one adds a
third. -/
theorem updateWithChangeSet_refines_on_three_changes :
    let a := newValidator (.ed25519 (List.replicate 32 1)) 10
    let b := newValidator (.ed25519 (List.replicate 32 2)) 5
    let changes := [{ b with votingPower := 0 }, { a with votingPower := 7 },
      newValidator (.ed25519 (List.replicate 32 3)) 3]
    (ValidatorSet.mk [a, b] (some a)).WellFormed ∧
      ∃ vals', (ValidatorSet.mk [a, b] (some a)).updateWithChangeSet changes true = .ok vals' ∧
        vals'.WellFormed ∧ entries vals'.validators = applyChanges (entries [a, b]) changes ∧
        (changes ≠ [] → vals'.validators.Sorted byVotingPower) := by
  intro a b changes
  have hwf : (ValidatorSet.mk [a, b] (some a)).WellFormed := ⟨by decide, by decide⟩
  exact ⟨hwf, _, rfl, @updateWithChangeSet_refines _ _ changes true hwf rfl⟩

end ValidatorSet

end CometMock
