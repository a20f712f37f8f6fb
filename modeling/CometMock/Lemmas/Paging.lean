import CometMock.RpcServer

/-!
The paging of the `Validators` route, over every list of validators and every `page` and
`per_page` a client sends. `validatePerPage` always yields a page size between 1 and
`maxPerPage`, so the panic of `validatePage` is never reached. Every page `validatePage` accepts
starts within the list, so `(page - 1) * perPage` lies between 0 and the list's length and the
slice is in bounds. Pages 1 to `max 1 ⌈n / pp⌉` cut the list into consecutive pieces of `pp`
validators, the last one possibly shorter.
-/

namespace CometMock

theorem flatten_map_range_take_drop {α : Type} (L : List α) (p : Nat) :
    ∀ P, ((List.range P).map fun i => (L.drop (i * p)).take p).flatten = L.take (P * p)
  | 0 => by simp
  | P + 1 => by
    rw [List.range_succ, List.map_append, List.flatten_append, flatten_map_range_take_drop L p P,
      Nat.succ_mul, List.take_add]
    simp

namespace RpcServer

theorem validatePerPage_mem (perPagePtr : Option Int) :
    1 ≤ validatePerPage perPagePtr ∧ validatePerPage perPagePtr ≤ maxPerPage := by
  unfold validatePerPage defaultPerPage maxPerPage
  split
  · decide
  · split_ifs <;> omega

theorem add_sub_one_div {m p : Nat} (hp : 0 < p) : (m + 1 + p - 1) / p = m / p + 1 := by
  rw [show m + 1 + p - 1 = m + p by omega, Nat.add_div_right m hp]

theorem pageCount_eq {p : Nat} (hp : 0 < p) (n : Nat) :
    pageCount p n = (max 1 ((n + p - 1) / p) : Nat) := by
  unfold pageCount
  cases n with
  | zero =>
    have h1 : 1 / p ≤ 1 := Nat.div_le_self 1 p
    have htdiv : ((0 : Nat) - 1 : Int).tdiv p = -((1 / p : Nat) : Int) := rfl
    rw [htdiv, Nat.div_eq_of_lt (show 0 + p - 1 < p by omega)]
    dsimp only
    generalize 1 / p = q at h1 ⊢
    split_ifs <;> omega
  | succ m =>
    have htdiv : ((m + 1 : Nat) - 1 : Int).tdiv p = ((m / p : Nat) : Int) := by
      rw [show ((m + 1 : Nat) - 1 : Int) = (m : Int) by omega]
      rfl
    rw [htdiv, add_sub_one_div hp]
    dsimp only
    generalize m / p = q
    split_ifs <;> omega

theorem mul_le_of_lt_pages {n p k : Nat} (hp : 0 < p) (hk : k < max 1 ((n + p - 1) / p)) :
    k * p ≤ n := by
  cases n with
  | zero =>
    rw [Nat.div_eq_of_lt (show 0 + p - 1 < p by omega)] at hk
    simp [show k = 0 by omega]
  | succ m =>
    rw [add_sub_one_div hp] at hk
    calc k * p ≤ m / p * p := Nat.mul_le_mul_right p (by generalize m / p = q at hk; omega)
      _ ≤ m := Nat.div_mul_le_self m p
      _ ≤ m + 1 := Nat.le_succ m

theorem le_pages_mul (n : Nat) {p : Nat} (hp : 0 < p) : n ≤ max 1 ((n + p - 1) / p) * p := by
  have hq := Nat.div_add_mod (n + p - 1) p
  have hr := Nat.mod_lt (n + p - 1) hp
  calc n ≤ (n + p - 1) / p * p := by
        rw [Nat.mul_comm]
        generalize p * ((n + p - 1) / p) = t at hq
        omega
    _ ≤ max 1 ((n + p - 1) / p) * p := Nat.mul_le_mul_right p (Nat.le_max_right _ _)

theorem pageCount_eq_max {pp : Int} (hpp : 1 ≤ pp) (n : Nat) :
    pageCount pp n = max 1 ((n + pp - 1) / pp) := by
  obtain ⟨p, rfl⟩ : ∃ p : Nat, (p : Int) = pp := ⟨_, Int.toNat_of_nonneg (by omega)⟩
  rw [pageCount_eq (by omega), show (n : Int) + p - 1 = ((n + p - 1 : Nat) : Int) by omega,
    ← Int.ofNat_ediv]
  omega

theorem validatePage_none {perPage totalCount : Int} (h : 1 ≤ perPage) :
    validatePage none perPage totalCount = .ok 1 := by
  simp [validatePage, show ¬perPage < 1 by omega]

theorem validatePage_some {page perPage totalCount : Int} (h : 1 ≤ perPage) :
    validatePage (some page) perPage totalCount =
      if page ≤ 0 ∨ page > pageCount perPage totalCount then
        .error (.error s!"page should be within [1, {pageCount perPage totalCount}] range, given {page}")
      else .ok page := by
  simp [validatePage, show ¬perPage < 1 by omega]

theorem validatePage_bounds {pagePtr : Option Int} {p n : Nat} {page : Int} (hp : 0 < p)
    (h : validatePage pagePtr p n = .ok page) :
    1 ≤ page ∧ page ≤ (max 1 ((n + p - 1) / p) : Nat) := by
  cases pagePtr with
  | none =>
    rw [validatePage_none (by omega)] at h
    cases h
    omega
  | some page' =>
    rw [validatePage_some (by omega), pageCount_eq hp] at h
    split_ifs at h
    cases h
    omega

theorem validatePage_eq_error_iff {pagePtr : Option Int} {perPage totalCount : Int} {f : Failure}
    (h : 1 ≤ perPage) :
    validatePage pagePtr perPage totalCount = .error f ↔ ∃ page, pagePtr = some page ∧
      (page ≤ 0 ∨ page > pageCount perPage totalCount) ∧
      f = .error s!"page should be within [1, {pageCount perPage totalCount}] range, given {page}" := by
  cases pagePtr with
  | none => simp [validatePage_none h]
  | some page =>
    rw [validatePage_some h]
    split_ifs with hout <;> simp [hout, eq_comm]

theorem sliceRange_page {α : Type} (s : List α) {k p : Nat} (hk : k * p ≤ s.length) :
    sliceRange s ((k * p : Nat) : Int) ((k * p : Nat) + min (p : Int) (s.length - (k * p : Nat))) =
      .ok ((s.drop (k * p)).take p) := by
  generalize k * p = q at hk ⊢
  have hlen : ((q : Int) + min (p : Int) (s.length - q) - q).toNat = min p (s.drop q).length := by
    rw [List.length_drop]
    omega
  rw [sliceRange, if_pos (by omega), Int.toNat_ofNat, hlen, ← List.take_take, List.take_length]

theorem validators_eq_ok {a : AbciClient} {pagePtr perPagePtr : Option Int} {page : Int}
    (h : validatePage pagePtr (validatePerPage perPagePtr)
      a.curState.lastValidators.validators.length = .ok page) :
    (page - 1).toNat * (validatePerPage perPagePtr).toNat ≤ a.curState.lastValidators.validators.length ∧
      validators a none pagePtr perPagePtr = .ok ⟨a.curState.lastBlockHeight,
        (a.curState.lastValidators.validators.drop
          ((page - 1).toNat * (validatePerPage perPagePtr).toNat)).take
            (validatePerPage perPagePtr).toNat,
        ((a.curState.lastValidators.validators.drop
          ((page - 1).toNat * (validatePerPage perPagePtr).toNat)).take
            (validatePerPage perPagePtr).toNat).length,
        a.curState.lastValidators.validators.length⟩ := by
  obtain ⟨hpp, -⟩ := validatePerPage_mem perPagePtr
  obtain ⟨p, hp⟩ : ∃ p : Nat, (p : Int) = validatePerPage perPagePtr :=
    ⟨_, Int.toNat_of_nonneg (by omega)⟩
  rw [← hp] at h ⊢
  obtain ⟨hlo, hhi⟩ := validatePage_bounds (by omega) h
  obtain ⟨k, hk⟩ : ∃ k : Nat, (k : Int) = page - 1 := ⟨_, Int.toNat_of_nonneg (by omega)⟩
  rw [← hk, Int.toNat_ofNat, Int.toNat_ofNat]
  have hkp : k * p ≤ a.curState.lastValidators.validators.length :=
    mul_le_of_lt_pages (by omega) (by omega)
  refine ⟨hkp, ?_⟩
  have hskip : validateSkipCount page p = ((k * p : Nat) : Int) := by
    rw [validateSkipCount, ← Int.sub_add_cancel page 1, ← hk, Int.add_sub_cancel, ← Int.natCast_mul]
    split_ifs <;> omega
  simp only [validators, Option.isSome_none, Bool.false_eq_true, if_false, pure_bind]
  rw [← hp, h]
  simp only [bind, Except.bind]
  rw [hskip, sliceRange_page _ hkp]
  rfl

theorem validators_of_validatePage_error {a : AbciClient} {pagePtr perPagePtr : Option Int}
    {f : Failure} (h : validatePage pagePtr (validatePerPage perPagePtr)
      a.curState.lastValidators.validators.length = .error f) :
    validators a none pagePtr perPagePtr = .error f := by
  simp only [validators, Option.isSome_none, Bool.false_eq_true, if_false, pure_bind]
  rw [h]
  rfl

theorem validators_eq_error_iff {a : AbciClient} {pagePtr perPagePtr : Option Int} {f : Failure} :
    validators a none pagePtr perPagePtr = .error f ↔
      validatePage pagePtr (validatePerPage perPagePtr)
        a.curState.lastValidators.validators.length = .error f := by
  rcases hv : validatePage pagePtr (validatePerPage perPagePtr)
    a.curState.lastValidators.validators.length with f' | page
  · simp only [validators_of_validatePage_error hv, Except.error.injEq]
  · rw [(validators_eq_ok hv).2]
    exact iff_of_false nofun nofun

/-- Every page from 1 to `max 1 ⌈n / pp⌉` is served, and in page order the pages are
`LastValidators` cut into consecutive pieces: each but the last holds `pp` validators, and each
reports its own length as `Count` and the list's length as `Total`. -/
theorem validators_pages_partition_lastValidators (a : AbciClient) (perPagePtr : Option Int) :
    let L := a.curState.lastValidators.validators
    let pp := (validatePerPage perPagePtr).toNat
    ∃ rs : List ResultValidators,
      (List.range (max 1 ((L.length + pp - 1) / pp))).mapM
          (fun i : Nat => validators a none (some ((i : Int) + 1)) perPagePtr) = .ok rs ∧
        (rs.map (·.validators)).flatten = L ∧
        (∀ r ∈ rs.dropLast, r.validators.length = pp) ∧
        ∀ r ∈ rs, r.count = r.validators.length ∧ r.total = L.length := by
  intro L pp
  obtain ⟨hpp, -⟩ := validatePerPage_mem perPagePtr
  have hp : (pp : Int) = validatePerPage perPagePtr := Int.toNat_of_nonneg (by omega)
  have hpage : ∀ i ∈ List.range (max 1 ((L.length + pp - 1) / pp)),
      validators a none (some ((i : Int) + 1)) perPagePtr =
        .ok ⟨a.curState.lastBlockHeight, (L.drop (i * pp)).take pp,
          ((L.drop (i * pp)).take pp).length, L.length⟩ := by
    intro i hi
    have hv : validatePage (some ((i : Int) + 1)) (validatePerPage perPagePtr) L.length =
        .ok ((i : Int) + 1) := by
      rw [validatePage_some hpp, ← hp, pageCount_eq (by omega), if_neg]
      simp only [List.mem_range] at hi
      omega
    have h := (validators_eq_ok hv).2
    rwa [show (i : Int) + 1 - 1 = i by omega, Int.toNat_ofNat] at h
  refine ⟨_, mapM_eq_ok_of_eq_ok hpage, ?_, ?_, ?_⟩
  · rw [List.map_map]
    exact (flatten_map_range_take_drop L pp _).trans
      (List.take_of_length_le (le_pages_mul L.length (by omega)))
  · rw [← List.map_dropLast]
    obtain ⟨P, hP⟩ : ∃ P, max 1 ((L.length + pp - 1) / pp) = P + 1 :=
      ⟨_, (Nat.succ_pred_eq_of_pos (by omega)).symm⟩
    rw [hP, List.range_succ, List.dropLast_concat]
    simp only [List.mem_map, List.mem_range]
    rintro r ⟨i, hi, rfl⟩
    have := mul_le_of_lt_pages (show 0 < pp by omega) (show i + 1 < _ by rw [hP]; omega)
    simp only [List.length_take, List.length_drop, Nat.succ_mul] at this ⊢
    omega
  · simp only [List.mem_map]
    rintro r ⟨i, -, rfl⟩
    exact ⟨rfl, rfl⟩

/-- `Validators` without a height never panics. It returns an error exactly when a page is given
outside `[1, max 1 ⌈n / pp⌉]`, and the first page when none is given. -/
theorem validators_never_panics (a : AbciClient) (pagePtr perPagePtr : Option Int) :
    let n : Int := a.curState.lastValidators.validators.length
    let pp := validatePerPage perPagePtr
    (∀ msg, validators a none pagePtr perPagePtr ≠ .error (.panic msg)) ∧
      1 ≤ pp ∧
      (∀ page, validatePage pagePtr pp n = .ok page →
        validateSkipCount page pp = (page - 1) * pp ∧ 0 ≤ (page - 1) * pp ∧
          (page - 1) * pp ≤ (page - 1) * pp + min pp (n - (page - 1) * pp) ∧
          (page - 1) * pp + min pp (n - (page - 1) * pp) ≤ n) ∧
      ((∃ e, validators a none pagePtr perPagePtr = .error e) ↔
        ∃ page, pagePtr = some page ∧ (page < 1 ∨ max 1 ((n + pp - 1) / pp) < page)) ∧
      validators a none none perPagePtr = validators a none (some 1) perPagePtr := by
  dsimp only
  obtain ⟨hpp, -⟩ := validatePerPage_mem perPagePtr
  have hp : ((validatePerPage perPagePtr).toNat : Int) = validatePerPage perPagePtr :=
    Int.toNat_of_nonneg (by omega)
  have hcount := pageCount_eq_max hpp a.curState.lastValidators.validators.length
  simp only [ne_eq, validators_eq_error_iff, validatePage_eq_error_iff hpp, hcount]
  refine ⟨fun msg ⟨_, _, _, hf⟩ => (nomatch hf), hpp, fun page h => ?_,
    ⟨fun ⟨_, page, hpage, hout, _⟩ => ⟨page, hpage, by omega⟩,
      fun ⟨page, hpage, hout⟩ => ⟨_, page, hpage, by omega, rfl⟩⟩, ?_⟩
  · have hkp := (validators_eq_ok h).1
    obtain ⟨hlo, -⟩ := @validatePage_bounds pagePtr (validatePerPage perPagePtr).toNat
      a.curState.lastValidators.validators.length page (by omega) (by rwa [hp])
    have hskip : (page - 1) * validatePerPage perPagePtr =
        (((page - 1).toNat * (validatePerPage perPagePtr).toNat : Nat) : Int) := by
      rw [Int.natCast_mul, Int.toNat_of_nonneg (by omega), hp]
    simp only [validateSkipCount, hskip]
    generalize (page - 1).toNat * (validatePerPage perPagePtr).toNat = q at hkp
    rw [if_neg (by omega)]
    omega
  · have hfirst := @validatePage_some 1 (validatePerPage perPagePtr)
      a.curState.lastValidators.validators.length hpp
    rw [hcount, if_neg (by omega)] at hfirst
    rw [(validators_eq_ok (validatePage_none hpp)).2, (validators_eq_ok hfirst).2]

end RpcServer

end CometMock
