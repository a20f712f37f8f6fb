import CometMock.Lemmas.Transactions

/-!
The time a round produces a block at, and the offset `RunBlock` adds to the clock. No round
returns: `RunBlockWithTimeAndProposer` fails from every state, so no call produces a block, whatever
its `blockTime` (which it never reads). `IncrementTimeOffset` rejects a negative increment and adds
any other with an `int64` sum, which wraps once the offset passes `math.MaxInt64`.
-/

namespace CometMock

open AbciClient

/-- From every state, `RunBlockWithTimeAndProposer` fails, and so do `RunBlock` and
`RunBlockWithEvidence`, which call it. -/
theorem runBlockWithTimeAndProposer_never_returns (env : Env) (now : Int) (tx : Option Bytes)
    (blockTime : Int) (proposer : Option Validator)
    (misbehavingValidators : List (Validator × MisbehaviourType)) :
    NeverOk (runBlockWithTimeAndProposer env now tx blockTime proposer misbehavingValidators) ∧
      NeverOk (runBlock env now tx) ∧ NeverOk (runBlockWithEvidence env now tx misbehavingValidators) :=
  have h := runBlockWithTimeAndProposer_neverOk env now tx
  ⟨h _ _ _, NeverOk.bind (returns_true _) fun _ _ => h _ _ _,
    NeverOk.bind (returns_true _) fun _ _ => h _ _ _⟩

theorem toInt64_of_le {x : Int} (h₁ : minInt64 ≤ x) (h₂ : x ≤ maxInt64) : toInt64 x = x := by
  simp only [toInt64, minInt64, maxInt64] at *
  omega

/-- The engine after a sequence of `IncrementTimeOffset` calls: a rejected call leaves it as it
was. -/
def incrementTimeOffsets (a : AbciClient) : List Int → AbciClient
  | [] => a
  | d :: ds => incrementTimeOffsets ((a.incrementTimeOffset d).toOption.getD a) ds

theorem sum_filter_nonneg (ds : List Int) : 0 ≤ (ds.filter (0 ≤ ·)).sum := by
  induction ds with
  | nil => rfl
  | cons d ds ih =>
    rw [List.filter_cons]
    split
    · simp_all only [decide_eq_true_eq, List.sum_cons]
      omega
    · exact ih

theorem incrementTimeOffsets_getTimeOffset (a : AbciClient) (ds : List Int)
    (h₁ : minInt64 ≤ a.timeOffset) (h₂ : a.timeOffset + (ds.filter (0 ≤ ·)).sum ≤ maxInt64) :
    (incrementTimeOffsets a ds).getTimeOffset = a.getTimeOffset + (ds.filter (0 ≤ ·)).sum := by
  induction ds generalizing a with
  | nil => simp [incrementTimeOffsets, getTimeOffset]
  | cons d ds ih =>
    have hrest := sum_filter_nonneg ds
    by_cases hd : d < 0
    · have hfilter : (d :: ds).filter (0 ≤ ·) = ds.filter (0 ≤ ·) := by simp [hd]
      rw [hfilter] at h₂ ⊢
      simpa [incrementTimeOffsets, incrementTimeOffset, hd] using ih a h₁ h₂
    · have hfilter : (d :: ds).filter (0 ≤ ·) = d :: ds.filter (0 ≤ ·) := by
        simp [List.filter_cons, show 0 ≤ d by omega]
      rw [hfilter, List.sum_cons] at h₂ ⊢
      have hstep : a.incrementTimeOffset d = .ok { a with timeOffset := a.timeOffset + d } := by
        rw [incrementTimeOffset, if_neg hd, toInt64_of_le (by omega) (by omega)]
      have ih' := ih { a with timeOffset := a.timeOffset + d }
        (show minInt64 ≤ a.timeOffset + d by omega) (show a.timeOffset + d + _ ≤ _ by omega)
      simp only [getTimeOffset] at ih' ⊢
      simp only [incrementTimeOffsets, hstep, Except.toOption, Option.getD_some, ih']
      omega

/-- From an offset of 0, `IncrementTimeOffset(math.MaxInt64)` is accepted and a following
`IncrementTimeOffset(1)` wraps the `int64` sum, leaving the offset at `math.MinInt64`. -/
theorem incrementTimeOffset_wraps_below_the_previous_offset (a : AbciClient) :
    (incrementTimeOffsets { a with timeOffset := 0 } [maxInt64]).getTimeOffset = maxInt64 ∧
      (incrementTimeOffsets { a with timeOffset := 0 } [maxInt64, 1]).getTimeOffset = minInt64 :=
  ⟨rfl, rfl⟩

end CometMock
