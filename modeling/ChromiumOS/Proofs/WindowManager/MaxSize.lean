import ChromiumOS.Model.WindowManager.SizeHints

/-! # The largest permitted size

The sizes that the hints permit are the multiples of the increment above the base size, within the bounds.
Without a base hint the multiples start at the minimum, so the clamped size only has to be rounded down.
With one, rounding down can leave the bounds below, and a base above the clamped size makes the division
round up.
-/

namespace ChromiumOS.WindowManager

namespace DimensionHints

variable {hints : DimensionHints} {desired : ℤ}

/-- A size that all hints permit. -/
structure Fits (hints : DimensionHints) (size : ℤ) : Prop where
  lower : 0 < hints.min → hints.min ≤ size
  upper : 0 < hints.max → size ≤ hints.max
  steps : 0 < hints.increment → ∃ count : ℕ, size = hints.baseSize + count * hints.increment

/-- A size is the largest permitted one, if there is any, and stays within the minimum hint and the desired
size. -/
structure Largest (hints : DimensionHints) (desired size : ℤ) : Prop where
  greatest : (∃ smaller, smaller ≤ desired ∧ hints.Fits smaller) →
    IsGreatest {smaller | smaller ≤ desired ∧ hints.Fits smaller} size
  lower : hints.min ≤ size
  upper : size ≤ Max.max desired hints.min

/-- With an increment and a base hint: from the clamped size, the next multiple down is not below the minimum,
or the next one up, for a larger base, is not above both the desired size and the minimum. -/
def Aligned (hints : DimensionHints) (desired : ℤ) : Prop :=
  0 < hints.increment → 0 < hints.base →
    (hints.base ≤ hints.clamp desired →
      (hints.clamp desired - hints.base) % hints.increment ≤ hints.clamp desired - hints.min) ∧
    (hints.clamp desired < hints.base →
      (hints.base - hints.clamp desired) % hints.increment ≤
        Max.max desired hints.min - hints.clamp desired)

variable (hints) in
theorem clamp_bounds (positive : 0 < desired) :
    hints.min ≤ hints.clamp desired ∧ hints.clamp desired ≤ Max.max desired hints.min ∧
      0 < hints.clamp desired := by
  simp only [clamp]
  split <;> split <;> omega

theorem clamp_fits {size : ℤ} (small : size ≤ desired)
    (lower : 0 < hints.min → hints.min ≤ size) (upper : 0 < hints.max → size ≤ hints.max) :
    size ≤ hints.clamp desired ∧ hints.clamp desired ≤ desired ∧
      (0 < hints.max → hints.clamp desired ≤ hints.max) := by
  simp only [clamp]
  split <;> split <;> omega

theorem baseSize_of_base (based : 0 < hints.base) : hints.baseSize = hints.base := if_pos based

variable (hints) in
theorem baseSize_le_clamp (positive : 0 < desired) (unset : ¬ 0 < hints.base) :
    hints.min ≤ hints.baseSize ∧ hints.baseSize ≤ hints.clamp desired := by
  have bounds := clamp_bounds hints positive
  rw [baseSize, if_neg unset]
  split <;> omega

variable (desired) in
theorem maxSize_of_no_increment (stepped : ¬ 0 < hints.increment) : hints.maxSize desired = hints.clamp desired :=
  if_neg stepped

/-- Rounding down from a base size that is not larger. -/
theorem maxSize_of_le (stepped : 0 < hints.increment) (below : hints.baseSize ≤ hints.clamp desired) :
    hints.maxSize desired =
      hints.clamp desired - (hints.clamp desired - hints.baseSize) % hints.increment := by
  rw [maxSize, if_pos stepped, Int.tdiv_eq_ediv_of_nonneg (by omega)]
  have parts := Int.ediv_mul_add_emod (hints.clamp desired - hints.baseSize) hints.increment
  omega

/-- Rounding towards a larger base size goes up. -/
theorem maxSize_of_lt (stepped : 0 < hints.increment) (above : hints.clamp desired < hints.baseSize) :
    hints.maxSize desired =
      hints.clamp desired + (hints.baseSize - hints.clamp desired) % hints.increment := by
  rw [maxSize, if_pos stepped, ← neg_sub hints.baseSize, Int.neg_tdiv,
    Int.tdiv_eq_ediv_of_nonneg (by omega), neg_mul]
  have parts := Int.ediv_mul_add_emod (hints.baseSize - hints.clamp desired) hints.increment
  omega

/-- A multiple that is not above the clamped size is not above what it is rounded to. -/
theorem count_le_maxSize (stepped : 0 < hints.increment) {count : ℕ}
    (small : hints.baseSize + count * hints.increment ≤ hints.clamp desired) :
    hints.baseSize + count * hints.increment ≤ hints.maxSize desired := by
  have step : 0 ≤ count * hints.increment := by positivity
  have most : (count : ℤ) ≤ (hints.clamp desired - hints.baseSize) / hints.increment :=
    (Int.le_ediv_iff_mul_le stepped).mpr (by omega)
  rw [maxSize, if_pos stepped, Int.tdiv_eq_ediv_of_nonneg (by omega)]
  exact Int.add_le_add_left (Int.mul_le_mul_of_nonneg_right most stepped.le) _

/-- Rounding down lands on a multiple. -/
theorem maxSize_steps (stepped : 0 < hints.increment) (below : hints.baseSize ≤ hints.clamp desired) :
    ∃ count : ℕ, hints.maxSize desired = hints.baseSize + count * hints.increment := by
  have whole : 0 ≤ (hints.clamp desired - hints.baseSize) / hints.increment :=
    Int.ediv_nonneg (by omega) stepped.le
  refine ⟨((hints.clamp desired - hints.baseSize) / hints.increment).toNat, ?_⟩
  rw [maxSize, if_pos stepped, Int.tdiv_eq_ediv_of_nonneg (by omega), Int.toNat_of_nonneg whole]

/-- A size between the minimum and the clamped size that is on the grid is the largest one. -/
theorem largest_of_le (positive : 0 < desired) (small : hints.maxSize desired ≤ hints.clamp desired)
    (lower : hints.min ≤ hints.maxSize desired) (below : 0 < hints.increment → hints.baseSize ≤ hints.clamp desired) :
    hints.Largest desired (hints.maxSize desired) := by
  have bounds := clamp_bounds hints positive
  refine ⟨?_, lower, by omega⟩
  rintro ⟨size, within, fits⟩
  obtain ⟨-, narrow, most⟩ := clamp_fits within fits.lower fits.upper
  refine ⟨⟨by omega, fun _ => lower, fun bounded => (by have := most bounded; omega), ?_⟩, ?_⟩
  · exact fun stepped => maxSize_steps stepped (below stepped)
  · rintro other ⟨inside, others⟩
    have capped := (clamp_fits inside others.lower others.upper).1
    by_cases stepped : 0 < hints.increment
    · obtain ⟨count, rfl⟩ := others.steps stepped
      exact count_le_maxSize stepped capped
    · rwa [maxSize_of_no_increment desired stepped]

/-- A base size that is not larger is rounded down to, possibly below the minimum. -/
theorem largest_iff_of_le (positive : 0 < desired) (stepped : 0 < hints.increment)
    (below : hints.baseSize ≤ hints.clamp desired) :
    hints.Largest desired (hints.maxSize desired) ↔
      (hints.clamp desired - hints.baseSize) % hints.increment ≤ hints.clamp desired - hints.min := by
  have rounded := maxSize_of_le stepped below
  have kept := Int.emod_nonneg (hints.clamp desired - hints.baseSize) stepped.ne'
  constructor
  · intro largest
    have lower := largest.lower
    omega
  · intro aligned
    exact largest_of_le positive (by omega) (by omega) fun _ => below

/-- A larger base size is rounded up to, possibly above the desired size; no size is permitted. -/
theorem largest_iff_of_lt (positive : 0 < desired) (stepped : 0 < hints.increment)
    (above : hints.clamp desired < hints.baseSize) :
    hints.Largest desired (hints.maxSize desired) ↔
      (hints.baseSize - hints.clamp desired) % hints.increment ≤
        Max.max desired hints.min - hints.clamp desired := by
  have bounds := clamp_bounds hints positive
  have rounded := maxSize_of_lt stepped above
  have kept := Int.emod_nonneg (hints.baseSize - hints.clamp desired) stepped.ne'
  constructor
  · intro largest
    have upper := largest.upper
    omega
  · intro aligned
    refine ⟨?_, by omega, by omega⟩
    rintro ⟨size, within, fits⟩
    obtain ⟨count, rfl⟩ := fits.steps stepped
    have capped := (clamp_fits within fits.lower fits.upper).1
    have step : 0 ≤ count * hints.increment := by positivity
    omega

/-- Without a base hint the size comes out right. -/
theorem largest_of_no_base (positive : 0 < desired) (stepped : 0 < hints.increment)
    (unset : ¬ 0 < hints.base) : hints.Largest desired (hints.maxSize desired) := by
  obtain ⟨lower, below⟩ := baseSize_le_clamp hints positive unset
  obtain ⟨count, counted⟩ := maxSize_steps stepped below
  have rounded := maxSize_of_le stepped below
  have kept := Int.emod_nonneg (hints.clamp desired - hints.baseSize) stepped.ne'
  have step : 0 ≤ count * hints.increment := by positivity
  exact largest_of_le positive (by omega) (by omega) fun _ => below

/-- In a dimension, the largest size comes out exactly for hints that are aligned. -/
theorem largest_iff (positive : 0 < desired) :
    hints.Largest desired (hints.maxSize desired) ↔ hints.Aligned desired := by
  by_cases stepped : 0 < hints.increment
  · by_cases based : 0 < hints.base
    · rw [Aligned, ← baseSize_of_base based]
      rcases le_or_gt hints.baseSize (hints.clamp desired) with below | above
      · rw [largest_iff_of_le positive stepped below]
        exact ⟨fun lower _ _ => ⟨fun _ => lower, fun above => absurd below above.not_ge⟩,
          fun aligned => (aligned stepped (baseSize_of_base based ▸ based)).1 below⟩
      · rw [largest_iff_of_lt positive stepped above]
        exact ⟨fun upper _ _ => ⟨fun below => absurd below above.not_ge, fun _ => upper⟩,
          fun aligned => (aligned stepped (baseSize_of_base based ▸ based)).2 above⟩
    · exact iff_of_true (largest_of_no_base positive stepped based) fun _ set => absurd set based
  · have plain := maxSize_of_no_increment desired stepped
    have bounds := clamp_bounds hints positive
    refine iff_of_true ?_ fun set => absurd set stepped
    exact largest_of_le positive (by omega) (by omega) fun set => absurd set stepped

end DimensionHints

/-- The sizes that come out are the largest ones permitted exactly if the hints are aligned in both
dimensions. -/
theorem GetMaxSize_largest_iff (hints : SizeHints) {desired_width desired_height : ℤ}
    (width : 0 < desired_width) (height : 0 < desired_height) :
    (∃ width_out height_out,
      GetMaxSize hints desired_width desired_height = some (width_out, height_out) ∧
        hints.ofWidth.Largest desired_width width_out ∧ hints.ofHeight.Largest desired_height height_out) ↔
      hints.ofWidth.Aligned desired_width ∧ hints.ofHeight.Aligned desired_height := by
  rw [← DimensionHints.largest_iff width, ← DimensionHints.largest_iff height]
  have out : GetMaxSize hints desired_width desired_height =
      some (hints.ofWidth.maxSize desired_width, hints.ofHeight.maxSize desired_height) := by
    simp [GetMaxSize, width, height]
  constructor
  · rintro ⟨width_out, height_out, same, largest⟩
    rw [out, Option.some.injEq, Prod.mk.injEq] at same
    obtain ⟨rfl, rfl⟩ := same
    exact largest
  · exact fun largest => ⟨_, _, out, largest⟩

/-- A terminal that asks for columns of 10 pixels beside a border of 40 pixels. -/
theorem GetMaxSize_largest_columns :
    ∃ width_out height_out, GetMaxSize
      { width_increment := 10, base_width := 40 } 609 400 = some (width_out, height_out) ∧
        (SizeHints.ofWidth { width_increment := 10, base_width := 40 }).Largest 609 width_out ∧
        (SizeHints.ofHeight { width_increment := 10, base_width := 40 }).Largest 400 height_out :=
  (GetMaxSize_largest_iff _ (by decide) (by decide)).mpr
    ⟨by unfold DimensionHints.Aligned; decide, by unfold DimensionHints.Aligned; decide⟩

/-- With a base of 40 and an increment of 500, a minimum of 400 and a desired size of 450 give 40. -/
theorem GetMaxSize_below_minimum :
    GetMaxSize { min_width := 400, width_increment := 500, base_width := 40 } 450 300 = some (40, 300) ∧
      ¬ (SizeHints.ofWidth { min_width := 400, width_increment := 500, base_width := 40 }).Largest 450 40 :=
  ⟨by decide, fun largest => absurd largest.lower (by decide)⟩

end ChromiumOS.WindowManager
