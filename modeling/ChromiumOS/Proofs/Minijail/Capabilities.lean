import ChromiumOS.Model.Minijail.Env

/-! # Masks of capabilities

The loop over the bounding set tests a bit of the mask with a shift of 64 bits, the loop over the other sets with
one of 32: there a capability from 32 on is tested with the bit of the one 32 before, and a capability that is the
last of 32 with all the bits from its own on, since the shift gives a negative number.
-/

namespace ChromiumOS.Minijail

variable {mask set : BitVec 64} {process : Process} {known cap : ℕ}

theorem and_ne_zero_iff (first second : BitVec 64) :
    first &&& second ≠ 0 ↔ ∃ bit < 64, first.getLsbD bit = true ∧ second.getLsbD bit = true := by
  constructor
  · intro some
    by_contra none
    refine some (BitVec.eq_of_getLsbD_eq fun bit inside => ?_)
    rw [BitVec.getLsbD_and, Bool.eq_false_iff.mpr fun both => none ⟨bit, inside, Bool.and_eq_true_iff.mp both⟩]
    exact BitVec.getLsbD_zero.symm
  · rintro ⟨bit, -, left, right⟩ zero
    have both := congrArg (BitVec.getLsbD · bit) zero
    simp only [BitVec.getLsbD_and, left, right, Bool.and_self] at both
    exact absurd both.symm (by rw [BitVec.ofNat_eq_ofNat, BitVec.getLsbD_zero]; decide)

theorem shift_getLsbD {bit : ℕ} (inside : bit < 64) : ((1#64) <<< cap).getLsbD bit = decide (bit = cap) := by
  rw [BitVec.getLsbD_shiftLeft, BitVec.getLsbD_one, decide_eq_true inside, decide_eq_true (show 0 < 64 by decide)]
  grind

/-- The test of the bounding set is one of the bit of the capability. -/
theorem and_shift_ne_zero (inside : cap < 64) : mask &&& ((1#64) <<< cap) ≠ 0 ↔ mask.getLsbD cap = true := by
  rw [and_ne_zero_iff]
  constructor
  · rintro ⟨bit, small, left, right⟩
    rw [shift_getLsbD small, decide_eq_true_eq] at right
    exact right ▸ left
  · intro left
    refine ⟨cap, inside, left, ?_⟩
    rw [shift_getLsbD inside, decide_eq_true rfl]

theorem intShift_getLsbD {bit : ℕ} (inside : bit < 64) :
    (intShift cap).getLsbD bit = decide (bit = cap % 32 ∨ (cap % 32 = 31 ∧ 31 ≤ bit)) := by
  have less := Nat.mod_lt cap (show 0 < 32 by decide)
  rw [intShift, BitVec.getLsbD_signExtend, BitVec.msb_eq_getLsbD_last, BitVec.getLsbD_shiftLeft,
    BitVec.getLsbD_shiftLeft, BitVec.getLsbD_one, BitVec.getLsbD_one, decide_eq_true inside]
  generalize cap % 32 = shift at less ⊢
  grind

/-- The test of the other sets. -/
theorem and_intShift_ne_zero : mask &&& intShift cap ≠ 0 ↔
    if cap % 32 = 31 then ∃ bit, 31 ≤ bit ∧ bit < 64 ∧ mask.getLsbD bit = true
    else mask.getLsbD (cap % 32) = true := by
  have less := Nat.mod_lt cap (show 0 < 32 by decide)
  rw [and_ne_zero_iff]
  split
  · next last =>
    constructor
    · rintro ⟨bit, small, left, right⟩
      rw [intShift_getLsbD small, decide_eq_true_eq] at right
      exact ⟨bit, by omega, small, left⟩
    · rintro ⟨bit, large, small, left⟩
      refine ⟨bit, small, left, ?_⟩
      rw [intShift_getLsbD small, decide_eq_true_eq]
      exact .inr ⟨last, large⟩
  · next other =>
    constructor
    · rintro ⟨bit, small, left, right⟩
      rw [intShift_getLsbD small, decide_eq_true_eq] at right
      have same := right.resolve_right fun both => other both.1
      exact same ▸ left
    · intro left
      refine ⟨cap % 32, by omega, left, ?_⟩
      rw [intShift_getLsbD (by omega), decide_eq_true_eq]
      exact .inl rfl

/-- The capabilities that `SanitizeCapabilities` adds. -/
def Added (mask : BitVec 64) (cap : ℕ) : Prop := cap = CAP_SETPCAP ∨ mask &&& intShift cap ≠ 0

instance (mask : BitVec 64) (cap : ℕ) : Decidable (Added mask cap) := inferInstanceAs (Decidable (_ ∨ _))

theorem addCapabilities_getLsbD (count : ℕ) {bit : ℕ} (inside : bit < 64) :
    (((List.range count).foldl (addCapability mask) {}).effective.getLsbD bit =
        decide (bit < count ∧ Added mask bit)) ∧
      (((List.range count).foldl (addCapability mask) {}).permitted.getLsbD bit =
        decide (bit < count ∧ Added mask bit)) ∧
      (((List.range count).foldl (addCapability mask) {}).inheritable.getLsbD bit =
        decide (bit < count ∧ Added mask bit)) := by
  induction count with
  | zero => simp
  | succ count ih =>
    obtain ⟨effective, permitted, inheritable⟩ := ih
    rw [List.range_succ, List.foldl_append, List.foldl_cons, List.foldl_nil, addCapability]
    have bits (set : BitVec 64) (known : set.getLsbD bit = decide (bit < count ∧ Added mask bit)) :
        (Added mask count → (set ||| BitVec.twoPow 64 count).getLsbD bit =
            decide (bit < count + 1 ∧ Added mask bit)) ∧
          (¬ Added mask count → set.getLsbD bit = decide (bit < count + 1 ∧ Added mask bit)) := by
      rw [BitVec.getLsbD_or, BitVec.getLsbD_twoPow, known]
      constructor
      · intro added
        by_cases same : bit = count
        · subst same
          simp [inside, added]
        · simp only [Nat.lt_succ_iff_lt_or_eq, same, or_false, Ne.symm same, decide_false, Bool.and_false,
            Bool.or_false]
      · intro left
        by_cases same : bit = count
        · subst same
          simp [left]
        · simp only [Nat.lt_succ_iff_lt_or_eq, same, or_false]
    split
    · next added => exact ⟨(bits _ effective).1 added, (bits _ permitted).1 added, (bits _ inheritable).1 added⟩
    · next left => exact ⟨(bits _ effective).2 left, (bits _ permitted).2 left, (bits _ inheritable).2 left⟩

/-- The capabilities of a mask and `CAP_SETPCAP`. -/
def kept (mask : BitVec 64) : BitVec 64 := mask ||| BitVec.twoPow 64 CAP_SETPCAP

theorem kept_getLsbD :
    (kept mask).getLsbD cap = decide (cap = CAP_SETPCAP ∨ mask.getLsbD cap = true) := by
  rw [kept, BitVec.getLsbD_or, BitVec.getLsbD_twoPow, CAP_SETPCAP]
  cases mask.getLsbD cap <;> by_cases same : cap = 8 <;> simp [same, eq_comm]

/-- The loop over the bounding set removes what it has come to and is not kept. -/
theorem cleanBoundingSet_spec (remaining first : ℕ) (process : Process)
    (allowed : process.effective.getLsbD CAP_SETPCAP = true) (inside : first + remaining ≤ 64) :
    ∃ next, cleanBoundingSet known mask remaining first process = some next ∧
      next.effective = process.effective ∧ next.permitted = process.permitted ∧
      next.inheritable = process.inheritable ∧
      ∀ bit < 64, next.bounding.getLsbD bit = (process.bounding.getLsbD bit &&
        !decide (first ≤ bit ∧ bit < first + remaining ∧ bit < known ∧ (kept mask).getLsbD bit = false)) := by
  induction remaining generalizing first process with
  | zero =>
    refine ⟨process, rfl, rfl, rfl, rfl, fun bit small => ?_⟩
    rw [decide_eq_false (by omega), Bool.not_false, Bool.and_true]
  | succ remaining ih =>
    rw [cleanBoundingSet, PR_CAPBSET_READ]
    have keepKnown := @kept_getLsbD mask first
    split
    · next knows =>
      have inKernel : first < known := of_decide_eq_true knows
      split
      · next setpcap =>
        obtain ⟨next, done, effective, permitted, inheritable, bounding⟩ := ih (first + 1) process allowed (by omega)
        refine ⟨next, done, effective, permitted, inheritable, fun bit small => ?_⟩
        rw [decide_eq_true (.inl setpcap)] at keepKnown
        rw [bounding bit small]
        congr 2
        refine decide_eq_decide.mpr ?_
        grind
      · next other =>
        rw [ite_cond_congr (propext (and_shift_ne_zero (show first < 64 by omega)))]
        split
        · next listed =>
          obtain ⟨next, done, effective, permitted, inheritable, bounding⟩ := ih (first + 1) process allowed (by omega)
          refine ⟨next, done, effective, permitted, inheritable, fun bit small => ?_⟩
          rw [decide_eq_true (.inr listed)] at keepKnown
          rw [bounding bit small]
          congr 2
          refine decide_eq_decide.mpr ?_
          grind
        · next unlisted =>
          rw [PR_CAPBSET_DROP, if_pos ⟨inKernel, allowed⟩, Option.bind_some]
          obtain ⟨next, done, effective, permitted, inheritable, bounding⟩ := ih (first + 1)
            { process with bounding := process.bounding &&& ~~~ BitVec.twoPow 64 first } allowed (by omega)
          refine ⟨next, done, effective, permitted, inheritable, fun bit small => ?_⟩
          rw [decide_eq_false (not_or.mpr ⟨other, unlisted⟩)] at keepKnown
          rw [bounding bit small, BitVec.getLsbD_and, BitVec.getLsbD_not, BitVec.getLsbD_twoPow]
          grind
    · next unknown =>
      refine ⟨process, rfl, rfl, rfl, rfl, fun bit small => ?_⟩
      have outside : ¬ first < known := fun knows => unknown (decide_eq_true knows)
      rw [decide_eq_false (by omega), Bool.not_false, Bool.and_true]

/-- What the masks are to mean: the three sets have the mask and `CAP_SETPCAP`, the bounding set loses what the
kernel knows of the rest, and no set has anything else. -/
structure Sanitized (known : ℕ) (mask : BitVec 64) (process next : Process) : Prop where
  effective : next.effective = kept mask
  permitted : next.permitted = kept mask
  inheritable : next.inheritable = kept mask
  bounding : ∀ cap < 64, next.bounding.getLsbD cap =
    (process.bounding.getLsbD cap && !decide (cap < known ∧ (kept mask).getLsbD cap = false))
  nothing_else : (∀ cap < 64, process.bounding.getLsbD cap = true → cap < known) →
    ∀ cap < 64, next.bounding.getLsbD cap = true → (kept mask).getLsbD cap = true

/-- A mask with all its capabilities below 32 and again from there on, the last of either among them. -/
def Repeated (mask : BitVec 64) : Prop :=
  mask.getLsbD 31 = true ∧ ∀ cap < 32, mask.getLsbD (cap + 32) = mask.getLsbD cap

/-- The three sets are those of the mask if the mask is empty or consists of two same halves with their last bits
set. -/
theorem added_iff_kept :
    (∀ cap < 64, Added mask cap ↔ cap = CAP_SETPCAP ∨ mask.getLsbD cap = true) ↔ mask = 0 ∨ Repeated mask := by
  constructor
  · intro agree
    have copied (cap : ℕ) (small : cap < 31) : mask.getLsbD (cap + 32) = true ↔ mask.getLsbD cap = true := by
      have same := agree (cap + 32) (by omega)
      have rest : (cap + 32) % 32 = cap := by omega
      rw [Added, and_intShift_ne_zero, rest, if_neg (by omega), CAP_SETPCAP] at same
      grind
    have last := agree 31 (by decide)
    rw [Added, and_intShift_ne_zero, if_pos rfl, CAP_SETPCAP] at last
    by_cases negative : mask.getLsbD 31 = true
    · refine .inr ⟨negative, fun cap small => ?_⟩
      by_cases top : cap = 31
      · have same := agree 63 (by decide)
        rw [Added, and_intShift_ne_zero, if_pos rfl, CAP_SETPCAP] at same
        rcases same.mp (.inr ⟨31, le_rfl, by decide, negative⟩) with wrong | set
        · exact absurd wrong (by decide)
        · rw [top, negative, set]
      · exact Bool.eq_iff_iff.mpr (copied cap (by omega))
    · refine .inl (BitVec.eq_of_getLsbD_eq fun bit inside => ?_)
      have upper (bit : ℕ) (large : 31 ≤ bit) (small : bit < 64) : mask.getLsbD bit = false := by
        rw [Bool.eq_false_iff]
        intro set
        rcases last.mp (.inr ⟨bit, large, small, set⟩) with wrong | set
        · exact absurd wrong (by decide)
        · exact negative set
      rw [BitVec.ofNat_eq_ofNat, BitVec.getLsbD_zero]
      by_cases large : 31 ≤ bit
      · exact upper bit large inside
      · rw [Bool.eq_false_iff, ne_eq, ← copied bit (by omega), upper (bit + 32) (by omega) (by omega)]
        decide
  · rintro (rfl | ⟨negative, copied⟩) cap inside
    · rw [Added, BitVec.ofNat_eq_ofNat, BitVec.zero_and, BitVec.getLsbD_zero]
      simp
    · rw [Added, and_intShift_ne_zero]
      refine or_congr_right ?_
      have halves : cap = cap % 32 ∨ cap = cap % 32 + 32 := by omega
      have same : mask.getLsbD cap = mask.getLsbD (cap % 32) := by
        rcases halves with low | high
        · rw [← low]
        · rw [high, copied _ (Nat.mod_lt _ (by decide)), ← high]
      rw [same]
      split
      · next top =>
        rw [top]
        exact ⟨fun _ => negative, fun _ => ⟨31, le_rfl, by decide, negative⟩⟩
      · rfl

theorem sanitizeCapabilities_getLsbD (mask : BitVec 64) (process : Process) (inside : cap < 64) :
    (SanitizeCapabilities mask process).effective.getLsbD cap = decide (Added mask cap) ∧
      (SanitizeCapabilities mask process).permitted.getLsbD cap = decide (Added mask cap) ∧
      (SanitizeCapabilities mask process).inheritable.getLsbD cap = decide (Added mask cap) := by
  have bits := @addCapabilities_getLsbD mask 64 cap inside
  simp only [inside, true_and] at bits
  exact bits

/-- With both run on a mask, the bounding set is right for every mask, and the other sets exactly for masks that
are repeated or empty. -/
theorem capability_masks (known : ℕ) (mask : BitVec 64) (process : Process) :
    ∃ next, useCapabilities known mask process = some next ∧
      (Sanitized known mask process next ↔ mask = 0 ∨ Repeated mask) ∧
      ∀ cap < 64, next.bounding.getLsbD cap =
        (process.bounding.getLsbD cap && !decide (cap < known ∧ (kept mask).getLsbD cap = false)) := by
  have bits (cap : ℕ) (inside : cap < 64) := @sanitizeCapabilities_getLsbD cap mask process inside
  have allowed : (SanitizeCapabilities mask process).effective.getLsbD CAP_SETPCAP = true := by
    rw [(bits CAP_SETPCAP (by decide)).1]
    exact decide_eq_true (.inl rfl)
  obtain ⟨next, done, effective, permitted, inheritable, bounding⟩ :=
    @cleanBoundingSet_spec mask known 64 0 _ allowed le_rfl
  have bounded : ∀ cap < 64, next.bounding.getLsbD cap =
      (process.bounding.getLsbD cap && !decide (cap < known ∧ (kept mask).getLsbD cap = false)) := by
    intro cap inside
    rw [bounding cap inside]
    congr 2
    refine decide_eq_decide.mpr ⟨fun removed => removed.2.2, fun removed => ?_⟩
    exact ⟨Nat.zero_le _, (Nat.zero_add 64).symm ▸ inside, removed⟩
  refine ⟨next, done, ?_, bounded⟩
  rw [← added_iff_kept]
  constructor
  · intro sanitized cap inside
    have same := (bits cap inside).1
    rw [← effective, sanitized.effective, kept_getLsbD] at same
    exact (decide_eq_decide.mp same).symm
  · intro agree
    have equal (set : BitVec 64) (known : ∀ cap < 64, set.getLsbD cap = decide (Added mask cap)) :
        set = kept mask := by
      refine BitVec.eq_of_getLsbD_eq fun cap inside => ?_
      rw [known cap inside, kept_getLsbD]
      exact decide_eq_decide.mpr (agree cap inside)
    exact
      { effective := effective.trans (equal _ fun cap inside => (bits cap inside).1)
        permitted := permitted.trans (equal _ fun cap inside => (bits cap inside).2.1)
        inheritable := inheritable.trans (equal _ fun cap inside => (bits cap inside).2.2)
        bounding := bounded
        nothing_else := by
          intro kernel cap inside stays
          rw [bounded cap inside, Bool.and_eq_true, Bool.not_eq_true', decide_eq_false_iff_not] at stays
          exact Bool.not_eq_false _ ▸ fun left => stays.2 ⟨kernel cap inside stays.1, left⟩ }

/-- A process of root, and a mask with nothing but capability 0: capability 32 is left in the sets as well. -/
theorem capability_left :
    ∃ next, useCapabilities 34 1 ⟨0x3ffffffff, 0x3ffffffff, 0, 0x3ffffffff⟩ = some next ∧
      next.effective.getLsbD 32 = true ∧ ¬ Sanitized 34 1 ⟨0x3ffffffff, 0x3ffffffff, 0, 0x3ffffffff⟩ next := by
  generalize (⟨0x3ffffffff, 0x3ffffffff, 0, 0x3ffffffff⟩ : Process) = process
  have bit : (SanitizeCapabilities 1 process).effective.getLsbD 32 = true := by
    rw [(sanitizeCapabilities_getLsbD 1 process (by decide)).1]
    decide
  have allowed : (SanitizeCapabilities 1 process).effective.getLsbD CAP_SETPCAP = true := by
    rw [(sanitizeCapabilities_getLsbD 1 process (by decide)).1]
    decide
  obtain ⟨next, done, effective, -⟩ := @cleanBoundingSet_spec 1 34 64 0 _ allowed le_rfl
  refine ⟨next, done, by rw [effective, bit], fun sanitized => ?_⟩
  rw [← effective, sanitized.effective] at bit
  exact absurd bit (by decide)

end ChromiumOS.Minijail
