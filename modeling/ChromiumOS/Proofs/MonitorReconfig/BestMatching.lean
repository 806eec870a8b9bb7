import ChromiumOS.Model.MonitorReconfig.MonitorReconfigureMain
import ChromiumOS.ToMathlib.GreedyScan

/-! # The best matching mode

The loop goes up through the modes that do not cover the notebook and settles among those that do. It stops
for good at a mode with as many pixels as the notebook has, also at one of another shape that does not cover it;
and among modes that cover, one that is merely not larger takes the place of the best, so that a smaller one that
came before is lost.
-/

namespace ChromiumOS.MonitorReconfig

open GreedyScan

instance : PartialOrder XRRModeInfo where
  le first second := first.width ≤ second.width ∧ first.height ≤ second.height
  le_refl _ := ⟨le_rfl, le_rfl⟩
  le_trans _ _ _ first second := ⟨first.1.trans second.1, first.2.trans second.2⟩
  le_antisymm _ _ first second := XRRModeInfo.ext (le_antisymm first.1 second.1) (le_antisymm first.2 second.2)

instance : DecidableLE XRRModeInfo := fun first second =>
  inferInstanceAs (Decidable (first.width ≤ second.width ∧ first.height ≤ second.height))

variable {notebook best target mode : XRRModeInfo} {modes rest : List XRRModeInfo}

namespace XRRModeInfo

def Positive (mode : XRRModeInfo) : Prop := 0 < mode.width ∧ 0 < mode.height

instance : Decidable mode.Positive := inferInstanceAs (Decidable (0 < mode.width ∧ 0 < mode.height))

/-- A mode covers another one. -/
def Covers (mode notebook : XRRModeInfo) : Prop := notebook ≤ mode

instance : Decidable (mode.Covers notebook) := inferInstanceAs (Decidable (notebook ≤ mode))

def pixels (mode : XRRModeInfo) : ℕ := mode.height * mode.width

/-- A mode that is at least as large and has as many pixels is the same. -/
theorem eq_of_le_of_pixels (positive : mode.Positive) (below : mode ≤ target) (same : mode.pixels = target.pixels) :
    mode = target := by
  obtain ⟨wide, high⟩ := below
  have width : mode.width = target.width := by
    by_contra narrower
    have less : mode.height * mode.width < target.height * target.width :=
      Nat.mul_lt_mul_of_le_of_lt high (by omega) (positive.2.trans_le high)
    exact less.ne same
  have height : mode.height = target.height := by
    rw [pixels, pixels, width] at same
    exact Nat.eq_of_mul_eq_mul_right (positive.1.trans_le wide) same
  exact XRRModeInfo.ext width height

end XRRModeInfo

open XRRModeInfo

theorem isBiggerOrEqual_iff : IsBiggerOrEqual target mode = true ↔ mode ≤ target := by
  rw [IsBiggerOrEqual, Bool.and_eq_true, decide_eq_true_eq, decide_eq_true_eq]
  rfl

theorem isEqual_iff : IsEqual best notebook = true ↔ best.pixels = notebook.pixels := beq_iff_eq

/-- When the best mode is replaced. -/
theorem isBetterMatching_iff : IsBetterMatching target notebook best = true ↔
    best.pixels ≠ notebook.pixels ∧
      if best.Covers notebook then target.Covers notebook ∧ ¬ best ≤ target
      else target.Covers notebook ∨ best ≤ target := by
  simp only [IsBetterMatching, Covers, ne_eq, ← isEqual_iff, ← isBiggerOrEqual_iff]
  generalize IsEqual best notebook = same
  generalize IsBiggerOrEqual best notebook = first
  generalize IsBiggerOrEqual target notebook = second
  generalize IsBiggerOrEqual target best = third
  revert same first second third
  decide

theorem nextBest_some (best current : XRRModeInfo) : nextBest notebook (some best) current =
    some (if IsBetterMatching current notebook best then current else best) := by
  rw [nextBest, Option.getD_some]
  split <;> rfl

/-- The first mode is always taken. -/
theorem nextBest_none (positive : notebook.Positive) (current : XRRModeInfo) :
    nextBest notebook none current = some current := by
  have fewer : min_mode.pixels ≠ notebook.pixels := (Nat.mul_pos positive.2 positive.1).ne
  have uncovered : ¬ min_mode.Covers notebook := fun covers => absurd covers.1 (Nat.not_le.mpr positive.1)
  rw [nextBest, Option.getD_none, if_pos]
  rw [isBetterMatching_iff, if_neg uncovered]
  exact ⟨fewer, .inr ⟨Nat.zero_le _, Nat.zero_le _⟩⟩

/-- The best mode with the rest of the modes to come. -/
def scan (notebook best : XRRModeInfo) (rest : List XRRModeInfo) : XRRModeInfo :=
  rest.foldl (fun best current => if IsBetterMatching current notebook best then current else best) best

theorem scan_cons (best current : XRRModeInfo) (rest : List XRRModeInfo) :
    scan notebook best (current :: rest) =
      scan notebook (if IsBetterMatching current notebook best then current else best) rest := rfl

theorem FindBestMatchingResolution_cons (positive : notebook.Positive) (mode : XRRModeInfo)
    (rest : List XRRModeInfo) :
    FindBestMatchingResolution (mode :: rest) notebook = some (scan notebook mode rest) := by
  rw [FindBestMatchingResolution, List.foldl_cons, nextBest_none positive]
  induction rest generalizing mode with
  | nil => rfl
  | cons current rest ih =>
    rw [List.foldl_cons, nextBest_some, ih]
    rfl

/-- A mode with as many pixels as the notebook is kept. -/
theorem scan_of_pixels (same : best.pixels = notebook.pixels) (rest : List XRRModeInfo) :
    scan notebook best rest = best := by
  induction rest with
  | nil => rfl
  | cons current rest ih =>
    have kept : ¬ IsBetterMatching current notebook best = true := fun better =>
      (isBetterMatching_iff.mp better).1 same
    rw [scan_cons, if_neg kept, ih]

/-- From a mode that covers the notebook on, the loop settles among those that do. -/
theorem scan_of_covers (positive : notebook.Positive) (covers : best.Covers notebook) (rest : List XRRModeInfo) :
    scan notebook best rest = settle best (rest.filter (Covers · notebook)) := by
  induction rest generalizing best with
  | nil => rfl
  | cons current rest ih =>
    rw [scan_cons]
    have better := @isBetterMatching_iff notebook best current
    rw [if_pos covers] at better
    by_cases fits : current.Covers notebook
    · rw [List.filter_cons, if_pos (decide_eq_true fits), settle_cons]
      by_cases below : best ≤ current
      · have kept : ¬ IsBetterMatching current notebook best = true := fun replaced =>
          (better.mp replaced).2.2 below
        rw [if_neg kept, if_pos below, ih covers]
      · have differs : best.pixels ≠ notebook.pixels := by
          intro same
          have equal := eq_of_le_of_pixels positive covers same.symm
          exact below (equal ▸ fits)
        rw [if_pos (better.mpr ⟨differs, fits, below⟩), if_neg below, ih fits]
    · have kept : ¬ IsBetterMatching current notebook best = true := fun replaced => fits (better.mp replaced).2.1
      rw [if_neg kept, List.filter_cons, if_neg (fun covered => fits (of_decide_eq_true covered)), ih covers]

/-- Among modes that do not cover the notebook the loop goes up, unless it stops. -/
theorem scan_of_uncovered (positive : best.Positive) (uncovered : ∀ mode ∈ best :: rest, ¬ mode.Covers notebook) :
    (∀ frozen ∈ climb best rest, frozen.pixels = notebook.pixels → scan notebook best rest = frozen) ∧
      ((∀ kept ∈ climb best rest, kept.pixels ≠ notebook.pixels) → scan notebook best rest = summit best rest) := by
  induction rest generalizing best with
  | nil =>
    refine ⟨fun frozen member _ => ?_, fun _ => rfl⟩
    exact (List.mem_singleton.mp member).symm
  | cons current rest ih =>
    by_cases same : best.pixels = notebook.pixels
    · rw [scan_of_pixels same]
      refine ⟨fun frozen member equal => ?_, fun others => absurd same (others best (mem_climb_self _ _))⟩
      exact eq_of_le_of_pixels positive (le_of_mem_climb member) (same.trans equal.symm)
    have better := @isBetterMatching_iff notebook best current
    have outside := uncovered current (List.mem_cons_of_mem _ List.mem_cons_self)
    rw [if_neg (uncovered best List.mem_cons_self)] at better
    have replaced : IsBetterMatching current notebook best = true ↔ best ≤ current :=
      better.trans ⟨fun both => both.2.resolve_left outside, fun below => ⟨same, .inr below⟩⟩
    rw [scan_cons, climb, summit_cons]
    by_cases below : best ≤ current
    · have taller : current.Positive := ⟨positive.1.trans_le below.1, positive.2.trans_le below.2⟩
      have later := ih taller fun mode member => uncovered mode (List.mem_cons_of_mem _ member)
      rw [if_pos (replaced.mpr below), if_pos below, if_pos below]
      refine ⟨fun frozen member equal => ?_, fun others => ?_⟩
      · rcases List.mem_cons.mp member with rfl | member
        · exact absurd equal same
        · exact later.1 frozen member equal
      · exact later.2 fun kept member => others kept (List.mem_cons_of_mem _ member)
    · have later := ih positive fun mode member => uncovered mode (by
        rcases List.mem_cons.mp member with rfl | member
        · exact List.mem_cons_self
        · exact List.mem_cons_of_mem _ (List.mem_cons_of_mem _ member))
      rw [if_neg fun taken => below (replaced.mp taken), if_neg below, if_neg below]
      exact later

theorem scan_append (best : XRRModeInfo) (first second : List XRRModeInfo) :
    scan notebook best (first ++ second) = scan notebook (scan notebook best first) second :=
  List.foldl_append

/-- What is kept covers the notebook or is no smaller than what was kept before. -/
theorem scan_above {low : XRRModeInfo} (rest : List XRRModeInfo) (above : low ≤ best ∨ best.Covers notebook) :
    low ≤ scan notebook best rest ∨ (scan notebook best rest).Covers notebook := by
  induction rest generalizing best with
  | nil => exact above
  | cons current rest ih =>
    rw [scan_cons]
    split
    · next better =>
      apply ih
      have replaced := (isBetterMatching_iff.mp better).2
      split at replaced
      · exact .inr replaced.1
      · next uncovered =>
        rcases replaced with covers | taller
        · exact .inr covers
        · exact .inl ((above.resolve_right uncovered).trans taller)
    · exact ih above

/-- The modes that are taken one after the other going up from the first one. -/
def ascent : List XRRModeInfo → List XRRModeInfo
  | [] => []
  | mode :: rest => climb mode rest

def covering (notebook : XRRModeInfo) (modes : List XRRModeInfo) : List XRRModeInfo :=
  modes.filter (Covers · notebook)

/-- The modes before the first one that covers the notebook. -/
def beforeCovering (notebook : XRRModeInfo) (modes : List XRRModeInfo) : List XRRModeInfo :=
  modes.takeWhile fun mode => !decide (mode.Covers notebook)

theorem mem_covering : mode ∈ covering notebook modes ↔ mode ∈ modes ∧ mode.Covers notebook := by
  rw [covering, List.mem_filter, decide_eq_true_eq]

/-- A list with a mode that covers the notebook, at the first such mode. -/
theorem exists_first_covering (covered : ∃ mode ∈ modes, mode.Covers notebook) :
    ∃ first later, modes = beforeCovering notebook modes ++ first :: later ∧ first.Covers notebook ∧
      covering notebook modes = first :: covering notebook later := by
  induction modes with
  | nil =>
    obtain ⟨mode, member, -⟩ := covered
    exact nomatch member
  | cons head rest ih =>
    by_cases covers : head.Covers notebook
    · refine ⟨head, rest, ?_, covers, ?_⟩
      · rw [beforeCovering, List.takeWhile_cons, if_neg (by simpa using covers)]
        rfl
      · rw [covering, List.filter_cons, if_pos (decide_eq_true covers)]
        rfl
    · obtain ⟨mode, member, fits⟩ := covered
      have later : mode ∈ rest := (List.mem_cons.mp member).resolve_left fun same => covers (same ▸ fits)
      obtain ⟨first, tail, split, firstCovers, listed⟩ := ih ⟨mode, later, fits⟩
      refine ⟨first, tail, ?_, firstCovers, ?_⟩
      · rw [beforeCovering, List.takeWhile_cons, if_pos (by simpa using covers)]
        exact congrArg (head :: ·) split
      · rw [covering, List.filter_cons, if_neg (by simpa using covers)]
        exact listed

theorem not_covers_of_mem_beforeCovering (member : mode ∈ beforeCovering notebook modes) :
    ¬ mode.Covers notebook := by
  have uncovered := List.mem_takeWhile_imp member
  simpa using uncovered

section Results

variable (positive : notebook.Positive) (sizes : ∀ mode ∈ modes, mode.Positive)
include positive sizes

/-- The result where some mode covers the notebook. -/
theorem best_of_covered {first : XRRModeInfo} {later : List XRRModeInfo}
    (split : modes = beforeCovering notebook modes ++ first :: later) (covers : first.Covers notebook) :
    (∀ frozen ∈ ascent (beforeCovering notebook modes), frozen.pixels = notebook.pixels →
        FindBestMatchingResolution modes notebook = some frozen) ∧
      ((∀ kept ∈ ascent (beforeCovering notebook modes), kept.pixels ≠ notebook.pixels) →
        FindBestMatchingResolution modes notebook = some (settle first (covering notebook later))) := by
  have uncovered := fun mode => @not_covers_of_mem_beforeCovering notebook mode modes
  generalize beforeCovering notebook modes = before at split uncovered
  subst split
  cases before with
  | nil =>
    refine ⟨(fun _ member => nomatch member), fun _ => ?_⟩
    rw [List.nil_append, FindBestMatchingResolution_cons positive, scan_of_covers positive covers]
    rfl
  | cons head before =>
    have taken := scan_of_uncovered (sizes head List.mem_cons_self) uncovered
    rw [List.cons_append, FindBestMatchingResolution_cons positive, scan_append]
    refine ⟨fun frozen member same => ?_, fun others => ?_⟩
    · rw [taken.1 frozen member same, scan_of_pixels same]
    · have peak := summit_mem_climb head before
      have low := uncovered _ (mem_of_mem_climb peak)
      have better : IsBetterMatching first notebook (summit head before) = true := by
        rw [isBetterMatching_iff, if_neg low]
        exact ⟨others _ peak, .inl covers⟩
      rw [taken.2 others, scan_cons, if_pos better, scan_of_covers positive covers]
      rfl

/-- Some mode covers the notebook: the result covers it, and no other mode that does is as small. -/
def SmallestCover (notebook : XRRModeInfo) (modes : List XRRModeInfo) : Prop :=
  ∃ best ∈ modes, FindBestMatchingResolution modes notebook = some best ∧ best.Covers notebook ∧
    ∀ other ∈ modes, other.Covers notebook → other ≤ best → other = best

/-- On the way up to the first mode that covers the notebook there is none with its number of pixels, and before the
first of those that cover it and that no later one fails to exceed there is no smaller one. -/
def SmallestFound (notebook : XRRModeInfo) (modes : List XRRModeInfo) : Prop :=
  (∀ kept ∈ ascent (beforeCovering notebook modes), kept.pixels ≠ notebook.pixels) ∧
    ∀ before lasting, FirstLasting (covering notebook modes) before lasting →
      ∀ smaller ∈ before, ¬ smaller < lasting

theorem smallestCover_iff (covered : ∃ mode ∈ modes, mode.Covers notebook) :
    SmallestCover notebook modes ↔ SmallestFound notebook modes := by
  obtain ⟨first, later, split, covers, listed⟩ := exists_first_covering covered
  have results := best_of_covered positive sizes split covers
  obtain ⟨before, lasts⟩ := settle_spec first (covering notebook later)
  rw [← listed] at lasts
  constructor
  · rintro ⟨best, member, found, fits, minimal⟩
    have unfrozen : ∀ kept ∈ ascent (beforeCovering notebook modes), kept.pixels ≠ notebook.pixels := by
      intro kept taken same
      obtain rfl : kept = best := Option.some.inj ((results.1 kept taken same).symm.trans found)
      have inside : kept ∈ beforeCovering notebook modes := by
        generalize beforeCovering notebook modes = list at taken
        cases list with
        | nil => exact taken
        | cons head list => exact mem_of_mem_climb taken
      exact not_covers_of_mem_beforeCovering inside fits
    refine ⟨unfrozen, fun other lasting last smaller member less => ?_⟩
    cases (results.2 unfrozen).symm.trans found
    obtain ⟨rfl, rfl⟩ := lasts.unique last
    obtain ⟨after, divided, -⟩ := lasts
    have known := mem_covering.mp (divided ▸ List.mem_append_left _ member)
    exact less.ne (minimal smaller known.1 known.2 less.le)
  · rintro ⟨unfrozen, smallest⟩
    have found := results.2 unfrozen
    have member := settle_mem first (covering notebook later)
    rw [← listed] at member
    obtain ⟨inside, fits⟩ := mem_covering.mp member
    refine ⟨_, inside, found, fits, fun other listed covered below => ?_⟩
    obtain ⟨after, divided, least, -⟩ := id lasts
    have known := mem_covering.mpr ⟨listed, covered⟩
    rw [divided] at known
    rcases List.mem_append.mp known with early | late
    · by_contra differs
      exact smallest before _ lasts other early (lt_of_le_of_ne below differs)
    · rcases List.mem_cons.mp late with rfl | late
      · rfl
      · exact le_antisymm below (least other late)

/-- No mode covers the notebook: the result is a mode that no other one exceeds. -/
def LargestUncovered (notebook : XRRModeInfo) (modes : List XRRModeInfo) : Prop :=
  ∃ best ∈ modes, FindBestMatchingResolution modes notebook = some best ∧
    ∀ other ∈ modes, best ≤ other → other = best

/-- There are modes, and on the way up none with the number of pixels of the notebook that a mode exceeds. -/
def LargestFound (notebook : XRRModeInfo) (modes : List XRRModeInfo) : Prop :=
  modes ≠ [] ∧ ∀ frozen ∈ ascent modes, frozen.pixels = notebook.pixels → ∀ other ∈ modes, ¬ frozen < other

theorem largestUncovered_iff (uncovered : ∀ mode ∈ modes, ¬ mode.Covers notebook) :
    LargestUncovered notebook modes ↔ LargestFound notebook modes := by
  cases modes with
  | nil =>
    constructor
    · rintro ⟨best, member, -⟩
      exact nomatch member
    · rintro ⟨some, -⟩
      exact absurd rfl some
  | cons head rest =>
    have results := scan_of_uncovered (sizes head List.mem_cons_self) uncovered
    have found := FindBestMatchingResolution_cons positive head rest
    constructor
    · rintro ⟨best, member, same, maximal⟩
      refine ⟨nofun, fun frozen taken equal other listed exceeded => ?_⟩
      rw [results.1 frozen taken equal] at found
      cases found.symm.trans same
      exact exceeded.ne (maximal other listed exceeded.le).symm
    · rintro ⟨-, unexceeded⟩
      by_cases stops : ∃ frozen ∈ climb head rest, frozen.pixels = notebook.pixels
      · obtain ⟨frozen, taken, equal⟩ := stops
        rw [results.1 frozen taken equal] at found
        refine ⟨frozen, mem_of_mem_climb taken, found, fun other listed above => ?_⟩
        by_contra differs
        exact unexceeded frozen taken equal other listed (lt_of_le_of_ne above fun same => differs same.symm)
      · rw [results.2 fun kept taken same => stops ⟨kept, taken, same⟩] at found
        exact ⟨_, summit_mem head rest, found, fun other listed above => summit_maximal listed above⟩

/-- The modes are ordered by size. -/
def Chain (modes : List XRRModeInfo) : Prop := ∀ first ∈ modes, ∀ second ∈ modes, first ≤ second ∨ second ≤ first

/-- The result does not depend on the order of the modes. -/
def Unordered (notebook : XRRModeInfo) (modes : List XRRModeInfo) : Prop :=
  ∀ other, other.Perm modes →
    FindBestMatchingResolution other notebook = FindBestMatchingResolution modes notebook

/-- A mode with the number of pixels of the notebook that does not cover it is the largest. -/
def OthersSmaller (notebook : XRRModeInfo) (modes : List XRRModeInfo) : Prop :=
  ∀ frozen ∈ modes, frozen.pixels = notebook.pixels → ¬ frozen.Covers notebook → ∀ other ∈ modes, other ≤ frozen

/-- The result on a chain is its least element that covers the notebook, or its greatest. -/
theorem best_of_chain (chain : Chain modes) (smaller : OthersSmaller notebook modes) (some_mode : modes ≠ []) :
    ∃ best ∈ modes, FindBestMatchingResolution modes notebook = some best ∧
      ((∃ mode ∈ modes, mode.Covers notebook) → best.Covers notebook ∧
        ∀ other ∈ modes, other.Covers notebook → best ≤ other) ∧
      ((∀ mode ∈ modes, ¬ mode.Covers notebook) → ∀ other ∈ modes, other ≤ best) := by
  by_cases covered : ∃ mode ∈ modes, mode.Covers notebook
  · obtain ⟨first, later, split, covers, listed⟩ := exists_first_covering covered
    have inside {mode : XRRModeInfo} (member : mode ∈ first :: covering notebook later) :
        mode ∈ modes ∧ mode.Covers notebook := mem_covering.mp (listed ▸ member)
    have found := (best_of_covered positive sizes split covers).2 fun kept taken same => by
      have before : kept ∈ beforeCovering notebook modes := by
        generalize beforeCovering notebook modes = list at taken
        cases list with
        | nil => exact taken
        | cons head list => exact mem_of_mem_climb taken
      have low := not_covers_of_mem_beforeCovering before
      have member : kept ∈ modes := split ▸ List.mem_append_left _ before
      exact low (le_trans covers (smaller kept member same low first (inside List.mem_cons_self).1))
    obtain ⟨member, fits⟩ := inside (settle_mem first (covering notebook later))
    refine ⟨_, member, found, fun _ => ⟨fits, fun other known covers => ?_⟩, fun uncovered => ?_⟩
    · refine settle_le_of_chain (fun one left two right => ?_) (listed ▸ mem_covering.mpr ⟨known, covers⟩)
      exact chain one (inside left).1 two (inside right).1
    · exact absurd fits (uncovered _ member)
  · have uncovered : ∀ mode ∈ modes, ¬ mode.Covers notebook := fun mode member covers => covered ⟨mode, member, covers⟩
    cases modes with
    | nil => exact absurd rfl some_mode
    | cons head rest =>
      have results := scan_of_uncovered (sizes head List.mem_cons_self) uncovered
      have found : FindBestMatchingResolution (head :: rest) notebook = some (summit head rest) := by
        rw [FindBestMatchingResolution_cons positive]
        by_cases stops : ∃ frozen ∈ climb head rest, frozen.pixels = notebook.pixels
        · obtain ⟨frozen, taken, equal⟩ := stops
          have known := mem_of_mem_climb taken
          have greatest := smaller frozen known equal (uncovered frozen known) _ (summit_mem head rest)
          rw [results.1 frozen taken equal, summit_maximal known greatest]
        · rw [results.2 fun kept taken same => stops ⟨kept, taken, same⟩]
      exact ⟨_, summit_mem head rest, found, fun some => absurd some covered, fun _ other => le_summit_of_chain chain⟩

theorem unordered_iff (chain : Chain modes) : Unordered notebook modes ↔ OthersSmaller notebook modes := by
  constructor
  · intro unordered frozen member same low other listed
    by_contra larger
    have below := (chain frozen member other listed).resolve_right larger
    have first := unordered _ (List.perm_cons_erase member).symm
    have second := unordered _ (List.perm_cons_erase listed).symm
    rw [FindBestMatchingResolution_cons positive, scan_of_pixels same] at first
    rw [FindBestMatchingResolution_cons positive, ← first, Option.some.injEq] at second
    rcases @scan_above notebook other other (modes.erase other) (.inl le_rfl) with above | covers
    · rw [second] at above
      exact larger above
    · rw [second] at covers
      exact low covers
  · intro smaller other same
    cases modes with
    | nil => rw [List.perm_nil.mp same]
    | cons head rest =>
      have members {mode : XRRModeInfo} : mode ∈ other ↔ mode ∈ head :: rest := same.mem_iff
      have nonempty : other ≠ [] := by
        rintro rfl
        exact absurd (List.nil_perm.mp same) nofun
      obtain ⟨best, member, found, smallest, largest⟩ := best_of_chain positive sizes chain smaller nofun
      obtain ⟨kept, listed, result, least, greatest⟩ := best_of_chain positive
        (fun mode known => sizes mode (members.mp known))
        (fun one left two right => chain one (members.mp left) two (members.mp right))
        (fun frozen known equal low mode inside =>
          smaller frozen (members.mp known) equal low mode (members.mp inside)) nonempty
      rw [found, result, Option.some.injEq]
      by_cases covered : ∃ mode ∈ head :: rest, mode.Covers notebook
      · obtain ⟨fits, below⟩ := smallest covered
        obtain ⟨mode, known, covers⟩ := covered
        obtain ⟨keeps, under⟩ := least ⟨mode, members.mpr known, covers⟩
        exact le_antisymm (under best (members.mpr member) fits) (below kept (members.mp listed) keeps)
      · have uncovered : ∀ mode ∈ head :: rest, ¬ mode.Covers notebook :=
          fun mode known covers => covered ⟨mode, known, covers⟩
        have above := greatest fun mode known => uncovered mode (members.mp known)
        exact le_antisymm (largest uncovered kept (members.mp listed)) (above best (members.mpr member))

end Results

/-- The three parts of a best match, each with the lists for which it holds. -/
theorem best_matching (positive : notebook.Positive) (sizes : ∀ mode ∈ modes, mode.Positive) :
    ((∃ mode ∈ modes, mode.Covers notebook) → (SmallestCover notebook modes ↔ SmallestFound notebook modes)) ∧
      ((∀ mode ∈ modes, ¬ mode.Covers notebook) →
        (LargestUncovered notebook modes ↔ LargestFound notebook modes)) ∧
      (Chain modes → (Unordered notebook modes ↔ OthersSmaller notebook modes)) :=
  ⟨smallestCover_iff positive sizes, largestUncovered_iff positive sizes, unordered_iff positive sizes⟩

/-- Two usual modes of a monitor for a notebook. -/
theorem best_matching_usual :
    (SmallestCover ⟨1280, 800⟩ [⟨1024, 768⟩, ⟨1920, 1080⟩] ↔ SmallestFound ⟨1280, 800⟩ [⟨1024, 768⟩, ⟨1920, 1080⟩]) ∧
      (Unordered ⟨1280, 800⟩ [⟨1024, 768⟩, ⟨1920, 1080⟩] ↔
        OthersSmaller ⟨1280, 800⟩ [⟨1024, 768⟩, ⟨1920, 1080⟩]) := by
  have parts := @best_matching ⟨1280, 800⟩ [⟨1024, 768⟩, ⟨1920, 1080⟩] (by decide) (by decide)
  exact ⟨parts.1 (by decide), parts.2.2 (by unfold Chain; decide)⟩

/-- A mode of as many pixels as the notebook keeps a mode from being taken that covers it; a mode that is not as
wide as the best keeps a smaller one from being returned. -/
theorem cover_missed :
    FindBestMatchingResolution [⟨1024, 1000⟩, ⟨1920, 1080⟩] ⟨1280, 800⟩ = some ⟨1024, 1000⟩ ∧
      ¬ SmallestCover ⟨1280, 800⟩ [⟨1024, 1000⟩, ⟨1920, 1080⟩] ∧
      ¬ SmallestCover ⟨1280, 800⟩ [⟨1600, 1200⟩, ⟨1920, 1080⟩, ⟨1680, 1250⟩] := by
  refine ⟨by decide, ?_, ?_⟩
  · rintro ⟨best, member, found, fits, -⟩
    cases found
    exact absurd fits (by decide)
  · rintro ⟨best, member, found, fits, minimal⟩
    cases found
    exact absurd (minimal ⟨1600, 1200⟩ (by decide) (by decide) (by decide)) (by decide)

end ChromiumOS.MonitorReconfig
