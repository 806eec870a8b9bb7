import ChromiumOS.Proofs.WindowManager.PanelMoves
import ChromiumOS.ToMathlib.PartialRun

/-! # Packing the panel bar

The snapped position of a panel is the one that leaves room for the panels to its right. Adding a panel
keeps the positions of the others, and whatever else changes the panels or their widths packs them again.
-/

namespace ChromiumOS.WindowManager.PanelBar

/-- The snapped position that leaves room for panels to the right. -/
def snappedLeftOf (screen : Screen) (panels : List ℕ) : ℤ :=
  screen.width - span screen panels - kPixelsBetweenPanels

/-- The position to which the bar snaps a panel. -/
def snappedRight (bar : PanelBar) (panel : ℕ) : Option ℤ :=
  (bar.panel_infos_ panel).map fun info => info.snapped_right

/-- Some of the panels were packed, from right to left, to the left of what was packed before. -/
structure PackedFrom (todo : List ℕ) (before after : PanelBar) : Prop where
  moved : before.screen.Moved after.screen
  panels : after.panels_ = before.panels_
  drag : after.drag = before.drag
  visibility : after.visibility = before.visibility
  known : ∀ panel, (after.panel_infos_ panel).isSome = (before.panel_infos_ panel).isSome
  total : after.total_panel_width_ = before.total_panel_width_ + span before.screen todo
  others : ∀ panel ∉ todo, after.panel_infos_ panel = before.panel_infos_ panel
  snapped : ∀ first panel rest, todo = first ++ panel :: rest →
    after.snappedRight panel =
      some (before.screen.width - (before.total_panel_width_ + span before.screen first) -
        kPixelsBetweenPanels)

section Packing

variable {bar : PanelBar} (fixed_panel : Option ℕ)

theorem snap_settled (panel : ℕ) (snapped_right : ℤ) :
    bar.Settled (bar.snap fixed_panel panel snapped_right) := by
  rw [snap]
  split
  · exact bar.moveX_settled panel snapped_right
  · exact .refl bar

theorem packPanel_spec {panel : ℕ} (known : (bar.panel_infos_ panel).isSome) :
    ∃ next, packPanel fixed_panel bar panel = some next ∧ PackedFrom [panel] bar next := by
  obtain ⟨info, found⟩ := Option.isSome_iff_exists.mp known
  refine ⟨_, by rw [packPanel, GetPanelInfoOrDie, found, Option.bind_eq_bind, Option.bind_some], ?_⟩
  generalize aimed : bar.screen.width - bar.total_panel_width_ - kPixelsBetweenPanels = snapped_right
  generalize noted : bar.setInfo panel (some { info with snapped_right }) = informed
  have settled : informed.Settled (informed.snap fixed_panel panel snapped_right) :=
    snap_settled fixed_panel panel snapped_right
  subst noted
  refine ⟨settled.moved, settled.panels, settled.drag, settled.visibility, ?_, ?_, ?_, ?_⟩
  · intro other
    rw [settled.infos]
    by_cases same : other = panel
    · rw [same, setInfo_self, found]
      rfl
    · rw [setInfo_of_ne bar same]
  · rw [settled.total, settled.moved.content_width, span_cons, span_nil, add_zero]
    rfl
  · intro other outside
    rw [settled.infos]
    exact setInfo_of_ne bar (fun same => outside (List.mem_singleton.mpr same)) _
  · intro first other rest split
    obtain ⟨rfl, same⟩ : first = [] ∧ panel = other := by
      cases first with
      | nil => exact ⟨rfl, (List.cons.inj split).1⟩
      | cons head tail => simp at split
    subst same
    rw [snappedRight, settled.infos, setInfo_self, span_nil, add_zero, aimed]
    rfl

omit fixed_panel in
theorem PackedFrom.cons {panel : ℕ} {rest : List ℕ} {middle next : PanelBar}
    (one : PackedFrom [panel] bar middle) (more : PackedFrom rest middle next) (outside : panel ∉ rest) :
    PackedFrom (panel :: rest) bar next where
  moved := one.moved.trans more.moved
  panels := more.panels.trans one.panels
  drag := more.drag.trans one.drag
  visibility := more.visibility.trans one.visibility
  known other := (more.known other).trans (one.known other)
  total := by
    have widths : span middle.screen rest = span bar.screen rest :=
      span_congr fun other _ => one.moved.content_width other
    rw [more.total, one.total, widths, span_cons, span_cons, span_nil]
    ring
  others := by
    intro other absent
    have different : other ∉ [panel] := fun member =>
      absent (List.mem_cons.mpr (.inl (List.mem_singleton.mp member)))
    exact (more.others other fun member => absent (List.mem_cons_of_mem _ member)).trans
      (one.others other different)
  snapped := by
    intro first other later split
    cases first with
    | nil =>
      obtain ⟨rfl, rfl⟩ := List.cons.inj split
      rw [snappedRight, more.others panel outside]
      exact one.snapped [] panel [] rfl
    | cons head tail =>
      obtain ⟨rfl, inside⟩ := List.cons.inj split
      have widths : span middle.screen tail = span bar.screen tail :=
        span_congr fun other _ => one.moved.content_width other
      rw [more.snapped tail other later inside, one.total, one.moved.width, widths, span_cons, span_cons,
        span_nil]
      congr 1
      ring

theorem foldlM_packPanel {todo : List ℕ} (nodup : todo.Nodup)
    (known : ∀ panel ∈ todo, (bar.panel_infos_ panel).isSome) :
    ∃ next, todo.foldlM (packPanel fixed_panel) bar = some next ∧ PackedFrom todo bar next := by
  induction todo generalizing bar with
  | nil =>
    refine ⟨bar, rfl, .refl _, rfl, rfl, rfl, fun _ => rfl, ?_, fun _ _ => rfl, ?_⟩
    · rw [span_nil, add_zero]
    · intro first panel rest split
      simp at split
  | cons panel rest ih =>
    obtain ⟨outside, nodup⟩ := List.nodup_cons.mp nodup
    obtain ⟨middle, taken, one⟩ :=
      packPanel_spec fixed_panel (known panel List.mem_cons_self)
    have later : ∀ other ∈ rest, (middle.panel_infos_ other).isSome := by
      intro other member
      rw [one.known]
      exact known other (List.mem_cons_of_mem _ member)
    obtain ⟨next, folded, more⟩ := ih nodup later
    refine ⟨next, ?_, one.cons more outside⟩
    rw [List.foldlM_cons, taken, Option.bind_eq_bind, Option.bind_some, folded]

end Packing

/-- The panels of a bar are those that it has information about, the width is that of the panels, and
every panel has its snapped position. -/
structure Packed (bar : PanelBar) : Prop where
  nodup : bar.panels_.Nodup
  keys : ∀ panel, (bar.panel_infos_ panel).isSome ↔ panel ∈ bar.panels_
  total : bar.total_panel_width_ = span bar.screen bar.panels_
  snapped : ∀ left panel right, bar.panels_ = left ++ panel :: right →
    bar.snappedRight panel = some (snappedLeftOf bar.screen right)

/-- The panels were put in another order or other positions. -/
structure Repacked (before after : PanelBar) : Prop where
  moved : before.screen.Moved after.screen
  panels : after.panels_.Perm before.panels_
  known : ∀ panel, (after.panel_infos_ panel).isSome = (before.panel_infos_ panel).isSome
  drag : after.drag = before.drag
  visibility : after.visibility = before.visibility

namespace Repacked

variable {first second third : PanelBar}

theorem trans (repacked : first.Repacked second) (again : second.Repacked third) :
    first.Repacked third where
  moved := repacked.moved.trans again.moved
  panels := again.panels.trans repacked.panels
  known panel := (again.known panel).trans (repacked.known panel)
  drag := again.drag.trans repacked.drag
  visibility := again.visibility.trans repacked.visibility

end Repacked

theorem Settled.repacked {bar next : PanelBar} (settled : bar.Settled next) : bar.Repacked next where
  moved := settled.moved
  panels := .of_eq settled.panels
  known panel := by rw [settled.infos]
  drag := settled.drag
  visibility := settled.visibility

section Repacking

variable {bar next : PanelBar}

theorem Packed.informed (packed : bar.Packed) : bar.Informed :=
  fun panel member => (packed.keys panel).mpr member

/-- A bar stays packed where its panels, their widths and their information stay. -/
theorem Packed.congr (packed : bar.Packed) (width : next.screen.width = bar.screen.width)
    (widths : ∀ panel ∈ bar.panels_, next.screen.content_width panel = bar.screen.content_width panel)
    (panels : next.panels_ = bar.panels_) (total : next.total_panel_width_ = bar.total_panel_width_)
    (known : ∀ panel, (next.panel_infos_ panel).isSome = (bar.panel_infos_ panel).isSome)
    (snapped : ∀ panel, next.snappedRight panel = bar.snappedRight panel) : next.Packed where
  nodup := panels ▸ packed.nodup
  keys panel := by rw [known, panels, packed.keys]
  total := by rw [panels, total, packed.total, span_congr widths]
  snapped := by
    intro left panel right split
    rw [panels] at split
    have same : span next.screen right = span bar.screen right := by
      refine span_congr fun other member => widths other ?_
      rw [split]
      exact List.mem_append_right _ (List.mem_cons_of_mem _ member)
    rw [snapped, packed.snapped left panel right split, snappedLeftOf, snappedLeftOf, width, same]

theorem Packed.settled (packed : bar.Packed) (settled : bar.Settled next) : next.Packed :=
  packed.congr settled.moved.width (fun panel _ => settled.moved.content_width panel) settled.panels
    settled.total (fun panel => by rw [settled.infos]) fun panel => by
      rw [snappedRight, settled.infos]
      rfl

theorem PackPanels_spec (informed : bar.Informed) (nodup : bar.panels_.Nodup) (fixed_panel : Option ℕ) :
    ∃ next, bar.PackPanels fixed_panel = some next ∧ bar.Repacked next ∧ next.panels_ = bar.panels_ ∧
      ((∀ panel, (bar.panel_infos_ panel).isSome → panel ∈ bar.panels_) → next.Packed) := by
  have known : ∀ panel ∈ bar.panels_.reverse,
      (({ bar with total_panel_width_ := 0 } : PanelBar).panel_infos_ panel).isSome :=
    fun panel member => informed panel (List.mem_reverse.mp member)
  obtain ⟨next, folded, packed⟩ := foldlM_packPanel fixed_panel (List.nodup_reverse.mpr nodup) known
  refine ⟨next, folded, ?_, packed.panels, fun only => ?_⟩
  · exact ⟨packed.moved, .of_eq packed.panels, packed.known, packed.drag, packed.visibility⟩
  · have width : ∀ panels, span next.screen panels = span bar.screen panels :=
      fun panels => span_congr fun panel _ => packed.moved.content_width panel
    refine ⟨packed.panels ▸ nodup, fun panel => ?_, ?_, ?_⟩
    · rw [packed.known, packed.panels]
      exact ⟨only panel, informed panel⟩
    · rw [packed.total, packed.panels, width, zero_add]
      exact span_perm bar.screen (List.reverse_perm bar.panels_)
    · intro left panel right split
      have turned : bar.panels_.reverse = right.reverse ++ panel :: left.reverse := by
        rw [← packed.panels, split]
        simp
      rw [packed.snapped right.reverse panel left.reverse turned, snappedLeftOf, width, packed.moved.width,
        zero_add]
      exact congrArg (fun taken => some (bar.screen.width - taken - kPixelsBetweenPanels))
        (span_perm bar.screen (List.reverse_perm right))

/-- Putting a panel to another position permutes the panels. -/
theorem rotated_perm {panels : List ℕ} {panel : ℕ} (member : panel ∈ panels) {dest_position : ℕ}
    (inside : dest_position < panels.length) :
    (rotated panels (panels.idxOf panel) dest_position panel).Perm panels := by
  have found := List.idxOf_lt_length_iff.mpr member
  rw [rotated]
  refine (List.perm_insertIdx panel _ ?_).trans ?_
  · rw [List.length_eraseIdx_of_lt found]
    omega
  · have erased := List.getElem_cons_eraseIdx_perm found
    rwa [List.getElem_idxOf found] at erased

theorem dest_position_lt {panel : ℕ} (member : panel ∈ bar.panels_) (snapped_right : ℤ) :
    bar.dest_position panel (bar.panels_.idxOf panel) snapped_right < bar.panels_.length := by
  have found := List.idxOf_lt_length_iff.mpr member
  rw [dest_position]
  split
  · omega
  · have passed := (List.takeWhile_prefix (l := bar.panels_.drop (bar.panels_.idxOf panel + 1))
      (fun other => decide (bar.screen.right panel ≥ bar.screen.content_center other))).length_le
    rw [List.length_drop] at passed
    omega

theorem ReorderPanel_spec (informed : bar.Informed) (nodup : bar.panels_.Nodup) {panel : ℕ}
    (member : panel ∈ bar.panels_) :
    ∃ next, bar.ReorderPanel panel = some next ∧ bar.Repacked next ∧ (bar.Packed → next.Packed) := by
  obtain ⟨info, found⟩ := Option.isSome_iff_exists.mp (informed panel member)
  simp only [ReorderPanel, GetPanelInfoOrDie, found, Option.bind_eq_bind, Option.bind_some]
  split
  · exact ⟨bar, rfl, (Settled.refl bar).repacked, id⟩
  · have perm := rotated_perm member (dest_position_lt member info.snapped_right)
    generalize rotated bar.panels_ (bar.panels_.idxOf panel)
      (bar.dest_position panel (bar.panels_.idxOf panel) info.snapped_right) panel = panels at perm
    have known : Informed { bar with panels_ := panels } :=
      fun other inside => informed other (perm.subset inside)
    obtain ⟨next, packed, repacked, -, result⟩ :=
      PackPanels_spec known (perm.nodup_iff.mpr nodup) (some panel)
    refine ⟨next, packed, ⟨repacked.moved, repacked.panels.trans perm, repacked.known, repacked.drag,
      repacked.visibility⟩, fun before => result fun other known => ?_⟩
    exact perm.symm.subset ((before.keys other).mp known)

end Repacking

end ChromiumOS.WindowManager.PanelBar
