import ChromiumOS.Model.WindowManager.PanelResize
import ChromiumOS.Proofs.WindowManager.MotionCoalescing

/-! # A panel is resized to where the pointer is released

The positions of a drag go through the coalescer, so the panel gets the size of the last position that the coalescer
hands on. That is the position of the release, unless the pointer never leaves the position that the coalescer starts
at.
-/

namespace ChromiumOS.WindowManager

open MotionEventCoalescer

namespace ResizeHandle

variable (handle : ResizeHandle)

/-- The corner that stays in place. -/
def gravity : Gravity := (growth (some handle) 0 0).1

/-- How the width follows the pointer to the right. -/
def horizontal : ℤ :=
  match handle with
  | .top => 0
  | .top_left | .left => -1
  | .top_right | .right => 1

/-- How the height follows the pointer downwards. -/
def vertical : ℤ :=
  match handle with
  | .top | .top_left | .top_right => -1
  | .left | .right => 0

theorem growth_eq (dx dy : ℤ) :
    growth (some handle) dx dy = (handle.gravity, handle.horizontal * dx, handle.vertical * dy) := by
  cases handle <;> simp [growth, gravity, horizontal, vertical, mul_comm]

end ResizeHandle

namespace ResizablePanel

/-- The titlebar has the width of the content and is directly above it, and both windows are where they are drawn. -/
structure Assembled (panel : ResizablePanel) : Prop where
  same_width : panel.titlebar_win_.client_width_ = panel.content_win_.client_width_
  same_left : panel.titlebar_win_.composited_x_ = panel.content_win_.composited_x_
  above : panel.titlebar_win_.composited_y_ + panel.titlebar_win_.client_height_ = panel.content_win_.composited_y_
  content_x : panel.content_win_.client_x_ = panel.content_win_.composited_x_
  content_y : panel.content_win_.client_y_ = panel.content_win_.composited_y_
  titlebar_x : panel.titlebar_win_.client_x_ = panel.titlebar_win_.composited_x_
  titlebar_y : panel.titlebar_win_.client_y_ = panel.titlebar_win_.composited_y_

/-- A panel that is not dragged. -/
structure AtRest (panel : ResizablePanel) : Prop where
  wide : kPanelMinWidth ≤ panel.content_win_.client_width_
  high : kPanelMinHeight ≤ panel.content_win_.client_height_
  assembled : panel.Assembled
  idle : panel.resize_event_coalescer_.running = false
  undragged : panel.drag_xid_ = none

variable (panel : ResizablePanel) (handle : ResizeHandle) (press release : ℤ × ℤ) (motions : List Motion)

/-- The width that the content should get. -/
def wantedWidth : ℤ :=
  max (panel.content_win_.client_width_ + handle.horizontal * (release.1 - press.1)) kPanelMinWidth

/-- The height that the content should get. -/
def wantedHeight : ℤ :=
  max (panel.content_win_.client_height_ + handle.vertical * (release.2 - press.2)) kPanelMinHeight

/-- A motion of the pointer on the handle, or the timer. -/
def perform : Motion → ResizablePanel
  | .StorePosition x y => panel.HandleInputWindowPointerMotion handle x y
  | .tick => panel.HandleTimer

/-- The panel while it is dragged. -/
def dragged : ResizablePanel :=
  motions.foldl (fun panel => panel.perform handle) (panel.HandleInputWindowButtonPress handle press.1 press.2 1)

/-- The panel when its container is told that it was resized. -/
def resized : ResizablePanel :=
  (panel.dragged handle press motions).HandleInputWindowButtonRelease handle release.1 release.2 1

/-- The panel has the size of the release, and the edges opposite the handle have not moved. -/
structure Follows (next : ResizablePanel) : Prop where
  width : next.content_win_.client_width_ = panel.wantedWidth handle press release
  height : next.content_win_.client_height_ = panel.wantedHeight handle press release
  right : handle.horizontal = -1 → next.content_win_.composited_x_ + next.content_win_.client_width_ =
    panel.content_win_.composited_x_ + panel.content_win_.client_width_
  left : handle.horizontal ≠ -1 → next.content_win_.composited_x_ = panel.content_win_.composited_x_
  bottom : next.content_win_.composited_y_ + next.content_win_.client_height_ =
    panel.content_win_.composited_y_ + panel.content_win_.client_height_
  assembled : next.Assembled

/-- The pointer is seen elsewhere than the position that the coalescer starts at, or nothing is to be resized. -/
def Noticed : Prop :=
  (∃ x y, (x, y) ≠ sentinel ∧ Motion.StorePosition x y ∈ motions ++ [.StorePosition release.1 release.2]) ∨
    (panel.wantedWidth handle press release = panel.content_win_.client_width_ ∧
      panel.wantedHeight handle press release = panel.content_win_.client_height_)

/-- A panel in the middle of a drag, with the last position that the callback saw. -/
structure Dragged (seen : Option (ℤ × ℤ)) (moved : ResizablePanel) : Prop where
  content : moved.content_win_ = panel.content_win_
  titlebar : moved.titlebar_win_ = panel.titlebar_win_
  held : moved.drag_xid_ = some handle
  start : (moved.drag_start_x_, moved.drag_start_y_) = press
  width : moved.drag_orig_width_ = panel.content_win_.client_width_
  height : moved.drag_orig_height_ = panel.content_win_.client_height_
  unsized : seen = none → moved.drag_last_width_ = panel.content_win_.client_width_ ∧
    moved.drag_last_height_ = panel.content_win_.client_height_
  sized : ∀ position ∈ seen, moved.drag_last_width_ = panel.wantedWidth handle press position ∧
    moved.drag_last_height_ = panel.wantedHeight handle press position ∧ moved.drag_gravity_ = handle.gravity

variable {panel handle press release motions} {moved : ResizablePanel} {seen : Option (ℤ × ℤ)}

/-- A motion changes nothing but the coalescer. -/
theorem Dragged.store (drags : panel.Dragged handle press seen moved) (coalescer : MotionEventCoalescer) :
    panel.Dragged handle press seen { moved with resize_event_coalescer_ := coalescer } :=
  ⟨drags.content, drags.titlebar, drags.held, drags.start, drags.width, drags.height, drags.unsized, drags.sized⟩

/-- The callback sizes the panel for the position that it sees. -/
theorem Dragged.apply (drags : panel.Dragged handle press seen moved)
    (handled : MotionEventCoalescer × Option (ℤ × ℤ)) :
    panel.Dragged handle press (handled.2.or seen) (moved.applyQueued handled) := by
  obtain ⟨coalescer, queued⟩ := handled
  cases queued with
  | none => exact drags.store coalescer
  | some position =>
    have grows : ResizeHandle.growth moved.drag_xid_ (position.1 - moved.drag_start_x_)
        (position.2 - moved.drag_start_y_) =
        (handle.gravity, handle.horizontal * (position.1 - press.1), handle.vertical * (position.2 - press.2)) := by
      rw [drags.held, ResizeHandle.growth_eq, ← drags.start]
    constructor
    · exact drags.content
    · exact drags.titlebar
    · exact drags.held
    · exact drags.start
    · exact drags.width
    · exact drags.height
    · exact (nomatch ·)
    · intro other same
      cases same
      simp only [applyQueued, ApplyResize, grows, drags.width, drags.height, wantedWidth, wantedHeight, and_self]

theorem historyOf_handled (trace : List Observed) (queued : Option (ℤ × ℤ)) :
    (historyOf (trace ++ [.handled queued])).seen = queued.or (historyOf trace).seen := by
  rw [historyOf_append]
  cases queued <;> rfl

theorem historyOf_stored (trace : List Observed) (position : ℤ × ℤ) :
    (historyOf (trace ++ [.stored position])).seen = (historyOf trace).seen := by
  rw [historyOf_append]
  rfl

/-- A panel that is dragged while its coalescer has observed a trace. -/
structure Dragging (panel : ResizablePanel) (handle : ResizeHandle) (press : ℤ × ℤ) (trace : List Observed)
    (moved : ResizablePanel) : Prop where
  drags : panel.Dragged handle press (historyOf trace).seen moved
  moving : Moving moved.resize_event_coalescer_ trace

theorem Dragging.perform {trace : List Observed} (dragging : Dragging panel handle press trace moved)
    (motion : Motion) :
    Dragging panel handle press (trace ++ [(moved.resize_event_coalescer_.perform motion).2])
      (moved.perform handle motion) := by
  cases motion with
  | StorePosition x y =>
    have stored : moved.perform handle (.StorePosition x y) =
        { moved with resize_event_coalescer_ := moved.resize_event_coalescer_.StorePosition x y } := by
      rw [ResizablePanel.perform, HandleInputWindowPointerMotion, dragging.drags.held]
      exact if_neg fun other => other rfl
    rw [stored]
    refine ⟨?_, dragging.moving.store x y⟩
    rw [MotionEventCoalescer.perform, historyOf_stored]
    exact dragging.drags.store _
  | tick =>
    refine ⟨?_, ?_⟩
    · rw [MotionEventCoalescer.perform, historyOf_handled]
      exact dragging.drags.apply _
    · have handled := dragging.moving.handle
      rw [ResizablePanel.perform, HandleTimer, applyQueued]
      cases queued : moved.resize_event_coalescer_.HandleTimer.2 with
      | none =>
        rw [MotionEventCoalescer.perform, queued]
        rw [queued] at handled
        exact handled
      | some position =>
        rw [MotionEventCoalescer.perform, queued]
        rw [queued] at handled
        exact handled

theorem Dragging.performAll {trace : List Observed} (dragging : Dragging panel handle press trace moved)
    (motions : List Motion) :
    Dragging panel handle press (trace ++ (moved.resize_event_coalescer_.performAll motions).2)
      (motions.foldl (fun panel => panel.perform handle) moved) := by
  induction motions generalizing trace moved with
  | nil =>
    rw [MotionEventCoalescer.performAll, List.append_nil]
    exact dragging
  | cons motion motions ih =>
    have next : (moved.perform handle motion).resize_event_coalescer_ =
        (moved.resize_event_coalescer_.perform motion).1 := by
      cases motion with
      | StorePosition x y =>
        rw [ResizablePanel.perform, HandleInputWindowPointerMotion, dragging.drags.held, if_neg fun other => other rfl]
        rfl
      | tick =>
        rw [ResizablePanel.perform, HandleTimer, applyQueued]
        cases queued : moved.resize_event_coalescer_.HandleTimer.2 with
        | none => rfl
        | some position => rfl
    have later := ih (dragging.perform motion)
    rw [next, List.append_assoc] at later
    exact later

theorem dragging_pressed (rest : panel.AtRest) (handle : ResizeHandle) (press : ℤ × ℤ) :
    Dragging panel handle press [] (panel.HandleInputWindowButtonPress handle press.1 press.2 1) := by
  rw [HandleInputWindowButtonPress, if_neg (by decide)]
  refine ⟨⟨rfl, rfl, rfl, rfl, rfl, rfl, fun _ => ⟨rfl, rfl⟩, fun _ member => nomatch member⟩, ?_⟩
  exact Start_moving rest.idle

/-- The sizes that are given to the content are those of the position that the callback saw last. -/
theorem resized_eq {trace : List Observed} (dragging : Dragging panel handle press trace moved) :
    ∃ ended, panel.Dragged handle press
        ((moved.resize_event_coalescer_.StorePosition release.1 release.2).HandleTimer.2.or (historyOf trace).seen)
        ended ∧
      ((moved.HandleInputWindowButtonRelease handle release.1 release.2 1).content_win_ =
        (ended.ResizeContent ended.drag_last_width_ ended.drag_last_height_ ended.drag_gravity_).content_win_ ∧
      (moved.HandleInputWindowButtonRelease handle release.1 release.2 1).titlebar_win_ =
        (ended.ResizeContent ended.drag_last_width_ ended.drag_last_height_ ended.drag_gravity_).titlebar_win_) := by
  have running : (moved.resize_event_coalescer_.StorePosition release.1 release.2).running = true :=
    (dragging.moving.store release.1 release.2).running
  have stop : (moved.resize_event_coalescer_.StorePosition release.1 release.2).Stop.2 =
      (moved.resize_event_coalescer_.StorePosition release.1 release.2).HandleTimer.2 := by
    rw [Stop, if_pos running]
    rfl
  have drags := (dragging.drags.store (moved.resize_event_coalescer_.StorePosition release.1 release.2)).apply
    (moved.resize_event_coalescer_.StorePosition release.1 release.2).Stop
  rw [stop] at drags
  refine ⟨_, drags, ?_⟩
  have held : ¬ (some handle ≠ moved.drag_xid_) := fun other => other dragging.drags.held.symm
  rw [HandleInputWindowButtonRelease, if_neg (by decide), if_neg held]
  exact ⟨rfl, rfl⟩

end ResizablePanel

namespace ResizedWindow

variable {win : ResizedWindow}

theorem ResizeClient_eq (win : ResizedWindow) (width height : ℤ) (gravity : Gravity) :
    win.ResizeClient width height gravity =
      let shift := gravity.shift (width - win.client_width_) (height - win.client_height_)
      { client_x_ := win.client_x_ - shift.1
        client_y_ := win.client_y_ - shift.2
        client_width_ := width
        client_height_ := height
        composited_x_ := win.composited_x_ - shift.1
        composited_y_ := win.composited_y_ - shift.2 } := by
  rw [ResizeClient]
  dsimp only
  split
  · rfl
  · next still =>
    rw [not_or, not_not, not_not] at still
    rw [still.1, still.2, sub_zero, sub_zero, sub_zero, sub_zero]
    rfl

/-- A window that gets the size that it has stays as it is. -/
theorem ResizeClient_same (gravity : Gravity) :
    win.ResizeClient win.client_width_ win.client_height_ gravity = win := by
  have still : gravity.shift 0 0 = (0, 0) := by
    cases gravity <;> rfl
  rw [ResizeClient_eq, sub_self, sub_self, still]
  simp only [sub_zero]

end ResizedWindow

/-- The panel moves by its growth where the handle is at the left or at the top. -/
theorem ResizeHandle.gravity_shift (handle : ResizeHandle) (dx dy : ℤ) :
    handle.gravity.shift dx dy =
      (if handle.horizontal = -1 then dx else 0, if handle.vertical = -1 then dy else 0) := by
  cases handle <;> rfl

namespace ResizablePanel

variable {panel : ResizablePanel} {handle : ResizeHandle} {press release : ℤ × ℤ} {motions : List Motion}
  {seen : Option (ℤ × ℤ)} {moved : ResizablePanel}

theorem ResizeContent_content (width height : ℤ) (gravity : Gravity) :
    (panel.ResizeContent width height gravity).content_win_ = panel.content_win_.ResizeClient width height gravity :=
  rfl

/-- The titlebar stays with the content. -/
theorem Assembled.ResizeContent (assembled : panel.Assembled) (width height : ℤ) (gravity : Gravity) :
    (panel.ResizeContent width height gravity).Assembled := by
  obtain ⟨same_width, same_left, above, content_x, content_y, titlebar_x, titlebar_y⟩ := assembled
  have flat : (gravity.shift (width - panel.titlebar_win_.client_width_) 0).2 = 0 := by
    cases gravity <;> rfl
  have aside : (gravity.shift (width - panel.titlebar_win_.client_width_) 0).1 =
      (gravity.shift (width - panel.content_win_.client_width_) (height - panel.content_win_.client_height_)).1 := by
    rw [same_width]
    rfl
  have content := ResizedWindow.ResizeClient_eq panel.content_win_ width height gravity
  have titlebar := ResizedWindow.ResizeClient_eq panel.titlebar_win_ width panel.titlebar_win_.client_height_ gravity
  dsimp only at content titlebar
  rw [sub_self, flat, aside] at titlebar
  rw [ResizablePanel.ResizeContent, content, titlebar]
  by_cases changing : height ≠ panel.content_win_.client_height_
  · rw [if_pos changing]
    constructor
    · rfl
    · change panel.titlebar_win_.composited_x_ - _ = panel.content_win_.composited_x_ - _
      rw [same_left]
    · exact sub_add_cancel _ _
    · change panel.content_win_.client_x_ - _ = panel.content_win_.composited_x_ - _
      rw [content_x]
    · change panel.content_win_.client_y_ - _ = panel.content_win_.composited_y_ - _
      rw [content_y]
    · rfl
    · rfl
  · have still : (gravity.shift (width - panel.content_win_.client_width_)
        (height - panel.content_win_.client_height_)).2 = 0 := by
      rw [not_not.mp changing, sub_self]
      cases gravity <;> rfl
    rw [if_neg changing, still]
    constructor
    · rfl
    · change panel.titlebar_win_.composited_x_ - _ = panel.content_win_.composited_x_ - _
      rw [same_left]
    · change panel.titlebar_win_.composited_y_ - 0 + panel.titlebar_win_.client_height_ =
        panel.content_win_.composited_y_ - 0
      rw [sub_zero, sub_zero, above]
    · change panel.content_win_.client_x_ - _ = panel.content_win_.composited_x_ - _
      rw [content_x]
    · change panel.content_win_.client_y_ - 0 = panel.content_win_.composited_y_ - 0
      rw [content_y]
    · change panel.titlebar_win_.client_x_ - _ = panel.titlebar_win_.composited_x_ - _
      rw [titlebar_x]
    · change panel.titlebar_win_.client_y_ - 0 = panel.titlebar_win_.composited_y_ - 0
      rw [titlebar_y]

/-- The panel with the size of a position. -/
theorem follows_sized (rest : panel.AtRest) (handle : ResizeHandle) (press release : ℤ × ℤ) :
    panel.Follows handle press release (panel.ResizeContent (panel.wantedWidth handle press release)
      (panel.wantedHeight handle press release) handle.gravity) := by
  have assembled := rest.assembled.ResizeContent (panel.wantedWidth handle press release)
    (panel.wantedHeight handle press release) handle.gravity
  have high : handle.vertical = 0 →
      panel.wantedHeight handle press release = panel.content_win_.client_height_ := by
    intro level
    rw [wantedHeight, level, zero_mul, add_zero, max_eq_left rest.high]
  have content := ResizedWindow.ResizeClient_eq panel.content_win_ (panel.wantedWidth handle press release)
    (panel.wantedHeight handle press release) handle.gravity
  rw [handle.gravity_shift] at content
  constructor
  · rw [ResizeContent_content, content]
  · rw [ResizeContent_content, content]
  · intro leftwards
    rw [ResizeContent_content, content]
    dsimp only
    rw [if_pos leftwards]
    ring
  · intro rightwards
    rw [ResizeContent_content, content]
    dsimp only
    rw [if_neg rightwards, sub_zero]
  · rw [ResizeContent_content, content]
    dsimp only
    split
    · ring
    · next level =>
      have still : handle.vertical = 0 := by
        cases handle with
        | top => exact absurd rfl level
        | top_left => exact absurd rfl level
        | top_right => exact absurd rfl level
        | left => rfl
        | right => rfl
      rw [high still, sub_zero]
  · exact assembled

/-- The panel that is given the size that it has. -/
theorem ResizeContent_same {width height : ℤ} (gravity : Gravity) (assembled : panel.Assembled)
    (same_width : width = panel.content_win_.client_width_) (same_height : height = panel.content_win_.client_height_) :
    (panel.ResizeContent width height gravity).content_win_ = panel.content_win_ ∧
      (panel.ResizeContent width height gravity).titlebar_win_ = panel.titlebar_win_ := by
  subst same_width same_height
  refine ⟨ResizedWindow.ResizeClient_same gravity, ?_⟩
  rw [ResizeContent, if_neg (not_not.mpr rfl)]
  dsimp only
  rw [← assembled.same_width]
  exact ResizedWindow.ResizeClient_same gravity

/-- What follows the pointer depends on the windows only. -/
theorem Follows.congr {next other : ResizablePanel} (follows : panel.Follows handle press release next)
    (content : other.content_win_ = next.content_win_) (titlebar : other.titlebar_win_ = next.titlebar_win_) :
    panel.Follows handle press release other := by
  obtain ⟨width, height, right, left, bottom, assembled⟩ := follows
  obtain ⟨same_width, same_left, above, content_x, content_y, titlebar_x, titlebar_y⟩ := assembled
  constructor
  · rw [content]; exact width
  · rw [content]; exact height
  · rw [content]; exact right
  · rw [content]; exact left
  · rw [content]; exact bottom
  · constructor
    · rw [content, titlebar]; exact same_width
    · rw [content, titlebar]; exact same_left
    · rw [content, titlebar]; exact above
    · rw [content]; exact content_x
    · rw [content]; exact content_y
    · rw [titlebar]; exact titlebar_x
    · rw [titlebar]; exact titlebar_y

/-- The panel that keeps its size follows the pointer if that was wanted. -/
theorem follows_same (rest : panel.AtRest) {next : ResizablePanel}
    (content : next.content_win_ = panel.content_win_) (titlebar : next.titlebar_win_ = panel.titlebar_win_) :
    panel.Follows handle press release next ↔
      panel.wantedWidth handle press release = panel.content_win_.client_width_ ∧
        panel.wantedHeight handle press release = panel.content_win_.client_height_ := by
  constructor
  · intro follows
    rw [← follows.width, ← follows.height, content]
    exact ⟨rfl, rfl⟩
  · rintro ⟨width, height⟩
    have sized := follows_sized rest handle press release
    rw [width, height] at sized
    obtain ⟨same_content, same_titlebar⟩ := ResizeContent_same handle.gravity rest.assembled rfl rfl
    exact sized.congr (content.trans same_content.symm) (titlebar.trans same_titlebar.symm)

theorem ResizeContent_windows {ended : ResizablePanel} (content : ended.content_win_ = panel.content_win_)
    (titlebar : ended.titlebar_win_ = panel.titlebar_win_) (width height : ℤ) (gravity : Gravity) :
    (ended.ResizeContent width height gravity).content_win_ =
        (panel.ResizeContent width height gravity).content_win_ ∧
      (ended.ResizeContent width height gravity).titlebar_win_ =
        (panel.ResizeContent width height gravity).titlebar_win_ := by
  rw [ResizeContent, ResizeContent]
  dsimp only
  rw [content, titlebar]
  exact ⟨rfl, rfl⟩

/-- The timer leaves nothing queued. -/
theorem HandleTimer_unqueued (coalescer : MotionEventCoalescer) :
    coalescer.HandleTimer.1.have_queued_position_ = false := by
  rw [MotionEventCoalescer.HandleTimer]
  dsimp only
  split
  · rfl
  · next empty => exact Bool.eq_false_iff.mpr empty

/-- The release sizes the panel for its position, unless the pointer stays at the position that the coalescer starts
at. -/
theorem release_windows (rest : panel.AtRest) {trace : List Observed}
    (dragging : Dragging panel handle press trace moved) (release : ℤ × ℤ) :
    ((∀ position, .stored position ∈ trace ++ [.stored release] → position = sentinel) →
      (moved.HandleInputWindowButtonRelease handle release.1 release.2 1).content_win_ = panel.content_win_ ∧
        (moved.HandleInputWindowButtonRelease handle release.1 release.2 1).titlebar_win_ = panel.titlebar_win_) ∧
    ((∃ position, position ≠ sentinel ∧ .stored position ∈ trace ++ [.stored release]) →
      panel.Follows handle press release (moved.HandleInputWindowButtonRelease handle release.1 release.2 1)) := by
  have moving := (dragging.moving.store release.1 release.2).handle
  obtain ⟨ended, drags, content, titlebar⟩ := @resized_eq _ _ _ release _ _ dragging
  have unqueued := HandleTimer_unqueued (moved.resize_event_coalescer_.StorePosition release.1 release.2)
  have idle := moving.idle unqueued
  have still := moving.still
  generalize (moved.resize_event_coalescer_.StorePosition release.1 release.2).HandleTimer.2 = queued
    at idle still drags
  rw [historyOf_handled, historyOf_stored] at idle still
  have last : (historyOf (trace ++ [.stored (release.1, release.2)] ++ [.handled queued])).stored = some release := by
    rw [historyOf_append, historyOf_append]
    cases queued <;> rfl
  have members (position : ℤ × ℤ) :
      .stored position ∈ trace ++ [.stored (release.1, release.2)] ++ [.handled queued] ↔
        .stored position ∈ trace ++ [.stored release] := by
    rw [List.mem_append, or_iff_left (by simp)]
  rw [last] at idle
  refine ⟨fun unmoved => ?_, fun elsewhere => ?_⟩
  · have unseen := (still.mpr fun position member => unmoved position ((members position).mp member)).1
    obtain ⟨width, height⟩ := drags.unsized unseen
    obtain ⟨same_content, same_titlebar⟩ := ResizeContent_windows drags.content drags.titlebar
      ended.drag_last_width_ ended.drag_last_height_ ended.drag_gravity_
    obtain ⟨kept_content, kept_titlebar⟩ := ResizeContent_same ended.drag_gravity_ rest.assembled width height
    exact ⟨content.trans (same_content.trans kept_content), titlebar.trans (same_titlebar.trans kept_titlebar)⟩
  · cases seen : queued.or (historyOf trace).seen with
    | none =>
      obtain ⟨position, other, member⟩ := elsewhere
      exact absurd (still.mp ⟨seen, unqueued⟩ position ((members position).mpr member)) other
    | some position =>
      rw [seen] at idle
      have here : position = release := idle
      rw [here] at seen
      obtain ⟨width, height, gravity⟩ := drags.sized release seen
      rw [width, height, gravity] at content titlebar
      obtain ⟨same_content, same_titlebar⟩ := ResizeContent_windows drags.content drags.titlebar
        (panel.wantedWidth handle press release) (panel.wantedHeight handle press release) handle.gravity
      exact (follows_sized rest handle press release).congr (content.trans same_content)
        (titlebar.trans same_titlebar)

/-- The positions of a drag are those that its coalescer has observed. -/
theorem dragging_all (rest : panel.AtRest) (handle : ResizeHandle) (press : ℤ × ℤ) (motions : List Motion) :
    ∃ trace, Dragging panel handle press trace (panel.dragged handle press motions) ∧
      ∀ x y, .stored (x, y) ∈ trace ↔ .StorePosition x y ∈ motions := by
  have dragging := (dragging_pressed rest handle press).performAll motions
  have started : (panel.HandleInputWindowButtonPress handle press.1 press.2 1).resize_event_coalescer_ =
      panel.resize_event_coalescer_.Start := by
    rw [HandleInputWindowButtonPress, if_neg (by decide)]
  rw [List.nil_append, started] at dragging
  exact ⟨_, dragging, stored_mem_performAll _ motions⟩

end ResizablePanel

/-- A panel that is dragged by a handle gets the size of the release, with the opposite edges in place, exactly if the
pointer was seen elsewhere than at the position that the coalescer starts at, or nothing was to be resized. -/
theorem panel_resize (panel : ResizablePanel) (rest : panel.AtRest) (handle : ResizeHandle) (press release : ℤ × ℤ)
    (motions : List Motion) :
    panel.Follows handle press release (panel.resized handle press release motions) ↔
      panel.Noticed handle press release motions := by
  obtain ⟨trace, dragging, members⟩ := ResizablePanel.dragging_all rest handle press motions
  obtain ⟨unmoved, moved⟩ := ResizablePanel.release_windows rest dragging release
  have stored (x y : ℤ) : .stored (x, y) ∈ trace ++ [.stored release] ↔
      .StorePosition x y ∈ motions ++ [.StorePosition release.1 release.2] := by
    rw [List.mem_append, List.mem_append, members, List.mem_singleton, List.mem_singleton]
    refine or_congr_right ?_
    rw [Observed.stored.injEq, Motion.StorePosition.injEq]
    exact Prod.ext_iff
  by_cases still : ∀ position, .stored position ∈ trace ++ [.stored release] → position = sentinel
  · obtain ⟨content, titlebar⟩ := unmoved still
    have follows := @ResizablePanel.follows_same _ handle press release rest _ content titlebar
    refine follows.trans ?_
    rw [ResizablePanel.Noticed, or_iff_right]
    rintro ⟨x, y, elsewhere, member⟩
    exact elsewhere (still (x, y) ((stored x y).mpr member))
  · obtain ⟨position, unmet⟩ := not_forall.mp still
    obtain ⟨member, elsewhere⟩ := Classical.not_imp.mp unmet
    exact iff_of_true (moved ⟨position, elsewhere, member⟩)
      (.inl ⟨position.1, position.2, elsewhere, (stored position.1 position.2).mp member⟩)

section CornerOfHandle

def squareWindow (y height : ℤ) : ResizedWindow where
  client_x_ := 100
  client_y_ := y
  client_width_ := 50
  client_height_ := height
  composited_x_ := 100
  composited_y_ := y

def squarePanel : ResizablePanel where
  content_win_ := squareWindow 120 50
  titlebar_win_ := squareWindow 100 20
  resize_actor_ := none
  resize_event_coalescer_ := .new
  drag_xid_ := none
  drag_gravity_ := .GRAVITY_NORTHWEST
  drag_start_x_ := 0
  drag_start_y_ := 0
  drag_orig_width_ := 1
  drag_orig_height_ := 1
  drag_last_width_ := 1
  drag_last_height_ := 1

theorem squarePanel_rest : squarePanel.AtRest :=
  ⟨by decide, by decide, ⟨rfl, rfl, rfl, rfl, rfl, rfl, rfl⟩, rfl, rfl⟩

theorem panel_resize_square :
    squarePanel.Follows .top_left (2, 2) (-5, -7) (squarePanel.resized .top_left (2, 2) (-5, -7) [.tick]) ↔
      squarePanel.Noticed .top_left (2, 2) (-5, -7) [.tick] :=
  panel_resize squarePanel squarePanel_rest .top_left (2, 2) (-5, -7) [.tick]

/-- A drag of the upper left corner that ends one pixel left and above of the handle does not resize the panel. -/
theorem corner_drag :
    (squarePanel.resized .top_left (2, 2) (-1, -1) []).content_win_.client_width_ = 50 ∧
      squarePanel.wantedWidth .top_left (2, 2) (-1, -1) = 53 ∧
      ¬ squarePanel.Follows .top_left (2, 2) (-1, -1) (squarePanel.resized .top_left (2, 2) (-1, -1) []) := by
  have width : (squarePanel.resized .top_left (2, 2) (-1, -1) []).content_win_.client_width_ = 50 := by decide
  have wanted : squarePanel.wantedWidth .top_left (2, 2) (-1, -1) = 53 := by decide
  refine ⟨width, wanted, fun follows => ?_⟩
  have same := follows.width
  rw [width, wanted] at same
  exact absurd same (by decide)

end CornerOfHandle

end ChromiumOS.WindowManager
