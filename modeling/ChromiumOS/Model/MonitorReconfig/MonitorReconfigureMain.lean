import Mathlib

/-! # Choosing a mode for a monitor

`FindBestMatchingResolution` of `monitor_reconfigure_main.cc` and the comparisons that it makes. The modes of the
external output are those that its entries stand for in `mode_map_`.
-/

namespace ChromiumOS.MonitorReconfig

/-- The size of a mode. -/
@[ext] structure XRRModeInfo where
  width : ℕ
  height : ℕ
deriving DecidableEq, Repr

def IsEqual (one two : XRRModeInfo) : Bool := one.height * one.width == two.height * two.width

def IsBiggerOrEqual (target screen : XRRModeInfo) : Bool :=
  decide (target.width ≥ screen.width) && decide (target.height ≥ screen.height)

def IsBetterMatching (target to_match previous_best : XRRModeInfo) : Bool :=
  if IsEqual previous_best to_match then false
  else if !IsBiggerOrEqual previous_best to_match && IsBiggerOrEqual target to_match then true
  else if IsBiggerOrEqual previous_best to_match && !IsBiggerOrEqual target to_match then false
  else if IsBiggerOrEqual previous_best to_match then !IsBiggerOrEqual target previous_best
  else IsBiggerOrEqual target previous_best

def min_mode : XRRModeInfo := ⟨0, 0⟩

/-- One round of the loop; the best mode is none while it is `min_mode`. -/
def nextBest (matching_mode : XRRModeInfo) (best_mode : Option XRRModeInfo) (current_mode : XRRModeInfo) :
    Option XRRModeInfo :=
  if IsBetterMatching current_mode matching_mode (best_mode.getD min_mode) then some current_mode else best_mode

def FindBestMatchingResolution (modes : List XRRModeInfo) (matching_mode : XRRModeInfo) : Option XRRModeInfo :=
  modes.foldl (nextBest matching_mode) none

end ChromiumOS.MonitorReconfig
