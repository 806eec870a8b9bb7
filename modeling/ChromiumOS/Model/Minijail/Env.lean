import Mathlib

/-! # Capabilities of a jail

`SanitizeCapabilities` and `SanitizeBoundingSet` of `env.cc`, in a process whose sets of capabilities have one bit
for each number. The kernel knows the capabilities below a number. A `LOG(FATAL)` is `none`.
-/

namespace ChromiumOS.Minijail

def CAP_SETPCAP : ℕ := 8

/-- The sets of a process. -/
structure Process where
  effective : BitVec 64
  permitted : BitVec 64
  inheritable : BitVec 64
  bounding : BitVec 64
deriving DecidableEq

/-- The sets of `cap_t`. -/
structure Caps where
  effective : BitVec 64 := 0
  permitted : BitVec 64 := 0
  inheritable : BitVec 64 := 0
deriving DecidableEq

/-- `cap_set_flag` with `CAP_SET` for one capability, in all of the three sets. -/
def Caps.cap_set_flag (caps : Caps) (cap : ℕ) : Caps where
  effective := caps.effective ||| BitVec.twoPow 64 cap
  permitted := caps.permitted ||| BitVec.twoPow 64 cap
  inheritable := caps.inheritable ||| BitVec.twoPow 64 cap

/-- `1 << cap`, an `int` that is extended to the type of a mask. -/
def intShift (cap : ℕ) : BitVec 64 := ((1#32) <<< (cap % 32)).signExtend 64

/-- One round of the loop of `SanitizeCapabilities`. -/
def addCapability (effective_capmask : BitVec 64) (caps : Caps) (cap : ℕ) : Caps :=
  if cap = CAP_SETPCAP ∨ effective_capmask &&& intShift cap ≠ 0 then caps.cap_set_flag cap else caps

def SanitizeCapabilities (effective_capmask : BitVec 64) (process : Process) : Process :=
  let caps := (List.range 64).foldl (addCapability effective_capmask) {}
  { process with
    effective := caps.effective
    permitted := caps.permitted
    inheritable := caps.inheritable }

/-- `prctl(PR_CAPBSET_READ, cap)` does not fail. -/
def PR_CAPBSET_READ (known cap : ℕ) : Bool := cap < known

/-- `prctl(PR_CAPBSET_DROP, cap)`, which takes the capability to do so. -/
def PR_CAPBSET_DROP (known : ℕ) (process : Process) (cap : ℕ) : Option Process :=
  if cap < known ∧ process.effective.getLsbD CAP_SETPCAP then
    some { process with bounding := process.bounding &&& ~~~ BitVec.twoPow 64 cap }
  else none

/-- The loop of `SanitizeBoundingSet` over a number of capabilities. -/
def cleanBoundingSet (known : ℕ) (cap_mask : BitVec 64) : ℕ → ℕ → Process → Option Process
  | 0, _, process => some process
  | remaining + 1, cap, process =>
    if PR_CAPBSET_READ known cap then
      if cap = CAP_SETPCAP then cleanBoundingSet known cap_mask remaining (cap + 1) process
      else if cap_mask &&& ((1#64) <<< cap) ≠ 0 then
        cleanBoundingSet known cap_mask remaining (cap + 1) process
      else
        (PR_CAPBSET_DROP known process cap).bind fun process =>
          cleanBoundingSet known cap_mask remaining (cap + 1) process
    else some process

def SanitizeBoundingSet (known : ℕ) (cap_mask : BitVec 64) (process : Process) : Option Process :=
  cleanBoundingSet known cap_mask 64 0 process

/-- The last steps of `Jail`, with the mask of both. -/
def useCapabilities (known : ℕ) (mask : BitVec 64) (process : Process) : Option Process :=
  SanitizeBoundingSet known mask (SanitizeCapabilities mask process)

end ChromiumOS.Minijail
