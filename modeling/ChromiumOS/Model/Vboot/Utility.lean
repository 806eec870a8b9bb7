import ChromiumOS.Model.Vboot.Sha

/-! # Memory helpers

`utility_stub.c`. `MemcpyState` hands out a buffer piece by piece; a request that exceeds what is
left marks the state by a negative remainder.
-/

namespace ChromiumOS.Vboot

/-- Whether the first `n` bytes differ. Every byte is compared. -/
def SafeMemcmp (s1 s2 : List UInt8) (n : ℕ) : Option Bool := do
  let us1 ← readAt s1 0 n
  let us2 ← readAt s2 0 n
  some ((us1.zip us2).any fun pair => pair.1 ≠ pair.2)

structure MemcpyState where
  remaining_buf : List UInt8
  remaining_len : ℤ
deriving DecidableEq, Repr

/-- Take `len` bytes from the buffer. The inner `none` is the `NULL` of an overrun; the outer one is
a copy that leaves the buffer or has a negative length. -/
def StatefulMemcpy (state : MemcpyState) (len : ℤ) : Option (Option (List UInt8) × MemcpyState) :=
  if len > state.remaining_len then some (none, { state with remaining_len := -1 })
  else if len < 0 then none
  else do
    let bytes ← readAt state.remaining_buf 0 len.toNat
    some (some bytes,
      { remaining_buf := state.remaining_buf.drop len.toNat
        remaining_len := state.remaining_len - len })

end ChromiumOS.Vboot
