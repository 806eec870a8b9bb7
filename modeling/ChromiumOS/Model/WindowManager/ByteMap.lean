import Mathlib

/-! # Byte maps

`ByteMap` of `util.cc`: a rectangle of bytes, row by row. A failed `CHECK` and an access outside of the buffer are
`none`.
-/

namespace ChromiumOS.WindowManager

/-- `memset` on a part of a buffer. -/
def memset (bytes : List UInt8) (offset : ℤ) (value : UInt8) (size : ℤ) : Option (List UInt8) :=
  if 0 ≤ offset ∧ 0 ≤ size ∧ offset + size ≤ bytes.length then
    some (bytes.take offset.toNat ++ List.replicate size.toNat value ++ bytes.drop (offset + size).toNat)
  else none

theorem memset_length {bytes filled : List UInt8} {offset size : ℤ} {value : UInt8}
    (done : memset bytes offset value size = some filled) : filled.length = bytes.length := by
  rw [memset] at done
  split at done
  · cases done
    simp only [List.length_append, List.length_take, List.length_replicate, List.length_drop]
    omega
  · cases done

/-- Rows filled from a column on, one after the other. -/
def fillRows (width_ rect_x : ℤ) (value : UInt8) (size : ℤ) : ℕ → ℤ → List UInt8 → Option (List UInt8)
  | 0, _, bytes => some bytes
  | rows + 1, y, bytes =>
    (memset bytes (y * width_ + rect_x) value size).bind (fillRows width_ rect_x value size rows (y + 1))

theorem fillRows_length {bytes filled : List UInt8} {width_ rect_x y size : ℤ} {value : UInt8} {rows : ℕ}
    (done : fillRows width_ rect_x value size rows y bytes = some filled) : filled.length = bytes.length := by
  induction rows generalizing y bytes with
  | zero =>
    cases done
    rfl
  | succ rows ih =>
    obtain ⟨row, first, done⟩ := Option.bind_eq_some_iff.mp done
    rw [ih done, memset_length first]

/-- A map with as many bytes as its width and height take. -/
structure ByteMap where
  width_ : ℤ
  height_ : ℤ
  bytes_ : List UInt8
  wide : 0 < width_
  high : 0 < height_
  sized : (bytes_.length : ℤ) = width_ * height_

namespace ByteMap

/-- The constructor, which clears the map. -/
def new (width height : ℤ) : Option ByteMap :=
  if positive : 0 < width ∧ 0 < height then
    some
      { width_ := width
        height_ := height
        bytes_ := List.replicate (width * height).toNat 0
        wide := positive.1
        high := positive.2
        sized := by
          rw [List.length_replicate]
          exact Int.toNat_of_nonneg (Int.mul_nonneg positive.1.le positive.2.le) }
  else none

variable (map : ByteMap)

/-- Other bytes in a map. -/
def withBytes :
    (bytes : Option (List UInt8)) → (∀ filled, bytes = some filled → filled.length = map.bytes_.length) → Option ByteMap
  | some filled, same => some { map with bytes_ := filled, sized := by rw [same filled rfl, map.sized] }
  | none, _ => none

def SetRectangle (rect_x rect_y rect_width rect_height : ℤ) (value : UInt8) : Option ByteMap :=
  let limit_x := min (rect_x + rect_width) map.width_
  let limit_y := min (rect_y + rect_height) map.height_
  let rect_x := max rect_x 0
  let rect_y := max rect_y 0
  if rect_x ≥ limit_x then some map
  else
    map.withBytes
      (fillRows map.width_ rect_x value (limit_x - rect_x) (limit_y - rect_y).toNat rect_y map.bytes_)
      fun _ done => fillRows_length done

/-- The byte of a cell. -/
def cell (x y : ℤ) : UInt8 := map.bytes_.getD (y * map.width_ + x).toNat 0

end ByteMap

/-- A call of `SetRectangle`. -/
structure RectangleCall where
  rect_x : ℤ
  rect_y : ℤ
  rect_width : ℤ
  rect_height : ℤ
  value : UInt8
deriving DecidableEq

def ByteMap.apply (map : ByteMap) (call : RectangleCall) : Option ByteMap :=
  map.SetRectangle call.rect_x call.rect_y call.rect_width call.rect_height call.value

end ChromiumOS.WindowManager
