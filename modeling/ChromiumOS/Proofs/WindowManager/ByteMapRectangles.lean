import ChromiumOS.Model.WindowManager.ByteMap
import ChromiumOS.ToMathlib.PartialRun

/-! # Rectangles in byte maps

A row of a rectangle is filled from a place and over a length that are both clipped to the map, so that every row
stays in its own part of the buffer and the cells that are filled are those of the rectangle.
-/

namespace ChromiumOS.WindowManager

variable {bytes : List UInt8} {width rect_x y size : ℤ} {value : UInt8} {rows : ℕ}

/-- What `memset` leaves. -/
theorem memset_spec {offset : ℤ} (start : 0 ≤ offset) (count : 0 ≤ size) (inside : offset + size ≤ bytes.length) :
    ∃ filled, memset bytes offset value size = some filled ∧ ∀ index : ℤ, 0 ≤ index →
      filled.getD index.toNat 0 =
        if offset ≤ index ∧ index < offset + size then value else bytes.getD index.toNat 0 := by
  refine ⟨_, if_pos ⟨start, count, inside⟩, fun index low => ?_⟩
  obtain ⟨index, rfl⟩ := Int.eq_ofNat_of_zero_le low
  have before : (bytes.take offset.toNat).length = offset.toNat := by
    rw [List.length_take]
    omega
  simp only [List.getD_eq_getElem?_getD, Int.toNat_natCast, List.append_assoc, List.getElem?_append, before,
    List.getElem?_take, List.length_replicate, List.getElem?_replicate, List.getElem?_drop]
  split
  · next early =>
    rw [if_neg (by omega)]
  · next late =>
    split
    · next among =>
      rw [if_pos (by omega)]
      rfl
    · next behind =>
      rw [if_neg (by omega)]
      congr 2
      omega

/-- An index lies in a row where its remainder says so. -/
theorem index_in_row {x row : ℤ} (column : 0 ≤ x ∧ x < width) (left : 0 ≤ rect_x) (right : rect_x + size ≤ width) :
    (row * width + rect_x ≤ y * width + x ∧ y * width + x < row * width + rect_x + size) ↔
      row = y ∧ rect_x ≤ x ∧ x < rect_x + size := by
  constructor
  · rintro ⟨low, high⟩
    have same : row = y := by
      rcases lt_trichotomy row y with less | equal | more
      · have step : (row + 1) * width ≤ y * width := Int.mul_le_mul_of_nonneg_right (by omega) (by omega)
        rw [Int.add_mul, Int.one_mul] at step
        omega
      · exact equal
      · have step : (y + 1) * width ≤ row * width := Int.mul_le_mul_of_nonneg_right (by omega) (by omega)
        rw [Int.add_mul, Int.one_mul] at step
        omega
    subst same
    omega
  · rintro ⟨rfl, low, high⟩
    omega

/-- Rows that are in the buffer are filled, and nothing else. -/
theorem fillRows_spec {first : ℤ} (left : 0 ≤ rect_x) (count : 0 ≤ size) (right : rect_x + size ≤ width)
    (top : 0 ≤ first) (inside : (first + rows) * width ≤ bytes.length) :
    ∃ filled, fillRows width rect_x value size rows first bytes = some filled ∧
      ∀ x y : ℤ, 0 ≤ x → x < width → 0 ≤ y →
        filled.getD (y * width + x).toNat 0 =
          if (rect_x ≤ x ∧ x < rect_x + size) ∧ first ≤ y ∧ y < first + rows then value
          else bytes.getD (y * width + x).toNat 0 := by
  induction rows generalizing first bytes with
  | zero =>
    refine ⟨bytes, rfl, fun x y _ _ _ => ?_⟩
    rw [if_neg (by omega)]
  | succ rows ih =>
    have wide : 0 ≤ width := by omega
    have start : 0 ≤ first * width := Int.mul_nonneg top wide
    have bound : (first + 1) * width + rows * width ≤ bytes.length := by
      rw [← Int.add_mul]
      push_cast at inside
      rw [Int.add_assoc, Int.add_comm 1]
      exact inside
    have rest : 0 ≤ (rows : ℤ) * width := Int.mul_nonneg (Int.natCast_nonneg _) wide
    rw [Int.add_mul, Int.one_mul] at bound
    obtain ⟨row, done, cells⟩ := @memset_spec bytes size value (first * width + rect_x) (by omega) count (by omega)
    have length := memset_length done
    obtain ⟨filled, finished, others⟩ := @ih row (first + 1) (by omega) (by
      rw [length, Int.add_mul, Int.add_mul, Int.one_mul]
      exact bound)
    refine ⟨filled, by rw [fillRows, done, Option.bind_some, finished], fun x y low high down => ?_⟩
    have place : 0 ≤ y * width + x := Int.add_nonneg (Int.mul_nonneg down wide) low
    rw [others x y low high down, cells _ place]
    have here := @index_in_row width rect_x y size x first ⟨low, high⟩ left right
    by_cases later : (rect_x ≤ x ∧ x < rect_x + size) ∧ first + 1 ≤ y ∧ y < first + 1 + rows
    · rw [if_pos later, if_pos]
      push_cast
      omega
    · rw [if_neg later]
      refine if_congr (here.trans ?_) rfl rfl
      push_cast
      omega

namespace RectangleCall

/-- A cell is in the rectangle of a call. -/
def contains (call : RectangleCall) (x y : ℤ) : Bool :=
  decide (call.rect_x ≤ x) && decide (x < call.rect_x + call.rect_width) &&
    (decide (call.rect_y ≤ y) && decide (y < call.rect_y + call.rect_height))

theorem contains_iff (call : RectangleCall) (x y : ℤ) : call.contains x y = true ↔
    (call.rect_x ≤ x ∧ x < call.rect_x + call.rect_width) ∧
      (call.rect_y ≤ y ∧ y < call.rect_y + call.rect_height) := by
  simp only [contains, Bool.and_eq_true, decide_eq_true_eq]

end RectangleCall

namespace ByteMap

variable {map next : ByteMap}

/-- A cell of the map. -/
def Cell (map : ByteMap) (x y : ℤ) : Prop := 0 ≤ x ∧ x < map.width_ ∧ 0 ≤ y ∧ y < map.height_

theorem withBytes_some {bytes : Option (List UInt8)} {filled : List UInt8}
    (same : ∀ filled, bytes = some filled → filled.length = map.bytes_.length) (kept : bytes = some filled) :
    ∃ next, map.withBytes bytes same = some next ∧ next.width_ = map.width_ ∧ next.height_ = map.height_ ∧
      next.bytes_ = filled := by
  subst kept
  exact ⟨_, rfl, rfl, rfl, rfl⟩

/-- One call completes and fills the cells of its rectangle. -/
theorem apply_spec (map : ByteMap) (call : RectangleCall) :
    ∃ next, map.apply call = some next ∧ next.width_ = map.width_ ∧ next.height_ = map.height_ ∧
      ∀ x y, map.Cell x y → next.cell x y = if call.contains x y then call.value else map.cell x y := by
  have wide := map.wide
  have high := map.high
  rw [apply, SetRectangle]
  split
  · next outside =>
    refine ⟨map, rfl, rfl, rfl, fun x y cell => ?_⟩
    obtain ⟨low, less, -, -⟩ := cell
    rw [if_neg]
    rw [call.contains_iff]
    omega
  · next some_columns =>
    have rows : (max call.rect_y 0 + (min (call.rect_y + call.rect_height) map.height_ - max call.rect_y 0).toNat) *
        map.width_ ≤ map.bytes_.length ∨
          (min (call.rect_y + call.rect_height) map.height_ - max call.rect_y 0).toNat = 0 := by
      by_cases none : (min (call.rect_y + call.rect_height) map.height_ - max call.rect_y 0).toNat = 0
      · exact .inr none
      · refine .inl ?_
        rw [map.sized, Int.mul_comm]
        exact Int.mul_le_mul_of_nonneg_left (by omega) wide.le
    have filled : ∃ filled, fillRows map.width_ (max call.rect_x 0) call.value
        (min (call.rect_x + call.rect_width) map.width_ - max call.rect_x 0)
        (min (call.rect_y + call.rect_height) map.height_ - max call.rect_y 0).toNat (max call.rect_y 0)
        map.bytes_ = some filled ∧ ∀ x y : ℤ, 0 ≤ x → x < map.width_ → 0 ≤ y →
          filled.getD (y * map.width_ + x).toNat 0 =
            if (max call.rect_x 0 ≤ x ∧
                x < max call.rect_x 0 + (min (call.rect_x + call.rect_width) map.width_ - max call.rect_x 0)) ∧
                max call.rect_y 0 ≤ y ∧ y < max call.rect_y 0 +
                  (min (call.rect_y + call.rect_height) map.height_ - max call.rect_y 0).toNat
            then call.value else map.bytes_.getD (y * map.width_ + x).toNat 0 := by
      rcases rows with inside | none
      · exact fillRows_spec (by omega) (by omega) (by omega) (by omega) inside
      · rw [none]
        refine ⟨map.bytes_, rfl, fun x y _ _ _ => ?_⟩
        rw [if_neg (by omega)]
    obtain ⟨bytes, done, cells⟩ := filled
    obtain ⟨next, taken, width, height, kept⟩ := withBytes_some (fun _ done => fillRows_length done) done
    refine ⟨next, taken, width, height, fun x y cell => ?_⟩
    obtain ⟨low, less, down, under⟩ := cell
    rw [ByteMap.cell, ByteMap.cell, kept, width, cells x y low less down]
    refine if_congr ?_ rfl rfl
    rw [call.contains_iff]
    omega

/-- The value that calls give a cell: that of the last one whose rectangle the cell is in. -/
def lastValue (calls : List RectangleCall) (x y : ℤ) (initial : UInt8) : UInt8 :=
  ((calls.reverse.find? (·.contains x y)).map RectangleCall.value).getD initial

theorem lastValue_cons (call : RectangleCall) (rest : List RectangleCall) (x y : ℤ) (initial : UInt8) :
    lastValue (call :: rest) x y initial =
      lastValue rest x y (if call.contains x y then call.value else initial) := by
  rw [lastValue, lastValue, List.reverse_cons, List.find?_append]
  cases rest.reverse.find? (·.contains x y) with
  | some found => rfl
  | none =>
    rw [List.find?_singleton]
    cases call.contains x y <;> rfl

end ByteMap

end ChromiumOS.WindowManager
