import ChromiumOS.ToMathlib.BlockStream
import ChromiumOS.Model.Vboot.Sha

/-! # The digests are functions of the message

A context represents the message fed to it so far: its chaining value has absorbed the complete
blocks and its buffer starts with the pending bytes. Every update keeps this for the longer message,
so the final digest does not depend on how the message was cut.
-/

namespace ChromiumOS.Vboot

open BlockStream

theorem readAt_of_le {data : List UInt8} {offset count : ℕ} (inside : offset + count ≤ data.length) :
    readAt data offset count = some ((data.drop offset).take count) :=
  if_pos inside

theorem readAt_whole {data : List UInt8} {count : ℕ} (length : data.length = count) :
    readAt data 0 count = some data := by
  rw [readAt_of_le (by omega), List.drop_zero, List.take_of_length_le length.le]

theorem readAt_take {data : List UInt8} {offset count limit : ℕ} (inside : offset + count ≤ limit) :
    readAt (data.take limit) offset count = readAt data offset count := by
  by_cases readable : offset + count ≤ data.length
  · rw [readAt_of_le readable, readAt_of_le (by rw [List.length_take]; omega), List.drop_take,
      List.take_take, min_eq_left (by omega)]
  · rw [readAt, readAt, if_neg readable, if_neg (by rw [List.length_take]; omega)]

theorem memcpyAt_length {dst src : List UInt8} {offset : ℕ}
    (inside : offset + src.length ≤ dst.length) : (memcpyAt dst offset src).length = dst.length := by
  simp only [memcpyAt, List.length_append, List.length_take, List.length_drop]
  omega

theorem take_memcpyAt (dst src : List UInt8) (offset : ℕ) (inside : offset ≤ dst.length) :
    (memcpyAt dst offset src).take (offset + src.length) = dst.take offset ++ src := by
  have length : (dst.take offset ++ src).length = offset + src.length := by
    rw [List.length_append, List.length_take, min_eq_left inside]
  rw [memcpyAt, ← length, List.take_left]

namespace Sha2

variable {σ : Type} {alg : Sha2 σ}

/-- The sizes under which the index arithmetic of `sha2.c` is meaningful. -/
structure Proper (alg : Sha2 σ) : Prop where
  shift_bounds : 6 ≤ alg.shift.toNat ∧ alg.shift.toNat ≤ 7
  blockSize_eq : alg.blockSize.toNat = 2 ^ alg.shift.toNat
  tail_bounds : 5 ≤ alg.tail.toNat ∧ alg.tail.toNat ≤ alg.blockSize.toNat

namespace Proper

variable (proper : alg.Proper)
include proper

theorem blockSize_bounds : 64 ≤ alg.blockSize.toNat ∧ alg.blockSize.toNat ≤ 128 := by
  obtain ⟨low, high⟩ := proper.shift_bounds
  rw [proper.blockSize_eq]
  exact ⟨Nat.pow_le_pow_right Nat.two_pos low, Nat.pow_le_pow_right Nat.two_pos high⟩

theorem blockSize_pos : 0 < alg.blockSize.toNat := by
  have := proper.blockSize_bounds
  omega

theorem shiftLeft_toNat {count : UInt32} (bound : count.toNat * alg.blockSize.toNat < 2 ^ 32) :
    (count <<< alg.shift).toNat = count.toNat * alg.blockSize.toNat := by
  have small : alg.shift.toNat % 32 = alg.shift.toNat :=
    Nat.mod_eq_of_lt (by have := proper.shift_bounds; omega)
  rw [UInt32.toNat_shiftLeft, small, Nat.shiftLeft_eq, ← proper.blockSize_eq, Nat.mod_eq_of_lt bound]

theorem blockAt_eq {message : List UInt8} {index : ℕ}
    (inside : (index + 1) * alg.blockSize.toNat ≤ message.length)
    (bound : index * alg.blockSize.toNat < 2 ^ 31) :
    alg.blockAt message index = some (blockOf alg.blockSize.toNat message index) := by
  have offset : index <<< alg.shift.toNat = index * alg.blockSize.toNat := by
    rw [Nat.shiftLeft_eq, ← proper.blockSize_eq]
  rw [Nat.succ_mul] at inside
  rw [blockAt, offset, if_pos bound, readAt_of_le inside, blockOf]

/-- The block loop absorbs the blocks in order. -/
theorem transform_eq (h : σ) (message : List UInt8) (count : ℕ)
    (inside : count * alg.blockSize.toNat ≤ message.length)
    (bound : count * alg.blockSize.toNat ≤ 2 ^ 31) :
    alg.transform h message count =
      some (absorbBlocks alg.blockSize.toNat alg.compress h message count) := by
  induction count with
  | zero => rfl
  | succ count ih =>
    have step : count * alg.blockSize.toNat + alg.blockSize.toNat ≤ 2 ^ 31 := by
      rwa [← Nat.succ_mul]
    have positive := proper.blockSize_pos
    have block := proper.blockAt_eq inside (by omega)
    have before := ih (le_trans (Nat.mul_le_mul_right _ count.le_succ) inside) (by omega)
    rw [transform] at before ⊢
    rw [List.range_succ, List.foldlM_append, before, absorbBlocks_succ]
    simp [block]

theorem transform_take (h : σ) {message : List UInt8} {count limit : ℕ}
    (inside : count * alg.blockSize.toNat ≤ limit) :
    alg.transform h (message.take limit) count = alg.transform h message count := by
  have blocks : ∀ index ∈ List.range count,
      alg.blockAt (message.take limit) index = alg.blockAt message index := by
    intro index member
    have below : (index + 1) * alg.blockSize.toNat ≤ count * alg.blockSize.toNat :=
      Nat.mul_le_mul_right _ (List.mem_range.mp member)
    have offset : index <<< alg.shift.toNat = index * alg.blockSize.toNat := by
      rw [Nat.shiftLeft_eq, ← proper.blockSize_eq]
    rw [Nat.succ_mul] at below
    rw [blockAt, blockAt, offset, readAt_take (by omega)]
  rw [transform, transform]
  generalize List.range count = indices at blocks
  induction indices generalizing h with
  | nil => rfl
  | cons index indices ih =>
    rw [List.foldlM_cons, List.foldlM_cons, blocks index List.mem_cons_self]
    congr 1
    funext next
    exact ih next fun later member => blocks later (List.mem_cons_of_mem _ member)

/-- An update reads only the bytes that its length covers. -/
theorem update_take {ctx : Sha2Ctx σ} (data : List UInt8) (len : UInt32)
    (pending : ctx.len.toNat ≤ alg.blockSize.toNat) :
    alg.update ctx (data.take len.toNat) len = alg.update ctx data len := by
  have room : (alg.blockSize - ctx.len).toNat = alg.blockSize.toNat - ctx.len.toNat :=
    UInt32.toNat_sub_of_le _ _ (UInt32.le_iff_toNat_le.mpr pending)
  obtain ⟨rem_len, remEq⟩ : ∃ rem_len, rem_len =
      if len < alg.blockSize - ctx.len then len else alg.blockSize - ctx.len := ⟨_, rfl⟩
  have remLe : rem_len.toNat ≤ len.toNat := by
    rw [remEq]
    split
    · exact le_rfl
    · next long => exact UInt32.le_iff_toNat_le.mp (UInt32.not_lt.mp long)
  have newLen : (len - rem_len).toNat = len.toNat - rem_len.toNat :=
    UInt32.toNat_sub_of_le _ _ (UInt32.le_iff_toNat_le.mpr remLe)
  have blocksLe : ((len - rem_len) / alg.blockSize).toNat * alg.blockSize.toNat ≤
      (len - rem_len).toNat := by
    rw [UInt32.toNat_div]
    exact Nat.div_mul_le_self _ _
  have division : ((len - rem_len) / alg.blockSize).toNat * alg.blockSize.toNat +
      ((len - rem_len) % alg.blockSize).toNat = (len - rem_len).toNat := by
    rw [UInt32.toNat_div, UInt32.toNat_mod]
    exact Nat.div_add_mod' _ _
  have offset := proper.shiftLeft_toNat
    (lt_of_le_of_lt blocksLe (len - rem_len).toNat_lt)
  have shifted : (data.take len.toNat).drop rem_len.toNat =
      (data.drop rem_len.toNat).take (len - rem_len).toNat := by
    rw [List.drop_take, newLen]
  simp only [update, ← remEq, shifted, proper.transform_take _ blocksLe]
  rw [readAt_take (by omega), readAt_take (by omega)]

end Proper

/-- `ctx` has been fed exactly the bytes of `message`: `count` blocks and the pending `rest`. -/
structure Represents (alg : Sha2 σ) (ctx : Sha2Ctx σ) (message : List UInt8) (count : ℕ)
    (rest : List UInt8) : Prop where
  buffered : Buffered alg.blockSize.toNat alg.compress alg.h0 message ctx.h count rest
  tot_len : ctx.tot_len = UInt32.ofNat (count * alg.blockSize.toNat)
  len : ctx.len.toNat = rest.length
  block : ctx.block.take rest.length = rest
  block_length : ctx.block.length = 2 * alg.blockSize.toNat

theorem init_represents (proper : alg.Proper) : alg.Represents alg.init [] 0 [] where
  buffered := Buffered.nil proper.blockSize_pos
  tot_len := by simp [init]
  len := rfl
  block := rfl
  block_length := by simp [init]

section Update

variable {ctx : Sha2Ctx σ} {message data rest : List UInt8} {len : UInt32} {count : ℕ}
variable (proper : alg.Proper) (represents : alg.Represents ctx message count rest)
include represents

private theorem room_toNat :
    (alg.blockSize - ctx.len).toNat = alg.blockSize.toNat - rest.length := by
  have short := represents.buffered.short
  rw [UInt32.toNat_sub_of_le _ _ (UInt32.le_iff_toNat_le.mpr (by rw [represents.len]; omega)),
    represents.len]

include proper

private theorem sum_toNat (bound : len.toNat < 2 ^ 31) :
    (ctx.len + len).toNat = rest.length + len.toNat := by
  have short := represents.buffered.short
  have sizes := proper.blockSize_bounds
  rw [UInt32.toNat_add, represents.len, Nat.mod_eq_of_lt (by omega)]

/-- The bytes fit beside the pending ones: nothing is folded in. -/
private theorem update_short (short : rest.length + len.toNat < alg.blockSize.toNat)
    (readable : len.toNat ≤ data.length) (bound : len.toNat < 2 ^ 31) :
    ∃ next, alg.update ctx data len = some next ∧
      alg.Represents next (message ++ data.take len.toNat) count (rest ++ data.take len.toNat) := by
  have room := room_toNat represents
  have sum := sum_toNat proper represents bound
  have fits : len < alg.blockSize - ctx.len := UInt32.lt_iff_toNat_lt.mpr (by omega)
  have below : ctx.len + len < alg.blockSize := UInt32.lt_iff_toNat_lt.mpr (by omega)
  have taken : (data.take len.toNat).length = len.toNat := by simp [readable]
  have blockLength := represents.block_length
  refine ⟨{ ctx with
      len := ctx.len + len
      block := memcpyAt ctx.block ctx.len.toNat (data.take len.toNat) }, ?_, ?_⟩
  · rw [update, if_pos fits, readAt_of_le (by omega)]
    simp [below]
  · refine ⟨represents.buffered.extend ?_, represents.tot_len, ?_, ?_, ?_⟩
    · rw [List.length_append, taken]
      exact short
    · rw [List.length_append, taken]
      exact sum
    · rw [List.length_append, represents.len, take_memcpyAt _ _ _ (by omega), represents.block]
    · rw [memcpyAt_length (by rw [represents.len]; omega)]
      exact blockLength

/-- Completing the pending block and folding it in. -/
private theorem transform_block (first : List UInt8)
    (length : rest.length + first.length = alg.blockSize.toNat) :
    alg.transform ctx.h (memcpyAt ctx.block rest.length first) 1 =
      some (alg.compress ctx.h (rest ++ first)) := by
  have sizes := proper.blockSize_bounds
  have blockLength := represents.block_length
  have start : (memcpyAt ctx.block rest.length first).take alg.blockSize.toNat = rest ++ first := by
    rw [← length, take_memcpyAt _ _ _ (by omega), represents.block]
  have copied : (memcpyAt ctx.block rest.length first).length = 2 * alg.blockSize.toNat := by
    rw [memcpyAt_length (by omega), blockLength]
  rw [proper.transform_eq _ _ _ (by omega) (by omega), absorbBlocks_one, start]

variable {need blocks left : ℕ}

/-- What the branch with complete blocks computes, `need` bytes completing the pending block. -/
private theorem update_long_eq (complete : rest.length + need = alg.blockSize.toNat)
    (enough : len.toNat = need + (blocks * alg.blockSize.toNat + left))
    (short : left < alg.blockSize.toNat)
    (readable : len.toNat ≤ data.length) (bound : len.toNat < 2 ^ 31) :
    alg.update ctx data len = some
      { h := absorbBlocks alg.blockSize.toNat alg.compress
          (alg.compress ctx.h (rest ++ data.take need)) (data.drop need) blocks
        tot_len := ctx.tot_len + UInt32.ofNat ((blocks + 1) * alg.blockSize.toNat)
        len := UInt32.ofNat left
        block := memcpyAt (memcpyAt ctx.block rest.length (data.take need)) 0
          (((data.drop need).drop (blocks * alg.blockSize.toNat)).take left) } := by
  have room : (alg.blockSize - ctx.len).toNat = need := by
    rw [room_toNat represents]
    omega
  have sum := sum_toNat proper represents bound
  have sizes := proper.blockSize_bounds
  have notFits : ¬len < alg.blockSize - ctx.len := by
    rw [UInt32.lt_iff_toNat_lt]
    omega
  have notBelow : ¬ctx.len + len < alg.blockSize := by
    rw [UInt32.lt_iff_toNat_lt]
    omega
  have newLen : (len - (alg.blockSize - ctx.len)).toNat = blocks * alg.blockSize.toNat + left := by
    rw [UInt32.toNat_sub_of_le _ _ (UInt32.le_iff_toNat_le.mpr (by omega))]
    omega
  have blockNb : ((len - (alg.blockSize - ctx.len)) / alg.blockSize).toNat = blocks := by
    rw [UInt32.toNat_div, newLen, mul_comm, Nat.mul_add_div proper.blockSize_pos,
      Nat.div_eq_of_lt short, add_zero]
  have remLen : ((len - (alg.blockSize - ctx.len)) % alg.blockSize).toNat = left := by
    rw [UInt32.toNat_mod, newLen, Nat.mul_add_mod_of_lt short]
  have offset : (((len - (alg.blockSize - ctx.len)) / alg.blockSize) <<< alg.shift).toNat =
      blocks * alg.blockSize.toNat := by
    rw [proper.shiftLeft_toNat (by rw [blockNb]; omega), blockNb]
  have positive := proper.blockSize_pos
  have blocksLe : blocks ≤ blocks * alg.blockSize.toNat := Nat.le_mul_of_pos_right _ positive
  have succNb : ((len - (alg.blockSize - ctx.len)) / alg.blockSize + 1).toNat = blocks + 1 := by
    rw [UInt32.toNat_add, blockNb, UInt32.toNat_one]
    exact Nat.mod_eq_of_lt (by omega)
  have total : ((len - (alg.blockSize - ctx.len)) / alg.blockSize + 1) <<< alg.shift =
      UInt32.ofNat ((blocks + 1) * alg.blockSize.toNat) := by
    have fits : (blocks + 1) * alg.blockSize.toNat < 2 ^ 32 := by
      rw [Nat.succ_mul]
      omega
    rw [← UInt32.toNat_inj, proper.shiftLeft_toNat (by rwa [succNb]), succNb,
      UInt32.toNat_ofNat_of_lt' fits]
  have leftToNat : (UInt32.ofNat left).toNat = left :=
    UInt32.toNat_ofNat_of_lt' (lt_trans short (by rw [UInt32.size]; omega))
  have pendingLen : (len - (alg.blockSize - ctx.len)) % alg.blockSize = UInt32.ofNat left := by
    rw [← UInt32.toNat_inj, remLen, leftToNat]
  have firstLength : (data.take need).length = need := List.length_take_of_le (by omega)
  have shiftedLength : (data.drop need).length = data.length - need := List.length_drop
  have folded := transform_block proper represents (data.take need)
    (by rw [firstLength, complete])
  have more := proper.transform_eq (alg.compress ctx.h (rest ++ data.take need))
    (data.drop need) blocks (by omega) (by omega)
  simp only [update, if_neg notFits, if_neg notBelow, room, represents.len, blockNb, offset,
    total, pendingLen, leftToNat, readAt_of_le (show 0 + need ≤ data.length by omega), List.drop_zero,
    Option.bind_eq_bind, Option.bind_some, folded, more,
    readAt_of_le (show blocks * alg.blockSize.toNat + left ≤ (data.drop need).length by omega)]

/-- The bytes complete a block: it is folded in, then every further complete block. -/
private theorem update_long (long : alg.blockSize.toNat ≤ rest.length + len.toNat)
    (readable : len.toNat ≤ data.length) (bound : len.toNat < 2 ^ 31) :
    ∃ next count rest, alg.update ctx data len = some next ∧
      alg.Represents next (message ++ data.take len.toNat) count rest := by
  have sizes := proper.blockSize_bounds
  have restShort := represents.buffered.short
  have blockLength := represents.block_length
  obtain ⟨need, complete⟩ : ∃ need, rest.length + need = alg.blockSize.toNat :=
    ⟨alg.blockSize.toNat - rest.length, by omega⟩
  have short := Nat.mod_lt (len.toNat - need) proper.blockSize_pos
  have division := Nat.div_add_mod' (len.toNat - need) alg.blockSize.toNat
  generalize (len.toNat - need) / alg.blockSize.toNat = blocks at division
  generalize (len.toNat - need) % alg.blockSize.toNat = left at division short
  have enough : len.toNat = need + (blocks * alg.blockSize.toNat + left) := by omega
  have equation := update_long_eq proper represents complete enough short readable bound
  refine ⟨_, count + (blocks + 1), ((data.drop need).drop (blocks * alg.blockSize.toNat)).take left,
    equation, ?_⟩
  have firstLength : (data.take need).length = need := List.length_take_of_le (by omega)
  have shiftedLength : (data.drop need).length = data.length - need := List.length_drop
  obtain ⟨middle, middleDef⟩ : ∃ middle, middle =
    (data.drop need).take (blocks * alg.blockSize.toNat) := ⟨_, rfl⟩
  have middleLength : middle.length = blocks * alg.blockSize.toNat := by
    rw [middleDef, List.length_take_of_le (by omega)]
  obtain ⟨last, lastDef⟩ : ∃ last, last =
    ((data.drop need).drop (blocks * alg.blockSize.toNat)).take left := ⟨_, rfl⟩
  have lastLength : last.length = left := by
    rw [lastDef, List.length_take_of_le (by rw [List.length_drop]; omega)]
  have cut : data.take len.toNat = data.take need ++ middle ++ last := by
    rw [enough, List.take_add, List.take_add, ← middleDef, ← lastDef, List.append_assoc]
  have state : absorbBlocks alg.blockSize.toNat alg.compress ctx.h (rest ++ (data.take need ++ middle))
      (blocks + 1) = absorbBlocks alg.blockSize.toNat alg.compress
        (alg.compress ctx.h (rest ++ data.take need)) (data.drop need) blocks := by
    have blockFull : (rest ++ data.take need).length = 1 * alg.blockSize.toNat := by
      rw [List.length_append, firstLength, one_mul, complete]
    rw [← List.append_assoc, add_comm, absorbBlocks_append _ _ _ _ blockFull, absorbBlocks_one,
      List.take_of_length_le (by rw [blockFull, one_mul]), middleDef,
      absorbBlocks_take _ _ _ (by omega)]
  rw [← lastDef, cut]
  refine ⟨?_, ?_, ?_, ?_, ?_⟩
  · rw [← state]
    refine represents.buffered.advance _ _ _ ?_ (lastLength ▸ short)
    rw [List.length_append, List.length_append, firstLength, middleLength, Nat.succ_mul]
    omega
  · rw [represents.tot_len, add_mul count, UInt32.ofNat_add]
  · rw [UInt32.toNat_ofNat_of_lt' (lt_trans short (by rw [UInt32.size]; omega)), lastLength]
  · have copied := take_memcpyAt (memcpyAt ctx.block rest.length (data.take need)) last 0
      (Nat.zero_le _)
    rwa [zero_add, List.take_zero, List.nil_append] at copied
  · have firstCopy : (memcpyAt ctx.block rest.length (data.take need)).length =
        2 * alg.blockSize.toNat := by
      rw [memcpyAt_length (by omega), blockLength]
    rw [memcpyAt_length (by omega), firstCopy]

variable (data len) in
/-- Feeding `len` more bytes to a context. -/
theorem update_represents (readable : len.toNat ≤ data.length) (bound : len.toNat < 2 ^ 31) :
    ∃ next count rest, alg.update ctx data len = some next ∧
      alg.Represents next (message ++ data.take len.toNat) count rest := by
  by_cases short : rest.length + len.toNat < alg.blockSize.toNat
  · obtain ⟨next, updated, holds⟩ := update_short proper represents short readable bound
    exact ⟨next, _, _, updated, holds⟩
  · exact update_long proper represents (by omega) readable bound

end Update

/-- Blocks that the padded end of a message occupies. -/
def lastBlocks (alg : Sha2 σ) (length : ℕ) : ℕ :=
  if alg.blockSize.toNat - alg.tail.toNat < length % alg.blockSize.toNat then 2 else 1

/-- The bytes that `final` appends: the end mark, zeros, and the low 32 bits of the bit length. -/
def padding (alg : Sha2 σ) (length : ℕ) : List UInt8 :=
  0x80 :: List.replicate
    (alg.lastBlocks length * alg.blockSize.toNat - length % alg.blockSize.toNat - 5) 0 ++
    unpackWord (UInt32.ofNat (length * 8))

/-- The digest as a function of the message. -/
def digest (alg : Sha2 σ) (message : List UInt8) : List UInt8 :=
  alg.unpack (absorb alg.blockSize.toNat alg.compress alg.h0 (message ++ alg.padding message.length))

/-- The buffer `final` builds, for a padded end of `size` bytes. -/
private theorem take_finalBlock {block rest : List UInt8} (word : List UInt8) {size : ℕ}
    (start : block.take rest.length = rest) (room : rest.length + 5 ≤ size)
    (wordLength : word.length = 4) :
    (memcpyAt ((memcpyAt block rest.length (List.replicate (size - rest.length) 0)).set
      rest.length 0x80) (size - 4) word).take size =
        rest ++ (0x80 :: List.replicate (size - rest.length - 5) 0 ++ word) := by
  obtain ⟨zeros, zerosEq⟩ : ∃ zeros, size = rest.length + 1 + zeros + 4 :=
    ⟨size - rest.length - 5, by omega⟩
  have marked : (memcpyAt block rest.length (List.replicate (size - rest.length) 0)).set
      rest.length 0x80 = (rest ++ 0x80 :: List.replicate zeros 0) ++
        (List.replicate 4 0 ++ block.drop size) := by
    have count : size - rest.length = 1 + zeros + 4 := by omega
    rw [memcpyAt, start, List.length_replicate, Nat.add_sub_cancel' (by omega), List.append_assoc,
      List.set_append_right _ _ le_rfl, Nat.sub_self, count, List.replicate_add, List.replicate_add]
    simp
  have prefixLength : (rest ++ 0x80 :: List.replicate zeros 0).length = size - 4 := by
    simp only [List.length_append, List.length_cons, List.length_replicate]
    omega
  have whole := take_memcpyAt ((rest ++ 0x80 :: List.replicate zeros 0) ++
    (List.replicate 4 0 ++ block.drop size)) word (size - 4)
    (by rw [List.length_append, prefixLength]; omega)
  rw [marked]
  rw [wordLength, show size - 4 + 4 = size by omega, ← prefixLength, List.take_left] at whole
  rw [← prefixLength, whole, show size - rest.length - 5 = zeros by omega]
  simp

theorem padding_length (proper : alg.Proper) (length : ℕ) :
    length % alg.blockSize.toNat + (alg.padding length).length =
      alg.lastBlocks length * alg.blockSize.toNat := by
  have tail := proper.tail_bounds
  have below := Nat.mod_lt length proper.blockSize_pos
  have room : length % alg.blockSize.toNat + 5 ≤ alg.lastBlocks length * alg.blockSize.toNat := by
    rw [lastBlocks]
    split
    · omega
    · omega
  simp only [padding, List.length_append, List.length_cons, List.length_replicate,
    unpackWord_length]
  omega

section Final

variable {ctx : Sha2Ctx σ} {message rest : List UInt8} {count : ℕ}
variable (proper : alg.Proper) (represents : alg.Represents ctx message count rest)
include represents

private theorem len_b_eq :
    (ctx.tot_len + ctx.len) <<< 3 = UInt32.ofNat (message.length * 8) := by
  have len : ctx.len = UInt32.ofNat rest.length := by rw [← represents.len, UInt32.ofNat_toNat]
  rw [represents.tot_len, len, ← UInt32.ofNat_add, ← represents.buffered.length_eq,
    ← UInt32.toNat_inj, UInt32.toNat_shiftLeft]
  simp [Nat.shiftLeft_eq]

include proper

private theorem block_nb_eq :
    (1 + if alg.blockSize - alg.tail < ctx.len % alg.blockSize then 1 else 0 : UInt32) =
      UInt32.ofNat (alg.lastBlocks message.length) := by
  have tail := proper.tail_bounds
  have limit : (alg.blockSize - alg.tail).toNat = alg.blockSize.toNat - alg.tail.toNat :=
    UInt32.toNat_sub_of_le _ _ (UInt32.le_iff_toNat_le.mpr tail.2)
  have inBlock : (ctx.len % alg.blockSize).toNat = message.length % alg.blockSize.toNat := by
    rw [UInt32.toNat_mod, represents.len, represents.buffered.rest_length, Nat.mod_mod]
  simp only [lastBlocks, UInt32.lt_iff_toNat_lt, limit, inBlock]
  split <;> rfl

/-- The digest of a context is the digest of the message it represents. -/
theorem final_eq : alg.final ctx = some (alg.digest message) := by
  have sizes := proper.blockSize_bounds
  have short := represents.buffered.short
  have restLength := represents.buffered.rest_length
  have blockLength := represents.block_length
  have blockNb := block_nb_eq proper represents
  have padded := padding_length proper message.length
  have few : alg.lastBlocks message.length ≤ 2 := by
    rw [lastBlocks]
    split <;> decide
  have paddingEq : alg.padding message.length = 0x80 :: List.replicate
      (alg.lastBlocks message.length * alg.blockSize.toNat - rest.length - 5) 0 ++
        unpackWord (UInt32.ofNat (message.length * 8)) := by
    rw [padding, restLength]
  rw [← restLength] at padded
  generalize alg.lastBlocks message.length = blocks at blockNb padded few paddingEq
  have total : blocks * alg.blockSize.toNat ≤ 2 * alg.blockSize.toNat :=
    Nat.mul_le_mul_right _ few
  have room : rest.length + 5 ≤ blocks * alg.blockSize.toNat := by
    rw [← padded, paddingEq]
    simp [unpackWord_length]
  have small : (UInt32.ofNat blocks).toNat = blocks :=
    UInt32.toNat_ofNat_of_lt' (by rw [UInt32.size]; omega)
  have pmLen : (UInt32.ofNat blocks <<< alg.shift).toNat = blocks * alg.blockSize.toNat := by
    rw [proper.shiftLeft_toNat (by rw [small]; omega), small]
  have lenLe : ctx.len ≤ UInt32.ofNat blocks <<< alg.shift := by
    rw [UInt32.le_iff_toNat_le, pmLen, represents.len]
    omega
  have wordLe : 4 ≤ UInt32.ofNat blocks <<< alg.shift := by
    rw [UInt32.le_iff_toNat_le, pmLen]
    exact le_trans (Nat.le_add_left 4 (rest.length + 1)) room
  have zeros : (UInt32.ofNat blocks <<< alg.shift - ctx.len).toNat =
      blocks * alg.blockSize.toNat - rest.length := by
    rw [UInt32.toNat_sub_of_le _ _ lenLe, pmLen, represents.len]
  have field : (UInt32.ofNat blocks <<< alg.shift - 4).toNat = blocks * alg.blockSize.toNat - 4 := by
    rw [UInt32.toNat_sub_of_le _ _ wordLe, pmLen]
    rfl
  have built := take_finalBlock (unpackWord (UInt32.ofNat (message.length * 8)))
    represents.block room (unpackWord_length _)
  rw [← paddingEq] at built
  simp only [final, blockNb, len_b_eq represents, zeros, field, represents.len, small]
  generalize memcpyAt ((memcpyAt ctx.block rest.length (List.replicate
    (blocks * alg.blockSize.toNat - rest.length) 0)).set rest.length 0x80)
    (blocks * alg.blockSize.toNat - 4) (unpackWord (UInt32.ofNat (message.length * 8))) = buffer
    at built
  have whole : (rest ++ alg.padding message.length).length = blocks * alg.blockSize.toNat := by
    rw [List.length_append, padded]
  have inside : blocks * alg.blockSize.toNat ≤ buffer.length := by
    rw [← built, List.length_take] at whole
    omega
  rw [proper.transform_eq _ _ _ inside (by omega), ← absorbBlocks_take _ _ _ inside, built,
    represents.buffered.finish proper.blockSize_pos whole]
  rfl

end Final

end Sha2

theorem sha256_proper : sha256.Proper where
  shift_bounds := by decide
  blockSize_eq := by decide
  tail_bounds := by decide

theorem sha512_proper : sha512.Proper where
  shift_bounds := by decide
  blockSize_eq := by decide
  tail_bounds := by decide

/-- `ctx` has been fed exactly the bytes of `message`: `count` blocks and the pending `rest`. -/
structure SHA1_CTX.Represents (ctx : SHA1_CTX) (message : List UInt8) (count : ℕ)
    (rest : List UInt8) : Prop where
  buffered : Buffered SHA1_BLOCK_SIZE SHA1_transform SHA1_h0 message ctx.state count rest
  count_eq : ctx.count = UInt64.ofNat message.length
  buf : ctx.buf.take rest.length = rest
  buf_length : ctx.buf.length = SHA1_BLOCK_SIZE

theorem SHA1_init_represents : SHA1_init.Represents [] 0 [] where
  buffered := Buffered.nil (by decide)
  count_eq := rfl
  buf := rfl
  buf_length := rfl

/-- The loop invariant of `SHA1_update`, where `count` already includes the bytes to come. -/
private structure SHA1_Loop (acc : SHA1_CTX × ℕ) (message : List UInt8) (total : UInt64) : Prop where
  buffered : ∃ count rest, Buffered SHA1_BLOCK_SIZE SHA1_transform SHA1_h0 message acc.1.state count
    rest ∧ acc.2 = rest.length ∧ acc.1.buf.take rest.length = rest
  count_eq : acc.1.count = total
  buf_length : acc.1.buf.length = SHA1_BLOCK_SIZE

private theorem SHA1_updateByte_loop {acc : SHA1_CTX × ℕ} {message : List UInt8} {total : UInt64}
    (loop : SHA1_Loop acc message total) (byte : UInt8) :
    SHA1_Loop (SHA1_updateByte acc byte) (message ++ [byte]) total := by
  obtain ⟨ctx, i⟩ := acc
  obtain ⟨⟨count, rest, buffered, index, start⟩, count_eq, buf_length⟩ := loop
  dsimp only at index start count_eq buf_length
  subst index
  have short := buffered.short
  have stored : (ctx.buf.set rest.length byte).take (rest.length + 1) = rest ++ [byte] := by
    rw [List.take_add_one, List.take_set_of_le le_rfl, start, List.getElem?_set_self (by omega)]
    rfl
  simp only [SHA1_updateByte]
  split
  · next full =>
    have block : (ctx.buf.set rest.length byte) = rest ++ [byte] := by
      rw [← stored, List.take_of_length_le (by rw [List.length_set]; omega)]
    have advanced := buffered.advance [byte] [] 1
      (by simp [full]) (by decide)
    rw [absorbBlocks_one, List.take_of_length_le (by simp [full])] at advanced
    refine ⟨⟨count + 1, [], ?_, rfl, rfl⟩, count_eq, ?_⟩
    · simpa only [List.append_nil, block] using advanced
    · simpa using buf_length
  · next partly =>
    have below : (rest ++ [byte]).length < SHA1_BLOCK_SIZE := by
      rw [List.length_append, List.length_singleton]
      omega
    refine ⟨⟨count, rest ++ [byte], buffered.extend below, by simp, ?_⟩, count_eq, ?_⟩
    · simpa using stored
    · simpa using buf_length

private theorem SHA1_updateBytes_loop {acc : SHA1_CTX × ℕ} {message : List UInt8} {total : UInt64}
    (loop : SHA1_Loop acc message total) (bytes : List UInt8) :
    SHA1_Loop (bytes.foldl SHA1_updateByte acc) (message ++ bytes) total := by
  induction bytes generalizing acc message with
  | nil => simpa using loop
  | cons byte bytes ih =>
    have step := ih (SHA1_updateByte_loop loop byte)
    rwa [List.append_assoc, List.singleton_append] at step

theorem SHA1_count_mod {ctx : SHA1_CTX} {message rest : List UInt8} {count : ℕ}
    (represents : ctx.Represents message count rest) :
    ctx.count.toNat % SHA1_BLOCK_SIZE = message.length % SHA1_BLOCK_SIZE := by
  rw [represents.count_eq, UInt64.toNat_ofNat']
  exact Nat.mod_mod_of_dvd _ (by decide)

/-- Feeding more bytes to a context. -/
theorem SHA1_updateBytes_represents {ctx : SHA1_CTX} {message rest : List UInt8} {count : ℕ}
    (represents : ctx.Represents message count rest) (bytes : List UInt8) :
    ∃ count rest, (SHA1_updateBytes ctx bytes).Represents (message ++ bytes) count rest := by
  have index : ctx.count.toNat % SHA1_BLOCK_SIZE = rest.length := by
    rw [SHA1_count_mod represents, represents.buffered.rest_length]
  have start : SHA1_Loop ({ ctx with count := ctx.count + UInt64.ofNat bytes.length }, rest.length)
      message (ctx.count + UInt64.ofNat bytes.length) :=
    ⟨⟨count, rest, represents.buffered, rfl, represents.buf⟩, rfl, represents.buf_length⟩
  obtain ⟨⟨count, rest, buffered, -, buf⟩, count_eq, buf_length⟩ := SHA1_updateBytes_loop start bytes
  rw [SHA1_updateBytes, index]
  refine ⟨count, rest, buffered, ?_, buf, buf_length⟩
  rw [count_eq, represents.count_eq, List.length_append, UInt64.ofNat_add]

/-- Zero bytes between the end mark and the length field of a SHA-1 message. -/
def SHA1_zeros (length : ℕ) : ℕ := (119 - length % SHA1_BLOCK_SIZE) % SHA1_BLOCK_SIZE

/-- The eight bytes of the bit length. -/
def SHA1_lengthField (length : ℕ) : List UInt8 :=
  (List.range 8).map (SHA1_lengthByte (UInt64.ofNat length * 8))

/-- The bytes that `SHA1_final` appends. -/
def SHA1_padding (length : ℕ) : List UInt8 :=
  [0x80] ++ List.replicate (SHA1_zeros length) 0 ++ SHA1_lengthField length

/-- The SHA-1 digest as a function of the message. -/
def SHA1_digest (message : List UInt8) : List UInt8 :=
  (absorb SHA1_BLOCK_SIZE SHA1_transform SHA1_h0
    (message ++ SHA1_padding message.length)).toList.flatMap unpackWord

/-- The padding loop stops as soon as eight bytes are missing from a block. -/
theorem SHA1_padZeros_represents {turns zeros : ℕ} (enough : zeros ≤ turns) {ctx : SHA1_CTX}
    {message rest : List UInt8} {count : ℕ} (represents : ctx.Represents message count rest)
    (first : ∀ fewer < zeros, (message.length + fewer) % SHA1_BLOCK_SIZE ≠ SHA1_BLOCK_SIZE - 8)
    (reached : (message.length + zeros) % SHA1_BLOCK_SIZE = SHA1_BLOCK_SIZE - 8) :
    ∃ count rest, (SHA1_padZeros turns ctx).Represents (message ++ List.replicate zeros 0)
      count rest := by
  induction zeros generalizing turns ctx message rest count with
  | zero =>
    rw [add_zero] at reached
    have unchanged : SHA1_padZeros turns ctx = ctx := by
      cases turns with
      | zero => rfl
      | succ turns => rw [SHA1_padZeros, SHA1_count_mod represents, if_neg (not_not.mpr reached)]
    rw [unchanged, List.replicate_zero, List.append_nil]
    exact ⟨count, rest, represents⟩
  | succ zeros ih =>
    obtain ⟨turns, rfl⟩ : ∃ fewer, turns = fewer + 1 := ⟨turns - 1, by omega⟩
    obtain ⟨count, rest, next⟩ := SHA1_updateBytes_represents represents [0]
    have length : (message ++ [0]).length = message.length + 1 := by simp
    have missing := first 0 (Nat.succ_pos zeros)
    rw [add_zero] at missing
    have remaining := ih (Nat.le_of_succ_le_succ enough) next
      (fun fewer below => by
        rw [length, add_assoc, add_comm 1]
        exact first (fewer + 1) (Nat.succ_lt_succ below))
      (by rw [length, add_assoc, add_comm 1]; exact reached)
    rw [List.append_assoc, List.singleton_append, ← List.replicate_succ] at remaining
    rwa [SHA1_padZeros, SHA1_count_mod represents, if_pos missing]

private theorem SHA1_lengthField_represents (cnt : UInt64) (indices : List ℕ) {ctx : SHA1_CTX}
    {message rest : List UInt8} {count : ℕ} (represents : ctx.Represents message count rest) :
    ∃ count rest, (indices.foldl (fun ctx i => SHA1_updateBytes ctx [SHA1_lengthByte cnt i])
      ctx).Represents (message ++ indices.map (SHA1_lengthByte cnt)) count rest := by
  induction indices generalizing ctx message rest count with
  | nil => exact ⟨count, rest, by simpa using represents⟩
  | cons index indices ih =>
    obtain ⟨count, rest, next⟩ := SHA1_updateBytes_represents represents [SHA1_lengthByte cnt index]
    have step := ih next
    rwa [List.append_assoc, List.singleton_append] at step

private theorem SHA1_zeros_reached (length : ℕ) :
    (length + 1 + SHA1_zeros length) % SHA1_BLOCK_SIZE = SHA1_BLOCK_SIZE - 8 := by
  simp only [SHA1_zeros, SHA1_BLOCK_SIZE]
  omega

private theorem SHA1_zeros_first {length fewer : ℕ} (below : fewer < SHA1_zeros length) :
    (length + 1 + fewer) % SHA1_BLOCK_SIZE ≠ SHA1_BLOCK_SIZE - 8 := by
  simp only [SHA1_zeros, SHA1_BLOCK_SIZE] at below ⊢
  omega

/-- The digest of a context is the digest of the message it represents. -/
theorem SHA1_final_eq {ctx : SHA1_CTX} {message rest : List UInt8} {count : ℕ}
    (represents : ctx.Represents message count rest) : SHA1_final ctx = SHA1_digest message := by
  obtain ⟨_, _, marked⟩ := SHA1_updateBytes_represents represents [0x80]
  have markedLength : (message ++ [0x80]).length = message.length + 1 := by simp
  have few : SHA1_zeros message.length < SHA1_BLOCK_SIZE := Nat.mod_lt _ (by decide)
  obtain ⟨_, _, filled⟩ := SHA1_padZeros_represents few.le marked
    (fun fewer below => by rw [markedLength]; exact SHA1_zeros_first below)
    (by rw [markedLength]; exact SHA1_zeros_reached message.length)
  obtain ⟨count, rest, closed⟩ :=
    SHA1_lengthField_represents (ctx.count * 8) (List.range 8) filled
  have padded : message ++ [0x80] ++ List.replicate (SHA1_zeros message.length) 0 ++
      (List.range 8).map (SHA1_lengthByte (ctx.count * 8)) = message ++ SHA1_padding message.length := by
    rw [represents.count_eq, SHA1_padding, SHA1_lengthField]
    simp only [List.append_assoc]
  rw [padded] at closed
  have multiple : (message ++ SHA1_padding message.length).length % SHA1_BLOCK_SIZE = 0 := by
    have reached := SHA1_zeros_reached message.length
    simp only [SHA1_padding, SHA1_lengthField, List.length_append, List.length_singleton,
      List.length_replicate, List.length_map, List.length_range, SHA1_BLOCK_SIZE] at reached ⊢
    omega
  have nothing : rest.length = 0 := by rw [closed.buffered.rest_length, multiple]
  have whole := closed.buffered.length_eq
  rw [nothing, add_zero] at whole
  rw [SHA1_final, SHA1_digest, absorb_of_length _ _ (by decide) whole, ← closed.buffered.state_eq]

theorem SHA1_digest_length (message : List UInt8) :
    (SHA1_digest message).length = SHA1_DIGEST_SIZE := by
  simp [SHA1_digest, List.length_flatMap, unpackWord_length, SHA1_DIGEST_SIZE]

theorem sha256_digest_length (message : List UInt8) :
    (sha256.digest message).length = SHA256_DIGEST_SIZE := by
  simp [Sha2.digest, sha256, List.length_flatMap, unpackWord_length, SHA256_DIGEST_SIZE]

theorem sha512_digest_length (message : List UInt8) :
    (sha512.digest message).length = SHA512_DIGEST_SIZE := by
  simp [Sha2.digest, sha512, List.length_flatMap, unpackWord64_length, SHA512_DIGEST_SIZE]

end ChromiumOS.Vboot
