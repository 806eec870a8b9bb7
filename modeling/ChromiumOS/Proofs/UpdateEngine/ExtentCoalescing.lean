import ChromiumOS.Model.UpdateEngine.GraphUtils

/-! # Coalescing blocks into extents

As long as no extent goes beyond the largest block number, the extents of a sequence of blocks are runs of
consecutive numbers, a lone hole being a run of one. The sum that is compared with the next block wraps only
behind the hole marker, and then a following block 0 is taken for one more block of the run.
-/

namespace ChromiumOS.UpdateEngine

/-- The block before the hole marker. -/
def kLastBlock : UInt64 := 0xFFFFFFFFFFFFFFFE

namespace Extent

/-- The blocks that an extent stands for; a hole stands for holes. -/
def expand (extent : Extent) : List ℕ :=
  if extent.start_block = kSparseHole then List.replicate extent.num_blocks.toNat kSparseHole.toNat
  else List.range' extent.start_block.toNat extent.num_blocks.toNat

/-- The test by which a block is taken into an extent, for the first block of another extent. -/
def Continued (first second : Extent) : Prop := first.start_block + first.num_blocks = second.start_block

/-- One extent stands for the blocks of two. -/
def Mergeable (first second : Extent) : Prop := ∃ merged, expand merged = expand first ++ expand second

/-- An extent with a block or more and none beyond the largest number. -/
structure Proper (extent : Extent) : Prop where
  positive : 0 < extent.num_blocks.toNat
  bound : extent.start_block.toNat + extent.num_blocks.toNat ≤ 2 ^ 64

theorem expand_length (extent : Extent) : extent.expand.length = extent.num_blocks.toNat := by
  rw [expand]
  split
  · exact List.length_replicate
  · exact List.length_range'

theorem kSparseHole_toNat : kSparseHole.toNat = 2 ^ 64 - 1 := rfl

theorem kLastBlock_toNat : kLastBlock.toNat = 2 ^ 64 - 2 := rfl

/-- A hole is a run of one as well. -/
theorem Proper.expand_eq {extent : Extent} (proper : extent.Proper) :
    extent.expand = List.range' extent.start_block.toNat extent.num_blocks.toNat := by
  rw [expand]
  split
  · next hole =>
    have positive := proper.positive
    have bound := proper.bound
    rw [hole, kSparseHole_toNat] at bound
    have one : extent.num_blocks.toNat = 1 := by omega
    rw [one, hole]
    rfl
  · rfl

end Extent

open Extent

/-- The blocks that some extents stand for. -/
def expansion (extents : List Extent) : List ℕ := extents.flatMap expand

/-- The extents of a sequence of blocks. -/
def coalesce (blocks : List UInt64) : List Extent := blocks.foldl AppendBlockToExtents []

theorem coalesce_append (blocks : List UInt64) (block : UInt64) :
    coalesce (blocks ++ [block]) = AppendBlockToExtents (coalesce blocks) block := by
  rw [coalesce, List.foldl_append, ← coalesce]
  rfl

/-- A block continues the last extent or starts another. -/
theorem AppendBlockToExtents_cases (extents : List Extent) (block : UInt64) :
    (∃ before last, extents = before ++ [last] ∧ last.start_block + last.num_blocks = block ∧
      AppendBlockToExtents extents block = before ++ [{ last with num_blocks := last.num_blocks + 1 }]) ∨
    (∀ last ∈ extents.getLast?, last.start_block + last.num_blocks ≠ block) ∧
      AppendBlockToExtents extents block = extents ++ [⟨block, 1⟩] := by
  rcases List.eq_nil_or_concat extents with rfl | ⟨before, last, rfl⟩
  · exact .inr ⟨by simp, rfl⟩
  · rw [AppendBlockToExtents]
    simp only [List.concat_eq_append, List.getLast?_append, List.getLast?_singleton, Option.some_or,
      List.dropLast_concat]
    split
    · next continued => exact .inl ⟨before, last, rfl, continued, rfl⟩
    · next apart =>
      refine .inr ⟨?_, rfl⟩
      intro each same
      obtain rfl := Option.some.inj same
      exact apart

theorem expansion_append (first second : List Extent) :
    expansion (first ++ second) = expansion first ++ expansion second :=
  List.flatMap_append

theorem expansion_singleton (extent : Extent) : expansion [extent] = extent.expand := List.append_nil _

theorem expand_new (block : UInt64) : expand ⟨block, 1⟩ = [block.toNat] := by
  rw [expand]
  split
  · next hole =>
    rw [show block = kSparseHole from hole]
    rfl
  · rfl

theorem toNat_succ {value : UInt64} (bound : value.toNat + 1 < 2 ^ 64) : (value + 1).toNat = value.toNat + 1 := by
  rw [UInt64.toNat_add, UInt64.toNat_one, Nat.mod_eq_of_lt bound]

/-- One block more is put behind the others. -/
theorem expand_longer {extent : Extent} (bound : extent.num_blocks.toNat + 1 < 2 ^ 64) :
    ∃ block, expand { extent with num_blocks := extent.num_blocks + 1 } = extent.expand ++ [block] := by
  rw [expand, expand]
  dsimp only
  rw [toNat_succ bound]
  split
  · exact ⟨_, List.replicate_succ'⟩
  · exact ⟨_, List.range'_concat⟩

theorem num_blocks_le {extents : List Extent} {extent : Extent} (member : extent ∈ extents) :
    extent.num_blocks.toNat ≤ (expansion extents).length := by
  obtain ⟨before, after, rfl⟩ := List.append_of_mem member
  rw [expansion, List.flatMap_append, List.flatMap_cons, List.length_append, List.length_append, expand_length]
  omega

theorem AppendBlockToExtents_expansion {extents : List Extent} (bound : (expansion extents).length + 1 < 2 ^ 64)
    (block : UInt64) : ∃ value, expansion (AppendBlockToExtents extents block) = expansion extents ++ [value] := by
  obtain ⟨before, last, rfl, -, same⟩ | ⟨-, same⟩ := AppendBlockToExtents_cases extents block
  · have small : last.num_blocks.toNat ≤ (expansion (before ++ [last])).length := num_blocks_le (by simp)
    have room : last.num_blocks.toNat + 1 < 2 ^ 64 := by omega
    obtain ⟨value, longer⟩ := expand_longer room
    refine ⟨value, ?_⟩
    rw [same, expansion_append, expansion_append, expansion_singleton, expansion_singleton, longer,
      List.append_assoc]
  · refine ⟨block.toNat, ?_⟩
    rw [same, expansion_append, expansion_singleton, expand_new]

theorem coalesce_length {blocks : List UInt64} (bound : blocks.length < 2 ^ 64) :
    (expansion (coalesce blocks)).length = blocks.length := by
  induction blocks using List.reverseRecOn with
  | nil => rfl
  | append_singleton blocks block ih =>
    rw [List.length_append, List.length_singleton] at bound
    have before := ih (by omega)
    have room : (expansion (coalesce blocks)).length + 1 < 2 ^ 64 := by omega
    obtain ⟨value, same⟩ := AppendBlockToExtents_expansion room block
    rw [coalesce_append, same, List.length_append, List.length_append, before]
    rfl

/-- The extents are runs of numbers and stand for the blocks. -/
structure Faithful (blocks : List UInt64) (extents : List Extent) : Prop where
  proper : ∀ extent ∈ extents, extent.Proper
  expands : expansion extents = blocks.map UInt64.toNat

namespace Faithful

variable {blocks : List UInt64} {before extents : List Extent} {last : Extent}

/-- The last extent ends with the last block. -/
theorem getLast (faithful : Faithful blocks (before ++ [last])) :
    ∃ earlier block, blocks = earlier ++ [block] ∧
      block.toNat + 1 = last.start_block.toNat + last.num_blocks.toNat := by
  have proper := faithful.proper last (by simp)
  have positive := proper.positive
  have expands := faithful.expands
  obtain ⟨count, length⟩ : ∃ count, last.num_blocks.toNat = count + 1 :=
    Nat.exists_eq_add_one_of_ne_zero positive.ne'
  rw [expansion_append, expansion_singleton, proper.expand_eq, length, List.range'_concat, ← List.append_assoc,
    one_mul] at expands
  rcases List.eq_nil_or_concat blocks with rfl | ⟨earlier, block, rfl⟩
  · simp at expands
  · rw [List.concat_eq_append, List.map_append, List.map_singleton] at expands
    have same := List.append_inj_right' expands rfl
    have value : last.start_block.toNat + count = block.toNat := by simpa using same
    refine ⟨earlier, block, List.concat_eq_append .., ?_⟩
    omega

theorem length (faithful : Faithful blocks extents) : (expansion extents).length = blocks.length := by
  rw [faithful.expands, List.length_map]

/-- The next block is taken up faithfully unless it is a block 0 behind a hole. -/
theorem append (faithful : Faithful blocks extents) {block : UInt64} (bound : blocks.length + 1 < 2 ^ 64)
    (next : ∀ hole ∈ blocks.getLast?, ¬ (hole = kSparseHole ∧ block = 0)) :
    Faithful (blocks ++ [block]) (AppendBlockToExtents extents block) := by
  have total := faithful.length
  obtain ⟨before, last, rfl, continued, same⟩ | ⟨-, same⟩ := AppendBlockToExtents_cases extents block
  · have member : last ∈ before ++ [last] := by simp
    have small := num_blocks_le member
    have proper := faithful.proper last (by simp)
    have sum := congrArg UInt64.toNat continued
    rw [UInt64.toNat_add] at sum
    obtain ⟨earlier, hole, rfl, value⟩ := faithful.getLast
    have inside : last.start_block.toNat + last.num_blocks.toNat < 2 ^ 64 := by
      by_contra beyond
      have bound := proper.bound
      have full : last.start_block.toNat + last.num_blocks.toNat = 2 ^ 64 := by omega
      rw [full, Nat.mod_self] at sum
      apply next hole (by simp)
      constructor
      · rw [← UInt64.toNat_inj, kSparseHole_toNat]
        omega
      · rw [← UInt64.toNat_inj]
        exact sum.symm
    rw [Nat.mod_eq_of_lt inside] at sum
    have num_blocks : (last.num_blocks + 1).toNat = last.num_blocks.toNat + 1 := toNat_succ (by omega)
    have longer : Proper { last with num_blocks := last.num_blocks + 1 } := by
      constructor
      · dsimp only
        omega
      · dsimp only
        omega
    rw [same]
    constructor
    · intro each member
      rcases List.mem_append.mp member with earlier | only
      · exact faithful.proper each (List.mem_append_left _ earlier)
      · obtain rfl := List.mem_singleton.mp only
        exact longer
    · rw [expansion_append, expansion_singleton, longer.expand_eq]
      dsimp only
      rw [num_blocks, List.range'_concat, ← List.append_assoc, ← proper.expand_eq, ← expansion_singleton last,
        ← expansion_append, faithful.expands, one_mul, sum, List.map_append, List.map_append, List.map_append]
      rfl
  · rw [same]
    constructor
    · intro each member
      rcases List.mem_append.mp member with earlier | only
      · exact faithful.proper each earlier
      · obtain rfl := List.mem_singleton.mp only
        have below := block.toNat_lt
        exact ⟨Nat.one_pos, Nat.succ_le_of_lt below⟩
    · rw [expansion_append, expansion_singleton, expand_new, faithful.expands, List.map_append]
      rfl

/-- A block 0 behind a hole is lost. -/
theorem loses (faithful : Faithful (blocks ++ [kSparseHole]) extents) :
    expansion (AppendBlockToExtents extents 0) ≠ (blocks ++ [kSparseHole] ++ [0]).map UInt64.toNat := by
  rcases List.eq_nil_or_concat extents with rfl | ⟨before, last, rfl⟩
  · have expands := faithful.expands
    simp [expansion] at expands
  rw [List.concat_eq_append] at faithful ⊢
  obtain ⟨earlier, hole, same, value⟩ := faithful.getLast
  obtain rfl : kSparseHole = hole := by simpa using List.append_inj_right' same rfl
  have small := last.num_blocks.toNat_lt
  have start : 0 < last.start_block.toNat := by
    rw [kSparseHole_toNat] at value
    omega
  have wraps : last.start_block + last.num_blocks = 0 := by
    rw [← UInt64.toNat_inj, UInt64.toNat_add, ← value]
    rfl
  have taken : AppendBlockToExtents (before ++ [last]) 0 =
      before ++ [{ last with num_blocks := last.num_blocks + 1 }] := by
    rw [AppendBlockToExtents]
    simp only [List.getLast?_append, List.getLast?_singleton, Option.some_or, List.dropLast_concat, if_pos wraps]
  intro expands
  have prefix_same := faithful.expands
  rw [taken, List.map_append, ← prefix_same, expansion_append, expansion_append, expansion_singleton,
    expansion_singleton, List.append_assoc, List.append_cancel_left_eq] at expands
  have member : 0 ∈ expand { last with num_blocks := last.num_blocks + 1 } := by
    rw [expands]
    simp
  rw [expand] at member
  split at member
  · have zero := List.eq_of_mem_replicate member
    rw [kSparseHole_toNat] at zero
    omega
  · rw [List.mem_range'_1] at member
    dsimp only at member
    omega

end Faithful

/-- No hole is directly followed by block 0. -/
def ZerosApart (blocks : List UInt64) : Prop :=
  blocks.IsChain fun hole next => ¬ (hole = kSparseHole ∧ next = 0)

/-- A hole that is directly followed by another one is itself behind the block before the marker. -/
def HolesApart (blocks : List UInt64) : Prop :=
  ∀ before after, blocks = before ++ kSparseHole :: kSparseHole :: after →
    before.getLast? = some kLastBlock

theorem zerosApart_append {blocks : List UInt64} {block : UInt64} :
    ZerosApart (blocks ++ [block]) ↔
      ZerosApart blocks ∧ ∀ hole ∈ blocks.getLast?, ¬ (hole = kSparseHole ∧ block = 0) := by
  rw [ZerosApart, List.isChain_append, ← ZerosApart]
  simp only [List.isChain_singleton, true_and, List.head?_cons, Option.mem_some_iff, forall_eq']

theorem coalesce_faithful {blocks : List UInt64} (bound : blocks.length < 2 ^ 64) (apart : ZerosApart blocks) :
    Faithful blocks (coalesce blocks) := by
  induction blocks using List.reverseRecOn with
  | nil => exact ⟨by simp [coalesce], rfl⟩
  | append_singleton blocks block ih =>
    rw [List.length_append, List.length_singleton] at bound
    obtain ⟨earlier, next⟩ := zerosApart_append.mp apart
    rw [coalesce_append]
    exact (ih (by omega) earlier).append bound next

theorem zerosApart_of_expansion {blocks : List UInt64} (bound : blocks.length < 2 ^ 64)
    (expands : expansion (coalesce blocks) = blocks.map UInt64.toNat) : ZerosApart blocks := by
  induction blocks using List.reverseRecOn with
  | nil => exact List.IsChain.nil
  | append_singleton blocks block ih =>
    rw [List.length_append, List.length_singleton] at bound
    have fewer : blocks.length < 2 ^ 64 := by omega
    have length := coalesce_length fewer
    have room : (expansion (coalesce blocks)).length + 1 < 2 ^ 64 := by omega
    obtain ⟨value, longer⟩ := AppendBlockToExtents_expansion room block
    have whole := expands
    rw [coalesce_append, longer, List.map_append] at whole
    have apart := ih (by omega) (List.append_inj_left' whole rfl)
    refine zerosApart_append.mpr ⟨apart, ?_⟩
    rintro hole last ⟨rfl, rfl⟩
    obtain ⟨earlier, rfl⟩ := List.getLast?_eq_some_iff.mp last
    apply (coalesce_faithful (by omega) apart).loses
    rw [← coalesce_append]
    exact expands

/-- No extent goes on with the block that the next one starts with. -/
theorem coalesce_chain (blocks : List UInt64) :
    (coalesce blocks).IsChain fun first second => ¬ Continued first second := by
  induction blocks using List.reverseRecOn with
  | nil => exact List.IsChain.nil
  | append_singleton blocks block ih =>
    rw [coalesce_append]
    obtain ⟨before, last, same, -, longer⟩ | ⟨apart, longer⟩ :=
      AppendBlockToExtents_cases (coalesce blocks) block
    · rw [same, List.isChain_append] at ih
      rw [longer, List.isChain_append]
      refine ⟨ih.1, List.isChain_singleton _, ?_⟩
      intro first tail second head
      obtain rfl := Option.some.inj head
      exact ih.2.2 first tail last rfl
    · rw [longer, List.isChain_append]
      refine ⟨ih, List.isChain_singleton _, ?_⟩
      intro first tail second head
      obtain rfl := Option.some.inj head
      exact apart first tail

/-- The weight of some extents. -/
def weight (extents : List Extent) : UInt64 :=
  extents.foldl (fun weight extent => weight + extent.num_blocks) 0

theorem weight_append (extents : List Extent) (extent : Extent) :
    weight (extents ++ [extent]) = weight extents + extent.num_blocks := by
  rw [weight, List.foldl_append, ← weight]
  rfl

theorem weight_coalesce (blocks : List UInt64) : weight (coalesce blocks) = UInt64.ofNat blocks.length := by
  induction blocks using List.reverseRecOn with
  | nil => rfl
  | append_singleton blocks block ih =>
    have more : UInt64.ofNat (blocks ++ [block]).length = UInt64.ofNat blocks.length + 1 := by
      rw [List.length_append, UInt64.ofNat_add]
      rfl
    rw [coalesce_append, more, ← ih]
    obtain ⟨before, last, same, -, longer⟩ | ⟨-, longer⟩ := AppendBlockToExtents_cases (coalesce blocks) block
    · rw [longer, same, weight_append, weight_append, add_assoc]
    · rw [longer, weight_append]

/-- The edge is in the graph, with these extents. -/
def HasExtents (graph : Graph) (edge : Edge) (extents : List Extent) : Prop :=
  ∃ vertex, graph[edge.1]? = some vertex ∧ vertex.out_edges.lookup edge.2 = some ⟨extents⟩

theorem EdgeWeight_eq {graph : Graph} {edge : Edge} {extents : List Extent}
    (has : HasExtents graph edge extents) : EdgeWeight graph edge = some (weight extents) := by
  obtain ⟨vertex, there, properties⟩ := has
  simp only [EdgeWeight, there, Option.bind_eq_bind, Option.bind_some, properties]
  rfl


theorem holesApart_append {blocks : List UInt64} {block : UInt64} :
    HolesApart (blocks ++ [block]) ↔ HolesApart blocks ∧ ∀ earlier, blocks = earlier ++ [kSparseHole] →
      block = kSparseHole → earlier.getLast? = some kLastBlock := by
  constructor
  · intro apart
    constructor
    · rintro before after rfl
      exact apart before (after ++ [block]) (by simp)
    · rintro earlier rfl rfl
      exact apart earlier [] (by simp)
  · rintro ⟨apart, next⟩ before after same
    rcases List.eq_nil_or_concat after with rfl | ⟨after, last, rfl⟩
    · have cut : before ++ [kSparseHole, kSparseHole] = before ++ [kSparseHole] ++ [kSparseHole] := by simp
      rw [cut] at same
      obtain ⟨earlier, hole⟩ := List.append_inj' same rfl
      exact next before earlier (List.singleton_inj.mp hole)
    · have cut : before ++ kSparseHole :: kSparseHole :: (after.concat last) =
          before ++ kSparseHole :: kSparseHole :: after ++ [last] := by simp
      rw [cut] at same
      exact apart before after (List.append_inj_left' same rfl)

/-- The last extent is a hole just when the last block is one that did not continue the extent before. -/
theorem Faithful.last_hole {blocks : List UInt64} {before : List Extent} {last : Extent}
    (faithful : Faithful blocks (before ++ [last]))
    (chain : (before ++ [last]).IsChain fun first second => ¬ Continued first second) :
    last.start_block = kSparseHole ↔
      ∃ earlier, blocks = earlier ++ [kSparseHole] ∧ earlier.getLast? ≠ some kLastBlock := by
  have proper := faithful.proper last (by simp)
  have positive := proper.positive
  have bound := proper.bound
  have start := last.start_block.toNat_lt
  have expands := faithful.expands
  obtain ⟨earlier, block, rfl, value⟩ := faithful.getLast
  rw [expansion_append, expansion_singleton, proper.expand_eq, List.map_append] at expands
  constructor
  · intro hole
    rw [hole, kSparseHole_toNat] at bound value
    have one : last.num_blocks.toNat = 1 := by omega
    obtain rfl : block = kSparseHole := by
      rw [← UInt64.toNat_inj, kSparseHole_toNat]
      omega
    refine ⟨earlier, rfl, ?_⟩
    intro behind
    obtain ⟨blocks, rfl⟩ := List.getLast?_eq_some_iff.mp behind
    rw [one] at expands
    have earlier_faithful : Faithful (blocks ++ [kLastBlock]) before :=
      ⟨fun each member => faithful.proper each (List.mem_append_left _ member), List.append_inj_left' expands rfl⟩
    rcases List.eq_nil_or_concat before with rfl | ⟨extents, first, rfl⟩
    · have nothing := earlier_faithful.expands
      simp [expansion] at nothing
    · rw [List.concat_eq_append] at earlier_faithful chain
      obtain ⟨rest, marker, same, ends⟩ := earlier_faithful.getLast
      obtain rfl : kLastBlock = marker := List.singleton_inj.mp (List.append_inj_right' same rfl)
      apply (List.isChain_append.mp chain).2.2 first (by simp) last rfl
      rw [Continued, hole, ← UInt64.toNat_inj, UInt64.toNat_add, ← ends, kLastBlock_toNat, kSparseHole_toNat]
      norm_num
  · rintro ⟨others, same, apart⟩
    obtain ⟨rfl, hole⟩ := List.append_inj' same rfl
    obtain rfl : block = kSparseHole := List.singleton_inj.mp hole
    by_contra other
    have lower : last.start_block.toNat ≠ 2 ^ 64 - 1 := by
      rw [← kSparseHole_toNat]
      exact fun equal => other (UInt64.toNat_inj.mp equal)
    rw [kSparseHole_toNat] at value
    obtain ⟨count, length⟩ : ∃ count, last.num_blocks.toNat = count + 1 + 1 :=
      ⟨last.num_blocks.toNat - 2, by omega⟩
    rw [length, List.range'_concat, List.range'_concat, ← List.append_assoc] at expands
    have front := List.append_inj_left' expands rfl
    rcases List.eq_nil_or_concat earlier with rfl | ⟨rest, marker, rfl⟩
    · simp at front
    · rw [List.concat_eq_append, ← List.append_assoc, List.map_append] at front
      have ends : last.start_block.toNat + count = marker.toNat := by
        simpa using List.append_inj_right' front rfl
      apply apart
      rw [List.concat_eq_append, List.getLast?_append, List.getLast?_singleton, Option.some_or, Option.some_inj,
        ← UInt64.toNat_inj, kLastBlock_toNat]
      omega

theorem coalesce_holes {blocks : List UInt64} (bound : blocks.length < 2 ^ 64) (zeros : ZerosApart blocks) :
    ((coalesce blocks).IsChain fun first second =>
        ¬ (first.start_block = kSparseHole ∧ second.start_block = kSparseHole)) ↔ HolesApart blocks := by
  induction blocks using List.reverseRecOn with
  | nil =>
    refine ⟨fun _ before after same => ?_, fun _ => List.IsChain.nil⟩
    simp at same
  | append_singleton blocks block ih =>
    rw [List.length_append, List.length_singleton] at bound
    obtain ⟨earlier, next⟩ := zerosApart_append.mp zeros
    have short : blocks.length < 2 ^ 64 := by omega
    have faithful := coalesce_faithful short earlier
    have chain := coalesce_chain blocks
    rw [coalesce_append, holesApart_append, ← ih short earlier]
    obtain ⟨before, last, same, continued, longer⟩ | ⟨apart, longer⟩ :=
      AppendBlockToExtents_cases (coalesce blocks) block
    · rw [same] at faithful chain ⊢
      have late : ∀ earlier, blocks = earlier ++ [kSparseHole] → block = kSparseHole →
          earlier.getLast? = some kLastBlock := by
        rintro earlier rfl rfl
        obtain ⟨others, hole, ends, value⟩ := faithful.getLast
        obtain rfl : kSparseHole = hole := by simpa using List.append_inj_right' ends rfl
        have sum := congrArg UInt64.toNat continued
        rw [UInt64.toNat_add, ← value, kSparseHole_toNat] at sum
        omega
      rw [same] at longer
      rw [longer, List.isChain_append, List.isChain_append]
      simp only [List.isChain_singleton, List.head?_cons, Option.mem_some_iff, forall_eq']
      exact (and_iff_left late).symm
    · rw [longer, List.isChain_append]
      simp only [List.isChain_singleton, List.head?_cons, Option.mem_some_iff, forall_eq', true_and]
      refine and_congr_right fun _ => ?_
      rcases List.eq_nil_or_concat (coalesce blocks) with none | ⟨before, last, some⟩
      · have nothing := faithful.expands
        rw [none] at nothing
        obtain rfl : blocks = [] := by simpa [expansion] using nothing.symm
        simp [none]
      · rw [List.concat_eq_append] at some
        rw [some] at faithful chain ⊢
        have hole := faithful.last_hole chain
        simp only [List.getLast?_append, List.getLast?_singleton, Option.some_or, Option.mem_some_iff, forall_eq']
        rw [hole]
        constructor
        · intro lone earlier ends second
          by_contra behind
          exact lone ⟨⟨earlier, ends, behind⟩, second⟩
        · rintro follows ⟨⟨earlier, ends, behind⟩, second⟩
          exact behind (follows earlier ends second)

/-- Runs that follow one another and lone holes can be merged, and nothing else can. -/
theorem Extent.Mergeable.continued {first second : Extent} (mergeable : Mergeable first second)
    (first_proper : first.Proper) (second_proper : second.Proper) :
    Continued first second ∨ first.start_block = kSparseHole ∧ second.start_block = kSparseHole := by
  obtain ⟨merged, same⟩ := mergeable
  have start := second.start_block.toNat_lt
  obtain ⟨count, length⟩ := Nat.exists_eq_add_one_of_ne_zero first_proper.positive.ne'
  obtain ⟨more, later⟩ := Nat.exists_eq_add_one_of_ne_zero second_proper.positive.ne'
  have second_expand : expand second = second.start_block.toNat ::
      List.range' (second.start_block.toNat + 1) more := by
    rw [second_proper.expand_eq, later, List.range'_succ]
  have first_expand : expand first = List.range' first.start_block.toNat count ++
      [first.start_block.toNat + count] := by
    rw [first_proper.expand_eq, length, List.range'_concat, one_mul]
  rw [second_expand, first_expand, List.append_assoc, List.singleton_append] at same
  have last : (expand merged)[count]? = some (first.start_block.toNat + count) := by
    rw [same, List.getElem?_append_right (by simp), List.length_range', Nat.sub_self]
    rfl
  have next : (expand merged)[count + 1]? = some second.start_block.toNat := by
    rw [same, List.getElem?_append_right (by simp), List.length_range', Nat.add_sub_cancel_left]
    rfl
  rw [expand] at same last next
  split at same
  · next hole =>
    rw [if_pos hole] at last next
    have first_member : first.start_block.toNat ∈ List.replicate merged.num_blocks.toNat kSparseHole.toNat := by
      have head : first.start_block.toNat ∈ expand first := by
        rw [first_proper.expand_eq, length, List.range'_succ]
        exact List.mem_cons_self
      rw [same, ← List.singleton_append, ← List.append_assoc, ← first_expand]
      exact List.mem_append_left _ head
    right
    constructor
    · exact UInt64.toNat_inj.mp (List.eq_of_mem_replicate first_member)
    · exact UInt64.toNat_inj.mp (List.eq_of_mem_replicate (List.mem_of_getElem? next))
  · next run =>
    rw [if_neg run] at last next
    left
    obtain ⟨_, last⟩ := List.getElem?_eq_some_iff.mp last
    obtain ⟨_, next⟩ := List.getElem?_eq_some_iff.mp next
    rw [List.getElem_range', one_mul] at last next
    rw [Continued, ← UInt64.toNat_inj, UInt64.toNat_add, length, Nat.mod_eq_of_lt (by omega)]
    omega

theorem Extent.mergeable_holes {first second : Extent} (first_proper : first.Proper) (second_proper : second.Proper)
    (first_hole : first.start_block = kSparseHole) (second_hole : second.start_block = kSparseHole) :
    Mergeable first second := by
  have first_bound := first_proper.bound
  have second_bound := second_proper.bound
  have first_positive := first_proper.positive
  have second_positive := second_proper.positive
  rw [first_hole, kSparseHole_toNat] at first_bound
  rw [second_hole, kSparseHole_toNat] at second_bound
  have first_one : first.num_blocks.toNat = 1 := by omega
  have second_one : second.num_blocks.toNat = 1 := by omega
  refine ⟨⟨kSparseHole, 2⟩, ?_⟩
  rw [expand, expand, expand, if_pos rfl, if_pos first_hole, if_pos second_hole, first_one, second_one]
  rfl

/-- The extents of a sequence lose nothing: they stand for its blocks, neighbours are apart, and an edge with
these extents weighs as much as the sequence is long. -/
structure Lossless (apart : Extent → Extent → Prop) (blocks : List UInt64) : Prop where
  expands : expansion (coalesce blocks) = blocks.map UInt64.toNat
  chain : (coalesce blocks).IsChain apart
  weighs : ∀ graph edge, HasExtents graph edge (coalesce blocks) →
    (EdgeWeight graph edge).map UInt64.toNat = some blocks.length

theorem Lossless.bound {apart : Extent → Extent → Prop} {blocks : List UInt64}
    (lossless : Lossless apart blocks) : blocks.length < 2 ^ 64 := by
  have has : HasExtents [⟨[(0, ⟨coalesce blocks⟩)]⟩] (0, 0) (coalesce blocks) := ⟨_, rfl, rfl⟩
  have weighs := lossless.weighs _ _ has
  rw [EdgeWeight_eq has, Option.map_some, Option.some_inj] at weighs
  rw [← weighs]
  exact (weight (coalesce blocks)).toNat_lt

theorem Lossless.of_chain {apart : Extent → Extent → Prop} {blocks : List UInt64}
    (bound : blocks.length < 2 ^ 64) (zeros : ZerosApart blocks) (chain : (coalesce blocks).IsChain apart) :
    Lossless apart blocks where
  expands := (coalesce_faithful bound zeros).expands
  chain := chain
  weighs graph edge has := by
    rw [EdgeWeight_eq has, weight_coalesce, Option.map_some, UInt64.toNat_ofNat_of_lt' bound]

/-- With the test of the code for neighbours that should be one extent. -/
theorem lossless_continued_iff (blocks : List UInt64) :
    Lossless (fun first second => ¬ Continued first second) blocks ↔
      blocks.length < 2 ^ 64 ∧ ZerosApart blocks := by
  constructor
  · intro lossless
    exact ⟨lossless.bound, zerosApart_of_expansion lossless.bound lossless.expands⟩
  · rintro ⟨bound, zeros⟩
    exact .of_chain bound zeros (coalesce_chain blocks)

/-- With all neighbours that could be one extent. -/
theorem lossless_mergeable_iff (blocks : List UInt64) :
    Lossless (fun first second => ¬ Mergeable first second) blocks ↔
      blocks.length < 2 ^ 64 ∧ ZerosApart blocks ∧ HolesApart blocks := by
  constructor
  · intro lossless
    have bound := lossless.bound
    have zeros := zerosApart_of_expansion bound lossless.expands
    have proper := (coalesce_faithful bound zeros).proper
    refine ⟨bound, zeros, (coalesce_holes bound zeros).mp ?_⟩
    apply lossless.chain.imp_of_mem_imp
    intro first second member later apart holes
    exact apart (mergeable_holes (proper first member) (proper second later) holes.1 holes.2)
  · rintro ⟨bound, zeros, holes⟩
    have proper := (coalesce_faithful bound zeros).proper
    apply Lossless.of_chain bound zeros
    have chain := List.isChain_iff_getElem.mp (coalesce_chain blocks)
    have lone := List.isChain_iff_getElem.mp ((coalesce_holes bound zeros).mpr holes)
    apply List.isChain_iff_getElem.mpr
    intro index inside mergeable
    rcases mergeable.continued (proper _ (List.getElem_mem _)) (proper _ (List.getElem_mem _)) with
      continued | both
    · exact chain index inside continued
    · exact lone index inside both

section Fibmap

/-- Blocks of a device are no holes. -/
theorem zerosApart_words (blocks : List UInt32) : ZerosApart (blocks.map UInt32.toUInt64) := by
  apply List.isChain_iff_getElem.mpr
  rintro index inside ⟨hole, -⟩
  have short : index < blocks.length := by
    rw [List.length_map] at inside
    omega
  have below := blocks[index].toNat_lt
  rw [List.getElem_map, ← UInt64.toNat_inj, UInt32.toNat_toUInt64, kSparseHole_toNat] at hole
  omega

theorem coalesce_words_faithful {blocks : List UInt32} (bound : blocks.length < 2 ^ 64) :
    Faithful (blocks.map UInt32.toUInt64) (coalesce (blocks.map UInt32.toUInt64)) :=
  coalesce_faithful (by rw [List.length_map]; exact bound) (zerosApart_words blocks)

theorem nextBlock_coalesce {blocks : List UInt32} (bound : blocks.length < 2 ^ 64) (some : blocks ≠ [])
    (out : List Extent) :
    ∃ before current, blocks.foldl nextBlock (⟨0, 0⟩, out) = (current, out ++ before) ∧
      coalesce (blocks.map UInt32.toUInt64) = before ++ [current] ∧ 0 < current.num_blocks := by
  induction blocks using List.reverseRecOn with
  | nil => exact absurd rfl some
  | append_singleton blocks block ih =>
    have faithful := coalesce_words_faithful bound
    rw [List.length_append, List.length_singleton] at bound
    rw [List.foldl_append, List.map_append, List.map_singleton, coalesce_append]
    rw [List.map_append, List.map_singleton, coalesce_append] at faithful
    rcases eq_or_ne blocks [] with rfl | more
    · exact ⟨[], ⟨block.toUInt64, 1⟩, by simp [nextBlock], rfl, UInt64.lt_iff_toNat_lt.mpr Nat.one_pos⟩
    obtain ⟨before, current, folded, extents, positive⟩ := ih (by omega) more
    have used : current.num_blocks ≠ 0 := by
      intro none
      rw [none] at positive
      exact absurd positive (by decide)
    rw [extents, AppendBlockToExtents] at faithful
    rw [folded, extents, List.foldl_cons, List.foldl_nil, nextBlock, AppendBlockToExtents]
    simp only [List.getLast?_append, List.getLast?_singleton, Option.some_or, List.dropLast_concat, if_neg used]
      at faithful ⊢
    split
    · next continued =>
      rw [if_pos continued] at faithful
      exact ⟨before, _, rfl, rfl, UInt64.lt_iff_toNat_lt.mpr (faithful.proper _ (by simp)).positive⟩
    · exact ⟨before ++ [current], _, by rw [List.append_assoc], rfl,
        UInt64.lt_iff_toNat_lt.mpr Nat.one_pos⟩

theorem mapBlocks_eq {FIBMAP : UInt32 → Option UInt32} {indexes : List ℕ} {blocks : List UInt32}
    (mapped : indexes.map (fun i => FIBMAP (UInt32.ofNat i)) = blocks.map some) (acc : Extent × List Extent) :
    mapBlocks FIBMAP indexes acc = (true, blocks.foldl nextBlock acc) := by
  induction indexes generalizing blocks acc with
  | nil =>
    obtain rfl := List.map_eq_nil_iff.mp mapped.symm
    rfl
  | cons i indexes ih =>
    cases blocks with
    | nil => simp at mapped
    | cons block blocks =>
      rw [List.map_cons, List.map_cons, List.cons.injEq] at mapped
      rw [mapBlocks, mapped.1, List.foldl_cons]
      exact ih mapped.2 _

/-- The number of blocks that a size takes. -/
def blocksFor (size : ℕ) : ℕ := (size + kBlockSize - 1) / kBlockSize

/-- A file that all calls succeed on; its blocks are those that its indexes are mapped to. -/
structure MappedFile.Maps (file : MappedFile) (size : ℕ) (count : ℕ) (blocks : List UInt32) : Prop where
  regular : ∃ stbuf, file.stat = some stbuf ∧ stbuf.isRegular = true
  opened : file.opens = true
  sized : ∃ stbuf, file.fstat = some stbuf ∧ stbuf.st_size = size
  mapped : (List.range count).map (fun i => file.FIBMAP (UInt32.ofNat i)) = blocks.map some

/-- What the mapper puts out are the extents of as many blocks as its `int` counts. -/
theorem ExtentsForFileFibmap_eq {file : MappedFile} {size : ℕ} {blocks : List UInt32}
    (maps : file.Maps size (block_count size).toNat blocks) (bound : blocks.length < 2 ^ 64)
    (out : List Extent) :
    ExtentsForFileFibmap file out = (true, out ++ coalesce (blocks.map UInt32.toUInt64)) := by
  obtain ⟨stbuf, status, regular⟩ := maps.regular
  obtain ⟨sized, fstatus, same⟩ := maps.sized
  rw [ExtentsForFileFibmap, status]
  dsimp only
  rw [if_neg (not_not.mpr regular), if_neg (not_not.mpr maps.opened), fstatus]
  dsimp only
  rw [same, mapBlocks_eq maps.mapped]
  dsimp only
  rcases eq_or_ne blocks [] with rfl | more
  · rw [List.foldl_nil, List.map_nil]
    exact congrArg _ (List.append_nil out).symm
  · obtain ⟨before, current, folded, extents, positive⟩ := nextBlock_coalesce bound more out
    rw [folded, extents]
    dsimp only
    rw [if_pos positive, List.append_assoc]

/-- The mapper gives the extents of a file's blocks just when they are fewer than `2 ^ 31`. -/
theorem fibmap_iff {file : MappedFile} {size : ℕ} {blocks : List UInt32}
    (maps : file.Maps size (blocksFor size) blocks) (out : List Extent) :
    ExtentsForFileFibmap file out = (true, out ++ coalesce (blocks.map UInt32.toUInt64)) ↔
      blocksFor size < 2 ^ 31 := by
  have sized : size < 2 ^ 63 := by
    obtain ⟨stbuf, -, same⟩ := maps.sized
    rw [← same]
    exact stbuf.bound
  have length : blocks.length = blocksFor size := by
    have same := congrArg List.length maps.mapped
    rw [List.length_map, List.length_map, List.length_range] at same
    exact same.symm
  have small : blocksFor size < 2 ^ 52 := by
    rw [blocksFor, kBlockSize]
    omega
  have fewer : (block_count size).toNat ≤ blocksFor size := by
    rw [block_count, ← blocksFor]
    split
    · omega
    · omega
  have counted : (block_count size).toNat = blocksFor size ↔ blocksFor size < 2 ^ 31 := by
    rw [block_count, ← blocksFor]
    split
    · omega
    · omega
  have prefix_maps : file.Maps size (block_count size).toNat (blocks.take (block_count size).toNat) := by
    refine ⟨maps.regular, maps.opened, maps.sized, ?_⟩
    have range : List.range (block_count size).toNat =
        (List.range (blocksFor size)).take (block_count size).toNat := by
      rw [List.take_range, min_eq_left fewer]
    rw [range, List.map_take, maps.mapped, List.map_take]
  have taken : (blocks.take (block_count size).toNat).length = (block_count size).toNat := by
    rw [List.length_take, length, min_eq_left fewer]
  rw [ExtentsForFileFibmap_eq prefix_maps (by omega), ← counted]
  constructor
  · intro same
    have extents := List.append_cancel_left (congrArg Prod.snd same)
    have expansions := congrArg (List.length ∘ expansion) extents
    dsimp only [Function.comp_apply] at expansions
    rw [coalesce_length (by rw [List.length_map]; omega), coalesce_length (by rw [List.length_map]; omega),
      List.length_map, List.length_map, taken, length] at expansions
    exact expansions
  · intro whole
    rw [whole, ← length, List.take_length]

end Fibmap

/-- When coalescing loses nothing: there are fewer than `2 ^ 64` blocks and no hole is directly followed by
block 0, nor, where two holes count as one extent, a lone hole by another. The mapper does the same as long as
its `int` holds the number of blocks. -/
theorem coalescing_lossless_iff (blocks : List UInt64) {file : MappedFile} {size : ℕ} {mapped : List UInt32}
    (out : List Extent) (maps : file.Maps size (blocksFor size) mapped) :
    (Lossless (fun first second => ¬ Continued first second) blocks ↔
      blocks.length < 2 ^ 64 ∧ ZerosApart blocks) ∧
    (Lossless (fun first second => ¬ Mergeable first second) blocks ↔
      blocks.length < 2 ^ 64 ∧ ZerosApart blocks ∧ HolesApart blocks) ∧
    (ExtentsForFileFibmap file out = (true, out ++ coalesce (mapped.map UInt32.toUInt64)) ↔
      blocksFor size < 2 ^ 31) :=
  ⟨lossless_continued_iff blocks, lossless_mergeable_iff blocks, fibmap_iff maps out⟩

/-- Three blocks with a hole between them, and a file of two blocks. -/
theorem coalescing_lossless_small :
    Lossless (fun first second => ¬ Continued first second) [5, 6, kSparseHole, 7] ∧
      ExtentsForFileFibmap ⟨some ⟨8192, true, by decide⟩, true, some ⟨8192, true, by decide⟩,
        fun block => some (block + 7)⟩ [] =
        (true, [] ++ coalesce ([7, 8].map UInt32.toUInt64)) := by
  have zeros : ZerosApart [5, 6, kSparseHole, 7] := by
    rw [ZerosApart]
    decide
  have maps : (MappedFile.mk (some ⟨8192, true, by decide⟩) true (some ⟨8192, true, by decide⟩)
      fun block => some (block + 7)).Maps 8192 (blocksFor 8192) [7, 8] :=
    ⟨⟨_, rfl, rfl⟩, rfl, ⟨_, rfl, rfl⟩, rfl⟩
  obtain ⟨lossless, -, fibmap⟩ := coalescing_lossless_iff [5, 6, kSparseHole, 7] [] maps
  exact ⟨lossless.mpr ⟨by decide, zeros⟩, fibmap.mpr (by decide)⟩

/-- A hole followed by block 0 becomes two holes. -/
theorem hole_takes_block_zero :
    coalesce [kSparseHole, 0] = [⟨kSparseHole, 2⟩] ∧
      ¬ Lossless (fun first second => ¬ Continued first second) [kSparseHole, 0] ∧
      ¬ Lossless (fun first second => ¬ Mergeable first second) [kSparseHole, 0] := by
  have lost : expansion (coalesce [kSparseHole, 0]) ≠ [kSparseHole, 0].map UInt64.toNat := by decide
  exact ⟨by decide, fun lossless => lost lossless.expands, fun lossless => lost lossless.expands⟩

end ChromiumOS.UpdateEngine
