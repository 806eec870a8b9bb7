import ChromiumOS.Model.Vboot.Digest
import ChromiumOS.Proofs.Vboot.ShaStream

/-! # One digest for buffers, chunks and files

`DigestBuf`, any sequence of `DigestUpdate` calls and `DigestFile` compute the same function of the
bytes they are given.
-/

namespace ChromiumOS.Vboot

open BlockStream

/-- The digest of a message under each algorithm. -/
def DigestAlgorithm.digest : DigestAlgorithm → List UInt8 → List UInt8
  | .sha1 => SHA1_digest
  | .sha256 => Vboot.sha256.digest
  | .sha512 => Vboot.sha512.digest

/-- The digest that a signature algorithm signs. -/
def digestOf (alg : Algorithm) (message : List UInt8) : List UInt8 :=
  (digest_type_map.get alg).digest message

theorem digestOf_length (alg : Algorithm) (message : List UInt8) :
    (digestOf alg message).length = hash_size_map.get alg := by
  rw [hash_size_eq, digestOf]
  cases digest_type_map.get alg with
  | sha1 => exact SHA1_digest_length message
  | sha256 => exact sha256_digest_length message
  | sha512 => exact sha512_digest_length message

/-- The context has been fed exactly the bytes of `message`. -/
def DigestContext.Represents (ctx : DigestContext) (kind : DigestAlgorithm)
    (message : List UInt8) : Prop :=
  match kind, ctx with
  | .sha1, .sha1 ctx => ∃ count rest, ctx.Represents message count rest
  | .sha256, .sha256 ctx => ∃ count rest, Vboot.sha256.Represents ctx message count rest
  | .sha512, .sha512 ctx => ∃ count rest, Vboot.sha512.Represents ctx message count rest
  | _, _ => False

theorem DigestInit_represents (alg : Algorithm) :
    (DigestInit alg).Represents (digest_type_map.get alg) [] := by
  rw [DigestInit]
  cases digest_type_map.get alg with
  | sha1 => exact ⟨0, [], SHA1_init_represents⟩
  | sha256 => exact ⟨0, [], Sha2.init_represents sha256_proper⟩
  | sha512 => exact ⟨0, [], Sha2.init_represents sha512_proper⟩

theorem unsignedOfInt_toNat {len : ℤ} (nonneg : 0 ≤ len) (bound : len < 2 ^ 31) :
    (unsignedOfInt len).toNat = len.toNat := by
  rw [unsignedOfInt, Int.emod_eq_of_lt nonneg (by omega),
    UInt32.toNat_ofNat_of_lt' (by rw [UInt32.size]; omega)]

theorem DigestUpdate_represents {ctx : DigestContext} {kind : DigestAlgorithm}
    {message : List UInt8} (data : List UInt8) (len : ℤ) (represents : ctx.Represents kind message)
    (nonneg : 0 ≤ len) (bound : len < 2 ^ 31) (readable : len.toNat ≤ data.length) :
    ∃ next, DigestUpdate ctx data len = some next ∧
      next.Represents kind (message ++ data.take len.toNat) := by
  have unsigned := unsignedOfInt_toNat nonneg bound
  cases ctx with
  | sha1 ctx =>
    cases kind with
    | sha1 =>
      obtain ⟨count, rest, represents⟩ := represents
      refine ⟨.sha1 (SHA1_updateBytes ctx (data.take len.toNat)), ?_,
        SHA1_updateBytes_represents represents _⟩
      simp [DigestUpdate, SHA1_update, nonneg.not_gt, readAt, readable]
    | sha256 => exact represents.elim
    | sha512 => exact represents.elim
  | sha256 ctx =>
    cases kind with
    | sha256 =>
      obtain ⟨count, rest, represents⟩ := represents
      obtain ⟨next, count, rest, updated, represents⟩ := Sha2.update_represents data
        (unsignedOfInt len) sha256_proper represents (by omega) (by omega)
      rw [unsigned] at represents
      exact ⟨.sha256 next, by simp [DigestUpdate, SHA256_update, updated], count, rest, represents⟩
    | sha1 => exact represents.elim
    | sha512 => exact represents.elim
  | sha512 ctx =>
    cases kind with
    | sha512 =>
      obtain ⟨count, rest, represents⟩ := represents
      obtain ⟨next, count, rest, updated, represents⟩ := Sha2.update_represents data
        (unsignedOfInt len) sha512_proper represents (by omega) (by omega)
      rw [unsigned] at represents
      exact ⟨.sha512 next, by simp [DigestUpdate, SHA512_update, updated], count, rest, represents⟩
    | sha1 => exact represents.elim
    | sha256 => exact represents.elim

theorem DigestFinal_eq {ctx : DigestContext} {kind : DigestAlgorithm} {message : List UInt8}
    (represents : ctx.Represents kind message) : DigestFinal ctx = some (kind.digest message) := by
  cases ctx with
  | sha1 ctx =>
    cases kind with
    | sha1 =>
      obtain ⟨count, rest, represents⟩ := represents
      exact congrArg some (SHA1_final_eq represents)
    | sha256 => exact represents.elim
    | sha512 => exact represents.elim
  | sha256 ctx =>
    cases kind with
    | sha256 =>
      obtain ⟨count, rest, represents⟩ := represents
      exact Sha2.final_eq sha256_proper represents
    | sha1 => exact represents.elim
    | sha512 => exact represents.elim
  | sha512 ctx =>
    cases kind with
    | sha512 =>
      obtain ⟨count, rest, represents⟩ := represents
      exact Sha2.final_eq sha512_proper represents
    | sha1 => exact represents.elim
    | sha256 => exact represents.elim

/-- Hashing a buffer in one call is one update of a fresh context. -/
theorem DigestBuf_eq_update (buf : List UInt8) (len : ℤ) (alg : Algorithm) :
    DigestBuf buf len alg = (DigestUpdate (DigestInit alg) buf len).bind DigestFinal := by
  rw [DigestBuf, DigestInit]
  cases digest_type_map.get alg with
  | sha1 => cases updated : SHA1_update SHA1_init buf len <;> simp [SHA1, DigestUpdate, DigestFinal, updated]
  | sha256 =>
    simp only [SHA256, Sha2.hash, DigestUpdate, SHA256_update, SHA256_init, Option.bind_map]
    rfl
  | sha512 =>
    simp only [SHA512, Sha2.hash, DigestUpdate, SHA512_update, SHA512_init, Option.bind_map]
    rfl

theorem DigestBuf_eq (buf : List UInt8) (len : ℤ) (alg : Algorithm) (nonneg : 0 ≤ len)
    (bound : len < 2 ^ 31) (readable : len.toNat ≤ buf.length) :
    DigestBuf buf len alg = some (digestOf alg (buf.take len.toNat)) := by
  obtain ⟨next, updated, represents⟩ :=
    DigestUpdate_represents _ _ (DigestInit_represents alg) nonneg bound readable
  rw [DigestBuf_eq_update, updated, Option.bind_some, DigestFinal_eq represents, digestOf,
    List.nil_append]

/-- A digest reads only the bytes that its length covers, whatever the sign of the `int`. -/
theorem DigestBuf_take (buf : List UInt8) {len : ℤ} (bound : len < 2 ^ 31) (alg : Algorithm) :
    DigestBuf (buf.take (unsignedOfInt len).toNat) len alg = DigestBuf buf len alg := by
  rw [DigestBuf, DigestBuf]
  cases digest_type_map.get alg with
  | sha1 =>
    simp only [SHA1, SHA1_update]
    split
    · rfl
    · next nonneg => rw [unsignedOfInt_toNat (not_lt.mp nonneg) bound, readAt_take (by omega)]
  | sha256 =>
    simp only [SHA256, Sha2.hash]
    rw [sha256_proper.update_take _ _ (by decide)]
  | sha512 =>
    simp only [SHA512, Sha2.hash]
    rw [sha512_proper.update_take _ _ (by decide)]

theorem DigestFileLoop_represents {ctx : DigestContext} {kind : DigestAlgorithm}
    {message : List UInt8} (contents : List UInt8) (represents : ctx.Represents kind message) :
    ∃ next, DigestFileLoop ctx contents = some next ∧ next.Represents kind (message ++ contents) := by
  fun_induction DigestFileLoop ctx contents generalizing message with
  | case1 ctx contents full ih =>
    obtain ⟨next, updated, represents⟩ := DigestUpdate_represents
      (contents.take SHA1_BLOCK_SIZE) SHA1_BLOCK_SIZE represents (by decide)
      (by decide) full.ge
    have whole : List.take (SHA1_BLOCK_SIZE : ℤ).toNat (contents.take SHA1_BLOCK_SIZE) =
        contents.take SHA1_BLOCK_SIZE := List.take_of_length_le full.le
    rw [whole] at represents
    obtain ⟨last, looped, represents⟩ := ih next represents
    rw [List.append_assoc, List.take_append_drop] at represents
    exact ⟨last, by simp [updated, looped], represents⟩
  | case2 ctx contents partly =>
    have short : (contents.take SHA1_BLOCK_SIZE).length < SHA1_BLOCK_SIZE :=
      lt_of_le_of_ne (List.length_take_le _ _) partly
    have all : contents.take SHA1_BLOCK_SIZE = contents := by
      rw [List.length_take] at short
      exact List.take_of_length_le (by omega)
    rw [all] at short ⊢
    have small : contents.length < 64 := short
    obtain ⟨next, updated, represents⟩ := DigestUpdate_represents contents
      contents.length represents (by omega) (by omega) (by simp)
    rw [Int.toNat_natCast, List.take_length] at represents
    exact ⟨next, updated, represents⟩

/-- The digest of a file is the digest of its contents, of any length. -/
theorem DigestFile_eq (contents : List UInt8) (alg : Algorithm) :
    DigestFile contents alg = some (digestOf alg contents) := by
  obtain ⟨next, looped, represents⟩ :=
    DigestFileLoop_represents contents (DigestInit_represents alg)
  rw [DigestFile, looped]
  exact DigestFinal_eq represents

theorem DigestUpdate_chunks_represents {ctx : DigestContext} {kind : DigestAlgorithm}
    {message : List UInt8} (chunks : List (List UInt8)) (represents : ctx.Represents kind message)
    (bound : chunks.flatten.length < 2 ^ 31) :
    ∃ next, chunks.foldlM (fun ctx chunk => DigestUpdate ctx chunk chunk.length) ctx = some next ∧
      next.Represents kind (message ++ chunks.flatten) := by
  induction chunks generalizing ctx message with
  | nil => exact ⟨ctx, rfl, by rwa [List.flatten_nil, List.append_nil]⟩
  | cons chunk chunks ih =>
    rw [List.flatten_cons, List.length_append] at bound
    obtain ⟨next, updated, represents⟩ := DigestUpdate_represents chunk chunk.length represents
      (by omega) (by omega) (by simp)
    rw [Int.toNat_natCast, List.take_length] at represents
    obtain ⟨last, folded, represents⟩ := ih represents (by omega)
    refine ⟨last, ?_, ?_⟩
    · rw [List.foldlM_cons, updated]
      exact folded
    · rwa [List.flatten_cons, ← List.append_assoc]

/-- How a message is cut into chunks makes no difference to its digest, and neither does reading it
from a file. -/
theorem digest_independent_of_chunking (alg : Algorithm) (chunks : List (List UInt8))
    (bound : chunks.flatten.length < 2 ^ 31) :
    ∃ digest, DigestChunks chunks alg = some digest ∧
      DigestBuf chunks.flatten chunks.flatten.length alg = some digest ∧
      DigestFile chunks.flatten alg = some digest := by
  refine ⟨digestOf alg chunks.flatten, ?_, ?_, DigestFile_eq chunks.flatten alg⟩
  · obtain ⟨ctx, folded, represents⟩ :=
      DigestUpdate_chunks_represents chunks (DigestInit_represents alg) bound
    rw [DigestChunks, folded]
    exact DigestFinal_eq represents
  · rw [DigestBuf_eq _ _ _ (by omega) (by omega) (by simp), Int.toNat_natCast, List.take_length]

/-- Chunks of one, no and two bytes. -/
theorem digest_of_three_chunks :
    ([[0x61], [], [0x62, 0x63]] : List (List UInt8)).flatten.length < 2 ^ 31 ∧
      ∃ digest, DigestChunks [[0x61], [], [0x62, 0x63]] 1 = some digest ∧
        DigestBuf [0x61, 0x62, 0x63] 3 1 = some digest ∧
        DigestFile [0x61, 0x62, 0x63] 1 = some digest :=
  ⟨by decide, digest_independent_of_chunking 1 [[0x61], [], [0x62, 0x63]] (by decide)⟩

end ChromiumOS.Vboot
