import ChromiumOS.Model.Vboot.Sha

/-! # Digests chosen by signature algorithm

`sha_utility.c`. The context of a digest in progress is a pointer to one of three contexts and a tag
that says which; here it is the tagged context itself.
-/

namespace ChromiumOS.Vboot

inductive DigestContext where
  | sha1 (ctx : SHA1_CTX)
  | sha256 (ctx : SHA256_CTX)
  | sha512 (ctx : SHA512_CTX)
deriving DecidableEq, Repr

def DigestInit (sig_algorithm : Algorithm) : DigestContext :=
  match digest_type_map.get sig_algorithm with
  | .sha1 => .sha1 SHA1_init
  | .sha256 => .sha256 SHA256_init
  | .sha512 => .sha512 SHA512_init

def DigestUpdate (ctx : DigestContext) (data : List UInt8) (len : ℤ) : Option DigestContext :=
  match ctx with
  | .sha1 ctx => (SHA1_update ctx data len).map .sha1
  | .sha256 ctx => (SHA256_update ctx data len).map .sha256
  | .sha512 ctx => (SHA512_update ctx data len).map .sha512

def DigestFinal : DigestContext → Option (List UInt8)
  | .sha1 ctx => some (SHA1_final ctx)
  | .sha256 ctx => SHA256_final ctx
  | .sha512 ctx => SHA512_final ctx

/-- A caller that hashes a message piece by piece. -/
def DigestChunks (chunks : List (List UInt8)) (sig_algorithm : Algorithm) : Option (List UInt8) := do
  let ctx ← chunks.foldlM (fun ctx chunk => DigestUpdate ctx chunk chunk.length) (DigestInit sig_algorithm)
  DigestFinal ctx

/-- The read loop of `DigestFile` on the bytes not read yet: whole blocks, then the short read that
ends it (an empty one at the end of the file). -/
def DigestFileLoop (ctx : DigestContext) (contents : List UInt8) : Option DigestContext :=
  if _full : (contents.take SHA1_BLOCK_SIZE).length = SHA1_BLOCK_SIZE then do
    let ctx ← DigestUpdate ctx (contents.take SHA1_BLOCK_SIZE) SHA1_BLOCK_SIZE
    DigestFileLoop ctx (contents.drop SHA1_BLOCK_SIZE)
  else DigestUpdate ctx (contents.take SHA1_BLOCK_SIZE) (contents.take SHA1_BLOCK_SIZE).length
termination_by contents.length
decreasing_by
  simp only [SHA1_BLOCK_SIZE, List.length_take, List.length_drop] at _full ⊢
  omega

/-- The digest of a file that can be opened and read, given by its contents. -/
def DigestFile (contents : List UInt8) (sig_algorithm : Algorithm) : Option (List UInt8) := do
  DigestFinal (← DigestFileLoop (DigestInit sig_algorithm) contents)

def DigestBuf (buf : List UInt8) (len : ℤ) (sig_algorithm : Algorithm) : Option (List UInt8) :=
  match digest_type_map.get sig_algorithm with
  | .sha1 => SHA1 buf len
  | .sha256 => SHA256 buf len
  | .sha512 => SHA512 buf len

end ChromiumOS.Vboot
