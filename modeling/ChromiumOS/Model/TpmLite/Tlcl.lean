import ChromiumOS.Model.TpmLite.Generator

/-! # The lightweight TPM command library

`tlcl.c`. The buffers of the commands are static and used again and again. What the TPM answers, and
what the array for its response holds before, is part of every call. A failed `assert`, the exit of
`error` and `warning`, and an access outside of a buffer are `none`.
-/

namespace ChromiumOS.TpmLite

def ToTpmUint32 (x : UInt32) : List UInt8 :=
  [(x >>> 24).toUInt8, ((x >>> 16) &&& 0xff).toUInt8, ((x >>> 8) &&& 0xff).toUInt8, (x &&& 0xff).toUInt8]

def FromTpmUint32 : List UInt8 → Option UInt32
  | b0 :: b1 :: b2 :: b3 :: _ =>
    some ((b0.toUInt32 <<< 24) ||| (b1.toUInt32 <<< 16) ||| (b2.toUInt32 <<< 8) ||| b3.toUInt32)
  | _ => none

def FromTpmUint16 : List UInt8 → Option UInt32
  | b0 :: b1 :: _ => some ((b0.toUInt32 <<< 8) ||| b1.toUInt32)
  | _ => none

def TpmTag (buffer : List UInt8) : Option UInt32 := FromTpmUint16 buffer

def TpmCommandSize (buffer : List UInt8) : Option UInt32 := FromTpmUint32 (buffer.drop 2)

def TpmCommandCode (buffer : List UInt8) : Option UInt32 := FromTpmUint32 (buffer.drop 6)

def TpmReturnCode (buffer : List UInt8) : Option UInt32 := TpmCommandCode buffer

/-- Bytes stored into a buffer. -/
def store (buffer : List UInt8) (offset : ℕ) (bytes : List UInt8) : Option (List UInt8) :=
  if offset + bytes.length ≤ buffer.length then
    some (buffer.take offset ++ bytes ++ buffer.drop (offset + bytes.length))
  else none

def SetTpmCommandSize (cmd : CommandStructure) (size : UInt32) : Option CommandStructure := do
  return { cmd with buffer := ← store cmd.buffer 2 (ToTpmUint32 size) }

/-- Bytes stored through one of the pointers of a command. -/
def CommandStructure.set (cmd : CommandStructure) (name : String) (bytes : List UInt8) :
    Option CommandStructure := do
  let offset ← cmd.pointers.lookup name
  return { cmd with buffer := ← store cmd.buffer offset bytes }

/-- What `tpmemu_execute` is given. -/
def datagram (request : List UInt8) : Option (List UInt8) := do
  let size ← TpmCommandSize request
  guard (size.toNat ≤ request.length)
  return request.take size.toNat

/-- The array for a response with what it happens to hold, and the answer of the TPM. -/
structure Exchange where
  stack : List UInt8
  reply : List UInt8
  sized : stack.length = TPM_LARGE_ENOUGH_COMMAND_SIZE
deriving DecidableEq, Repr

/-- The response after a request. -/
def SendReceive (request : List UInt8) (exchange : Exchange) : Option (List UInt8) := do
  let _ ← datagram request
  guard (exchange.reply.length ≤ TPM_LARGE_ENOUGH_COMMAND_SIZE)
  let response := exchange.reply ++ exchange.stack.drop exchange.reply.length
  let tag ← TpmTag request
  let response_tag ← TpmTag response
  guard ((tag = TPM_TAG_RQU_COMMAND ∧ response_tag = TPM_TAG_RSP_COMMAND) ∨
    (tag = TPM_TAG_RQU_AUTH1_COMMAND ∧ response_tag = TPM_TAG_RSP_AUTH1_COMMAND) ∨
    (tag = TPM_TAG_RQU_AUTH2_COMMAND ∧ response_tag = TPM_TAG_RSP_AUTH2_COMMAND))
  let size ← TpmCommandSize response
  guard (exchange.reply.length = size.toNat)
  return response

/-- The exit on any result but success; `warning` exits as well. -/
def CheckResult (response : List UInt8) : Option Unit := do
  guard ((← TpmReturnCode response) = TPM_SUCCESS)

def Send (command : List UInt8) (exchange : Exchange) : Option Unit := do
  CheckResult (← SendReceive command exchange)

namespace Structures

variable (structures : Structures)

def TlclStartup (exchange : Exchange) : Option Structures := do
  Send structures.tpm_startup_cmd.buffer exchange
  return structures

def TlclSelftestfull (exchange : Exchange) : Option Structures := do
  Send structures.tpm_selftestfull_cmd.buffer exchange
  return structures

def TlclDefineSpace (index perm size : UInt32) (exchange : Exchange) : Option Structures := do
  let cmd ← structures.tpm_nv_definespace_cmd.set "index" (ToTpmUint32 index)
  let cmd ← cmd.set "perm" (ToTpmUint32 perm)
  let cmd ← cmd.set "size" (ToTpmUint32 size)
  Send cmd.buffer exchange
  return { structures with tpm_nv_definespace_cmd := cmd }

/-- `TlclWrite` up to the request; `data` are the bytes to be written. -/
def prepareWrite (index : UInt32) (data : List UInt8) (length : UInt32) : Option CommandStructure := do
  let total_length := UInt32.ofNat (kTpmRequestHeaderLength + kWriteInfoLength) + length
  guard (total_length.toBitVec.toInt ≤ TPM_LARGE_ENOUGH_COMMAND_SIZE)
  let cmd ← SetTpmCommandSize structures.tpm_nv_write_cmd total_length
  let cmd ← cmd.set "index" (ToTpmUint32 index)
  let cmd ← cmd.set "length" (ToTpmUint32 length)
  guard (length.toNat ≤ data.length)
  cmd.set "data" (data.take length.toNat)

def TlclWrite (index : UInt32) (data : List UInt8) (length : UInt32) (exchange : Exchange) :
    Option (UInt32 × Structures) := do
  let cmd ← structures.prepareWrite index data length
  let response ← SendReceive cmd.buffer exchange
  CheckResult response
  return (← TpmReturnCode response, { structures with tpm_nv_write_cmd := cmd })

/-- `TlclRead`, with the result and what the buffer of the caller holds afterwards. -/
def TlclRead (index : UInt32) (data : List UInt8) (length : UInt32) (exchange : Exchange) :
    Option (UInt32 × List UInt8 × Structures) := do
  let cmd ← structures.tpm_nv_read_cmd.set "index" (ToTpmUint32 index)
  let cmd ← cmd.set "length" (ToTpmUint32 length)
  let response ← SendReceive cmd.buffer exchange
  let result ← TpmReturnCode response
  let structures := { structures with tpm_nv_read_cmd := cmd }
  if result = TPM_SUCCESS ∧ 0 < length then
    let nv_read_cursor := response.drop kTpmResponseHeaderLength
    let result_length ← FromTpmUint32 nv_read_cursor
    let nv_read_cursor := nv_read_cursor.drop 4
    guard (result_length.toNat ≤ nv_read_cursor.length)
    let data ← store data 0 (nv_read_cursor.take result_length.toNat)
    return (result, data, structures)
  else return (result, data, structures)

def TlclWriteLock (index : UInt32) (exchange : Exchange) : Option Structures :=
  (structures.TlclWrite index [] 0 exchange).map Prod.snd

def TlclReadLock (index : UInt32) (exchange : Exchange) : Option Structures :=
  (structures.TlclRead index [] 0 exchange).map fun (_, _, structures) => structures

def TlclAssertPhysicalPresence (exchange : Exchange) : Option Structures := do
  Send structures.tpm_physicalpresence_cmd.buffer exchange
  return structures

def TlclSetNvLocked (exchange : Exchange) : Option Structures :=
  structures.TlclDefineSpace TPM_NV_INDEX_LOCK 0 0 exchange

/-- A call of one of the exported functions. -/
inductive Call where
  | Startup
  | Selftestfull
  | DefineSpace (index perm size : UInt32)
  | Write (index : UInt32) (data : List UInt8) (length : UInt32)
  | Read (index : UInt32) (data : List UInt8) (length : UInt32)
  | WriteLock (index : UInt32)
  | ReadLock (index : UInt32)
  | AssertPhysicalPresence
  | SetNvLocked
deriving DecidableEq, Repr

/-- The static data after a call that returns. -/
def step : Call × Exchange → Option Structures
  | (.Startup, exchange) => structures.TlclStartup exchange
  | (.Selftestfull, exchange) => structures.TlclSelftestfull exchange
  | (.DefineSpace index perm size, exchange) => structures.TlclDefineSpace index perm size exchange
  | (.Write index data length, exchange) =>
    (structures.TlclWrite index data length exchange).map Prod.snd
  | (.Read index data length, exchange) =>
    (structures.TlclRead index data length exchange).map fun (_, _, structures) => structures
  | (.WriteLock index, exchange) => structures.TlclWriteLock index exchange
  | (.ReadLock index, exchange) => structures.TlclReadLock index exchange
  | (.AssertPhysicalPresence, exchange) => structures.TlclAssertPhysicalPresence exchange
  | (.SetNvLocked, exchange) => structures.TlclSetNvLocked exchange

end Structures

end ChromiumOS.TpmLite
