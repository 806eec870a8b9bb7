import ChromiumOS.Model.TpmLite.Tlcl
import ChromiumOS.ToMathlib.PartialRun

/-! # Datagrams of the NV commands

`TlclWrite` patches the size, the index, the length and the data into a buffer whose other fields no
command ever touches, so that every datagram it sends has the layout of the specification.
`kTpmResponseHeaderLength` counts the size of the data as a part of the header; `TlclRead` takes the
first four bytes of the data for that size and stores what comes after them.
-/

namespace ChromiumOS.TpmLite

open Radix PartialRun

/-- A write request, field by field. -/
structure WriteRequest where
  tag : ℕ
  size : ℕ
  ordinal : ℕ
  index : ℕ
  offset : ℕ
  length : ℕ
  data : List UInt8
deriving DecidableEq, Repr

/-- The layout of a write request in the specification. -/
def decodeWrite (sent : List UInt8) : Option WriteRequest :=
  if sent.length < 22 then none
  else
    some
      { tag := beNat (sent.take 2)
        size := beNat ((sent.drop 2).take 4)
        ordinal := beNat ((sent.drop 6).take 4)
        index := beNat ((sent.drop 10).take 4)
        offset := beNat ((sent.drop 14).take 4)
        length := beNat ((sent.drop 18).take 4)
        data := sent.drop 22 }

/-- The layout of a successful response to a read request in the specification. -/
def readResponse (data : List UInt8) : List UInt8 :=
  beBytes 2 TPM_TAG_RSP_COMMAND.toNat ++ beBytes 4 (14 + data.length) ++ beBytes 4 TPM_SUCCESS.toNat ++
    beBytes 4 data.length ++ data

theorem ToTpmUint32_eq (x : UInt32) : ToTpmUint32 x = beBytes 4 x.toNat := unpack_eq_beBytes x

theorem ToTpmUint32_length (x : UInt32) : (ToTpmUint32 x).length = 4 := rfl

/-- Four bytes read as a number. -/
theorem FromTpmUint32_eq {bytes : List UInt8} (rest : List UInt8) (four : bytes.length = 4) :
    FromTpmUint32 (bytes ++ rest) = some (UInt32.ofNat (beNat bytes)) := by
  obtain ⟨b0, b1, b2, b3, rfl⟩ := List.length_eq_four.mp four
  rw [← toNat_pack, UInt32.ofNat_toNat]
  rfl

theorem FromTpmUint32_beBytes {value : ℕ} (rest : List UInt8) (bound : value < 2 ^ 32) :
    FromTpmUint32 (beBytes 4 value ++ rest) = some (UInt32.ofNat value) := by
  rw [FromTpmUint32_eq rest (beBytes_length 4 value), beNat_beBytes_of_lt bound]

/-- A store over bytes of the same number. -/
theorem store_append (before : List UInt8) {old bytes : List UInt8} (after : List UInt8)
    (same : bytes.length = old.length) :
    store (before ++ (old ++ after)) before.length bytes = some (before ++ (bytes ++ after)) := by
  have fits : before.length + bytes.length ≤ (before ++ (old ++ after)).length := by
    simp only [List.length_append]
    omega
  rw [store, if_pos fits, List.take_left, ← List.drop_drop, List.drop_left, same, List.drop_left,
    List.append_assoc]

/-- The buffer of the write command: everything but the size, the index, the length and the data is
what the generator has put there. -/
def writeBuffer (size index length data : List UInt8) : List UInt8 :=
  [0x00, 0xc1] ++ (size ++ ([0x00, 0x00, 0x00, 0xcd] ++ (index ++ ([0x00, 0x00, 0x00, 0x00] ++
    (length ++ data)))))

/-- The write command as every call leaves it. -/
structure WriteReady (cmd : CommandStructure) : Prop where
  pointers : cmd.pointers = [("index", 10), ("length", 18), ("data", 22)]
  buffer : ∃ size index length data, size.length = 4 ∧ index.length = 4 ∧ length.length = 4 ∧
    data.length = 234 ∧ cmd.buffer = writeBuffer size index length data

section WriteBuffer

variable {size index length data bytes : List UInt8}

theorem store_size (same : bytes.length = size.length) :
    store (writeBuffer size index length data) 2 bytes = some (writeBuffer bytes index length data) :=
  store_append [0x00, 0xc1] _ same

theorem store_index (four : size.length = 4) (same : bytes.length = index.length) :
    store (writeBuffer size index length data) 10 bytes = some (writeBuffer size bytes length data) := by
  have stored := store_append ([0x00, 0xc1] ++ (size ++ [0x00, 0x00, 0x00, 0xcd]))
    ([0x00, 0x00, 0x00, 0x00] ++ (length ++ data)) same
  simp only [List.append_assoc, List.length_append, List.length_cons, List.length_nil, four] at stored
  exact stored

theorem store_length (four : size.length = 4) (fourth : index.length = 4)
    (same : bytes.length = length.length) :
    store (writeBuffer size index length data) 18 bytes = some (writeBuffer size index bytes data) := by
  have stored := store_append ([0x00, 0xc1] ++ (size ++ ([0x00, 0x00, 0x00, 0xcd] ++ (index ++
    [0x00, 0x00, 0x00, 0x00])))) data same
  simp only [List.append_assoc, List.length_append, List.length_cons, List.length_nil, four, fourth]
    at stored
  exact stored

theorem store_data (four : size.length = 4) (fourth : index.length = 4) (quad : length.length = 4)
    (fits : bytes.length ≤ data.length) :
    store (writeBuffer size index length data) 22 bytes =
      some (writeBuffer size index length (bytes ++ data.drop bytes.length)) := by
  have stored := store_append ([0x00, 0xc1] ++ (size ++ ([0x00, 0x00, 0x00, 0xcd] ++ (index ++
    ([0x00, 0x00, 0x00, 0x00] ++ length))))) (data.drop bytes.length)
    (show bytes.length = (data.take bytes.length).length by rw [List.length_take_of_le fits])
  have whole : data.take bytes.length ++ data.drop bytes.length = data := List.take_append_drop ..
  simp only [List.append_assoc, List.length_append, List.length_cons, List.length_nil, four, fourth,
    quad, whole] at stored
  exact stored

/-- The size field says where the datagram ends. -/
theorem datagram_writeBuffer {total : ℕ} (rest : List UInt8) (bound : total < 2 ^ 32)
    (exact : (writeBuffer (beBytes 4 total) index length data).length = total) :
    datagram (writeBuffer (beBytes 4 total) index length (data ++ rest)) =
      some (writeBuffer (beBytes 4 total) index length data) := by
  have size : TpmCommandSize (writeBuffer (beBytes 4 total) index length (data ++ rest)) =
      some (UInt32.ofNat total) := FromTpmUint32_beBytes _ bound
  have sizeNat : (UInt32.ofNat total).toNat = total := UInt32.toNat_ofNat_of_lt' bound
  have split : writeBuffer (beBytes 4 total) index length (data ++ rest) =
      writeBuffer (beBytes 4 total) index length data ++ rest := by
    simp only [writeBuffer, List.append_assoc]
  have fits : total ≤ (writeBuffer (beBytes 4 total) index length (data ++ rest)).length := by
    rw [split, List.length_append, exact]
    exact Nat.le_add_right _ _
  simp only [datagram, size, Option.bind_eq_bind, Option.bind_some, sizeNat, fits, guard_true]
  rw [split, List.take_left' exact]
  rfl

theorem decodeWrite_writeBuffer (four : size.length = 4) (fourth : index.length = 4)
    (quad : length.length = 4) :
    decodeWrite (writeBuffer size index length data) =
      some ⟨0xc1, beNat size, 0xcd, beNat index, 0, beNat length, data⟩ := by
  obtain ⟨s0, s1, s2, s3, rfl⟩ := List.length_eq_four.mp four
  obtain ⟨i0, i1, i2, i3, rfl⟩ := List.length_eq_four.mp fourth
  obtain ⟨l0, l1, l2, l3, rfl⟩ := List.length_eq_four.mp quad
  have long : ¬ (writeBuffer [s0, s1, s2, s3] [i0, i1, i2, i3] [l0, l1, l2, l3] data).length < 22 := by
    simp only [writeBuffer, List.length_append, List.length_cons, List.length_nil]
    omega
  rw [decodeWrite, if_neg long]
  rfl

end WriteBuffer

theorem CommandStructure.set_eq (cmd : CommandStructure) (name : String) {offset : ℕ}
    {bytes buffer : List UInt8} (found : cmd.pointers.lookup name = some offset)
    (stored : store cmd.buffer offset bytes = some buffer) :
    cmd.set name bytes = some { cmd with buffer := buffer } := by
  rw [CommandStructure.set, found, Option.bind_eq_bind, Option.bind_some, stored]
  rfl

namespace Structures

variable {structures next : Structures} {index : UInt32} {data : List UInt8}

/-- What `TlclWrite` puts into the buffer. -/
theorem prepareWrite_eq (ready : WriteReady structures.tpm_nv_write_cmd) (fits : data.length ≤ 234) :
    ∃ cmd rest, structures.prepareWrite index data (UInt32.ofNat data.length) = some cmd ∧
      cmd.buffer = writeBuffer (beBytes 4 (22 + data.length)) (beBytes 4 index.toNat)
        (beBytes 4 data.length) (data ++ rest) := by
  obtain ⟨size, oldIndex, length, old, four, fourth, quad, long, buffer⟩ := ready.buffer
  have count : (UInt32.ofNat data.length).toNat = data.length :=
    UInt32.toNat_ofNat_of_lt' (by rw [UInt32.size]; omega)
  have total : UInt32.ofNat (kTpmRequestHeaderLength + kWriteInfoLength) + UInt32.ofNat data.length =
      UInt32.ofNat (22 + data.length) := (UInt32.ofNat_add 22 data.length).symm
  have totalNat : (UInt32.ofNat (22 + data.length)).toNat = 22 + data.length :=
    UInt32.toNat_ofNat_of_lt' (by rw [UInt32.size]; omega)
  have small : (UInt32.ofNat (22 + data.length)).toBitVec.toInt ≤ TPM_LARGE_ENOUGH_COMMAND_SIZE := by
    rw [BitVec.toInt_eq_toNat_of_lt]
    · rw [UInt32.toNat_toBitVec, totalNat]
      exact_mod_cast (by rw [TPM_LARGE_ENOUGH_COMMAND_SIZE]; omega)
    · rw [UInt32.toNat_toBitVec, totalNat]
      omega
  have sized : SetTpmCommandSize structures.tpm_nv_write_cmd (UInt32.ofNat (22 + data.length)) =
      some ⟨writeBuffer (beBytes 4 (22 + data.length)) oldIndex length old,
        structures.tpm_nv_write_cmd.pointers⟩ := by
    rw [SetTpmCommandSize, buffer, ToTpmUint32_eq, totalNat, store_size (by rw [beBytes_length, four])]
    rfl
  have indexed := CommandStructure.set_eq
    ⟨writeBuffer (beBytes 4 (22 + data.length)) oldIndex length old,
      structures.tpm_nv_write_cmd.pointers⟩ "index" (by rw [ready.pointers]; rfl)
    (store_index (beBytes_length 4 _) ((beBytes_length 4 index.toNat).trans fourth.symm))
  have counted := CommandStructure.set_eq
    ⟨writeBuffer (beBytes 4 (22 + data.length)) (beBytes 4 index.toNat) length old,
      structures.tpm_nv_write_cmd.pointers⟩ "length" (by rw [ready.pointers]; rfl)
    (store_length (beBytes_length 4 _) (beBytes_length 4 _)
      ((beBytes_length 4 data.length).trans quad.symm))
  have filled := CommandStructure.set_eq
    ⟨writeBuffer (beBytes 4 (22 + data.length)) (beBytes 4 index.toNat)
      (beBytes 4 data.length) old, structures.tpm_nv_write_cmd.pointers⟩ "data"
    (by rw [ready.pointers]; rfl)
    (store_data (beBytes_length 4 _) (beBytes_length 4 _) (beBytes_length 4 _)
      (show data.length ≤ old.length by omega))
  refine ⟨⟨writeBuffer (beBytes 4 (22 + data.length)) (beBytes 4 index.toNat) (beBytes 4 data.length)
    (data ++ old.drop data.length), structures.tpm_nv_write_cmd.pointers⟩, old.drop data.length, ?_, rfl⟩
  simp only [prepareWrite, total, small, guard_true, Option.bind_eq_bind, Option.bind_some, sized,
    ToTpmUint32_eq, indexed, count, counted, le_refl, List.take_length]
  exact filled

/-- The datagram that `TlclWrite` sends is the request of the specification. -/
theorem write_sends_request (ready : WriteReady structures.tpm_nv_write_cmd) (fits : data.length ≤ 234) :
    ∃ cmd sent, structures.prepareWrite index data (UInt32.ofNat data.length) = some cmd ∧
      datagram cmd.buffer = some sent ∧ decodeWrite sent =
        some ⟨TPM_TAG_RQU_COMMAND.toNat, 22 + data.length, TPM_ORD_NV_WriteValue.toNat, index.toNat, 0,
          data.length, data⟩ := by
  obtain ⟨cmd, rest, prepared, buffer⟩ := prepareWrite_eq ready fits
  refine ⟨cmd, writeBuffer (beBytes 4 (22 + data.length)) (beBytes 4 index.toNat)
    (beBytes 4 data.length) data, prepared, ?_, ?_⟩
  · rw [buffer]
    apply datagram_writeBuffer rest (by omega)
    simp only [writeBuffer, List.length_append, beBytes_length, List.length_cons, List.length_nil]
    omega
  · rw [decodeWrite_writeBuffer (beBytes_length 4 _) (beBytes_length 4 _) (beBytes_length 4 _),
      beNat_beBytes_of_lt (by omega), beNat_beBytes_of_lt index.toNat_lt, beNat_beBytes_of_lt (by omega)]
    rfl

theorem setSize_ready {cmd next : CommandStructure} {size : UInt32} (ready : WriteReady cmd)
    (set : SetTpmCommandSize cmd size = some next) : WriteReady next := by
  obtain ⟨old, index, length, data, four, fourth, quad, long, buffer⟩ := ready.buffer
  rw [SetTpmCommandSize, buffer, store_size ((ToTpmUint32_length size).trans four.symm)] at set
  cases set
  exact ⟨ready.pointers, _, _, _, _, ToTpmUint32_length size, fourth, quad, long, rfl⟩

theorem setIndex_ready {cmd next : CommandStructure} (ready : WriteReady cmd)
    (set : cmd.set "index" (ToTpmUint32 index) = some next) : WriteReady next := by
  obtain ⟨size, old, length, data, four, fourth, quad, long, buffer⟩ := ready.buffer
  have found : cmd.pointers.lookup "index" = some 10 := by
    rw [ready.pointers]
    rfl
  rw [CommandStructure.set_eq cmd "index" found (buffer ▸
    store_index four ((ToTpmUint32_length index).trans fourth.symm))] at set
  cases set
  exact ⟨ready.pointers, _, _, _, _, four, ToTpmUint32_length index, quad, long, rfl⟩

theorem setLength_ready {cmd next : CommandStructure} {length : UInt32} (ready : WriteReady cmd)
    (set : cmd.set "length" (ToTpmUint32 length) = some next) : WriteReady next := by
  obtain ⟨size, index, old, data, four, fourth, quad, long, buffer⟩ := ready.buffer
  have found : cmd.pointers.lookup "length" = some 18 := by
    rw [ready.pointers]
    rfl
  rw [CommandStructure.set_eq cmd "length" found (buffer ▸
    store_length four fourth ((ToTpmUint32_length length).trans quad.symm))] at set
  cases set
  exact ⟨ready.pointers, _, _, _, _, four, fourth, ToTpmUint32_length length, long, rfl⟩

theorem setData_ready {cmd next : CommandStructure} (ready : WriteReady cmd)
    (set : cmd.set "data" data = some next) : WriteReady next := by
  obtain ⟨size, index, length, old, four, fourth, quad, long, buffer⟩ := ready.buffer
  have found : cmd.pointers.lookup "data" = some 22 := by
    rw [ready.pointers]
    rfl
  have fits : data.length ≤ old.length := by
    by_contra large
    have outside : ¬ 22 + data.length ≤ cmd.buffer.length := by
      rw [buffer]
      simp only [writeBuffer, List.length_append, List.length_cons, List.length_nil, four, fourth, quad]
      omega
    simp [CommandStructure.set, found, store, outside] at set
  rw [CommandStructure.set_eq cmd "data" found (buffer ▸ store_data four fourth quad fits)] at set
  cases set
  refine ⟨ready.pointers, _, _, _, _, four, fourth, quad, ?_, rfl⟩
  rw [List.length_append, List.length_drop]
  omega

theorem prepareWrite_ready {length : UInt32} {cmd : CommandStructure}
    (ready : WriteReady structures.tpm_nv_write_cmd)
    (prepared : structures.prepareWrite index data length = some cmd) : WriteReady cmd := by
  simp only [prepareWrite, Option.bind_eq_bind, Option.bind_eq_some_iff] at prepared
  obtain ⟨-, -, sized, setSize, indexed, setIndex, counted, setLength, -, -, setData⟩ := prepared
  exact setData_ready (setLength_ready (setIndex_ready (setSize_ready ready setSize) setIndex) setLength)
    setData

end Structures

/-- The buffer of the read command. -/
def readBuffer (index length : List UInt8) : List UInt8 :=
  [0x00, 0xc1, 0x00, 0x00, 0x00, 0x16, 0x00, 0x00, 0x00, 0xcf] ++
    (index ++ ([0x00, 0x00, 0x00, 0x00] ++ (length ++ [])))

/-- The read command as every call leaves it. -/
structure ReadReady (cmd : CommandStructure) : Prop where
  pointers : cmd.pointers = [("index", 10), ("length", 18)]
  buffer : ∃ index length, index.length = 4 ∧ length.length = 4 ∧ cmd.buffer = readBuffer index length

theorem setReadIndex_ready {cmd : CommandStructure} (index : UInt32) (ready : ReadReady cmd) :
    ∃ next, cmd.set "index" (ToTpmUint32 index) = some next ∧ ReadReady next := by
  obtain ⟨old, length, four, quad, buffer⟩ := ready.buffer
  have found : cmd.pointers.lookup "index" = some 10 := by
    rw [ready.pointers]
    rfl
  have stored : store cmd.buffer 10 (ToTpmUint32 index) = some (readBuffer (ToTpmUint32 index) length) := by
    rw [buffer]
    exact store_append [0x00, 0xc1, 0x00, 0x00, 0x00, 0x16, 0x00, 0x00, 0x00, 0xcf] _
      ((ToTpmUint32_length index).trans four.symm)
  exact ⟨_, CommandStructure.set_eq cmd "index" found stored, ready.pointers, _, length,
    ToTpmUint32_length index, quad, rfl⟩

theorem setReadLength_ready {cmd : CommandStructure} (length : UInt32) (ready : ReadReady cmd) :
    ∃ next, cmd.set "length" (ToTpmUint32 length) = some next ∧ ReadReady next := by
  obtain ⟨index, old, four, quad, buffer⟩ := ready.buffer
  have found : cmd.pointers.lookup "length" = some 18 := by
    rw [ready.pointers]
    rfl
  have stored : store cmd.buffer 18 (ToTpmUint32 length) = some (readBuffer index (ToTpmUint32 length)) := by
    rw [buffer]
    have shifted := store_append ([0x00, 0xc1, 0x00, 0x00, 0x00, 0x16, 0x00, 0x00, 0x00, 0xcf] ++
      (index ++ [0x00, 0x00, 0x00, 0x00])) [] ((ToTpmUint32_length length).trans quad.symm)
    simp only [List.append_assoc, List.length_append, List.length_cons, List.length_nil, four] at shifted
    exact shifted
  exact ⟨_, CommandStructure.set_eq cmd "length" found stored, ready.pointers, index, _, four,
    ToTpmUint32_length length, rfl⟩

theorem readResponse_length (data : List UInt8) : (readResponse data).length = 14 + data.length := by
  simp only [readResponse, List.length_append, beBytes_length]

/-- What arrives when the TPM answers a read request with success. -/
theorem SendReceive_readResponse {cmd : CommandStructure} {data : List UInt8} {exchange : Exchange}
    (ready : ReadReady cmd) (fits : data.length ≤ 242) (replied : exchange.reply = readResponse data) :
    SendReceive cmd.buffer exchange =
      some (readResponse data ++ exchange.stack.drop (14 + data.length)) := by
  obtain ⟨index, length, four, quad, buffer⟩ := ready.buffer
  obtain ⟨i0, i1, i2, i3, rfl⟩ := List.length_eq_four.mp four
  obtain ⟨l0, l1, l2, l3, rfl⟩ := List.length_eq_four.mp quad
  have sent : datagram (readBuffer [i0, i1, i2, i3] [l0, l1, l2, l3]) =
      some (readBuffer [i0, i1, i2, i3] [l0, l1, l2, l3]) := rfl
  have tag : TpmTag (readBuffer [i0, i1, i2, i3] [l0, l1, l2, l3]) = some TPM_TAG_RQU_COMMAND := rfl
  have responseTag (rest : List UInt8) : TpmTag (readResponse data ++ rest) = some TPM_TAG_RSP_COMMAND := by
    rw [readResponse]
    rfl
  have responseSize (rest : List UInt8) : TpmCommandSize (readResponse data ++ rest) =
      some (UInt32.ofNat (14 + data.length)) := by
    have read : FromTpmUint32 (beBytes 4 (14 + data.length) ++
        (beBytes 4 TPM_SUCCESS.toNat ++ beBytes 4 data.length ++ data ++ rest)) =
          some (UInt32.ofNat (14 + data.length)) := FromTpmUint32_beBytes _ (by omega)
    rw [← read, TpmCommandSize, readResponse]
    simp only [List.append_assoc]
    rfl
  have sizeNat : (UInt32.ofNat (14 + data.length)).toNat = 14 + data.length :=
    UInt32.toNat_ofNat_of_lt' (by rw [UInt32.size]; omega)
  have short : 14 + data.length ≤ TPM_LARGE_ENOUGH_COMMAND_SIZE := by
    rw [TPM_LARGE_ENOUGH_COMMAND_SIZE]
    omega
  simp only [SendReceive, buffer, sent, tag, replied, readResponse_length, responseTag, responseSize,
    sizeNat, short, Option.bind_eq_bind, Option.bind_some, guard_true, true_and, true_or]
  rfl

theorem TpmReturnCode_readResponse (data rest : List UInt8) :
    TpmReturnCode (readResponse data ++ rest) = some TPM_SUCCESS := by
  have size := List.length_eq_four.mp (beBytes_length 4 (14 + data.length))
  obtain ⟨s0, s1, s2, s3, size⟩ := size
  rw [readResponse, size]
  rfl

theorem readResponse_drop (data rest : List UInt8) : (readResponse data ++ rest).drop 14 = data ++ rest := by
  rw [readResponse, List.append_assoc]
  refine List.drop_left' ?_
  simp only [List.length_append, beBytes_length]

namespace Structures

variable {structures next : Structures} {index : UInt32} {data : List UInt8}

/-- `TlclRead` with a buffer as large as the data of the response leaves just these in the buffer,
whatever the buffer and the array for the response held before. -/
def ReadStores (structures : Structures) (index : UInt32) (data : List UInt8) : Prop :=
  ∀ exchange buffer, exchange.reply = readResponse data → buffer.length = data.length →
    ∃ next, structures.TlclRead index buffer (UInt32.ofNat data.length) exchange =
      some (TPM_SUCCESS, data, next)

/-- A read of no bytes leaves the buffer alone. -/
theorem readStores_nil (ready : ReadReady structures.tpm_nv_read_cmd) :
    structures.ReadStores index [] := by
  intro exchange buffer replied sized
  obtain ⟨middle, setIndex, middleReady⟩ := setReadIndex_ready index ready
  obtain ⟨cmd, setLength, cmdReady⟩ := setReadLength_ready (UInt32.ofNat 0) middleReady
  obtain rfl := List.length_eq_zero_iff.mp sized
  refine ⟨{ structures with tpm_nv_read_cmd := cmd }, ?_⟩
  simp only [TlclRead, setIndex, List.length_nil, setLength,
    SendReceive_readResponse cmdReady (Nat.zero_le _) replied, TpmReturnCode_readResponse,
    Option.bind_eq_bind, Option.bind_some]
  rfl

/-- What a read of at least one byte stores, if it stores anything: it takes the first four bytes of
the data for the length and goes on from there. -/
theorem TlclRead_stores {exchange : Exchange} {buffer stored : List UInt8} {result : UInt32}
    (ready : ReadReady structures.tpm_nv_read_cmd) (fits : data.length ≤ 242) (some_data : data ≠ [])
    (replied : exchange.reply = readResponse data)
    (read : structures.TlclRead index buffer (UInt32.ofNat data.length) exchange =
      some (result, stored, next)) :
    ∃ count ≤ buffer.length, stored =
      ((data ++ exchange.stack.drop (14 + data.length)).drop 4).take count ++ buffer.drop count := by
  obtain ⟨middle, setIndex, middleReady⟩ := setReadIndex_ready index ready
  obtain ⟨cmd, setLength, cmdReady⟩ := setReadLength_ready (UInt32.ofNat data.length) middleReady
  have positive : 0 < UInt32.ofNat data.length := by
    rw [UInt32.lt_iff_toNat_lt, UInt32.toNat_ofNat_of_lt' (by rw [UInt32.size]; omega)]
    exact List.length_pos_iff.mpr some_data
  simp only [TlclRead, setIndex, setLength, SendReceive_readResponse cmdReady fits replied,
    TpmReturnCode_readResponse, Option.bind_eq_bind, Option.bind_some, positive, and_self, if_true,
    kTpmResponseHeaderLength, readResponse_drop, Option.bind_eq_some_iff] at read
  obtain ⟨length, -, checked, available, bytes, kept, returned⟩ := read
  cases returned
  have taken : (((data ++ exchange.stack.drop (14 + data.length)).drop 4).take length.toNat).length =
      length.toNat := List.length_take_of_le ((Option.guard_eq_some' _).mp available)
  rw [store, taken, Nat.zero_add] at kept
  split at kept
  · next inside =>
    cases kept
    exact ⟨length.toNat, inside, rfl⟩
  · exact nomatch kept

/-- A read of at least one byte does not store the data: the last byte that it leaves in the buffer
comes from behind the response, or was in the buffer before. -/
theorem not_readStores (ready : ReadReady structures.tpm_nv_read_cmd) (fits : data.length ≤ 242)
    (nonempty : data ≠ []) : ¬ structures.ReadStores index data := by
  intro stores
  have positive : 0 < data.length := List.length_pos_iff.mpr nonempty
  have last : ∃ byte, data[data.length - 1]? = some byte :=
    ⟨_, List.getElem?_eq_getElem (by omega)⟩
  obtain ⟨byte, last⟩ := last
  have other : byte + 1 ≠ byte := by simp
  obtain ⟨next, read⟩ := stores ⟨List.replicate 256 (byte + 1), readResponse data, List.length_replicate⟩
    (List.replicate data.length (byte + 1)) rfl List.length_replicate
  obtain ⟨count, inside, stored⟩ := TlclRead_stores ready fits nonempty rfl read
  have found := congrArg (fun list => list[data.length - 1]?) stored
  simp only [last, List.getElem?_append] at found
  split at found
  · rw [List.getElem?_take, List.getElem?_drop] at found
    split at found
    · rw [List.getElem?_append_right (by omega), List.getElem?_drop, List.getElem?_replicate] at found
      split at found
      · exact other (Option.some.inj found).symm
      · exact nomatch found
    · exact nomatch found
  · rw [List.getElem?_drop, List.getElem?_replicate] at found
    split at found
    · exact other (Option.some.inj found).symm
    · exact nomatch found

/-- What the write and the read commands are like between any two calls. -/
structure Ready (structures : Structures) : Prop where
  write : WriteReady structures.tpm_nv_write_cmd
  read : ReadReady structures.tpm_nv_read_cmd

/-- `PCR_SELECTION_FIX` makes the size of a pointer cancel out. -/
theorem BuildDefineSpaceCommand_eq (pointerSize : ℕ) :
    BuildDefineSpaceCommand pointerSize = BuildDefineSpaceCommand 0 := by
  unfold BuildDefineSpaceCommand
  dsimp only
  ring_nf

theorem generate_ready (pointerSize : ℕ) :
    ∃ structures, generate pointerSize = some structures ∧ structures.Ready := by
  rw [generate, BuildDefineSpaceCommand_eq]
  refine ⟨_, rfl, ?_, ?_⟩
  · exact ⟨rfl, [0, 0, 0, 0], [0, 0, 0, 0], [0, 0, 0, 0], List.replicate 234 0, rfl, rfl, rfl, rfl, rfl⟩
  · exact ⟨rfl, [0, 0, 0, 0], [0, 0, 0, 0], rfl, rfl, rfl⟩

theorem TlclRead_ready {buffer stored : List UInt8} {length result : UInt32} {exchange : Exchange}
    (ready : ReadReady structures.tpm_nv_read_cmd)
    (read : structures.TlclRead index buffer length exchange = some (result, stored, next)) :
    ReadReady next.tpm_nv_read_cmd ∧ next.tpm_nv_write_cmd = structures.tpm_nv_write_cmd := by
  obtain ⟨middle, setIndex, middleReady⟩ := setReadIndex_ready index ready
  obtain ⟨cmd, setLength, cmdReady⟩ := setReadLength_ready length middleReady
  simp only [TlclRead, setIndex, setLength, Option.bind_eq_bind, Option.bind_some,
    Option.bind_eq_some_iff] at read
  obtain ⟨response, -, code, -, returned⟩ := read
  split at returned
  · simp only [Option.bind_eq_some_iff] at returned
    obtain ⟨_, _, _, _, _, _, returned⟩ := returned
    cases returned
    exact ⟨cmdReady, rfl⟩
  · cases returned
    exact ⟨cmdReady, rfl⟩

theorem TlclWrite_ready {length result : UInt32} {exchange : Exchange} (ready : structures.Ready)
    (written : structures.TlclWrite index data length exchange = some (result, next)) : next.Ready := by
  simp only [TlclWrite, Option.bind_eq_bind, Option.bind_eq_some_iff] at written
  obtain ⟨cmd, prepared, response, -, -, -, code, -, returned⟩ := written
  cases returned
  exact ⟨prepareWrite_ready ready.write prepared, ready.read⟩

theorem TlclDefineSpace_ready {perm size : UInt32} {exchange : Exchange} (ready : structures.Ready)
    (defined : structures.TlclDefineSpace index perm size exchange = some next) : next.Ready := by
  simp only [TlclDefineSpace, Option.bind_eq_bind, Option.bind_eq_some_iff] at defined
  obtain ⟨-, -, -, -, cmd, -, -, -, returned⟩ := defined
  cases returned
  exact ⟨ready.write, ready.read⟩

theorem Send_ready {command : List UInt8} {exchange : Exchange} (ready : structures.Ready)
    (sent : (do Send command exchange; return structures) = some next) : next.Ready := by
  simp only [Option.bind_eq_bind, Option.bind_eq_some_iff] at sent
  obtain ⟨-, -, returned⟩ := sent
  cases returned
  exact ready

theorem step_ready (call : Call × Exchange) (ready : structures.Ready)
    (stepped : structures.step call = some next) : next.Ready := by
  obtain ⟨call, exchange⟩ := call
  cases call with
  | Startup => exact Send_ready ready stepped
  | Selftestfull => exact Send_ready ready stepped
  | DefineSpace index perm size => exact TlclDefineSpace_ready ready stepped
  | Write index data length =>
    obtain ⟨⟨result, last⟩, written, rfl⟩ := Option.map_eq_some_iff.mp stepped
    exact TlclWrite_ready ready written
  | Read index data length =>
    obtain ⟨⟨result, stored, last⟩, read, rfl⟩ := Option.map_eq_some_iff.mp stepped
    obtain ⟨readReady, same⟩ := TlclRead_ready ready.read read
    exact ⟨same ▸ ready.write, readReady⟩
  | WriteLock index =>
    obtain ⟨⟨result, last⟩, written, rfl⟩ := Option.map_eq_some_iff.mp stepped
    exact TlclWrite_ready ready written
  | ReadLock index =>
    obtain ⟨⟨result, stored, last⟩, read, rfl⟩ := Option.map_eq_some_iff.mp stepped
    obtain ⟨readReady, same⟩ := TlclRead_ready ready.read read
    exact ⟨same ▸ ready.write, readReady⟩
  | AssertPhysicalPresence => exact Send_ready ready stepped
  | SetNvLocked => exact TlclDefineSpace_ready ready stepped

/-- Whatever has been sent before, a write sends the request of the specification, and a read stores
the data of the response exactly when there are none. -/
theorem nv_datagrams (pointerSize : ℕ) :
    ∃ structures, generate pointerSize = some structures ∧
      ∀ calls state, run step structures calls = some state →
        (∀ index data, data.length ≤ 234 →
          ∃ cmd sent, state.prepareWrite index data (UInt32.ofNat data.length) = some cmd ∧
            datagram cmd.buffer = some sent ∧ decodeWrite sent =
              some ⟨TPM_TAG_RQU_COMMAND.toNat, 22 + data.length, TPM_ORD_NV_WriteValue.toNat, index.toNat,
                0, data.length, data⟩) ∧
        ∀ index data, data.length ≤ 242 → (state.ReadStores index data ↔ data = []) := by
  obtain ⟨structures, generated, ready⟩ := generate_ready pointerSize
  refine ⟨structures, generated, ?_⟩
  intro calls state reached
  have stateReady : state.Ready := always_of_preserved ready
    (fun structures call next ready stepped => step_ready call ready stepped) calls calls
    List.prefix_rfl state reached
  refine ⟨fun index data fits => write_sends_request stateReady.write fits, ?_⟩
  intro index data fits
  constructor
  · intro stores
    by_contra nonempty
    exact not_readStores stateReady.read fits nonempty stores
  · rintro rfl
    exact readStores_nil stateReady.read

/-- A response with one byte is not stored. -/
theorem one_byte_not_stored :
    ¬ ∀ structures, generate 4 = some structures → structures.ReadStores 0x1004 [0x2a] := by
  intro stores
  obtain ⟨structures, generated, ready⟩ := generate_ready 4
  exact not_readStores ready.read (by decide) (by decide) (stores structures generated)

end Structures

end ChromiumOS.TpmLite
