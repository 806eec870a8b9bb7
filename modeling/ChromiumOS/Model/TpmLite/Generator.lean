import ChromiumOS.ToMathlib.Radix

/-! # The generator of command structures

`generator.c`. The generator prints a C structure for every TPM command: a buffer that is partly filled
and pointers to the fields that are set at run time. Structure sizes and constants of the tss headers
are those of the TPM specification, packed; `pointerSize` is the size of a `char*`. A failed `assert`
is `none`.
-/

namespace ChromiumOS.TpmLite

def TPM_TAG_RQU_COMMAND : UInt32 := 0x00c1
def TPM_TAG_RQU_AUTH1_COMMAND : UInt32 := 0x00c2
def TPM_TAG_RQU_AUTH2_COMMAND : UInt32 := 0x00c3
def TPM_TAG_RSP_COMMAND : UInt32 := 0x00c4
def TPM_TAG_RSP_AUTH1_COMMAND : UInt32 := 0x00c5
def TPM_TAG_RSP_AUTH2_COMMAND : UInt32 := 0x00c6
def TPM_TAG_NV_ATTRIBUTES : UInt32 := 0x0017
def TPM_TAG_NV_DATA_PUBLIC : UInt32 := 0x0018

def TPM_ORD_SelfTestFull : UInt32 := 0x50
def TPM_ORD_Startup : UInt32 := 0x99
def TPM_ORD_NV_DefineSpace : UInt32 := 0xcc
def TPM_ORD_NV_WriteValue : UInt32 := 0xcd
def TPM_ORD_NV_ReadValue : UInt32 := 0xcf
def TSC_ORD_PhysicalPresence : UInt32 := 0x4000000a

def TPM_ST_CLEAR : UInt32 := 1
def TPM_PHYSICAL_PRESENCE_PRESENT : UInt32 := 8
def TPM_ALL_LOCALITIES : UInt32 := 0x1f
def TPM_SUCCESS : UInt32 := 0
def TPM_NV_INDEX_LOCK : UInt32 := 0xffffffff

def TPM_LARGE_ENOUGH_COMMAND_SIZE : ℕ := 256

def kTpmRequestHeaderLength : ℕ := 10
def kTpmResponseHeaderLength : ℕ := 14
def kTpmReadInfoLength : ℕ := 12
def kEncAuthLength : ℕ := 20

/-- `sizeof(TPM_WRITE_INFO)`. -/
def kWriteInfoLength : ℕ := 12

/-- A field of a command: one that the run time sets, or one with a fixed value. -/
inductive Field where
  | visible (name : String) (offset : ℕ)
  | initialized (offset size : ℕ) (value : UInt32)
deriving DecidableEq, Repr

def Field.offset : Field → ℕ
  | .visible _ offset => offset
  | .initialized offset _ _ => offset

/-- A TPM command, with its fields in reverse order. -/
structure Command where
  size : ℕ
  max_size : ℕ := 0
  fields : List Field := []
deriving DecidableEq, Repr

def AddVisibleField (cmd : Command) (name : String) (offset : ℕ) : Option Command :=
  if ∀ fn ∈ cmd.fields.head?, fn.offset < offset then
    some { cmd with fields := .visible name offset :: cmd.fields }
  else none

def AddInitializedField (cmd : Command) (offset size : ℕ) (value : UInt32) : Command :=
  { cmd with fields := .initialized offset size value :: cmd.fields }

def newCommand (code : UInt32) (size : ℕ) : Command :=
  let cmd := AddInitializedField { size } 0 2 TPM_TAG_RQU_COMMAND
  let cmd := AddInitializedField cmd 2 4 (UInt32.ofNat size)
  AddInitializedField cmd 6 4 code

/-- `TPM_NV_DATA_PUBLIC` has two `TPM_PCR_SELECTION` structures with a pointer in place of three
bytes, which `PCR_SELECTION_FIX` makes up for. -/
def BuildDefineSpaceCommand (pointerSize : ℕ) : Option Command := do
  let PCR_SELECTION_FIX : ℤ := 3 - pointerSize
  let localityAtRelease : ℤ := 2 + pointerSize
  let nv_data_public := kTpmRequestHeaderLength
  let nv_index := nv_data_public + 2
  let nv_pcr_info_read := nv_data_public + 6
  let read_locality := (nv_pcr_info_read + localityAtRelease + PCR_SELECTION_FIX).toNat
  let nv_pcr_info_write := (nv_data_public + (29 + pointerSize : ℤ) + PCR_SELECTION_FIX).toNat
  let write_locality := (nv_pcr_info_write + localityAtRelease + PCR_SELECTION_FIX).toNat
  let nv_permission := (nv_data_public + (52 + 2 * pointerSize : ℤ) + 2 * PCR_SELECTION_FIX).toNat
  let nv_permission_tag := nv_permission
  let nv_permission_attributes := nv_permission + 2
  let nv_datasize := (nv_data_public + (61 + 2 * pointerSize : ℤ) + 2 * PCR_SELECTION_FIX).toNat
  let size := (kTpmRequestHeaderLength + (65 + 2 * pointerSize : ℤ) + 2 * PCR_SELECTION_FIX +
    kEncAuthLength).toNat
  let cmd := newCommand TPM_ORD_NV_DefineSpace size
  let cmd ← AddVisibleField cmd "index" nv_index
  let cmd ← AddVisibleField cmd "perm" nv_permission_attributes
  let cmd ← AddVisibleField cmd "size" nv_datasize
  let cmd := AddInitializedField cmd nv_data_public 2 TPM_TAG_NV_DATA_PUBLIC
  let cmd := AddInitializedField cmd nv_pcr_info_read 2 3
  let cmd := AddInitializedField cmd read_locality 1 TPM_ALL_LOCALITIES
  let cmd := AddInitializedField cmd nv_pcr_info_write 2 3
  let cmd := AddInitializedField cmd write_locality 1 TPM_ALL_LOCALITIES
  return AddInitializedField cmd nv_permission_tag 2 TPM_TAG_NV_ATTRIBUTES

def BuildWriteCommand : Option Command := do
  let cmd := { newCommand TPM_ORD_NV_WriteValue 0 with max_size := TPM_LARGE_ENOUGH_COMMAND_SIZE }
  let cmd ← AddVisibleField cmd "index" kTpmRequestHeaderLength
  let cmd ← AddVisibleField cmd "length" (kTpmRequestHeaderLength + 8)
  AddVisibleField cmd "data" (kTpmRequestHeaderLength + 12)

def BuildReadCommand : Option Command := do
  let cmd := newCommand TPM_ORD_NV_ReadValue (kTpmRequestHeaderLength + kTpmReadInfoLength)
  let cmd ← AddVisibleField cmd "index" kTpmRequestHeaderLength
  AddVisibleField cmd "length" (kTpmRequestHeaderLength + 8)

def BuildPhysicalPresenceCommand : Command :=
  AddInitializedField (newCommand TSC_ORD_PhysicalPresence (kTpmRequestHeaderLength + 2))
    kTpmRequestHeaderLength 2 TPM_PHYSICAL_PRESENCE_PRESENT

def BuildStartupCommand : Command :=
  AddInitializedField (newCommand TPM_ORD_Startup (kTpmRequestHeaderLength + 2))
    kTpmRequestHeaderLength 2 TPM_ST_CLEAR

def BuildSelftestfullCommand : Command :=
  newCommand TPM_ORD_SelfTestFull (kTpmRequestHeaderLength + 2)

/-- The bytes of a fixed value, of one of the sizes that there are. -/
def fieldBytes (size : ℕ) (value : UInt32) : Option (List UInt8) :=
  match size with
  | 1 => some [value.toUInt8]
  | 2 => some [(value >>> 8).toUInt8, (value &&& 0xff).toUInt8]
  | 4 => some [(value >>> 24).toUInt8, ((value >>> 16) &&& 0xff).toUInt8,
      ((value >>> 8) &&& 0xff).toUInt8, (value &&& 0xff).toUInt8]
  | _ => none

/-- The bytes that the initializer of a command lists; their number is the cursor. -/
def OutputBytes_ : List Field → Option (List UInt8)
  | [] => some []
  | .visible _ _ :: next => OutputBytes_ next
  | .initialized offset size value :: next => do
    let printed ← OutputBytes_ next
    guard (printed.length ≤ offset)
    let bytes ← fieldBytes size value
    return printed ++ List.replicate (offset - printed.length) 0 ++ bytes

/-- A structure of the generated file: its buffer and where its pointers point. -/
structure CommandStructure where
  buffer : List UInt8
  pointers : List (String × ℕ)
deriving DecidableEq, Repr

/-- The structure of a command; the C compiler fills the rest of the buffer with zeros. -/
def OutputCommand (cmd : Command) : Option CommandStructure := do
  let bytes ← OutputBytes_ cmd.fields
  let size := if cmd.size = 0 then cmd.max_size else cmd.size
  guard (bytes.length ≤ size)
  let pointers := cmd.fields.reverse.filterMap fun
    | .visible name offset => some (name, offset)
    | .initialized _ _ _ => none
  return { buffer := bytes ++ List.replicate (size - bytes.length) 0, pointers }

/-- The generated file. -/
structure Structures where
  tpm_nv_definespace_cmd : CommandStructure
  tpm_nv_write_cmd : CommandStructure
  tpm_nv_read_cmd : CommandStructure
  tpm_physicalpresence_cmd : CommandStructure
  tpm_startup_cmd : CommandStructure
  tpm_selftestfull_cmd : CommandStructure
deriving DecidableEq, Repr

def generate (pointerSize : ℕ) : Option Structures := do
  let tpm_nv_definespace_cmd ← OutputCommand (← BuildDefineSpaceCommand pointerSize)
  let tpm_nv_write_cmd ← OutputCommand (← BuildWriteCommand)
  let tpm_nv_read_cmd ← OutputCommand (← BuildReadCommand)
  let tpm_physicalpresence_cmd ← OutputCommand BuildPhysicalPresenceCommand
  let tpm_startup_cmd ← OutputCommand BuildStartupCommand
  let tpm_selftestfull_cmd ← OutputCommand BuildSelftestfullCommand
  return ⟨tpm_nv_definespace_cmd, tpm_nv_write_cmd, tpm_nv_read_cmd, tpm_physicalpresence_cmd,
    tpm_startup_cmd, tpm_selftestfull_cmd⟩

end ChromiumOS.TpmLite
