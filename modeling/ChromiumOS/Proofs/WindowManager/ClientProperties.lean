import ChromiumOS.Model.WindowManager.XProperties

/-! # Reading the properties of clients

A property of format 32 is read back as the values that were stored, up to the truncation of a reply. Every reader
is given what it means in terms of these values. Only a property without items makes readers crash: it exists, and
readers take a list that they are given to have a first element.
-/

namespace ChromiumOS.WindowManager

open Radix

/-- A monadic map that cannot fail is a map. -/
theorem mapM_of_ok {α β ε : Type} {read : α → Except ε β} {value : α → β} {indices : List α}
    (reads : ∀ index ∈ indices, read index = .ok (value index)) :
    indices.mapM read = .ok (indices.map value) := by
  induction indices with
  | nil => rfl
  | cons index rest ih =>
    have first : read index = .ok (value index) := reads index (by simp)
    have others : rest.mapM read = .ok (rest.map value) := by
      apply ih
      intro other member
      exact reads other (by simp [member])
    rw [List.mapM_cons, first, others, List.map_cons]
    rfl

theorem bind_total {α β ε : Type} {call : Except ε α} {next : α → Except ε β} (returns : ∃ value, call = .ok value)
    (continues : ∀ value, ∃ result, next value = .ok result) : ∃ result, (call >>= next) = .ok result := by
  obtain ⟨value, rfl⟩ := returns
  exact continues value

namespace PropertyItems

/-- The bytes of values of 32 bits. -/
def valueBytes (values : List (BitVec 32)) : List UInt8 := values.flatMap fun value => leBytes 4 value.toNat

theorem valueBytes_length (values : List (BitVec 32)) : (valueBytes values).length = 4 * values.length := by
  induction values with
  | nil => rfl
  | cons value rest ih =>
    simp only [valueBytes, List.flatMap_cons, List.length_append, leBytes_length, List.length_cons] at ih ⊢
    omega

theorem valueBytes_take (values : List (BitVec 32)) (count : ℕ) :
    (valueBytes values).take (4 * count) = valueBytes (values.take count) := by
  induction values generalizing count with
  | nil => simp [valueBytes]
  | cons value rest ih =>
    cases count with
    | zero => simp [valueBytes]
    | succ count =>
      have more : 4 * (count + 1) = (leBytes 4 value.toNat).length + 4 * count := by simp; omega
      rw [List.take_succ_cons]
      change (leBytes 4 value.toNat ++ valueBytes rest).take _ = leBytes 4 value.toNat ++ valueBytes (rest.take count)
      rw [more, List.take_length_add_append, ih]

theorem readInt_valueBytes (values : List (BitVec 32)) (index : ℕ) (inside : index < values.length) :
    PropertyServer.readInt (valueBytes values) (4 * index) = .ok (values.getD index 0) := by
  induction values generalizing index with
  | nil => simp at inside
  | cons value rest ih =>
    have bytes : valueBytes (value :: rest) = leBytes 4 value.toNat ++ valueBytes rest := rfl
    have total := valueBytes_length (value :: rest)
    have small : 4 * index + 4 ≤ (valueBytes (value :: rest)).length := by omega
    unfold PropertyServer.readInt
    rw [if_pos small]
    cases index with
    | zero =>
      have bound : value.toNat < 256 ^ 4 := value.isLt
      have head : (leBytes 4 value.toNat ++ valueBytes rest).take 4 = leBytes 4 value.toNat := by
        apply List.take_left'
        simp
      rw [bytes, Nat.mul_zero, List.drop_zero, head, leNat_leBytes_of_lt bound, BitVec.ofNat_toNat]
      simp
    | succ index =>
      have inner : index < rest.length := by simpa using inside
      have tail := ih index inner
      have restLength := valueBytes_length rest
      have more : 4 * (index + 1) = (leBytes 4 value.toNat).length + 4 * index := by simp; omega
      unfold PropertyServer.readInt at tail
      rw [if_pos (by omega)] at tail
      rw [bytes, more, List.drop_length_add_append, List.getD_cons_succ]
      exact tail

theorem bytes_format32 (values : List (BitVec 32)) : (format32 values).bytes = valueBytes values := rfl

end PropertyItems

namespace PropertyServer

open PropertyItems

/-- The values of 32 bits that a reply has, if the property is one of format 32. -/
def ints (server : PropertyServer) (xid : XWindow) (xatom : XAtom) : Option (List (BitVec 32)) :=
  if server.exists_ xid then
    match server.stored xid xatom with
    | some ⟨_, .format32 items⟩ => some (items.take kMaxPropertySize)
    | _ => none
  else none

theorem ints_eq_some {server : PropertyServer} {xid : XWindow} {xatom : XAtom} {values : List (BitVec 32)} :
    server.ints xid xatom = some values ↔
      server.exists_ xid = true ∧
        ∃ type items, server.stored xid xatom = some ⟨type, .format32 items⟩ ∧ values = items.take kMaxPropertySize := by
  unfold ints
  split
  · next present =>
    split
    · next type items stored => simp [present, stored, eq_comm]
    · next other =>
      constructor
      · intro impossible
        cases impossible
      · rintro ⟨_, type, items, stored, _⟩
        exact absurd stored (other type items)
  · next absent => simp [absent]

variable (server : PropertyServer) (xid : XWindow) (xatom : XAtom)

/-- The values of a property are read without a read outside of the reply, and they are the stored ones. -/
theorem GetIntArrayProperty_eq : server.GetIntArrayProperty xid xatom = .ok (server.ints xid xatom) := by
  unfold GetIntArrayProperty GetPropertyInternal get_property ints
  split
  · next reply none_ =>
    split
    · next present =>
      rw [if_pos present] at none_
      cases stored : server.stored xid xatom with
      | none => rfl
      | some property =>
        rcases property with ⟨type, items⟩
        rw [stored] at none_
        cases items <;> simp [PropertyItems.format] at none_
    · rfl
  · next reply fetched =>
    by_cases present : server.exists_ xid
    · rw [if_pos present] at fetched ⊢
      cases stored : server.stored xid xatom with
      | none =>
        rw [stored] at fetched
        obtain ⟨rfl, impossible⟩ : _ ∧ _ := by simpa only [Option.filter_eq_some_iff, Option.some.injEq] using fetched
        simp at impossible
      | some property =>
        rcases property with ⟨type, items⟩
        rw [stored] at fetched
        obtain ⟨rfl, _⟩ : _ ∧ _ := by simpa only [Option.filter_eq_some_iff, Option.some.injEq] using fetched
        cases items with
        | format8 items => simp [PropertyItems.format, kLongFormat]
        | format16 items => simp [PropertyItems.format, kLongFormat]
        | format32 items =>
          have value : (PropertyItems.format32 items).bytes.take (4 * kMaxPropertySize) =
              valueBytes (items.take kMaxPropertySize) := valueBytes_take items kMaxPropertySize
          have size := valueBytes_length (items.take kMaxPropertySize)
          have reads : (List.range (items.take kMaxPropertySize).length).mapM
              (fun index => readInt (valueBytes (items.take kMaxPropertySize)) (4 * index)) =
              .ok (items.take kMaxPropertySize) := by
            have each : ∀ index ∈ List.range (items.take kMaxPropertySize).length,
                readInt (valueBytes (items.take kMaxPropertySize)) (4 * index) =
                  .ok ((items.take kMaxPropertySize).getD index 0) := by
              intro index member
              exact readInt_valueBytes _ index (List.mem_range.mp member)
            rw [mapM_of_ok each]
            congr 1
            apply List.ext_getElem (by simp)
            intro index first second
            simp [List.getElem?_eq_getElem second]
          have count : (4 * (items.take kMaxPropertySize).length + 3) / 4 = (items.take kMaxPropertySize).length := by
            omega
          simp only [PropertyItems.format, kLongFormat, value, size, count]
          rw [if_neg (by decide), if_neg (by omega), reads]
          rfl
    · simp [present] at fetched

theorem ints_SetIntArrayProperty (present : server.exists_ xid = true) (type : XAtom) (values : List (BitVec 32)) :
    (server.SetIntArrayProperty xid xatom type values).ints xid xatom = some (values.take kMaxPropertySize) := by
  apply ints_eq_some.mpr
  unfold SetIntArrayProperty change_property
  rw [if_pos present]
  exact ⟨present, type, values, by simp, rfl⟩

theorem ints_delete_property : (server.delete_property xid xatom).ints xid xatom = none := by
  unfold delete_property ints
  simp

/-- What was set is read back, up to the truncation. -/
theorem GetIntArrayProperty_SetIntArrayProperty (present : server.exists_ xid = true) (type : XAtom)
    (values : List (BitVec 32)) :
    (server.SetIntArrayProperty xid xatom type values).GetIntArrayProperty xid xatom =
      .ok (some (values.take kMaxPropertySize)) := by
  rw [GetIntArrayProperty_eq, ints_SetIntArrayProperty server xid xatom present]

theorem element_total {values : List (BitVec 32)} {index : ℕ} (inside : index < values.length) :
    ∃ value, element values index = .ok value := by
  refine ⟨values[index], ?_⟩
  unfold element
  rw [List.getElem?_eq_getElem inside]

theorem take_total (hints : SizeHints) (flagged : Bool) {values : List (BitVec 32)} {index : ℕ}
    (set : SizeHints → ℤ → ℤ → SizeHints) (inside : flagged = true → index + 1 < values.length) :
    ∃ result, hints.take flagged values index set = .ok result := by
  cases flagged with
  | false => exact ⟨hints, rfl⟩
  | true =>
    have bound := inside rfl
    apply bind_total (element_total (Nat.lt_of_succ_lt bound))
    intro first
    apply bind_total (element_total bound)
    intro second
    exact ⟨set hints first.toInt second.toInt, rfl⟩

/-- The optional fields are only read where the list is long enough to have them. -/
theorem readSizeHints_total (values : List (BitVec 32)) (enough : 15 ≤ values.length) :
    ∃ hints, readSizeHints values = .ok hints := by
  apply bind_total (element_total (by omega))
  intro flags
  apply bind_total (take_total _ _ _ fun _ => by omega)
  intro sized
  apply bind_total (take_total _ _ _ fun _ => by omega)
  intro lower
  apply bind_total (take_total _ _ _ fun _ => by omega)
  intro upper
  apply bind_total (take_total _ _ _ fun _ => by omega)
  intro stepped
  apply bind_total (take_total _ _ _ fun _ => by omega)
  intro narrow
  apply bind_total (take_total _ _ _ fun _ => by omega)
  intro wide
  apply bind_total
  · apply take_total
    intro flagged
    have long : 17 ≤ values.length := (of_decide_eq_true flagged).2
    omega
  intro based
  split
  · next gravity =>
    obtain ⟨value, read⟩ := element_total (show 17 < values.length by omega)
    rw [read]
    exact ⟨_, rfl⟩
  · exact ⟨based, rfl⟩

end PropertyServer

open PropertyServer

/-- What the readers of a property of a window promise whatever a client stored there. -/
structure ReadsSafely (ipc : WmIpc) (server : PropertyServer) (xid : XWindow) (xatom : XAtom) : Prop where
  array : ∃ values, server.GetIntArrayProperty xid xatom = .ok values
  stored : ∀ values, server.GetIntArrayProperty xid xatom = .ok (some values) →
    values ≠ [] ∧ ∃ type items, server.stored xid xatom = some ⟨type, .format32 items⟩ ∧ values = items.take 1024
  int : ∃ value, server.GetIntProperty xid xatom = .ok value
  string : ∀ value, server.GetStringProperty xid xatom = some value →
    ∃ type items, server.stored xid xatom = some ⟨type, .format8 items⟩ ∧ value = items.take 4096
  transientHint : xatom = XA_WM_TRANSIENT_FOR → ∃ owner, server.GetTransientHintForWindow xid = .ok owner
  sizeHints : xatom = XA_WM_NORMAL_HINTS → ∃ hints, server.GetSizeHintsForWindow xid = .ok hints
  windowType : xatom = ipc.atom_cache_.GetXAtom .ATOM_CHROME_WINDOW_TYPE →
    ∃ type, ipc.GetWindowType server xid = .ok type
  wmHints : xatom = ipc.atom_cache_.GetXAtom .ATOM_WM_HINTS →
    ∀ win : PropertyWindow, win.xid = xid → ∃ next, win.FetchAndApplyWmHints ipc.atom_cache_ server = .ok next
  roundTrip : ∀ type (values : List (BitVec 32)), values ≠ [] → values.length ≤ 1024 →
    (server.SetIntArrayProperty xid xatom type values).GetIntArrayProperty xid xatom = .ok (some values)

theorem GetStringProperty_stored {server : PropertyServer} {xid : XWindow} {xatom : XAtom} {value : List UInt8}
    (read : server.GetStringProperty xid xatom = some value) :
    ∃ type items, server.stored xid xatom = some ⟨type, .format8 items⟩ ∧ value = items.take 4096 := by
  unfold GetStringProperty at read
  split at read
  · cases read
  · next reply fetched =>
    split at read
    · cases read
    · next bytes =>
      obtain rfl := Option.some.inj read
      obtain ⟨got, _⟩ := Option.filter_eq_some_iff.mp fetched
      unfold get_property at got
      split at got
      · split at got
        · obtain rfl := Option.some.inj got
          exact absurd (by simp [kByteFormat]) bytes
        · next property stored =>
          obtain rfl := Option.some.inj got
          rcases property with ⟨type, items⟩
          cases items with
          | format8 items => exact ⟨type, items, stored, rfl⟩
          | format16 items => exact absurd (by simp [PropertyItems.format, kByteFormat]) bytes
          | format32 items => exact absurd (by simp [PropertyItems.format, kByteFormat]) bytes
      · cases got

theorem firstValue_total {values : Option (List (BitVec 32))} (some_ : values ≠ some []) :
    ∃ value, firstValue values = .ok value := by
  rcases values with _ | _ | ⟨value, rest⟩
  · exact ⟨none, rfl⟩
  · exact absurd rfl some_
  · exact ⟨some value, rfl⟩

theorem ints_ne_nil {server : PropertyServer} {xid : XWindow} {xatom : XAtom}
    (notEmpty : ∀ type, server.stored xid xatom ≠ some ⟨type, .format32 []⟩) : server.ints xid xatom ≠ some [] := by
  intro empty
  obtain ⟨_, type, items, stored, none_⟩ := ints_eq_some.mp empty
  have noItems : items = [] := by
    rcases List.take_eq_nil_iff.mp none_.symm with zero | nil
    · exact absurd zero (by decide)
    · exact nil
  exact notEmpty type (noItems ▸ stored)

/-- The readers are safe on exactly the properties that are not empty lists of values of 32 bits. -/
theorem readers_are_safe (ipc : WmIpc) (server : PropertyServer) (xid : XWindow) (xatom : XAtom)
    (present : server.exists_ xid = true) :
    ReadsSafely ipc server xid xatom ↔ ∀ type, server.stored xid xatom ≠ some ⟨type, .format32 []⟩ := by
  constructor
  · intro safe type empty
    have read : server.GetIntArrayProperty xid xatom = .ok (some []) := by
      rw [GetIntArrayProperty_eq]
      congr 1
      exact ints_eq_some.mpr ⟨present, type, [], empty, rfl⟩
    exact (safe.stored [] read).1 rfl
  · intro notEmpty
    have some_ := ints_ne_nil notEmpty
    have int : ∃ value, server.GetIntProperty xid xatom = .ok value := by
      unfold GetIntProperty
      rw [GetIntArrayProperty_eq]
      exact firstValue_total some_
    refine
      { array := ⟨_, GetIntArrayProperty_eq server xid xatom⟩
        stored := ?_
        int := int
        string := fun value => GetStringProperty_stored
        transientHint := ?_
        sizeHints := ?_
        windowType := ?_
        wmHints := ?_
        roundTrip := ?_ }
    · intro values read
      rw [GetIntArrayProperty_eq] at read
      have same : server.ints xid xatom = some values := Except.ok.inj read
      obtain ⟨_, type, items, stored, taken⟩ := ints_eq_some.mp same
      refine ⟨?_, type, items, stored, taken⟩
      rintro rfl
      exact some_ same
    · rintro rfl
      obtain ⟨value, read⟩ := int
      unfold GetTransientHintForWindow
      rw [read]
      exact ⟨_, rfl⟩
    · rintro rfl
      unfold GetSizeHintsForWindow
      rw [GetIntArrayProperty_eq]
      cases server.ints xid XA_WM_NORMAL_HINTS with
      | none => exact ⟨none, rfl⟩
      | some values =>
        by_cases short : values.length < 15
        · exact ⟨none, if_pos short⟩
        · obtain ⟨hints, read⟩ := readSizeHints_total values (by omega)
          refine ⟨some hints, (if_neg short).trans ?_⟩
          rw [read]
          rfl
    · rintro rfl
      unfold WmIpc.GetWindowType
      rw [GetIntArrayProperty_eq]
      cases values : server.ints xid (ipc.atom_cache_.GetXAtom .ATOM_CHROME_WINDOW_TYPE) with
      | none => exact ⟨none, rfl⟩
      | some list =>
        cases list with
        | nil => exact absurd values some_
        | cons type params => exact ⟨some (type, params), rfl⟩
    · rintro rfl win rfl
      unfold PropertyWindow.FetchAndApplyWmHints
      rw [GetIntArrayProperty_eq]
      cases values : server.ints win.xid (ipc.atom_cache_.GetXAtom .ATOM_WM_HINTS) with
      | none => exact ⟨win, rfl⟩
      | some list =>
        cases list with
        | nil => exact absurd values some_
        | cons flags rest => exact ⟨_, rfl⟩
    · intro type values _ small
      have whole : values.take kMaxPropertySize = values := List.take_of_length_le small
      rw [GetIntArrayProperty_SetIntArrayProperty server xid xatom present, whole]

/-- An atom for each name. -/
def numberedAtoms : AtomCache where
  GetXAtom atom := BitVec.ofNat 32 (100 + atom.ctorIdx)
  injective := by
    intro first second same
    cases first <;> cases second <;> first | rfl | exact absurd same (by decide)

/-- One window, with the same property under each atom. -/
def oneWindow (items : PropertyItems) : PropertyServer where
  exists_ xid := xid = 1
  stored _ _ := some ⟨XA_CARDINAL, items⟩

/-- The readers on a list with one value. -/
theorem readers_are_safe_on_one :
    ReadsSafely ⟨numberedAtoms⟩ (oneWindow (.format32 [7])) 1 XA_WM_TRANSIENT_FOR :=
  (readers_are_safe ⟨numberedAtoms⟩ (oneWindow (.format32 [7])) 1 XA_WM_TRANSIENT_FOR rfl).mpr
    fun type same => by cases Option.some.inj same

/-- A client stores a transient hint without a value: a `CHECK` fails. A window type and hints without a value
are no better. -/
theorem empty_property_crashes :
    ¬ ReadsSafely ⟨numberedAtoms⟩ (oneWindow (.format32 [])) 1 XA_WM_TRANSIENT_FOR ∧
      (oneWindow (.format32 [])).GetTransientHintForWindow 1 = .error .failedCheck ∧
      WmIpc.GetWindowType ⟨numberedAtoms⟩ (oneWindow (.format32 [])) 1 = .error .failedCheck ∧
      PropertyWindow.FetchAndApplyWmHints { xid := 1 } numberedAtoms (oneWindow (.format32 [])) =
        .error .outsideRead := by
  refine ⟨?_, rfl, rfl, rfl⟩
  intro safe
  obtain ⟨value, read⟩ := safe.int
  cases read

end ChromiumOS.WindowManager
