import ChromiumOS.Model.Vboot.ShaUnrolled
import ChromiumOS.Proofs.Vboot.RsaVerify

/-! # The optimised compression functions are the plain ones

The plain loops shift the working variables at the end of a round, the optimised ones rotate their names.
After every round the variables of the plain loop are those of the optimised one, rotated by the number of
rounds, and after a multiple of their number they are in the same places again.
-/

namespace ChromiumOS.Vboot

open Radix

section Rotation

variable {ω : Type}

/-- Eight variables under the names that they have after some rounds. -/
def rotated8 (turn : Fin 8) (v : Vector ω 8) : Vector ω 8 :=
  Vector.ofFn fun name => v.get (name - turn)

/-- Five variables under the names that they have after some steps. -/
def rotated5 (turn : Fin 5) (v : Vector ω 5) : Vector ω 5 :=
  Vector.ofFn fun name => v.get (name - turn)

theorem vector8_cases (v : Vector ω 8) :
    ∃ x0 x1 x2 x3 x4 x5 x6 x7, v = #v[x0, x1, x2, x3, x4, x5, x6, x7] := by
  refine ⟨v.get 0, v.get 1, v.get 2, v.get 3, v.get 4, v.get 5, v.get 6, v.get 7, ?_⟩
  apply Vector.ext
  intro i inside
  interval_cases i <;> rfl

theorem vector5_cases (v : Vector ω 5) : ∃ x0 x1 x2 x3 x4, v = #v[x0, x1, x2, x3, x4] := by
  refine ⟨v.get 0, v.get 1, v.get 2, v.get 3, v.get 4, ?_⟩
  apply Vector.ext
  intro i inside
  interval_cases i <;> rfl

theorem rotated8_zero (v : Vector ω 8) : rotated8 0 v = v := by
  obtain ⟨x0, x1, x2, x3, x4, x5, x6, x7, rfl⟩ := vector8_cases v
  rfl

theorem rotated5_zero (v : Vector ω 5) : rotated5 0 v = v := by
  obtain ⟨x0, x1, x2, x3, x4, rfl⟩ := vector5_cases v
  rfl

end Rotation

section Sha2

/-- The names of the working variables in a round. -/
def namesAt (round : ℕ) : Registers :=
  let turn := Fin.ofNat 8 round
  ⟨0 - turn, 1 - turn, 2 - turn, 3 - turn, 4 - turn, 5 - turn, 6 - turn, 7 - turn⟩

theorem ofNat_succ (count : ℕ) [NeZero count] (round : ℕ) :
    Fin.ofNat count (round + 1) = Fin.ofNat count round + Fin.ofNat count 1 := by
  apply Fin.ext
  simp [Fin.val_add]

variable {ω : Type} [Add ω] [OfNat ω 0] [AndOp ω] [XorOp ω] [Complement ω] (F1 F2 : ω → ω) (k w : Array ω)

/-- A round on the variables under their names is the plain round. -/
theorem SHA2_EXP_simulates (v : Vector ω 8) (round : ℕ) :
    SHA2_round F1 F2 k w (rotated8 (Fin.ofNat 8 round) v) round =
      rotated8 (Fin.ofNat 8 (round + 1)) (SHA2_EXP F1 F2 k w v (namesAt round) round) := by
  rw [ofNat_succ, namesAt]
  generalize Fin.ofNat 8 round = turn
  obtain ⟨x0, x1, x2, x3, x4, x5, x6, x7, rfl⟩ := vector8_cases v
  fin_cases turn <;> rfl

/-- Some rounds of the optimised loop. -/
def expRounds (v : Vector ω 8) (rounds : List ℕ) : Vector ω 8 :=
  rounds.foldl (fun v round => SHA2_EXP F1 F2 k w v (namesAt round) round) v

theorem expRounds_simulate (v : Vector ω 8) (start count : ℕ) :
    (List.range' start count).foldl (SHA2_round F1 F2 k w) (rotated8 (Fin.ofNat 8 start) v) =
      rotated8 (Fin.ofNat 8 (start + count)) (expRounds F1 F2 k w v (List.range' start count)) := by
  induction count generalizing start v with
  | zero => rfl
  | succ count ih =>
    rw [List.range'_succ, List.foldl_cons, SHA2_EXP_simulates, ih, expRounds, expRounds, List.foldl_cons,
      add_right_comm, add_assoc]

/-- A multiple of eight rounds leaves the variables under their names. -/
theorem expRounds_eq (v : Vector ω 8) {count : ℕ} (whole : Fin.ofNat 8 count = 0) :
    expRounds F1 F2 k w v (List.range count) = (List.range count).foldl (SHA2_round F1 F2 k w) v := by
  have simulated := expRounds_simulate F1 F2 k w v 0 count
  have start : rotated8 (Fin.ofNat 8 0) v = v := rotated8_zero v
  rw [zero_add, whole, rotated8_zero, start, ← List.range_eq_range'] at simulated
  exact simulated.symm

end Sha2

theorem packWords_eq (count : ℕ) {bytes : List UInt8} (length : bytes.length = 4 * count) :
    packWords bytes = (List.range count).map fun index => PACK32 bytes (4 * index) := by
  induction count generalizing bytes with
  | zero =>
    rw [List.length_eq_zero_iff.mp length]
    rfl
  | succ count ih =>
    rcases bytes with _ | ⟨b0, _ | ⟨b1, _ | ⟨b2, _ | ⟨b3, rest⟩⟩⟩⟩
    iterate 4 simp only [List.length_cons, List.length_nil] at length; omega
    have rest_length : rest.length = 4 * count := by
      simp only [List.length_cons] at length
      omega
    rw [packWords, ih rest_length, List.range_succ_eq_map, List.map_cons, List.map_map]
    refine congrArg₂ _ ?_ (List.map_congr_left fun index _ => ?_)
    · have first : PACK32 (b0 :: b1 :: b2 :: b3 :: rest) (4 * 0) =
          b3.toUInt32 ||| (b2.toUInt32 <<< 8) ||| (b1.toUInt32 <<< 16) ||| (b0.toUInt32 <<< 24) := rfl
      rw [first]
      generalize b0.toUInt32 <<< 24 = w0, b1.toUInt32 <<< 16 = w1, b2.toUInt32 <<< 8 = w2, b3.toUInt32 = w3
      ac_rfl
    · rfl

theorem packWords64_eq (count : ℕ) {bytes : List UInt8} (length : bytes.length = 8 * count) :
    packWords64 bytes = (List.range count).map fun index => PACK64 bytes (8 * index) := by
  induction count generalizing bytes with
  | zero =>
    rw [List.length_eq_zero_iff.mp length]
    rfl
  | succ count ih =>
    rcases bytes with _ | ⟨b0, _ | ⟨b1, _ | ⟨b2, _ | ⟨b3, _ | ⟨b4, _ | ⟨b5, _ | ⟨b6, _ | ⟨b7, rest⟩⟩⟩⟩⟩⟩⟩⟩
    iterate 8 simp only [List.length_cons, List.length_nil] at length; omega
    have rest_length : rest.length = 8 * count := by
      simp only [List.length_cons] at length
      omega
    rw [packWords64, ih rest_length, List.range_succ_eq_map, List.map_cons, List.map_map]
    exact congrArg₂ _ rfl (List.map_congr_left fun index _ => rfl)

theorem SHA256_EXP_lines_eq :
    SHA256_EXP_lines = (List.range 64).map fun round => (namesAt round, round) := by
  decide

theorem SHA256_compress_unrolled_eq (h : Vector UInt32 8) (sub_block : Vector UInt8 64) :
    SHA256_compress_unrolled h sub_block.toList = SHA256_compress h sub_block.toList := by
  have length : sub_block.toList.length = 4 * 16 := sub_block.length_toList
  rw [SHA256_compress_unrolled, SHA256_compress, SHA256_EXP_lines_eq, List.foldl_map,
    packWords_eq 16 length]
  change h.zipWith (· + ·) (expRounds _ _ _ _ h (List.range 64)) = _
  rw [expRounds_eq _ _ _ _ h (by decide)]
  rfl

theorem SHA512_EXP_lines_eq : SHA512_EXP_lines = (List.range' 0 8).map namesAt := by decide

theorem namesAt_add {j : ℕ} (whole : j % 8 = 0) (step : ℕ) : namesAt (j + step) = namesAt step := by
  have same : Fin.ofNat 8 (j + step) = Fin.ofNat 8 step := by
    apply Fin.ext
    simp only [Fin.ofNat]
    omega
  rw [namesAt, namesAt, same]

theorem SHA512_lines_fold (w : Array UInt64) {j : ℕ} (whole : j % 8 = 0) (wv : Vector UInt64 8)
    (start count : ℕ) :
    ((List.range' start count).map namesAt).foldl
        (fun acc names => (SHA2_EXP SHA512_F1 SHA512_F2 sha512_k.toArray w acc.1 names acc.2, acc.2 + 1))
        (wv, j + start) =
      (expRounds SHA512_F1 SHA512_F2 sha512_k.toArray w wv (List.range' (j + start) count),
        j + start + count) := by
  induction count generalizing start wv with
  | zero => rfl
  | succ count ih =>
    rw [List.range'_succ, List.map_cons, List.foldl_cons, ← namesAt_add whole start]
    dsimp only
    rw [add_assoc j start 1, ih, List.range'_succ, expRounds, expRounds, List.foldl_cons, add_assoc j start 1]
    refine congrArg₂ _ rfl ?_
    omega

/-- A turn is eight rounds. -/
theorem SHA512_turn_eq (w : Array UInt64) (wv : Vector UInt64 8) {j : ℕ} (whole : j % 8 = 0) :
    SHA512_turn w wv j =
      (expRounds SHA512_F1 SHA512_F2 sha512_k.toArray w wv (List.range' j 8), j + 8) := by
  rw [SHA512_turn, SHA512_EXP_lines_eq]
  exact SHA512_lines_fold w whole wv 0 8

theorem SHA512_turns_eq (w : Array UInt64) {turns j : ℕ} (wv : Vector UInt64 8)
    (rounds : j + 8 * (turns + 1) = 80) (whole : j % 8 = 0) :
    SHA512_turns w (turns + 1) wv j =
      expRounds SHA512_F1 SHA512_F2 sha512_k.toArray w wv (List.range' j (8 * (turns + 1))) := by
  induction turns generalizing j wv with
  | zero =>
    rw [SHA512_turns, SHA512_turn_eq w wv whole]
    exact if_neg (by omega)
  | succ turns ih =>
    rw [SHA512_turns, SHA512_turn_eq w wv whole]
    dsimp only
    rw [if_pos (by omega), ih _ (by omega) (by omega), show 8 * (turns + 1 + 1) = 8 + 8 * (turns + 1) by ring,
      ← List.range'_append_1, expRounds, expRounds, expRounds, List.foldl_append]

theorem SHA512_compress_unrolled_eq (h : Vector UInt64 8) (sub_block : Vector UInt8 128) :
    SHA512_compress_unrolled h sub_block.toList = SHA512_compress h sub_block.toList := by
  have length : sub_block.toList.length = 8 * 16 := sub_block.length_toList
  rw [SHA512_compress_unrolled, SHA512_compress, packWords64_eq 16 length]
  dsimp only
  rw [SHA512_turns_eq _ h (by decide) (by decide), ← List.range_eq_range', expRounds_eq _ _ _ _ h (by decide)]
  rfl

section Sha1

/-- The names of the variables in a step. -/
def shaNamesAt (t : ℕ) : SHA_F_names :=
  let turn := Fin.ofNat 5 t
  ⟨0 - turn, 1 - turn, 2 - turn, 3 - turn, 4 - turn⟩

/-- How a step mixes three of the variables. -/
def mixAt (t : ℕ) (B C D : UInt32) : UInt32 :=
  if t < 20 then D ^^^ (B &&& (C ^^^ D))
  else if t < 40 then B ^^^ C ^^^ D
  else if t < 60 then (B &&& C) ||| (D &&& (B ||| C))
  else B ^^^ C ^^^ D

/-- The constant of a step. -/
def constantAt (t : ℕ) : UInt32 :=
  if t < 20 then 0x5A827999 else if t < 40 then 0x6ED9EBA1 else if t < 60 then 0x8F1BBCDC else 0xCA62C1D6

/-- What `W[t]` is set to in a step. -/
def wordAt (buf : List UInt8) (W : Array UInt32) (t : ℕ) : UInt32 :=
  if t < 16 then bufferWord buf W t else nextWord W t

/-- The step with a number. -/
def shaStep (buf : List UInt8) (acc : Array UInt32 × Vector UInt32 5) (t : ℕ) :
    Array UInt32 × Vector UInt32 5 :=
  SHA_F (mixAt t) (constantAt t) (wordAt buf) acc (shaNamesAt t) t

theorem SHA_F_lines_eq :
    SHA_F_lines.zipIdx = (List.range' 0 5).map fun step => (shaNamesAt step, step) := by
  decide

theorem shaNamesAt_add {t : ℕ} (whole : t % 5 = 0) (step : ℕ) : shaNamesAt (t + step) = shaNamesAt step := by
  have same : Fin.ofNat 5 (t + step) = Fin.ofNat 5 step := by
    apply Fin.ext
    simp only [Fin.ofNat]
    omega
  rw [shaNamesAt, shaNamesAt, same]

/-- The steps of a turn that are all done by one of the macros. -/
theorem SHA_F_steps_eq
    (step : Array UInt32 × Vector UInt32 5 → SHA_F_names → ℕ → Array UInt32 × Vector UInt32 5)
    (buf : List UInt8) {t : ℕ} (whole : t % 5 = 0) (start count : ℕ)
    (same : ∀ number, t + start ≤ number → number < t + start + count → ∀ acc,
      step acc (shaNamesAt number) number = shaStep buf acc number)
    (acc : Array UInt32 × Vector UInt32 5) :
    SHA_F_steps step ((List.range' start count).map fun number => (shaNamesAt number, number)) acc t =
      (List.range' (t + start) count).foldl (shaStep buf) acc := by
  induction count generalizing start acc with
  | zero => rfl
  | succ count ih =>
    have first := same (t + start) le_rfl (by omega) acc
    have later := ih (start + 1) (fun number above below => same number (by omega) (by omega))
      (shaStep buf acc (t + start))
    rw [shaNamesAt_add whole] at first
    rw [SHA_F_steps] at later
    rw [List.range'_succ, List.map_cons, SHA_F_steps, List.foldl_cons, first, later, List.range'_succ,
      List.foldl_cons, add_assoc]

/-- Some turns that are all done by one of the macros. -/
theorem turns_eq
    (step : Array UInt32 × Vector UInt32 5 → SHA_F_names → ℕ → Array UInt32 × Vector UInt32 5)
    (buf : List UInt8) {t : ℕ} (whole : t % 5 = 0) (turns : ℕ)
    (same : ∀ number, t ≤ number → number < t + 5 * turns → ∀ acc,
      step acc (shaNamesAt number) number = shaStep buf acc number)
    (acc : Array UInt32 × Vector UInt32 5) :
    (List.range' t turns 5).foldl (SHA_F_steps step SHA_F_lines.zipIdx) acc =
      (List.range' t (5 * turns)).foldl (shaStep buf) acc := by
  induction turns generalizing t acc with
  | zero => rfl
  | succ turns ih =>
    have turn := SHA_F_steps_eq step buf whole 0 5
      (fun number above below => same number (by omega) (by omega)) acc
    have rest : (t + 5) % 5 = 0 := by omega
    have later := ih rest (fun number above below => same number (by omega) (by omega))
      ((List.range' t 5).foldl (shaStep buf) acc)
    rw [← SHA_F_lines_eq, add_zero] at turn
    rw [List.range'_succ, List.foldl_cons, turn, later, show 5 * (turns + 1) = 5 + 5 * turns by ring,
      ← List.range'_append_1, List.foldl_append]

section Macros

variable (buf : List UInt8) {t : ℕ} (acc : Array UInt32 × Vector UInt32 5) (names : SHA_F_names)

theorem SHA_F1_bytes (below : t < 16) :
    SHA_F1 (bufferWord buf) acc names t = SHA_F (mixAt t) (constantAt t) (wordAt buf) acc names t := by
  have early : t < 20 := by omega
  simp only [SHA_F1, SHA_F, mixAt, constantAt, wordAt, if_pos below, if_pos early]

theorem SHA_F1_next (above : 16 ≤ t) (below : t < 20) :
    SHA_F1 nextWord acc names t = SHA_F (mixAt t) (constantAt t) (wordAt buf) acc names t := by
  have late : ¬ t < 16 := by omega
  simp only [SHA_F1, SHA_F, mixAt, constantAt, wordAt, if_pos below, if_neg late]

theorem SHA_F2_eq (above : 20 ≤ t) (below : t < 40) :
    SHA_F2 acc names t = SHA_F (mixAt t) (constantAt t) (wordAt buf) acc names t := by
  have late : ¬ t < 16 := by omega
  have later : ¬ t < 20 := by omega
  simp only [SHA_F2, SHA_F, mixAt, constantAt, wordAt, if_pos below, if_neg late, if_neg later]

theorem SHA_F3_eq (above : 40 ≤ t) (below : t < 60) :
    SHA_F3 acc names t = SHA_F (mixAt t) (constantAt t) (wordAt buf) acc names t := by
  have late : ¬ t < 16 := by omega
  have later : ¬ t < 20 := by omega
  have latest : ¬ t < 40 := by omega
  simp only [SHA_F3, SHA_F, mixAt, constantAt, wordAt, if_pos below, if_neg late, if_neg later, if_neg latest]

theorem SHA_F4_eq (above : 60 ≤ t) :
    SHA_F4 acc names t = SHA_F (mixAt t) (constantAt t) (wordAt buf) acc names t := by
  have late : ¬ t < 16 := by omega
  have later : ¬ t < 20 := by omega
  have latest : ¬ t < 40 := by omega
  have last : ¬ t < 60 := by omega
  simp only [SHA_F4, SHA_F, mixAt, constantAt, wordAt, if_neg late, if_neg later, if_neg latest, if_neg last]

end Macros

theorem SHA1_Transform_eq (state : Vector UInt32 5) (buf : List UInt8) :
    SHA1_Transform state buf =
      state.zipWith (· + ·) ((List.range 80).foldl (shaStep buf) (#[], state)).2 := by
  have bytes := turns_eq (SHA_F1 (bufferWord buf)) buf (t := 0) rfl 3
    (fun number _ below acc => SHA_F1_bytes buf acc _ (by omega))
  have sixteenth := SHA_F_steps_eq (SHA_F1 (bufferWord buf)) buf (t := 15) rfl 0 1
    (fun number _ below acc => SHA_F1_bytes buf acc _ (by omega))
  have next := SHA_F_steps_eq (SHA_F1 nextWord) buf (t := 15) rfl 1 4
    (fun number above below acc => SHA_F1_next buf acc _ (by omega) (by omega))
  have second := turns_eq SHA_F2 buf (t := 20) rfl 4
    (fun number above below acc => SHA_F2_eq buf acc _ above (by omega))
  have third := turns_eq SHA_F3 buf (t := 40) rfl 4
    (fun number above below acc => SHA_F3_eq buf acc _ above (by omega))
  have fourth := turns_eq SHA_F4 buf (t := 60) rfl 4 (fun number above _ acc => SHA_F4_eq buf acc _ above)
  have cut : List.range 80 = List.range' 0 (5 * 3) ++ List.range' (15 + 0) 1 ++ List.range' (15 + 1) 4 ++
      List.range' 20 (5 * 4) ++ List.range' 40 (5 * 4) ++ List.range' 60 (5 * 4) := by
    decide
  have taken : SHA_F_lines.zipIdx.take 1 = (List.range' 0 1).map fun step => (shaNamesAt step, step) := by
    decide
  have dropped : SHA_F_lines.zipIdx.drop 1 = (List.range' 1 4).map fun step => (shaNamesAt step, step) := by
    decide
  rw [cut]
  simp only [List.foldl_append]
  rw [← bytes, ← sixteenth, ← next, ← second, ← third, ← fourth, ← taken, ← dropped]
  rfl

theorem ror27_eq (val : UInt32) : ror27 val = rol 5 val := by
  rw [ror27, rol]
  exact UInt32.or_comm _ _

theorem ror2_eq (val : UInt32) : ror2 val = rol 30 val := by
  rw [ror2, rol]
  exact UInt32.or_comm _ _

theorem ror31_eq (val : UInt32) : ror31 val = rol 1 val := by
  rw [ror31, rol]
  exact UInt32.or_comm _ _

/-- Swapping the bytes of a word in memory gives the word that they pack to. -/
theorem bswap_32_wordOfBytes (b0 b1 b2 b3 : UInt8) :
    bswap_32 (wordOfBytes [b0, b1, b2, b3]) =
      (b0.toUInt32 <<< 24) ||| (b1.toUInt32 <<< 16) ||| (b2.toUInt32 <<< 8) ||| b3.toUInt32 := by
  have bytes : bytesOfWord (wordOfBytes [b0, b1, b2, b3]) = [b0, b1, b2, b3] := bytesOfWord_wordOfBytes rfl
  rw [bswap_32, bytes, wordOfBytes, ← beNat, ← toNat_pack, UInt32.ofNat_toNat]

theorem packWords_bufferWord (count : ℕ) (W : Array UInt32) {bytes : List UInt8}
    (length : bytes.length = 4 * count) : packWords bytes = (List.range count).map (bufferWord bytes W) := by
  induction count generalizing bytes with
  | zero =>
    rw [List.length_eq_zero_iff.mp length]
    rfl
  | succ count ih =>
    rcases bytes with _ | ⟨b0, _ | ⟨b1, _ | ⟨b2, _ | ⟨b3, rest⟩⟩⟩⟩
    iterate 4 simp only [List.length_cons, List.length_nil] at length; omega
    have rest_length : rest.length = 4 * count := by
      simp only [List.length_cons] at length
      omega
    rw [packWords, ih rest_length, List.range_succ_eq_map, List.map_cons, List.map_map,
      ← bswap_32_wordOfBytes]
    exact congrArg₂ _ rfl (List.map_congr_left fun index _ => rfl)

/-- The schedule as it stands before a step. -/
def filled (buf : List UInt8) : ℕ → Array UInt32
  | 0 => #[]
  | t + 1 => (filled buf t).push (wordAt buf (filled buf t) t)

theorem filled_size (buf : List UInt8) (t : ℕ) : (filled buf t).size = t := by
  induction t with
  | zero => rfl
  | succ t ih => rw [filled, Array.size_push, ih]

/-- A word of the schedule is not changed once it is set. -/
theorem filled_getD (buf : List UInt8) {t later : ℕ} (below : t < later) :
    (filled buf later).getD t 0 = wordAt buf (filled buf t) t := by
  induction later with
  | zero => omega
  | succ later ih =>
    have size := filled_size buf later
    rw [filled, Array.getD_eq_getD_getElem?, Array.getElem?_push, size]
    rcases Nat.lt_succ_iff_lt_or_eq.mp below with before | rfl
    · rw [if_neg (by omega), ← Array.getD_eq_getD_getElem?, ih before]
    · rw [if_pos rfl, Option.getD_some]

theorem filled_bytes (buf : List UInt8) {t : ℕ} (below : t ≤ 16) :
    filled buf t = ((List.range t).map (bufferWord buf #[])).toArray := by
  induction t with
  | zero => rfl
  | succ t ih =>
    have early : t < 16 := by omega
    have word : wordAt buf (filled buf t) t = bufferWord buf #[] t := if_pos early
    rw [filled, word, ih (by omega), List.range_succ, List.map_append, List.push_toArray]
    rfl

/-- From the sixteenth word on the schedule is extended as in the generic branch. -/
theorem filled_schedule (buf : List UInt8) (more : ℕ) :
    filled buf (16 + more) = (List.range' 16 more).foldl SHA1_schedule (filled buf 16) := by
  induction more with
  | zero => rfl
  | succ more ih =>
    have word : wordAt buf (filled buf (16 + more)) (16 + more) = nextWord (filled buf (16 + more)) (16 + more) :=
      if_neg (by omega)
    rw [← List.range'_append_1, List.foldl_append, ← ih, ← add_assoc, filled, word, nextWord, ror31_eq]
    rfl

/-- What a step does to the variables under their names. -/
theorem SHA_F_rotates (mix : UInt32 → UInt32 → UInt32 → UInt32) (constant : UInt32)
    (word : Array UInt32 → ℕ → UInt32) (W : Array UInt32) (v : Vector UInt32 5) (t : ℕ) (turn : Fin 5) :
    rotated5 (turn + 1)
        (SHA_F mix constant word (W, v) ⟨0 - turn, 1 - turn, 2 - turn, 3 - turn, 4 - turn⟩ t).2 =
      #v[v[4 - turn] + (rol 5 v[0 - turn] + word W t + mix v[1 - turn] v[2 - turn] v[3 - turn] + constant),
        v[0 - turn], rol 30 v[1 - turn], v[2 - turn], v[3 - turn]] := by
  simp only [← ror27_eq, ← ror2_eq]
  obtain ⟨x0, x1, x2, x3, x4, rfl⟩ := vector5_cases v
  fin_cases turn <;> rfl

/-- A step on the variables under their names is the generic round. -/
theorem shaStep_simulates (buf : List UInt8) (W filling : Array UInt32) (v : Vector UInt32 5) (t : ℕ)
    (word : W.getD t 0 = wordAt buf filling t) :
    SHA1_round W (rotated5 (Fin.ofNat 5 t) v) t =
      rotated5 (Fin.ofNat 5 (t + 1)) (shaStep buf (filling, v) t).2 := by
  have mixed (B C D : UInt32) :
      (if t < 20 then (D ^^^ (B &&& (C ^^^ D))) + 0x5A827999
        else if t < 40 then (B ^^^ C ^^^ D) + 0x6ED9EBA1
        else if t < 60 then ((B &&& C) ||| (D &&& (B ||| C))) + 0x8F1BBCDC
        else (B ^^^ C ^^^ D) + 0xCA62C1D6) = mixAt t B C D + constantAt t := by
    rw [mixAt, constantAt]
    split_ifs <;> rfl
  have reordered (A E w m c : UInt32) : A + E + w + (m + c) = E + (A + w + m + c) := by ac_rfl
  have rotates := SHA_F_rotates (mixAt t) (constantAt t) (wordAt buf) filling v t (Fin.ofNat 5 t)
  have later : Fin.ofNat 5 (t + 1) = Fin.ofNat 5 t + 1 := ofNat_succ 5 t
  rw [shaStep, shaNamesAt, later, rotates, ← word]
  simp only [SHA1_round, mixed, reordered]
  rfl

theorem shaSteps_simulate (buf : List UInt8) (state : Vector UInt32 5) {t : ℕ} (below : t ≤ 80) :
    ((List.range t).foldl (shaStep buf) (#[], state)).1 = filled buf t ∧
      (List.range t).foldl (SHA1_round (filled buf 80)) state =
        rotated5 (Fin.ofNat 5 t) ((List.range t).foldl (shaStep buf) (#[], state)).2 := by
  induction t with
  | zero => exact ⟨rfl, (rotated5_zero state).symm⟩
  | succ t ih =>
    obtain ⟨words, registers⟩ := ih (by omega)
    have word : (filled buf 80).getD t 0 = wordAt buf (filled buf t) t := filled_getD buf (by omega)
    rw [List.range_succ, List.foldl_append, List.foldl_append, List.foldl_cons, List.foldl_cons,
      List.foldl_nil, List.foldl_nil, registers]
    generalize (List.range t).foldl (shaStep buf) (#[], state) = acc at words
    obtain ⟨W, v⟩ := acc
    obtain rfl : W = filled buf t := words
    exact ⟨rfl, shaStep_simulates buf _ _ v t word⟩

theorem SHA1_Transform_eq_generic (state : Vector UInt32 5) (buf : Vector UInt8 64) :
    SHA1_Transform state buf.toList = SHA1_transform state buf.toList := by
  have length : buf.toList.length = 4 * 16 := buf.length_toList
  have schedule : (List.range' 16 64).foldl SHA1_schedule (packWords buf.toList).toArray =
      filled buf.toList 80 := by
    rw [packWords_bufferWord 16 #[] length, ← filled_bytes buf.toList le_rfl]
    exact (filled_schedule buf.toList 64).symm
  have whole : Fin.ofNat 5 80 = 0 := by decide
  rw [SHA1_Transform_eq, SHA1_transform, schedule, (shaSteps_simulate buf.toList state le_rfl).2, whole,
    rotated5_zero]

end Sha1

/-- The optimised compression functions give the same chaining state as the plain ones. -/
theorem optimised_compression_eq :
    (∀ (h : Vector UInt32 8) (block : Vector UInt8 64),
      SHA256_compress_unrolled h block.toList = SHA256_compress h block.toList) ∧
    (∀ (h : Vector UInt64 8) (block : Vector UInt8 128),
      SHA512_compress_unrolled h block.toList = SHA512_compress h block.toList) ∧
    ∀ (state : Vector UInt32 5) (block : Vector UInt8 64),
      SHA1_Transform state block.toList = SHA1_transform state block.toList :=
  ⟨SHA256_compress_unrolled_eq, SHA512_compress_unrolled_eq, SHA1_Transform_eq_generic⟩

end ChromiumOS.Vboot
