import ChromiumOS.Model.PamOffline.Authenticator

/-! # The scan of the master keys

An index has at most four digits in its array, so the keys that the scan can come to are those below 10000, and a key
that decrypts or cannot be read has to be among them. A key that is whole and has no salt ends the process.
-/

namespace ChromiumOS.PamOffline

/-- The name of a key by its number. -/
def decimal (N : ℕ) : Blob := bytes (toString N)

theorem decimal_eq (N : ℕ) :
    decimal N = (Nat.toDigits 10 N).map fun character => UInt8.ofNat character.toNat := by
  rw [decimal, bytes, Nat.toString_eq_repr, Nat.toList_repr]

theorem decimal_length (N : ℕ) : (decimal N).length = (Nat.toDigits 10 N).length := by
  rw [decimal_eq, List.length_map]

theorem decimal_length_le {N : ℕ} (small : N < 10000) : (decimal N).length ≤ 4 := by
  rw [decimal_length]
  exact (Nat.length_toDigits_le_iff (by decide) (by decide)).mpr small

theorem le_decimal_length {N : ℕ} (large : 1000 ≤ N) : 4 ≤ (decimal N).length := by
  rw [decimal_length]
  by_contra short
  have below : N < 10 ^ 3 := (Nat.length_toDigits_le_iff (by decide) (by decide)).mp (by omega)
  omega

/-- The first four digits of a number are those of a number below 10000. -/
theorem decimal_take (N : ℕ) : ∃ shown < 10000, (decimal N).take 4 = decimal shown := by
  induction N using Nat.strongRecOn with
  | ind N ih =>
    by_cases small : N < 10000
    · exact ⟨N, small, List.take_of_length_le (decimal_length_le small)⟩
    · obtain ⟨shown, bound, equal⟩ := ih (N / 10) (by omega)
      refine ⟨shown, bound, ?_⟩
      have split : decimal N = decimal (N / 10) ++ [UInt8.ofNat (Nat.digitChar (N % 10)).toNat] := by
        rw [decimal_eq, decimal_eq, Nat.toDigits_of_base_le (by decide) (by omega), List.map_append]
        rfl
      rw [split, List.take_append_of_le_length (le_decimal_length (by omega))]
      exact equal

namespace Authenticator

variable (authenticator : Authenticator) (credentials : UsernamePassword)

def userPath : Blob :=
  PathAppend authenticator.shadow_root_
    (credentials.GetObfuscatedUsername authenticator.openssl authenticator.system_salt_)

def weakHash : Blob := credentials.GetPasswordWeakHash authenticator.openssl authenticator.system_salt_

/-- The file of a master key. -/
def masterKey (N : ℕ) : Blob := PathAppend (authenticator.userPath credentials) (bytes "master.") ++ decimal N

def Readable (path : Blob) : Prop := ∃ contents, authenticator.files path = some contents

/-- A key starts with the magic and is longer than its header. -/
def Whole (path : Blob) : Prop :=
  ∃ contents, authenticator.files path = some contents ∧ kOpenSSLMagic <+: contents ∧
    kOpenSSLMagic.length + PKCS5_SALT_LEN < contents.length

/-- The passphrase from the salt of a key. -/
def passphrase (master_salt hashed_password : Blob) : Blob :=
  AsciiEncode (authenticator.openssl.SHA1 (master_salt ++ hashed_password)).toList

/-- A whole key has a salt, and decrypts with the passphrase from it. -/
def Decrypts (path hashed_password : Blob) : Prop :=
  ∃ contents master_salt, authenticator.files path = some contents ∧ kOpenSSLMagic <+: contents ∧
    kOpenSSLMagic.length + PKCS5_SALT_LEN < contents.length ∧
    authenticator.files (path ++ bytes ".salt") = some master_salt ∧
    authenticator.TestDecrypt (authenticator.passphrase master_salt hashed_password)
      ((contents.drop kOpenSSLMagic.length).take PKCS5_SALT_LEN)
      (contents.drop (kOpenSSLMagic.length + PKCS5_SALT_LEN)) = true

/-- The test ends, with success exactly if one of the keys decrypts and all keys up to it can be read. -/
def Scans : Prop :=
  ∃ result, authenticator.TestAllMasterKeys credentials = .ok result ∧
    (result = true ↔ ∃ i, (∀ j ≤ i, authenticator.Readable (authenticator.masterKey credentials j)) ∧
      authenticator.Decrypts (authenticator.masterKey credentials i) (authenticator.weakHash credentials))

/-- The keys that the scan comes to have a salt if they are whole, and one below 10000 ends the scan. -/
def Scannable : Prop :=
  (∀ i < 10000, (∀ j ≤ i, authenticator.Readable (authenticator.masterKey credentials j)) →
    (∀ j < i, ¬ authenticator.Decrypts (authenticator.masterKey credentials j)
      (authenticator.weakHash credentials)) →
    authenticator.Whole (authenticator.masterKey credentials i) →
    authenticator.Readable (authenticator.masterKey credentials i ++ bytes ".salt")) ∧
  ∃ i < 10000, ¬ authenticator.Readable (authenticator.masterKey credentials i) ∨
    authenticator.Decrypts (authenticator.masterKey credentials i) (authenticator.weakHash credentials)

variable {authenticator} {credentials} {path hashed_password user_path : Blob}

theorem access_iff : authenticator.access path = true ↔ authenticator.Readable path :=
  Option.isSome_iff_exists

theorem Decrypts.whole (decrypts : authenticator.Decrypts path hashed_password) : authenticator.Whole path := by
  obtain ⟨contents, _, read, magic, long, -⟩ := decrypts
  exact ⟨contents, read, magic, long⟩

theorem Decrypts.salt (decrypts : authenticator.Decrypts path hashed_password) :
    authenticator.Readable (path ++ bytes ".salt") := by
  obtain ⟨_, master_salt, -, -, -, read, -⟩ := decrypts
  exact ⟨master_salt, read⟩

theorem Decrypts.readable (decrypts : authenticator.Decrypts path hashed_password) : authenticator.Readable path := by
  obtain ⟨contents, _, read, -⟩ := decrypts
  exact ⟨contents, read⟩

/-- What the test of a key that is not whole returns. -/
theorem TestOneMasterKey_broken (broken : ¬ authenticator.Whole path) :
    authenticator.TestOneMasterKey path hashed_password = .ok false := by
  rw [TestOneMasterKey]
  split
  · rfl
  · cases read : authenticator.LoadFileBytes path with
    | none => rfl
    | some contents =>
      by_cases short : contents.length ≤ kOpenSSLMagic.length + PKCS5_SALT_LEN
      · exact if_pos short
      · by_cases magic : contents.take kOpenSSLMagic.length = kOpenSSLMagic
        · exact absurd ⟨contents, read, List.prefix_iff_eq_take.mpr magic.symm, not_le.mp short⟩ broken
        · exact (if_neg short).trans (if_pos magic)

/-- What the test of a whole key returns. -/
theorem TestOneMasterKey_whole (salted : authenticator.system_salt_ ≠ []) {contents : Blob}
    (read : authenticator.files path = some contents) (magic : kOpenSSLMagic <+: contents)
    (long : kOpenSSLMagic.length + PKCS5_SALT_LEN < contents.length) :
    authenticator.TestOneMasterKey path hashed_password =
      (authenticator.WrapHashedPassword (path ++ bytes ".salt") hashed_password).map fun passphrase =>
        authenticator.TestDecrypt passphrase ((contents.drop kOpenSSLMagic.length).take PKCS5_SALT_LEN)
          (contents.drop (kOpenSSLMagic.length + PKCS5_SALT_LEN)) := by
  have loaded : authenticator.LoadFileBytes path = some contents := read
  have starts : contents.take kOpenSSLMagic.length = kOpenSSLMagic := (List.prefix_iff_eq_take.mp magic).symm
  have salt : (contents.take (kOpenSSLMagic.length + PKCS5_SALT_LEN)).drop kOpenSSLMagic.length =
      (contents.drop kOpenSSLMagic.length).take PKCS5_SALT_LEN := by
    rw [List.drop_take, Nat.add_sub_cancel_left]
  rw [TestOneMasterKey, if_neg salted, loaded]
  simp only [if_neg (not_le.mpr long), starts, ne_eq, not_true_eq_false, if_false, salt]
  cases authenticator.WrapHashedPassword (path ++ bytes ".salt") hashed_password with
  | error fault => rfl
  | ok passphrase => rfl

theorem WrapHashedPassword_none {master_salt_file : Blob} (absent : authenticator.files master_salt_file = none) :
    authenticator.WrapHashedPassword master_salt_file hashed_password = .error .nullString := by
  have unloaded : authenticator.LoadFileBytes master_salt_file = none := absent
  rw [WrapHashedPassword, IteratedWrapHashedPassword, unloaded]

theorem WrapHashedPassword_some {master_salt_file master_salt : Blob}
    (read : authenticator.files master_salt_file = some master_salt) :
    authenticator.WrapHashedPassword master_salt_file hashed_password =
      .ok (authenticator.passphrase master_salt hashed_password) := by
  have loaded : authenticator.LoadFileBytes master_salt_file = some master_salt := read
  rw [WrapHashedPassword, IteratedWrapHashedPassword, loaded]
  rfl

/-- The test of a key succeeds if the key decrypts, throws if it is whole without a salt, and fails otherwise. -/
theorem TestOneMasterKey_cases (salted : authenticator.system_salt_ ≠ []) (path hashed_password : Blob) :
    (authenticator.Decrypts path hashed_password ∧
      authenticator.TestOneMasterKey path hashed_password = .ok true) ∨
    (¬ authenticator.Decrypts path hashed_password ∧
      (authenticator.Whole path → authenticator.Readable (path ++ bytes ".salt")) ∧
      authenticator.TestOneMasterKey path hashed_password = .ok false) ∨
    (authenticator.Whole path ∧ ¬ authenticator.Readable (path ++ bytes ".salt") ∧
      authenticator.TestOneMasterKey path hashed_password = .error .nullString) := by
  by_cases whole : authenticator.Whole path
  · obtain ⟨contents, read, magic, long⟩ := whole
    have tested := @TestOneMasterKey_whole _ _ hashed_password salted _ read magic long
    cases salt : authenticator.files (path ++ bytes ".salt") with
    | none =>
      rw [WrapHashedPassword_none salt] at tested
      refine .inr (.inr ⟨⟨contents, read, magic, long⟩, fun readable => ?_, tested⟩)
      obtain ⟨_, some_salt⟩ := readable
      exact nomatch salt.symm.trans some_salt
    | some master_salt =>
      rw [WrapHashedPassword_some salt] at tested
      cases result : authenticator.TestDecrypt (authenticator.passphrase master_salt hashed_password)
          ((contents.drop kOpenSSLMagic.length).take PKCS5_SALT_LEN)
          (contents.drop (kOpenSSLMagic.length + PKCS5_SALT_LEN)) with
      | true => exact .inl ⟨⟨contents, master_salt, read, magic, long, salt, result⟩, tested.trans (congrArg Except.ok result)⟩
      | false =>
        refine .inr (.inl ⟨fun decrypts => ?_, fun _ => ⟨master_salt, salt⟩, tested.trans (congrArg Except.ok result)⟩)
        obtain ⟨_, _, read', -, -, salt', result'⟩ := decrypts
        cases read.symm.trans read'
        cases salt.symm.trans salt'
        exact nomatch result.symm.trans result'
  · exact .inr (.inl ⟨fun decrypts => whole decrypts.whole, fun absent => absurd absent whole,
      TestOneMasterKey_broken whole⟩)

/-- The scan goes on behind a key. -/
def Passes (authenticator : Authenticator) (path hashed_password : Blob) : Prop :=
  authenticator.access path = true ∧ authenticator.TestOneMasterKey path hashed_password = .ok false

/-- What the scan ends with at a key that it does not pass. -/
def stopValue (authenticator : Authenticator) (path hashed_password : Blob) : Except Fault Bool :=
  if authenticator.access path then authenticator.TestOneMasterKey path hashed_password else .ok false

/-- The key that the scan tests in a round. -/
def shownKey (user_path : Blob) (i : ℕ) : Blob := PathAppend user_path (bytes "master.") ++ (decimal i).take 4

theorem shownKey_eq {i : ℕ} (small : i < 10000) :
    shownKey (authenticator.userPath credentials) i = authenticator.masterKey credentials i := by
  rw [shownKey, List.take_of_length_le (decimal_length_le small)]
  rfl

theorem decimal_length_ne_zero (N : ℕ) : (decimal N).length ≠ 0 := by
  rw [decimal_length]
  exact Nat.length_toDigits_pos.ne'

theorem testMasterKeys_pass {remaining i : ℕ}
    (passes : authenticator.Passes (shownKey user_path i) hashed_password) :
    authenticator.testMasterKeys user_path hashed_password (remaining + 1) i =
      authenticator.testMasterKeys user_path hashed_password remaining (i + 1) := by
  have named : (snprintf 5 i).1 ≠ 0 := decimal_length_ne_zero i
  have shown : PathAppend user_path (bytes "master.") ++ (snprintf 5 i).2 = shownKey user_path i := rfl
  obtain ⟨access, tested⟩ := passes
  simp only [testMasterKeys, if_neg named, shown, access, tested, Bool.not_true, Bool.false_eq_true, if_false]

theorem testMasterKeys_stop {remaining i : ℕ}
    (stops : ¬ authenticator.Passes (shownKey user_path i) hashed_password) :
    authenticator.testMasterKeys user_path hashed_password (remaining + 1) i =
      authenticator.stopValue (shownKey user_path i) hashed_password := by
  have named : (snprintf 5 i).1 ≠ 0 := decimal_length_ne_zero i
  have shown : PathAppend user_path (bytes "master.") ++ (snprintf 5 i).2 = shownKey user_path i := rfl
  simp only [testMasterKeys, if_neg named, shown, stopValue]
  cases access : authenticator.access (shownKey user_path i) with
  | false => rfl
  | true =>
    cases tested : authenticator.TestOneMasterKey (shownKey user_path i) hashed_password with
    | error fault => rfl
    | ok result =>
      cases result with
      | true => rfl
      | false => exact absurd ⟨access, tested⟩ stops

/-- The scan ends at the first key that it does not pass. -/
theorem testMasterKeys_first {remaining i last : ℕ} (reached : i ≤ last) (enough : last < remaining + i)
    (before : ∀ j, i ≤ j → j < last → authenticator.Passes (shownKey user_path j) hashed_password)
    (stops : ¬ authenticator.Passes (shownKey user_path last) hashed_password) :
    authenticator.testMasterKeys user_path hashed_password remaining i =
      authenticator.stopValue (shownKey user_path last) hashed_password := by
  induction remaining generalizing i with
  | zero => omega
  | succ remaining ih =>
    rcases reached.eq_or_lt with now | later
    · subst now
      exact testMasterKeys_stop stops
    · rw [testMasterKeys_pass (before i le_rfl later)]
      exact ih later (by omega) fun j from_next below => before j (by omega) below

/-- The number overflows in a scan that passes all keys. -/
theorem testMasterKeys_overflow (passes : ∀ j, authenticator.Passes (shownKey user_path j) hashed_password)
    (remaining i : ℕ) :
    authenticator.testMasterKeys user_path hashed_password remaining i = .error .overflow := by
  induction remaining generalizing i with
  | zero => rfl
  | succ remaining ih =>
    rw [testMasterKeys_pass (passes i)]
    exact ih (i + 1)

/-- Passing the keys below 10000 is passing every key that is tested. -/
theorem passes_all
    (small : ∀ j < 10000, authenticator.Passes (authenticator.masterKey credentials j) hashed_password) (i : ℕ) :
    authenticator.Passes (shownKey (authenticator.userPath credentials) i) hashed_password := by
  obtain ⟨shown, bound, equal⟩ := decimal_take i
  rw [shownKey, equal]
  exact small shown bound

theorem Passes.spec (salted : authenticator.system_salt_ ≠ []) (passes : authenticator.Passes path hashed_password) :
    authenticator.Readable path ∧ ¬ authenticator.Decrypts path hashed_password ∧
      (authenticator.Whole path → authenticator.Readable (path ++ bytes ".salt")) := by
  refine ⟨access_iff.mp passes.1, ?_⟩
  rcases TestOneMasterKey_cases salted path hashed_password with ⟨-, tested⟩ | ⟨fails, salt, -⟩ | ⟨-, -, tested⟩
  · exact nomatch tested.symm.trans passes.2
  · exact ⟨fails, salt⟩
  · exact nomatch tested.symm.trans passes.2

theorem TestAllMasterKeys_eq (other : credentials.IsLocalAccount authenticator.kLocalAccount = false)
    (salted : authenticator.system_salt_ ≠ []) :
    authenticator.TestAllMasterKeys credentials = authenticator.testMasterKeys (authenticator.userPath credentials)
      (authenticator.weakHash credentials) (INT_MAX + 1) 0 := by
  rw [TestAllMasterKeys, other, if_neg (by decide), if_neg salted]
  rfl

/-- The scan at the first key that it does not pass. -/
theorem scans_iff_at (other : credentials.IsLocalAccount authenticator.kLocalAccount = false)
    (salted : authenticator.system_salt_ ≠ []) {last : ℕ} (small : last < 10000)
    (before : ∀ j < last, authenticator.Passes (authenticator.masterKey credentials j)
      (authenticator.weakHash credentials))
    (stops : ¬ authenticator.Passes (authenticator.masterKey credentials last) (authenticator.weakHash credentials)) :
    authenticator.Scans credentials ↔ authenticator.Scannable credentials := by
  have value : authenticator.TestAllMasterKeys credentials =
      authenticator.stopValue (authenticator.masterKey credentials last) (authenticator.weakHash credentials) := by
    rw [TestAllMasterKeys_eq other salted, ← shownKey_eq small]
    refine testMasterKeys_first (Nat.zero_le last) (small.trans (by decide)) (fun j _ below => ?_) ?_
    · rw [shownKey_eq (below.trans small)]
      exact before j below
    · rw [shownKey_eq small]
      exact stops
  rw [stopValue] at value
  cases access : authenticator.access (authenticator.masterKey credentials last) with
  | false =>
    have unread : ¬ authenticator.Readable (authenticator.masterKey credentials last) := fun readable =>
      nomatch access.symm.trans (access_iff.mpr readable)
    have earlier : ∀ i, (∀ j ≤ i, authenticator.Readable (authenticator.masterKey credentials j)) → i < last :=
      fun i all => not_le.mp fun reached => unread (all last reached)
    rw [access, if_neg (by decide)] at value
    refine iff_of_true ⟨false, value, iff_of_false (by decide) ?_⟩ ⟨fun i _ all _ => ?_, last, small, .inl unread⟩
    · rintro ⟨i, all, decrypts⟩
      exact ((before i (earlier i all)).spec salted).2.1 decrypts
    · exact ((before i (earlier i all)).spec salted).2.2
  | true =>
    rw [access, if_pos rfl] at value
    rcases TestOneMasterKey_cases salted (authenticator.masterKey credentials last)
      (authenticator.weakHash credentials) with ⟨decrypts, tested⟩ | ⟨-, -, tested⟩ | ⟨whole, unsalted, tested⟩
    · have all : ∀ j ≤ last, authenticator.Readable (authenticator.masterKey credentials j) := by
        intro j upto
        rcases upto.eq_or_lt with now | below
        · rw [now]
          exact decrypts.readable
        · exact ((before j below).spec salted).1
      refine iff_of_true ⟨true, value.trans tested, iff_of_true rfl ⟨last, all, decrypts⟩⟩
        ⟨fun i _ _ undecrypted => ?_, last, small, .inr decrypts⟩
      rcases lt_trichotomy i last with below | now | above
      · exact ((before i below).spec salted).2.2
      · rw [now]
        exact fun _ => decrypts.salt
      · exact absurd decrypts (undecrypted last above)
    · exact absurd ⟨access, tested⟩ stops
    · refine iff_of_false ?_ ?_
      · rintro ⟨result, returned, -⟩
        exact nomatch (value.trans tested).symm.trans returned
      · rintro ⟨salts, -⟩
        refine unsalted (salts last small (fun j upto => ?_) (fun j below => ?_) whole)
        · rcases upto.eq_or_lt with now | below
          · rw [now]
            exact access_iff.mp access
          · exact ((before j below).spec salted).1
        · exact ((before j below).spec salted).2.1

/-- Without a key below 10000 at which the scan ends it does not end. -/
theorem scans_iff_never (other : credentials.IsLocalAccount authenticator.kLocalAccount = false)
    (salted : authenticator.system_salt_ ≠ [])
    (passes : ∀ j < 10000, authenticator.Passes (authenticator.masterKey credentials j)
      (authenticator.weakHash credentials)) :
    authenticator.Scans credentials ↔ authenticator.Scannable credentials := by
  refine iff_of_false ?_ ?_
  · rintro ⟨result, returned, -⟩
    rw [TestAllMasterKeys_eq other salted, testMasterKeys_overflow (passes_all passes)] at returned
    exact nomatch returned
  · rintro ⟨-, i, small, unread | decrypts⟩
    · exact unread ((passes i small).spec salted).1
    · exact ((passes i small).spec salted).2.1 decrypts

end Authenticator

section MissingSalt

/-- The digests for one user; no key is decrypted. -/
def digests : OpenSSL where
  SHA1 _ := #v[246, 103, 38, 58, 99, 112, 230, 86, 226, 248, 84, 173, 73, 10, 247, 135, 46, 127, 75, 251]
  SHA256 _ := #v[104, 204, 241, 229, 122, 255, 83, 167, 115, 228, 245, 116, 60, 159, 245, 234, 109, 33, 119, 97,
    69, 74, 66, 23, 144, 149, 161, 40, 134, 139, 207, 75]
  EVP_BytesToKey _ _ := (EVP_MAX_KEY_LENGTH, [])
  EVP_DecryptFinal _ _ := false

def user : UsernamePassword := ⟨bytes "user", bytes "password"⟩

def withFiles (files : Blob → Option Blob) : Authenticator where
  openssl := digests
  files := files
  shadow_root_ := bytes "/s/"
  root_ne_nil := by decide
  system_salt_ := bytes "salt"

def firstKey : Blob := (withFiles fun _ => none).masterKey user 0

def loneKey : Blob := Authenticator.kOpenSSLMagic ++ List.replicate 9 0

def loneFile (path : Blob) : Option Blob := if path = firstKey then some loneKey else none

/-- The only file is a whole master key. -/
def unsalted : Authenticator := withFiles loneFile

end MissingSalt

end ChromiumOS.PamOffline
