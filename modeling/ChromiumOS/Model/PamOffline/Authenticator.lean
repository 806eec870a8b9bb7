import Mathlib

/-! # The offline authenticator

`authenticator.cc`, with what it uses of `utils.cc` and `username_password.cc`: the master keys `master.0`,
`master.1`, … of a user are tested one after the other. A `std::string` is the list of its bytes. Digests and
ciphers are those of OpenSSL, which are given.
-/

namespace ChromiumOS.PamOffline

abbrev Blob := List UInt8

/-- The bytes of ASCII text. -/
def bytes (text : String) : Blob := text.toList.map fun character => UInt8.ofNat character.toNat

def SHA_DIGEST_LENGTH : ℕ := 20
def SHA256_DIGEST_LENGTH : ℕ := 32
def PKCS5_SALT_LEN : ℕ := 8
def EVP_MAX_KEY_LENGTH : ℕ := 32
def INT_MAX : ℕ := 2147483647

/-- The functions of OpenSSL. A key comes from a salt and a passphrase, with its length; whether the last block of a
text decrypts is known from its padding. -/
structure OpenSSL where
  SHA1 : Blob → Vector UInt8 SHA_DIGEST_LENGTH
  SHA256 : Blob → Vector UInt8 SHA256_DIGEST_LENGTH
  EVP_BytesToKey : Blob → Blob → ℕ × Blob
  EVP_DecryptFinal : Blob → Blob → Bool

/-- How a call ends that does not return: a string is made from a null pointer, or an `int` overflows. -/
inductive Fault where
  | nullString
  | overflow
deriving DecidableEq, Repr

/-- A digit of a hexadecimal number, as in the table. -/
def hexDigit (nibble : ℕ) : UInt8 := (bytes "0123456789abcdef").getD nibble 0

def AsciiEncode (blob : Blob) : Blob :=
  blob.flatMap fun byte => [hexDigit (byte.toNat / 16 % 16), hexDigit (byte.toNat % 16)]

def PathAppend (base_path leaf : Blob) : Blob :=
  if base_path.getLast? ≠ (bytes "/").head? then base_path ++ bytes "/" ++ leaf else base_path ++ leaf

/-- A name and a password, without NULs. -/
structure UsernamePassword where
  username_ : Blob
  password_ : Blob

variable (openssl : OpenSSL)

/-- The name begins with that of the local account, in a build that has one. -/
def UsernamePassword.IsLocalAccount (kLocalAccount : Option Blob) (credentials : UsernamePassword) : Bool :=
  kLocalAccount.any fun account => credentials.username_.take account.length == account

def UsernamePassword.GetObfuscatedUsername (credentials : UsernamePassword) (system_salt : Blob) : Blob :=
  AsciiEncode (openssl.SHA1 (system_salt ++ credentials.username_)).toList

def UsernamePassword.GetPasswordWeakHash (credentials : UsernamePassword) (system_salt : Blob) : Blob :=
  AsciiEncode ((openssl.SHA256 (AsciiEncode system_salt ++ credentials.password_)).toList.take
    (SHA256_DIGEST_LENGTH / 2))

/-- An authenticator after `Init`, with the contents of the files that can be read. -/
structure Authenticator where
  openssl : OpenSSL
  files : Blob → Option Blob
  shadow_root_ : Blob
  root_ne_nil : shadow_root_ ≠ []
  system_salt_ : Blob
  kLocalAccount : Option Blob := none

namespace Authenticator

def kOpenSSLMagic : Blob := bytes "Salted__"

variable (authenticator : Authenticator)

/-- `access` with `R_OK`. -/
def access (path : Blob) : Bool := (authenticator.files path).isSome

def LoadFileBytes (filename : Blob) : Option Blob := authenticator.files filename

/-- The digests of the salt and the password; a salt that does not load makes a string of `false`. -/
def IteratedWrapHashedPassword (master_salt_file hashed_password : Blob) (iters : ℕ) : Except Fault Blob :=
  match authenticator.LoadFileBytes master_salt_file with
  | none => .error .nullString
  | some master_salt =>
    let round := fun blob => (authenticator.openssl.SHA1 (master_salt ++ blob)).toList
    .ok (AsciiEncode (round^[iters] hashed_password))

def WrapHashedPassword (master_salt_file hashed_password : Blob) : Except Fault Blob :=
  authenticator.IteratedWrapHashedPassword master_salt_file hashed_password 1

def TestDecrypt (passphrase salt cipher_text : Blob) : Bool :=
  if salt.length < PKCS5_SALT_LEN then false
  else
    let key := authenticator.openssl.EVP_BytesToKey salt passphrase
    if key.1 ≠ EVP_MAX_KEY_LENGTH then false
    else authenticator.openssl.EVP_DecryptFinal key.2 cipher_text

def TestOneMasterKey (master_key_file hashed_password : Blob) : Except Fault Bool :=
  if authenticator.system_salt_ = [] then .ok false
  else
    match authenticator.LoadFileBytes master_key_file with
    | none => .ok false
    | some cipher_text =>
      let header_size := kOpenSSLMagic.length + PKCS5_SALT_LEN
      if cipher_text.length ≤ header_size then .ok false
      else if cipher_text.take kOpenSSLMagic.length ≠ kOpenSSLMagic then .ok false
      else
        let salt := (cipher_text.take header_size).drop kOpenSSLMagic.length
        match authenticator.WrapHashedPassword (master_key_file ++ bytes ".salt") hashed_password with
        | .error fault => .error fault
        | .ok passphrase => .ok (authenticator.TestDecrypt passphrase salt (cipher_text.drop header_size))

/-- `snprintf` with `%i` into an array: the length of the text, and what the array holds of it. -/
def snprintf (size i : ℕ) : ℕ × Blob :=
  let digits := bytes (toString i)
  (digits.length, digits.take (size - 1))

/-- The loop of `TestAllMasterKeys` from a number on, with the count of the numbers that an `int` still holds. -/
def testMasterKeys (user_path weak_hash : Blob) : ℕ → ℕ → Except Fault Bool
  | 0, _ => .error .overflow
  | remaining + 1, i =>
    let index_str := snprintf 5 i
    if index_str.1 = 0 then .ok false
    else
      let master_key_file := PathAppend user_path (bytes "master.") ++ index_str.2
      if !authenticator.access master_key_file then .ok false
      else
        match authenticator.TestOneMasterKey master_key_file weak_hash with
        | .error fault => .error fault
        | .ok true => .ok true
        | .ok false => testMasterKeys user_path weak_hash remaining (i + 1)

def TestAllMasterKeys (credentials : UsernamePassword) : Except Fault Bool :=
  if credentials.IsLocalAccount authenticator.kLocalAccount then .ok true
  else if authenticator.system_salt_ = [] then .ok false
  else
    let user_path := PathAppend authenticator.shadow_root_
      (credentials.GetObfuscatedUsername authenticator.openssl authenticator.system_salt_)
    let weak_hash := credentials.GetPasswordWeakHash authenticator.openssl authenticator.system_salt_
    authenticator.testMasterKeys user_path weak_hash (INT_MAX + 1) 0

end Authenticator

end ChromiumOS.PamOffline
