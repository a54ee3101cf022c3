import Gubbi.Library.KeyedTable
import Gubbi.Text

/-!
# Content cipher

`ContentCipher` over AES-256-GCM. The primitive belongs to another package and
is a parameter; what the cipher relies on is its two laws. The first byte of a
nonce is the version of the key, the rest is drawn at random and is an argument.
-/

namespace Cipher

open Text

def NONCE_LEN : Nat := 12
def KEY_LEN : Nat := 32
def TAG_LEN : Nat := 16

/-- `AESGCM(key).encrypt/decrypt(nonce, data, None)`; `none` is `InvalidTag`. -/
structure AesGcm where
  encrypt : Bytes → Bytes → Bytes → Bytes
  decrypt : Bytes → Bytes → Bytes → Option Bytes
  decrypt_encrypt : ∀ key nonce data, decrypt key nonce (encrypt key nonce data) = some data
  decrypt_short : ∀ key nonce data, data.length < TAG_LEN → decrypt key nonce data = none

/-- A cipher that passed its constructor's checks. -/
structure ContentCipher where
  keys : Table Nat Bytes
  nonempty : keys.rows ≠ []
  checked : ∀ version key, keys.get version = some key →
    (1 ≤ version ∧ version ≤ 255) ∧ key.length = KEY_LEN

def ContentCipher.knownVersions (cipher : ContentCipher) : List Nat := cipher.keys.rows.map Prod.fst

def ContentCipher.activeVersion (cipher : ContentCipher) : Nat :=
  cipher.knownVersions.foldl max 0

inductive CipherError
  | valueError (message : String)
  | unicodeError
  | invalidTag
  deriving DecidableEq, Repr

/-- `UnicodeError` is a `ValueError`; `InvalidTag` is not. -/
def CipherError.isValueError : CipherError → Bool
  | .valueError _ => true
  | .unicodeError => true
  | .invalidTag => false

/-- The random part of a nonce. -/
def RandomTail : Type := { bytes : Bytes // bytes.length = NONCE_LEN - 1 }

variable (aes : AesGcm)

def encryptWithVersion (cipher : ContentCipher) (plaintext : PyStr) (version : Nat)
    (random : RandomTail) : Except CipherError (Bytes × Bytes) :=
  match cipher.keys.get version with
  | none => .error (.valueError s!"key version {version} not known")
  | some key =>
    let nonce := UInt8.ofNat version :: random.val
    match encodeUtf8 plaintext with
    | none => .error .unicodeError
    | some data => .ok (aes.encrypt key nonce data, nonce)

def encrypt (cipher : ContentCipher) (plaintext : PyStr) (random : RandomTail) :
    Except CipherError (Bytes × Bytes) :=
  encryptWithVersion aes cipher plaintext cipher.activeVersion random

def decrypt (cipher : ContentCipher) (ciphertext nonce : Bytes) : Except CipherError PyStr :=
  if nonce.length ≠ NONCE_LEN then .error (.valueError "nonce must be 12 bytes")
  else
    let version := (nonce.headD 0).toNat
    match cipher.keys.get version with
    | none => .error (.valueError s!"unknown key version {version}")
    | some key =>
      match aes.decrypt key nonce ciphertext with
      | none => .error .invalidTag
      | some data =>
        match decodeUtf8 data with
        | none => .error .unicodeError
        | some plaintext => .ok plaintext

/-- Every failure of a decryption, without its cause. -/
structure DecryptionError where
  message : String
  deriving DecidableEq, Repr

def decryptOrRaise (cipher : ContentCipher) (ciphertext nonce : Bytes) :
    Except DecryptionError PyStr :=
  match decrypt aes cipher ciphertext nonce with
  | .ok plaintext => .ok plaintext
  | .error _ => .error ⟨"decryption failed"⟩

/-- One ciphertext and nonce column pair of a row; both NULL is no value. -/
def decryptContentField (cipher : ContentCipher) (encrypted nonce : Option Bytes) :
    Except DecryptionError (Option PyStr) :=
  match encrypted, nonce with
  | some ct, some nonce =>
    match decryptOrRaise aes cipher ct nonce with
    | .ok plaintext => .ok (some plaintext)
    | .error e => .error e
  | none, none => .ok none
  | _, _ => .error ⟨"encrypted column and nonce must both be present"⟩

variable {aes} {cipher : ContentCipher}

theorem encryptWithVersion_eq_ok {plaintext : PyStr} {version : Nat} {random : RandomTail}
    {ciphertext nonce : Bytes} :
    encryptWithVersion aes cipher plaintext version random = .ok (ciphertext, nonce) ↔
      ∃ key data, cipher.keys.get version = some key ∧ encodeUtf8 plaintext = some data ∧
        nonce = UInt8.ofNat version :: random.val ∧ ciphertext = aes.encrypt key nonce data := by
  unfold encryptWithVersion
  cases hkey : cipher.keys.get version with
  | none => simp
  | some key =>
    cases hdata : encodeUtf8 plaintext with
    | none => simp
    | some data =>
      simp only [Except.ok.injEq, Prod.mk.injEq, Option.some.injEq]
      constructor
      · rintro ⟨rfl, rfl⟩
        exact ⟨key, data, rfl, rfl, rfl, rfl⟩
      · rintro ⟨_, _, rfl, rfl, rfl, rfl⟩
        exact ⟨rfl, rfl⟩

theorem version_lt {version : Nat} {key : Bytes} (known : cipher.keys.get version = some key) :
    version < 256 :=
  Nat.lt_succ_of_le (cipher.checked version key known).1.2

/-- Decryption finds the version in the nonce and undoes encryption. -/
theorem decrypt_encryptWithVersion {plaintext : PyStr} {version : Nat} {random : RandomTail}
    {ciphertext nonce : Bytes}
    (encrypted : encryptWithVersion aes cipher plaintext version random = .ok (ciphertext, nonce)) :
    decrypt aes cipher ciphertext nonce = .ok plaintext := by
  obtain ⟨key, data, hkey, hdata, rfl, rfl⟩ := encryptWithVersion_eq_ok.mp encrypted
  have hlength : (UInt8.ofNat version :: random.val).length = NONCE_LEN := by
    rw [List.length_cons, random.property]
    rfl
  have hversion : (UInt8.ofNat version).toNat = version :=
    UInt8.toNat_ofNat_of_lt' (version_lt hkey)
  simp only [decrypt, hlength, ne_eq, not_true_eq_false, if_false, List.headD_cons, hversion, hkey,
    aes.decrypt_encrypt, decodeUtf8_of_encodeUtf8 hdata]

/-- A pair that decrypts has a nonce, and a ciphertext at least as long as the tag. -/
theorem nonempty_of_decrypt {ciphertext nonce : Bytes} {plaintext : PyStr}
    (decrypted : decrypt aes cipher ciphertext nonce = .ok plaintext) :
    ciphertext ≠ [] ∧ nonce ≠ [] ∧ ∃ data, decodeUtf8 data = some plaintext := by
  unfold decrypt at decrypted
  split at decrypted
  · cases decrypted
  · next hlength =>
    simp only at decrypted
    split at decrypted
    · cases decrypted
    · split at decrypted
      · cases decrypted
      · next data hdata =>
        split at decrypted
        · cases decrypted
        · next hdecoded =>
          cases decrypted
          refine ⟨?_, ?_, data, hdecoded⟩
          · rintro rfl
            rw [aes.decrypt_short _ _ _ (by decide)] at hdata
            cases hdata
          · rintro rfl
            exact hlength (by decide)

theorem decryptContentField_some {ciphertext nonce : Bytes} {plaintext : Option PyStr} :
    decryptContentField aes cipher (some ciphertext) (some nonce) = .ok plaintext ↔
      ∃ text, plaintext = some text ∧ decrypt aes cipher ciphertext nonce = .ok text := by
  simp only [decryptContentField, decryptOrRaise]
  cases decrypt aes cipher ciphertext nonce with
  | error e => simp
  | ok text => simp [eq_comm]

/-- Whatever was decrypted can be encrypted under any known version. -/
theorem encryptWithVersion_ok_of_decrypt {ciphertext nonce : Bytes} {plaintext : PyStr}
    (decrypted : decrypt aes cipher ciphertext nonce = .ok plaintext) {version : Nat}
    (known : version ∈ cipher.knownVersions) (random : RandomTail) :
    ∃ ciphertext', encryptWithVersion aes cipher plaintext version random =
      .ok (ciphertext', UInt8.ofNat version :: random.val) := by
  obtain ⟨_, _, data, hdata⟩ := nonempty_of_decrypt decrypted
  obtain ⟨encoded, hencoded⟩ := encodeUtf8_of_decodeUtf8 hdata
  obtain ⟨row, hrow, rfl⟩ := List.mem_map.mp known
  have hkey : cipher.keys.get row.1 = some row.2 := Table.get_eq_some_iff.mpr hrow
  exact ⟨_, encryptWithVersion_eq_ok.mpr ⟨row.2, encoded, hkey, hencoded, rfl, rfl⟩⟩

def sampleKey1 : Bytes := List.replicate 32 0
def sampleKey2 : Bytes := List.replicate 32 1
def sampleTail : RandomTail := ⟨List.replicate 11 0, rfl⟩
def sampleNonce1 : Bytes := 1 :: sampleTail.val
def sampleNonce2 : Bytes := 2 :: sampleTail.val

/-- The AES-256-GCM outputs for the text `hi` under the two sample keys. -/
def sampleCiphertext1 : Bytes :=
  [206, 225, 119, 133, 195, 147, 10, 111, 70, 211, 71, 109, 202, 145, 186, 134, 183, 101]
def sampleCiphertext2 : Bytes :=
  [80, 140, 159, 28, 69, 127, 199, 138, 34, 239, 196, 79, 86, 241, 201, 43, 222, 255]

def sampleData : Bytes := [0x68, 0x69]

def zeroTag : Bytes := List.replicate TAG_LEN 0

def sampleEncrypt (key nonce data : Bytes) : Bytes :=
  if key = sampleKey1 ∧ nonce = sampleNonce1 ∧ data = sampleData then sampleCiphertext1
  else if key = sampleKey2 ∧ nonce = sampleNonce2 ∧ data = sampleData then sampleCiphertext2
  else zeroTag ++ data

def sampleDecrypt (key nonce ciphertext : Bytes) : Option Bytes :=
  if key = sampleKey1 ∧ nonce = sampleNonce1 ∧ ciphertext = sampleCiphertext1 then some sampleData
  else if key = sampleKey2 ∧ nonce = sampleNonce2 ∧ ciphertext = sampleCiphertext2 then
    some sampleData
  else if ciphertext.take TAG_LEN = zeroTag then some (ciphertext.drop TAG_LEN)
  else none

theorem sample_decrypt_encrypt (key nonce data : Bytes) :
    sampleDecrypt key nonce (sampleEncrypt key nonce data) = some data := by
  unfold sampleEncrypt
  split
  · next h =>
    obtain ⟨rfl, rfl, rfl⟩ := h
    decide
  · split
    · next h =>
      obtain ⟨rfl, rfl, rfl⟩ := h
      decide
    · have hne1 : zeroTag ++ data ≠ sampleCiphertext1 := by
        intro h
        exact absurd (congrArg List.head? h) (by simp [zeroTag, TAG_LEN, sampleCiphertext1])
      have hne2 : zeroTag ++ data ≠ sampleCiphertext2 := by
        intro h
        exact absurd (congrArg List.head? h) (by simp [zeroTag, TAG_LEN, sampleCiphertext2])
      have htake : (zeroTag ++ data).take TAG_LEN = zeroTag := List.take_left' rfl
      have hdrop : (zeroTag ++ data).drop TAG_LEN = data := List.drop_left' rfl
      simp [sampleDecrypt, hne1, hne2, htake, hdrop]

theorem sample_decrypt_short (key nonce ciphertext : Bytes) (short : ciphertext.length < TAG_LEN) :
    sampleDecrypt key nonce ciphertext = none := by
  have hne1 : ciphertext ≠ sampleCiphertext1 := by
    rintro rfl
    exact absurd short (by decide)
  have hne2 : ciphertext ≠ sampleCiphertext2 := by
    rintro rfl
    exact absurd short (by decide)
  have htake : ciphertext.take TAG_LEN ≠ zeroTag := by
    intro h
    have hlength := congrArg List.length h
    rw [List.length_take, show zeroTag.length = TAG_LEN from rfl] at hlength
    omega
  simp [sampleDecrypt, hne1, hne2, htake]

/-- A primitive that agrees with AES-256-GCM on the sample inputs. -/
def sampleGcm : AesGcm where
  encrypt := sampleEncrypt
  decrypt := sampleDecrypt
  decrypt_encrypt := sample_decrypt_encrypt
  decrypt_short := sample_decrypt_short

def sampleCipher : ContentCipher where
  keys := (Table.empty.put 1 sampleKey1).put 2 sampleKey2
  nonempty := by decide
  checked := by
    intro version key h
    rcases Table.get_put_eq_some h with ⟨rfl, rfl⟩ | ⟨_, h⟩
    · decide
    · rcases Table.get_put_eq_some h with ⟨rfl, rfl⟩ | ⟨_, h⟩
      · decide
      · cases h

theorem sample_decrypt : decrypt sampleGcm sampleCipher sampleCiphertext1 sampleNonce1 =
    .ok (py "hi") := by
  have hutf8 : decodeUtf8 sampleData = some (py "hi") := decodeUtf8_of_encodeUtf8 (by decide)
  have hkey : sampleCipher.keys.get 1 = some sampleKey1 := by decide
  have hdata : sampleGcm.decrypt sampleKey1 sampleNonce1 sampleCiphertext1 = some sampleData := by
    decide
  have hversion : (sampleNonce1.headD 0).toNat = 1 := by decide
  simp only [decrypt, show sampleNonce1.length = NONCE_LEN from rfl, ne_eq, not_true_eq_false,
    if_false, hversion, hkey, hdata, hutf8]

theorem sample_decryptOrRaise :
    decryptOrRaise sampleGcm sampleCipher sampleCiphertext1 sampleNonce1 = .ok (py "hi") := by
  rw [decryptOrRaise, sample_decrypt]

end Cipher
