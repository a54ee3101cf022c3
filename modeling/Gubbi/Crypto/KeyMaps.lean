import Gubbi.Crypto.Cipher
import Gubbi.Library.Fallible

/-!
# Growing key maps

A cipher is built from a map of key versions, and a map that grows is a new
cipher. A pair carries its version in the nonce, so a cipher decrypts it when it
has the same key under that version, whatever else it knows.
-/

namespace KeyMaps

open Text Cipher

/-- A key of `master_keys`; `bool` counts as no integer. -/
inductive KeyVersion
  | int (value : Int)
  | notInt (typeName : String)
  deriving DecidableEq, Repr

inductive KeyMaterial
  | bytes (value : Bytes)
  | notBytes (typeName : String)
  deriving DecidableEq, Repr

inductive InitError
  | valueError (message : String)
  | typeError (message : String)
  deriving DecidableEq, Repr

/-- The checks of one item, in the order of the constructor. -/
def checkMasterKey (item : KeyVersion × KeyMaterial) : Except InitError (Nat × Bytes) :=
  match item.1 with
  | .notInt typeName => .error (.typeError s!"key version must be int, got {typeName}")
  | .int version =>
    if version < 1 ∨ 255 < version then
      .error (.valueError s!"key version {version} out of range [1, 255]")
    else
      match item.2 with
      | .notBytes typeName =>
        .error (.typeError s!"key for version {version} must be bytes, got {typeName}")
      | .bytes key =>
        if key.length ≠ KEY_LEN then
          .error (.valueError s!"key for version {version} must be 32 bytes, got {key.length}")
        else .ok (version.toNat, key)

/-- The item of a `master_keys` map that a known key comes from. -/
def toItem (row : Nat × Bytes) : KeyVersion × KeyMaterial := (.int row.1, .bytes row.2)

def ValidRow (row : Nat × Bytes) : Prop := (1 ≤ row.1 ∧ row.1 ≤ 255) ∧ row.2.length = KEY_LEN

theorem checkMasterKey_eq_ok {item : KeyVersion × KeyMaterial} {row : Nat × Bytes} :
    checkMasterKey item = .ok row ↔ item = toItem row ∧ ValidRow row := by
  obtain ⟨version, key⟩ := item
  obtain ⟨number, bytes⟩ := row
  cases version with
  | notInt typeName => simp [checkMasterKey, toItem]
  | int version =>
    cases key with
    | notBytes typeName =>
      by_cases range : version < 1 ∨ 255 < version
      · simp [checkMasterKey, toItem, range]
      · simp [checkMasterKey, toItem, range]
    | bytes key =>
      by_cases range : version < 1 ∨ 255 < version
      · simp only [checkMasterKey, range, if_true, reduceCtorEq, false_iff, toItem, ValidRow,
          Prod.mk.injEq, KeyVersion.int.injEq, not_and]
        omega
      · by_cases length : key.length = KEY_LEN
        · simp only [checkMasterKey, range, length, if_false, ne_eq, not_true_eq_false, toItem,
            ValidRow, Prod.mk.injEq, Except.ok.injEq, KeyVersion.int.injEq,
            KeyMaterial.bytes.injEq]
          constructor
          · rintro ⟨rfl, rfl⟩
            exact ⟨⟨by omega, rfl⟩, ⟨by omega, by omega⟩, length⟩
          · rintro ⟨⟨rfl, rfl⟩, _⟩
            exact ⟨by omega, rfl⟩
        · simp only [checkMasterKey, range, length, if_false, ne_eq, not_false_eq_true, if_true,
            reduceCtorEq, false_iff, toItem, ValidRow, Prod.mk.injEq, KeyMaterial.bytes.injEq]
          rintro ⟨⟨_, rfl⟩, _, valid⟩
          exact length valid

theorem mapM_checkMasterKey {items : List (KeyVersion × KeyMaterial)}
    {rows : List (Nat × Bytes)} :
    items.mapM checkMasterKey = .ok rows ↔
      items = rows.map toItem ∧ ∀ row ∈ rows, ValidRow row := by
  induction items generalizing rows with
  | nil =>
    rw [Fallible.mapM_nil_eq_ok]
    constructor
    · rintro rfl
      exact ⟨rfl, fun row mem => absurd mem List.not_mem_nil⟩
    · rintro ⟨same, _⟩
      exact List.map_eq_nil_iff.mp same.symm
  | cons item rest ih =>
    simp only [Fallible.mapM_cons_eq_ok, checkMasterKey_eq_ok, ih]
    constructor
    · rintro ⟨row, tail, ⟨rfl, valid⟩, ⟨rfl, all⟩, rfl⟩
      exact ⟨rfl, List.forall_mem_cons.mpr ⟨valid, all⟩⟩
    · rintro ⟨same, all⟩
      cases rows with
      | nil => cases same
      | cons row tail =>
        obtain ⟨hitem, hrest⟩ := List.cons.inj same
        obtain ⟨valid, others⟩ := List.forall_mem_cons.mp all
        exact ⟨row, tail, ⟨hitem, valid⟩, ⟨hrest, others⟩, rfl⟩

theorem versions_nodup {rows : List (Nat × Bytes)}
    (unique : ((rows.map toItem).map Prod.fst).Nodup) : (rows.map Prod.fst).Nodup := by
  have versions : (rows.map toItem).map Prod.fst =
      (rows.map Prod.fst).map (fun version : Nat => KeyVersion.int version) := by
    simp [toItem]
  rw [versions] at unique
  exact List.Nodup.of_map _ unique

/-- `ContentCipher.__init__`: what passes the checks is a cipher. -/
def ofMasterKeys (masterKeys : Table KeyVersion KeyMaterial) : Except InitError ContentCipher :=
  if empty : masterKeys.rows = [] then
    .error (.valueError "master_keys must contain at least one version")
  else
    match checked : masterKeys.rows.mapM checkMasterKey with
    | .error e => .error e
    | .ok rows => .ok
      { keys := ⟨rows, versions_nodup ((mapM_checkMasterKey.mp checked).1 ▸ masterKeys.unique)⟩
        nonempty := by
          rintro rfl
          exact empty (mapM_checkMasterKey.mp checked).1
        checked := by
          intro version key known
          exact (mapM_checkMasterKey.mp checked).2 _ (Table.get_eq_some_iff.mp known) }

theorem cipher_ext {cipher other : ContentCipher} (same : cipher.keys.rows = other.keys.rows) :
    cipher = other := by
  obtain ⟨⟨rows, _⟩, _, _⟩ := cipher
  obtain ⟨⟨others, _⟩, _, _⟩ := other
  cases same
  rfl

theorem toItem_injective : Function.Injective toItem := by
  rintro ⟨version, key⟩ ⟨version', key'⟩ same
  simp only [toItem, Prod.mk.injEq, KeyVersion.int.injEq, KeyMaterial.bytes.injEq] at same
  obtain ⟨versions, rfl⟩ := same
  rw [Int.ofNat.inj versions]

/-- The cipher of a map knows exactly the keys of the map. -/
theorem ofMasterKeys_eq_ok {masterKeys : Table KeyVersion KeyMaterial} {cipher : ContentCipher} :
    ofMasterKeys masterKeys = .ok cipher ↔ masterKeys.rows = cipher.keys.rows.map toItem := by
  have valid : ∀ row ∈ cipher.keys.rows, ValidRow row :=
    fun row mem => cipher.checked _ _ (Table.get_eq_some_iff.mpr mem)
  unfold ofMasterKeys
  split
  · rename_i empty
    refine iff_of_false (fun h => nomatch h) ?_
    rw [empty, eq_comm, List.map_eq_nil_iff]
    exact cipher.nonempty
  · split
    · rename_i e failed
      refine iff_of_false (fun h => nomatch h) ?_
      intro same
      rw [mapM_checkMasterKey.mpr ⟨same, valid⟩] at failed
      cases failed
    · rename_i rows checked
      have items := (mapM_checkMasterKey.mp checked).1
      constructor
      · intro built
        cases built
        exact items
      · intro same
        refine congrArg Except.ok (cipher_ext ?_)
        exact List.map_injective_iff.mpr toItem_injective (items.symm.trans same)

/-- Every known key is known to the other cipher as well. -/
def Extends (cipher other : ContentCipher) : Prop :=
  ∀ version key, cipher.keys.get version = some key → other.keys.get version = some key

def AgreeOn (cipher other : ContentCipher) (version : Nat) : Prop :=
  other.keys.get version = cipher.keys.get version

/-- The version that a nonce carries. -/
def versionByte (nonce : Bytes) : Nat := (nonce.headD 0).toNat

section Agreement
variable {aes : AesGcm} {cipher other : ContentCipher} {plaintext : PyStr} {version : Nat}
  {random : RandomTail} {ciphertext nonce : Bytes}

/-- Decryption reads the key map at the version byte only. -/
theorem decrypt_congr (agree : AgreeOn cipher other (versionByte nonce)) :
    decrypt aes other ciphertext nonce = decrypt aes cipher ciphertext nonce := by
  have keys : other.keys.get (nonce.headD 0).toNat = cipher.keys.get (nonce.headD 0).toNat := agree
  simp only [decrypt, keys]

theorem versionByte_of_encrypt
    (encrypted : encryptWithVersion aes cipher plaintext version random = .ok (ciphertext, nonce)) :
    versionByte nonce = version := by
  obtain ⟨key, _, known, _, rfl, _⟩ := encryptWithVersion_eq_ok.mp encrypted
  exact UInt8.toNat_ofNat_of_lt' (version_lt known)

theorem agreeOn_of_extends (grown : Extends cipher other) (known : version ∈ cipher.knownVersions) :
    AgreeOn cipher other version := by
  obtain ⟨row, mem, rfl⟩ := List.mem_map.mp known
  have key := Table.get_eq_some_iff.mpr mem
  exact (grown _ _ key).trans key.symm

/-- Every string that has an encoding is encrypted under every known version. -/
theorem encryptWithVersion_total (aes : AesGcm) {data : Bytes}
    (encodable : encodeUtf8 plaintext = some data) (known : version ∈ cipher.knownVersions)
    (random : RandomTail) :
    ∃ ciphertext nonce,
      encryptWithVersion aes cipher plaintext version random = .ok (ciphertext, nonce) := by
  obtain ⟨row, mem, rfl⟩ := List.mem_map.mp known
  exact ⟨_, _, encryptWithVersion_eq_ok.mpr
    ⟨row.2, data, Table.get_eq_some_iff.mpr mem, encodable, rfl, rfl⟩⟩

end Agreement

theorem foldl_max_le (versions : List Nat) (first : Nat) :
    first ≤ versions.foldl max first ∧ ∀ v ∈ versions, v ≤ versions.foldl max first := by
  induction versions generalizing first with
  | nil => exact ⟨Nat.le_refl _, fun v mem => absurd mem List.not_mem_nil⟩
  | cons version rest ih =>
    obtain ⟨start, others⟩ := ih (max first version)
    refine ⟨Nat.le_trans (Nat.le_max_left _ _) start, List.forall_mem_cons.mpr ⟨?_, others⟩⟩
    exact Nat.le_trans (Nat.le_max_right _ _) start

theorem foldl_max_mem (versions : List Nat) (first : Nat) :
    versions.foldl max first = first ∨ versions.foldl max first ∈ versions := by
  induction versions generalizing first with
  | nil => exact Or.inl rfl
  | cons version rest ih =>
    rcases ih (max first version) with same | mem
    · rw [List.foldl_cons, same]
      rcases Nat.le_total first version with le | le
      · rw [Nat.max_eq_right le]
        exact Or.inr List.mem_cons_self
      · rw [Nat.max_eq_left le]
        exact Or.inl rfl
    · exact Or.inr (List.mem_cons_of_mem _ mem)

/-- The active version is the greatest known one. -/
theorem activeVersion_greatest (cipher : ContentCipher) :
    cipher.activeVersion ∈ cipher.knownVersions ∧
      ∀ version ∈ cipher.knownVersions, version ≤ cipher.activeVersion := by
  have bound := (foldl_max_le cipher.knownVersions 0).2
  refine ⟨?_, bound⟩
  rcases foldl_max_mem cipher.knownVersions 0 with zero | mem
  · obtain ⟨row, rest, rows⟩ := List.exists_cons_of_ne_nil cipher.nonempty
    have mem : row ∈ cipher.keys.rows := by
      rw [rows]
      exact List.mem_cons_self
    have valid := (cipher.checked _ _ (Table.get_eq_some_iff.mpr mem)).1.1
    have le := bound row.1 (List.mem_map_of_mem mem)
    rw [zero] at le
    omega
  · exact mem

/-- A cipher always has its active key, so only the encoding of a text can fail. -/
theorem encrypt_isOk (aes : AesGcm) (cipher : ContentCipher) (text : PyStr) (tail : RandomTail) :
    (∃ columns, encrypt aes cipher text tail = .ok columns) ↔ (encodeUtf8 text).isSome = true := by
  obtain ⟨⟨version, key⟩, mem, hversion⟩ := List.mem_map.mp (activeVersion_greatest cipher).1
  have known : cipher.keys.get cipher.activeVersion = some key := by
    rw [← hversion]
    exact Table.get_eq_some_iff.mpr mem
  constructor
  · rintro ⟨columns, done⟩
    obtain ⟨_, data, _, encoded, _⟩ := encryptWithVersion_eq_ok.mp done
    rw [encoded]
    rfl
  · intro encodes
    obtain ⟨data, encoded⟩ := Option.isSome_iff_exists.mp encodes
    exact ⟨_, encryptWithVersion_eq_ok.mpr ⟨key, data, known, encoded, rfl, rfl⟩⟩

/-- What the wrappers can raise: an error of the cipher that was not caught, or
the opaque one. -/
inductive Raised
  | cipher (error : CipherError)
  | decryption (error : DecryptionError)
  deriving DecidableEq, Repr

variable (aes : AesGcm)

/-- `decrypt_or_raise` with its `except (ValueError, InvalidTag)`. -/
def decryptOrRaise (cipher : ContentCipher) (ciphertext nonce : Bytes) : Except Raised PyStr :=
  match decrypt aes cipher ciphertext nonce with
  | .ok plaintext => .ok plaintext
  | .error e =>
    if e.isValueError || e = .invalidTag then .error (.decryption ⟨"decryption failed"⟩)
    else .error (.cipher e)

def decryptContentField (cipher : ContentCipher) (encrypted nonce : Option Bytes) :
    Except Raised (Option PyStr) :=
  match encrypted, nonce with
  | some ct, some nonce =>
    match decryptOrRaise aes cipher ct nonce with
    | .ok plaintext => .ok (some plaintext)
    | .error e => .error e
  | none, none => .ok none
  | _, _ => .error (.decryption ⟨"encrypted column and nonce must both be present"⟩)

variable {aes} {cipher : ContentCipher}

/-- Whatever the cipher raises is caught. -/
theorem decryptOrRaise_error {ciphertext nonce : Bytes} {raised : Raised}
    (h : decryptOrRaise aes cipher ciphertext nonce = .error raised) :
    raised = .decryption ⟨"decryption failed"⟩ := by
  unfold decryptOrRaise at h
  split at h
  · cases h
  · rename_i e _
    cases e with
    | valueError message => exact (Except.error.inj h).symm
    | unicodeError => exact (Except.error.inj h).symm
    | invalidTag => exact (Except.error.inj h).symm

/-- A row is a string, no value when both columns are NULL, or a `DecryptionError`. -/
theorem decryptContentField_cases (encrypted nonce : Option Bytes) :
    (∃ plaintext, decryptContentField aes cipher encrypted nonce = .ok (some plaintext)) ∨
    (decryptContentField aes cipher encrypted nonce = .ok none ∧ encrypted = none ∧ nonce = none) ∨
    ∃ error, decryptContentField aes cipher encrypted nonce = .error (.decryption error) := by
  cases encrypted with
  | none =>
    cases nonce with
    | none => exact Or.inr (Or.inl ⟨rfl, rfl, rfl⟩)
    | some nonce => exact Or.inr (Or.inr ⟨_, rfl⟩)
  | some ct =>
    cases nonce with
    | none => exact Or.inr (Or.inr ⟨_, rfl⟩)
    | some nonce =>
      simp only [decryptContentField]
      cases result : decryptOrRaise aes cipher ct nonce with
      | ok plaintext => exact Or.inl ⟨plaintext, rfl⟩
      | error raised => exact Or.inr (Or.inr ⟨_, by rw [decryptOrRaise_error result]⟩)

theorem decryptOrRaise_eq (ciphertext nonce : Bytes) :
    decryptOrRaise aes cipher ciphertext nonce =
      (Cipher.decryptOrRaise aes cipher ciphertext nonce).mapError .decryption := by
  unfold decryptOrRaise Cipher.decryptOrRaise
  cases decrypt aes cipher ciphertext nonce with
  | ok plaintext => rfl
  | error e =>
    cases e with
    | valueError message => rfl
    | unicodeError => rfl
    | invalidTag => rfl

/-- The wrappers agree with those that raise the opaque error by their type. -/
theorem decryptContentField_eq (encrypted nonce : Option Bytes) :
    decryptContentField aes cipher encrypted nonce =
      (Cipher.decryptContentField aes cipher encrypted nonce).mapError .decryption := by
  cases encrypted with
  | none =>
    cases nonce with
    | none => rfl
    | some nonce => rfl
  | some ct =>
    cases nonce with
    | none => rfl
    | some nonce =>
      simp only [decryptContentField, Cipher.decryptContentField, decryptOrRaise_eq]
      cases Cipher.decryptOrRaise aes cipher ct nonce with
      | ok plaintext => rfl
      | error e => rfl

/-- Pairs stay readable under every key map that kept the key of their version,
new pairs are tagged with the greatest version, and a row fails in one way only. -/
theorem versions_stable (aes : AesGcm) (cipher : ContentCipher) :
    (∀ plaintext data version random, encodeUtf8 plaintext = some data →
      version ∈ cipher.knownVersions →
      ∃ ciphertext nonce,
        encryptWithVersion aes cipher plaintext version random = .ok (ciphertext, nonce) ∧
        (∀ other, AgreeOn cipher other (versionByte nonce) →
          decrypt aes other ciphertext nonce = .ok plaintext) ∧
        ∀ other, Extends cipher other → decrypt aes other ciphertext nonce = .ok plaintext) ∧
    (∀ plaintext data random, encodeUtf8 plaintext = some data →
      ∃ ciphertext nonce, encrypt aes cipher plaintext random = .ok (ciphertext, nonce) ∧
        versionByte nonce ∈ cipher.knownVersions ∧
        (∀ version ∈ cipher.knownVersions, version ≤ versionByte nonce) ∧
        (∀ other, AgreeOn cipher other (versionByte nonce) →
          decrypt aes other ciphertext nonce = .ok plaintext) ∧
        ∀ other, Extends cipher other → decrypt aes other ciphertext nonce = .ok plaintext) ∧
    ∀ encrypted nonce,
      ((∃ plaintext, decryptContentField aes cipher encrypted nonce = .ok (some plaintext)) ∨
        decryptContentField aes cipher encrypted nonce = .ok none ∨
        ∃ error, decryptContentField aes cipher encrypted nonce = .error (.decryption error)) ∧
      (decryptContentField aes cipher encrypted nonce = .ok none ↔
        encrypted = none ∧ nonce = none) := by
  have readable : ∀ {plaintext : PyStr} {version : Nat} {random : RandomTail}
      {ciphertext nonce : Bytes}, version ∈ cipher.knownVersions →
      encryptWithVersion aes cipher plaintext version random = .ok (ciphertext, nonce) →
      (∀ other, AgreeOn cipher other (versionByte nonce) →
        decrypt aes other ciphertext nonce = .ok plaintext) ∧
      ∀ other, Extends cipher other → decrypt aes other ciphertext nonce = .ok plaintext := by
    intro plaintext version random ciphertext nonce known encrypted
    have agreeing : ∀ other, AgreeOn cipher other (versionByte nonce) →
        decrypt aes other ciphertext nonce = .ok plaintext :=
      fun other agree => (decrypt_congr agree).trans (decrypt_encryptWithVersion encrypted)
    refine ⟨agreeing, fun other grown => agreeing other ?_⟩
    rw [versionByte_of_encrypt encrypted]
    exact agreeOn_of_extends grown known
  refine ⟨?_, ?_, ?_⟩
  · intro plaintext data version random encodable known
    obtain ⟨ciphertext, nonce, encrypted⟩ := encryptWithVersion_total aes encodable known random
    exact ⟨ciphertext, nonce, encrypted, readable known encrypted⟩
  · intro plaintext data random encodable
    obtain ⟨known, greatest⟩ := activeVersion_greatest cipher
    obtain ⟨ciphertext, nonce, encrypted⟩ := encryptWithVersion_total aes encodable known random
    refine ⟨ciphertext, nonce, encrypted, ?_, ?_, readable known encrypted⟩
    · rw [versionByte_of_encrypt encrypted]
      exact known
    · rw [versionByte_of_encrypt encrypted]
      exact greatest
  · intro encrypted nonce
    rcases @decryptContentField_cases aes cipher encrypted nonce with
      ⟨plaintext, h⟩ | ⟨h, rfl, rfl⟩ | ⟨error, h⟩
    · refine ⟨Or.inl ⟨plaintext, h⟩, iff_of_false (by simp [h]) ?_⟩
      rintro ⟨rfl, rfl⟩
      cases h
    · exact ⟨Or.inr (Or.inl h), iff_of_true h ⟨rfl, rfl⟩⟩
    · refine ⟨Or.inr (Or.inr ⟨error, h⟩), iff_of_false (by simp [h]) ?_⟩
      rintro ⟨rfl, rfl⟩
      cases h

/-- The sample cipher before its second key was added. -/
def firstCipher : ContentCipher where
  keys := Table.empty.put 1 sampleKey1
  nonempty := by decide
  checked := by
    intro version key h
    rcases Table.get_put_eq_some h with ⟨rfl, rfl⟩ | ⟨_, h⟩
    · decide
    · cases h

theorem firstCipher_extends : Extends firstCipher sampleCipher := by
  intro version key known
  rcases Table.get_put_eq_some known with ⟨rfl, rfl⟩ | ⟨_, known⟩
  · decide
  · cases known

theorem versions_stable_second : ∃ ciphertext nonce,
    encrypt sampleGcm firstCipher (py "hi") sampleTail = .ok (ciphertext, nonce) ∧
      decrypt sampleGcm sampleCipher ciphertext nonce = .ok (py "hi") := by
  obtain ⟨ciphertext, nonce, encrypted, _, _, _, readable⟩ :=
    (versions_stable sampleGcm firstCipher).2.1 (py "hi") sampleData sampleTail (by decide)
  exact ⟨ciphertext, nonce, encrypted, readable sampleCipher firstCipher_extends⟩

end KeyMaps
