import Gubbi.Rotation.RotateTable

/-!
# Rows that do not decrypt

The loop over a batch catches `ValueError`, as a malformed nonce, an unknown version
or a text that is no UTF-8 raise it. `InvalidTag` is none, so a pair that fails its
authentication takes the batch down with it.
-/

namespace KeyRotation

open Text Cipher

variable {Rest : Type}

section Rows
variable (aes : AesGcm) (cipher : ContentCipher) (a : TableArgs)

def decrypts (pair : EncryptedPair) : Bool :=
  match pair.encrypted, pair.nonce with
  | some ct, some nonce => (decrypt aes cipher ct nonce).isOk
  | _, _ => false

/-- A pair of the source version that does not decrypt. -/
def undecryptable (row : Row Rest) : Bool :=
  screened a.sourceVersion (row.pairs a.screen.2) && !decrypts aes cipher (row.pairs a.screen.2)

/-- The table without the rows of undecryptable pairs. -/
def withoutUndecryptable (db : Database Rest) : Database Rest :=
  { db with
    tables := Function.update db.tables a.screen.1
      ((db.tables a.screen.1).deleteWhere (fun _ row => undecryptable aes cipher a row)) }

/-- The rotation returns; a row with an undecryptable pair is as before, and every other
row is as after a rotation without those rows. -/
def SkipsUndecryptable (nonces : Nat → RandomTail) (db : Database Rest) : Prop :=
  ∃ done good,
    rotateTable aes cipher nonces a db 0 = some (.returned done) ∧
    rotateTable aes cipher nonces a (withoutUndecryptable aes cipher a db) 0 =
      some (.returned good) ∧
    ∀ id row, (db.tables a.screen.1).get id = some row →
      if undecryptable aes cipher a row then (done.db.tables a.screen.1).get id = some row
      else (done.db.tables a.screen.1).get id = (good.db.tables a.screen.1).get id

/-- A pair that the rotation attempts and that its key does not authenticate. -/
def Tampered (pair : EncryptedPair) : Prop :=
  ∃ ct nonce key, pair = ⟨some ct, some nonce⟩ ∧ screened a.sourceVersion pair = true ∧
    ct ≠ [] ∧ nonce.length = NONCE_LEN ∧ (nonce.headD 0).toNat ≠ a.targetVersion ∧
    cipher.keys.get (nonce.headD 0).toNat = some key ∧ aes.decrypt key nonce ct = none

variable {aes cipher a}

theorem decrypt_invalidTag {ct nonce : Bytes} :
    decrypt aes cipher ct nonce = .error .invalidTag ↔
      nonce.length = NONCE_LEN ∧ ∃ key, cipher.keys.get (nonce.headD 0).toNat = some key ∧
        aes.decrypt key nonce ct = none := by
  unfold decrypt
  by_cases hlength : nonce.length = NONCE_LEN
  · simp only [hlength, ne_eq, not_true_eq_false, if_false, true_and]
    cases cipher.keys.get (nonce.headD 0).toNat with
    | none => simp
    | some key =>
      cases hdata : aes.decrypt key nonce ct with
      | none => simp [hdata]
      | some data =>
        cases hutf8 : decodeUtf8 data with
        | none => simp [hdata, hutf8]
        | some text => simp [hdata, hutf8]
  · simp [hlength]

/-- The other failures of a decryption are caught. -/
theorem isValueError_of_decrypt {ct nonce : Bytes} {error : CipherError}
    (failed : decrypt aes cipher ct nonce = .error error) :
    error.isValueError = true ∨ error = .invalidTag := by
  cases error with
  | valueError message => exact Or.inl rfl
  | unicodeError => exact Or.inl rfl
  | invalidTag => exact Or.inr rfl

theorem isValueError_of_encrypt {text : PyStr} {version : Nat} {random : RandomTail}
    {error : CipherError}
    (failed : encryptWithVersion aes cipher text version random = .error error) :
    error.isValueError = true := by
  unfold encryptWithVersion at failed
  split at failed
  · cases failed
    rfl
  · split at failed
    · cases failed
      rfl
    · cases failed

theorem truthy_eq_some {column : Option Bytes} {bytes : Bytes} :
    truthy column = some bytes ↔ column = some bytes ∧ bytes ≠ [] := by
  cases column with
  | none => simp [truthy]
  | some value =>
    cases value with
    | nil =>
      simp only [truthy, reduceCtorEq, Option.some.injEq, false_iff, not_and, not_not]
      exact fun h => h.symm
    | cons byte rest =>
      simp only [truthy, Option.some.injEq, ne_eq, iff_self_and]
      rintro rfl
      exact List.cons_ne_nil _ _

theorem rotateRow_tampered {args : Args} {ct nonce : Bytes} (random : RandomTail)
    (nonempty : ct ≠ []) (drawn : nonce ≠ []) (target : (nonce.headD 0).toNat ≠ args.toVersion)
    (failed : decrypt aes cipher ct nonce = .error .invalidTag) :
    rotateRow aes cipher args ⟨some ct, some nonce⟩ random = .raised .invalidTag := by
  simp only [rotateRow, truthy_of_ne nonempty, truthy_of_ne drawn, if_neg target, failed,
    CipherError.isValueError, Bool.false_eq_true, if_false]

variable (aes cipher) in
/-- What the treatment of a row comes to, by the pair it finds. -/
theorem rotateRow_cases (args : Args) (pair : EncryptedPair) (random : RandomTail) :
    rotateRow aes cipher args pair random = .skipped ∨
      ∃ ct nonce, pair = ⟨some ct, some nonce⟩ ∧ ct ≠ [] ∧
        (nonce.headD 0).toNat ≠ args.toVersion ∧
        ((decrypt aes cipher ct nonce = .error .invalidTag ∧
            rotateRow aes cipher args pair random = .raised .invalidTag) ∨
          ∃ text, decrypt aes cipher ct nonce = .ok text ∧
            ∃ pair', rotateRow aes cipher args pair random = .rotated pair') := by
  obtain ⟨encrypted, column⟩ := pair
  cases hct : truthy encrypted with
  | none => exact Or.inl (by simp [rotateRow, hct])
  | some ct =>
    cases hnonce : truthy column with
    | none => exact Or.inl (by simp [rotateRow, hct, hnonce])
    | some nonce =>
      obtain ⟨rfl, nonempty⟩ := truthy_eq_some.mp hct
      obtain ⟨rfl, drawn⟩ := truthy_eq_some.mp hnonce
      by_cases target : (nonce.headD 0).toNat = args.toVersion
      · exact Or.inl (by simp only [rotateRow, hct, hnonce, if_pos target])
      · cases hdecrypt : decrypt aes cipher ct nonce with
        | error error =>
          rcases isValueError_of_decrypt hdecrypt with caught | rfl
          · refine Or.inl ?_
            simp only [rotateRow, hct, hnonce, if_neg target, hdecrypt, if_pos caught]
          · exact Or.inr ⟨ct, nonce, rfl, nonempty, target, Or.inl ⟨hdecrypt,
              rotateRow_tampered random nonempty drawn target hdecrypt⟩⟩
        | ok text =>
          cases hencrypt : encryptWithVersion aes cipher text args.toVersion random with
          | error error =>
            refine Or.inl ?_
            simp only [rotateRow, hct, hnonce, if_neg target, hdecrypt, hencrypt,
              if_pos (isValueError_of_encrypt hencrypt)]
          | ok written =>
            refine Or.inr ⟨ct, nonce, rfl, nonempty, target, Or.inr ⟨text, hdecrypt,
              ⟨some written.1, some written.2⟩, ?_⟩⟩
            simp only [rotateRow, hct, hnonce, if_neg target, hdecrypt, hencrypt]

end Rows

section Screen
variable {aes : AesGcm} {cipher : ContentCipher} {a : TableArgs} {nonces : Nat → RandomTail}

variable (nonces) in
theorem rotateRows_raises {rows : List Selected} {row : Selected} (mem : row ∈ rows)
    (raises : ∀ random, rotateRow aes cipher a.args row.2 random = .raised .invalidTag)
    (drawn : Nat) : ∃ error, rotateRows aes cipher nonces a rows drawn = .error error := by
  induction rows generalizing drawn with
  | nil => exact absurd mem List.not_mem_nil
  | cons head rest ih =>
    rcases List.mem_cons.mp mem with rfl | inRest
    · exact ⟨.invalidTag, by simp only [rotateRows, raises]⟩
    · rw [rotateRows]
      cases rotateRow aes cipher a.args head.2 (nonces drawn) with
      | skipped => exact ih inRest drawn
      | raised error => exact ⟨error, rfl⟩
      | rotated pair =>
        obtain ⟨error, herror⟩ := ih inRest (drawn + 1)
        exact ⟨error, by simp only [herror]⟩

variable (nonces) in
theorem rotateRows_returns {rows : List Selected}
    (calm : ∀ row ∈ rows, ∀ random error, rotateRow aes cipher a.args row.2 random ≠ .raised error)
    (drawn : Nat) : ∃ done, rotateRows aes cipher nonces a rows drawn = .ok done := by
  induction rows generalizing drawn with
  | nil => exact ⟨_, rfl⟩
  | cons head rest ih =>
    have others := ih (fun row mem => calm row (List.mem_cons_of_mem _ mem))
    rw [rotateRows]
    cases treated : rotateRow aes cipher a.args head.2 (nonces drawn) with
    | skipped => exact others drawn
    | raised error => exact absurd treated (calm head List.mem_cons_self _ error)
    | rotated pair =>
      obtain ⟨done, hdone⟩ := others (drawn + 1)
      exact ⟨_, by simp only [hdone]; rfl⟩

/-- Rows that are passed over draw no nonce, so that leaving them out changes nothing. -/
theorem rotateRows_filter {rows : List Selected} {p : Selected → Bool}
    {done : List Selected × Nat} {drawn : Nat}
    (passed : ∀ row ∈ rows, p row = false → ∀ random pair,
      rotateRow aes cipher a.args row.2 random ≠ .rotated pair)
    (treated : rotateRows aes cipher nonces a rows drawn = .ok done) :
    rotateRows aes cipher nonces a (rows.filter p) drawn = .ok done := by
  induction rows generalizing done drawn with
  | nil => exact treated
  | cons head rest ih =>
    have others : ∀ {done drawn}, rotateRows aes cipher nonces a rest drawn = .ok done →
        rotateRows aes cipher nonces a (rest.filter p) drawn = .ok done :=
      ih (fun row mem => passed row (List.mem_cons_of_mem _ mem))
    cases hp : p head with
    | false =>
      rw [List.filter_cons_of_neg (by simp [hp])]
      rw [rotateRows] at treated
      cases outcome : rotateRow aes cipher a.args head.2 (nonces drawn) with
      | skipped =>
        rw [outcome] at treated
        exact others treated
      | raised error =>
        rw [outcome] at treated
        cases treated
      | rotated pair => exact absurd outcome (passed head List.mem_cons_self hp _ pair)
    | true =>
      rw [List.filter_cons_of_pos hp, rotateRows]
      rw [rotateRows] at treated
      cases outcome : rotateRow aes cipher a.args head.2 (nonces drawn) with
      | skipped =>
        rw [outcome] at treated
        exact others treated
      | raised error =>
        rw [outcome] at treated
        cases treated
      | rotated pair =>
        rw [outcome] at treated
        cases hrest : rotateRows aes cipher nonces a rest (drawn + 1) with
        | error error => simp [hrest] at treated
        | ok more =>
          simp only [hrest] at treated
          simp only [others hrest]
          exact treated

theorem candidates_without (db : Database Rest) (lastId : Nat) :
    candidates (screened a.sourceVersion)
        ((withoutUndecryptable aes cipher a db).tables a.screen.1) a.screen.2 lastId =
      (candidates (screened a.sourceVersion) (db.tables a.screen.1) a.screen.2 lastId).filter
        (fun selected => decrypts aes cipher selected.2) := by
  have table : (withoutUndecryptable aes cipher a db).tables a.screen.1 =
      (db.tables a.screen.1).deleteWhere (fun _ row => undecryptable aes cipher a row) :=
    Function.update_self _ _ _
  rw [table]
  refine (candidates_sorted _ _ _ _).ext ((candidates_sorted _ _ _ _).filter _) ?_
  intro selected
  rw [List.mem_filter, mem_candidates, mem_candidates]
  simp only [Table.get_deleteWhere, Option.filter_eq_some_iff]
  constructor
  · rintro ⟨hlast, hmatch, row, ⟨hrow, kept⟩, hpair⟩
    refine ⟨⟨hlast, hmatch, row, hrow, hpair⟩, ?_⟩
    simpa [undecryptable, hpair, hmatch] using kept
  · rintro ⟨⟨hlast, hmatch, row, hrow, hpair⟩, good⟩
    exact ⟨hlast, hmatch, row, ⟨hrow, by simp [undecryptable, hpair, good]⟩, hpair⟩

theorem applyWrites_get_congr {table table' : Table ℕ+ (Row Rest)} {column : Column}
    (writes : List Selected) {id : ℕ+} (same : table'.get id = table.get id) :
    (applyWrites table' column writes).get id = (applyWrites table column writes).get id := by
  induction writes generalizing table table' with
  | nil => exact same
  | cons write rest ih =>
    refine ih ?_
    rw [setPair_get, setPair_get, same]

theorem candidate_of_row {db : Database Rest} {id : ℕ+} {row : Row Rest}
    (hrow : (db.tables a.screen.1).get id = some row)
    (hmatch : screened a.sourceVersion (row.pairs a.screen.2) = true) :
    (id, row.pairs a.screen.2) ∈
      candidates (screened a.sourceVersion) (db.tables a.screen.1) a.screen.2 0 :=
  mem_candidates.mpr ⟨id.pos, hmatch, row, hrow, rfl⟩

variable (nonces) in
theorem rotateTable_raises {db : Database Rest} {id : ℕ+} {row : Row Rest}
    (hrow : (db.tables a.screen.1).get id = some row)
    (tampered : Tampered aes cipher a (row.pairs a.screen.2)) (drawn : Nat) :
    ∃ r error, rotateTable aes cipher nonces a db drawn = some (.raised r error) := by
  obtain ⟨ct, nonce, key, hpair, hmatch, nonempty, hlength, target, hkey, failed⟩ := tampered
  have drawnNonce : nonce ≠ [] := by
    rintro rfl
    exact absurd hlength (by decide)
  have raises : ∀ random, rotateRow aes cipher a.args (row.pairs a.screen.2) random =
      .raised .invalidTag := by
    intro random
    rw [hpair]
    exact rotateRow_tampered random nonempty drawnNonce target
      (decrypt_invalidTag.mpr ⟨hlength, key, hkey, failed⟩)
  obtain ⟨error, herror⟩ := rotateRows_raises nonces
    (candidate_of_row hrow hmatch) raises drawn
  obtain ⟨ended, hended, ends⟩ := rotateTable_ends a aes cipher nonces db drawn
  rw [herror] at ends
  cases ended with
  | returned r => exact ends.elim
  | raised r error' => exact ⟨r, error', hended⟩

theorem rotateTable_returns {db : Database Rest} {done : List Selected × Nat} {drawn : Nat}
    (treated : rotateRows aes cipher nonces a (candidates (screened a.sourceVersion)
      (db.tables a.screen.1) a.screen.2 0) drawn = .ok done) :
    ∃ r, rotateTable aes cipher nonces a db drawn = some (.returned r) ∧
      Finished a ⟨db, drawn, 0, 0⟩ done.1 done.2 r := by
  obtain ⟨ended, hended, ends⟩ := rotateTable_ends a aes cipher nonces db drawn
  rw [treated] at ends
  cases ended with
  | returned r => exact ⟨r, hended, ends⟩
  | raised r error => exact ends.elim

/-- Without a tampered pair no row of the screen raises. -/
theorem calm_of_authentic {db : Database Rest}
    (authentic : ∀ id row, (db.tables a.screen.1).get id = some row →
      ¬ Tampered aes cipher a (row.pairs a.screen.2)) :
    ∀ selected ∈ candidates (screened a.sourceVersion) (db.tables a.screen.1) a.screen.2 0,
      ∀ random error, rotateRow aes cipher a.args selected.2 random ≠ .raised error := by
  intro selected mem random error raised
  obtain ⟨_, hmatch, row, hrow, hpair⟩ := mem_candidates.mp mem
  rcases rotateRow_cases aes cipher a.args selected.2 random with
    skipped | ⟨ct, nonce, shape, nonempty, target, ⟨failed, _⟩ | ⟨_, _, _, rotated⟩⟩
  · rw [skipped] at raised
    cases raised
  · obtain ⟨hlength, key, hkey, failed⟩ := decrypt_invalidTag.mp failed
    refine authentic selected.1 row hrow ⟨ct, nonce, key, hpair.trans shape, ?_, nonempty, hlength,
      target, hkey, failed⟩
    rw [hpair]
    exact hmatch
  · rw [rotated] at raised
    cases raised

theorem not_rotated {pair : EncryptedPair} (bad : decrypts aes cipher pair = false)
    (random : RandomTail) (pair' : EncryptedPair) :
    rotateRow aes cipher a.args pair random ≠ .rotated pair' := by
  intro rotated
  rcases rotateRow_cases aes cipher a.args pair random with
    skipped | ⟨ct, nonce, rfl, _, _, ⟨_, raised⟩ | ⟨text, decrypted, _⟩⟩
  · rw [skipped] at rotated
    cases rotated
  · rw [raised] at rotated
    cases rotated
  · simp [decrypts, decrypted, Except.isOk, Except.toBool] at bad

/-- The rotation skips the undecryptable pairs, and treats the others as it would without
them, exactly when each pair that it attempts to decrypt is authentic. -/
theorem skips_undecryptable_iff (aes : AesGcm) (cipher : ContentCipher) (a : TableArgs)
    (nonces : Nat → RandomTail) (db : Database Rest) :
    SkipsUndecryptable aes cipher a nonces db ↔
      ∀ id row, (db.tables a.screen.1).get id = some row →
        ¬ Tampered aes cipher a (row.pairs a.screen.2) := by
  constructor
  · rintro ⟨done, good, returned, _, _⟩ id row hrow tampered
    obtain ⟨r, error, raised⟩ := rotateTable_raises nonces hrow tampered 0
    rw [returned] at raised
    cases raised
  · intro authentic
    obtain ⟨⟨writes, drawn⟩, treated⟩ := rotateRows_returns nonces
      (calm_of_authentic authentic) 0
    have passed := fun (row : Selected) (_ : row ∈ candidates (screened a.sourceVersion)
      (db.tables a.screen.1) a.screen.2 0) (bad : decrypts aes cipher row.2 = false) =>
        not_rotated (a := a) bad
    have filtered := rotateRows_filter passed treated
    rw [← candidates_without db 0] at filtered
    obtain ⟨done, returned, finished⟩ := rotateTable_returns treated
    obtain ⟨good, returnedGood, finishedGood⟩ := rotateTable_returns filtered
    refine ⟨done, good, returned, returnedGood, ?_⟩
    intro id row hrow
    split
    · next bad =>
      simp only [undecryptable, Bool.and_eq_true, Bool.not_eq_true'] at bad
      rw [finished.table]
      refine (applyWrites_get_of_not_mem fun written => ?_).trans hrow
      obtain ⟨write, mem, rfl⟩ := List.mem_map.mp (((updates_sublist writes).map Prod.fst).subset
        written)
      obtain ⟨selected, found, same, n, rotated⟩ := (rotateRows_writes treated).2 write mem
      obtain ⟨_, _, other, hother, hpair⟩ := mem_candidates.mp found
      rw [same, hrow] at hother
      cases hother
      rw [← hpair] at rotated
      exact not_rotated bad.2 _ _ rotated
    · next fine =>
      rw [finished.table, finishedGood.table]
      refine (applyWrites_get_congr _ ?_).symm
      have table : (withoutUndecryptable aes cipher a db).tables a.screen.1 =
          (db.tables a.screen.1).deleteWhere (fun _ row => undecryptable aes cipher a row) :=
        Function.update_self _ _ _
      rw [table, Table.get_deleteWhere, hrow]
      simp [fine]

end Screen

def tamperedPair : EncryptedPair := ⟨some (List.replicate 18 1), some sampleNonce1⟩

/-- Two entries of the first key; the ciphertext of the first has been overwritten. -/
def tamperedDatabase : Database Unit where
  tables := fun name =>
    if name = .entries then
      (Table.empty.put sampleId
        ⟨fun column => if column = .content then tamperedPair else ⟨none, none⟩, ()⟩).put 2
          sampleRow
    else Table.empty
  auditLog := []

def sampleTableArgs : TableArgs := ⟨1, 2, (.entries, .content), false⟩

/-- The exception leaves the first batch, so the sound entry is not rotated either. -/
theorem tampered_stops_rotation :
    ¬ SkipsUndecryptable sampleGcm sampleCipher sampleTableArgs (fun _ => sampleTail)
        tamperedDatabase ∧
      rotateTable sampleGcm sampleCipher (fun _ => sampleTail) sampleTableArgs
        tamperedDatabase 0 = some (.raised ⟨tamperedDatabase, 0, 0, 0⟩ .invalidTag) := by
  have raised : rotateTable sampleGcm sampleCipher (fun _ => sampleTail) sampleTableArgs
      tamperedDatabase 0 = some (.raised ⟨tamperedDatabase, 0, 0, 0⟩ .invalidTag) := rfl
  refine ⟨?_, raised⟩
  rintro ⟨done, _, returned, _⟩
  rw [raised] at returned
  cases returned

end KeyRotation
