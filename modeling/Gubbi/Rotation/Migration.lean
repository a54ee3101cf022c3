import Gubbi.Rotation.Selection
import Gubbi.Library.Ledger

/-!
# The rotation as a migration

Without other writers the script moves every pair of the source version to the
target version and touches nothing else. The cursor is safe although each batch
falsifies the predicate it selects by: at every SELECT no row up to `last_id`
matches any more, and inside a batch those that do are listed in it. Hence a run
may stop anywhere and be started again.
-/

namespace KeyRotation

open Text Cipher

variable {Rest : Type}

section Migration
variable (aes : AesGcm) (cipher : ContentCipher) (args : Args)

/-- The same plaintext, from the source version to the target version. -/
def Rotated (before after : EncryptedPair) : Prop :=
  whereClause args.fromVersion before = true ∧ whereClause args.toVersion after = true ∧
    ∃ ct nonce ct' nonce' text, before = ⟨some ct, some nonce⟩ ∧ after = ⟨some ct', some nonce'⟩ ∧
      decrypt aes cipher ct nonce = .ok text ∧ decrypt aes cipher ct' nonce' = .ok text

/-- Every non-NULL pair of the five screens can be decrypted. -/
def Decryptable (db : Database Rest) : Prop :=
  ∀ screen ∈ ROTATION_SCREENS, ∀ id row, (db.tables screen.1).get id = some row →
    ∀ ct nonce, row.pairs screen.2 = ⟨some ct, some nonce⟩ →
      ∃ text, decrypt aes cipher ct nonce = .ok text

/-- The same rows; a pair of a screen may have been rotated, all else is as before. -/
structure Migrated (before after : Database Rest) : Prop where
  keys : ∀ name, (after.tables name).keys = (before.tables name).keys
  rows : ∀ name id row, (before.tables name).get id = some row →
    ∃ row', (after.tables name).get id = some row' ∧ row'.rest = row.rest ∧
      ∀ column, row'.pairs column = row.pairs column ∨
        ((name, column) ∈ ROTATION_SCREENS ∧
          Rotated aes cipher args (row.pairs column) (row'.pairs column))

end Migration

/-- The versions of a rotation: known to the cipher, and two. -/
structure Versions (cipher : ContentCipher) (args : Args) : Prop where
  fromKnown : args.fromVersion ∈ cipher.knownVersions
  toKnown : args.toVersion ∈ cipher.knownVersions
  distinct : args.fromVersion ≠ args.toVersion

section Versions
variable {aes : AesGcm} {cipher : ContentCipher} {args : Args}

theorem known_lt {version : Nat} (known : version ∈ cipher.knownVersions) : version < 256 := by
  obtain ⟨row, hrow, rfl⟩ := List.mem_map.mp known
  exact version_lt (Table.get_eq_some_iff.mpr hrow)

/-- A nonce starts with one version only. -/
theorem Versions.not_both (versions : Versions cipher args) {pair : EncryptedPair}
    (source : whereClause args.fromVersion pair = true) :
    whereClause args.toVersion pair = false := by
  rw [Bool.eq_false_iff]
  intro target
  obtain ⟨_, first, _, _, hnonce, hfrom⟩ :=
    (whereClause_iff (known_lt versions.fromKnown)).mp source
  obtain ⟨_, first', _, _, hnonce', hto⟩ := (whereClause_iff (known_lt versions.toKnown)).mp target
  rw [hnonce] at hnonce'
  cases hnonce'
  exact versions.distinct (hfrom.symm.trans hto)

/-- A pair of the source version is rotated, not skipped. -/
theorem rotateRow_eq (versions : Versions cipher args) {pair : EncryptedPair}
    (source : whereClause args.fromVersion pair = true) {ct nonce : Bytes}
    (hpair : pair = ⟨some ct, some nonce⟩) {text : PyStr}
    (decrypted : decrypt aes cipher ct nonce = .ok text) (random : RandomTail) :
    ∃ pair', rotateRow aes cipher args pair random = .rotated pair' ∧
      Rotated aes cipher args pair pair' := by
  subst hpair
  obtain ⟨hct, hnonce, _⟩ := nonempty_of_decrypt decrypted
  obtain ⟨_, first, tail, _, hfirst, hfrom⟩ :=
    (whereClause_iff (known_lt versions.fromKnown)).mp source
  cases Option.some.inj hfirst
  obtain ⟨ct', hencrypted⟩ := encryptWithVersion_ok_of_decrypt decrypted versions.toKnown random
  have hto : (UInt8.ofNat args.toVersion).toNat = args.toVersion :=
    UInt8.toNat_ofNat_of_lt' (known_lt versions.toKnown)
  have hne : first.toNat ≠ args.toVersion := hfrom ▸ versions.distinct
  refine ⟨⟨some ct', some (UInt8.ofNat args.toVersion :: random.val)⟩, ?_, source, ?_, ct,
    first :: tail, ct', _, text, rfl, rfl, decrypted, decrypt_encryptWithVersion hencrypted⟩
  · simp only [rotateRow, truthy_of_ne hct, truthy_of_ne hnonce, List.headD_cons, if_neg hne,
      decrypted, hencrypted]
  · exact (whereClause_iff (known_lt versions.toKnown)).mpr ⟨ct', _, _, rfl, rfl, hto⟩

end Versions

theorem setPair_get (table : Table ℕ+ (Row Rest)) (column : Column) (write : Selected) (id : ℕ+) :
    (setPair table column write).get id =
      if id = write.1 then (table.get id).map (fun row => row.setPair column write.2)
      else table.get id :=
  Table.get_modify _ _ _ _

theorem applyWrites_keys (table : Table ℕ+ (Row Rest)) (column : Column)
    (writes : List Selected) : (applyWrites table column writes).keys = table.keys := by
  induction writes generalizing table with
  | nil => rfl
  | cons write rest ih => exact (ih _).trans (Table.keys_modify _ _ _)

theorem applyWrites_get_of_not_mem {table : Table ℕ+ (Row Rest)} {column : Column}
    {writes : List Selected} {id : ℕ+} (absent : id ∉ writes.map Prod.fst) :
    (applyWrites table column writes).get id = table.get id := by
  induction writes generalizing table with
  | nil => rfl
  | cons write rest ih =>
    simp only [List.map_cons, List.mem_cons, not_or] at absent
    exact (ih absent.2).trans ((setPair_get _ _ _ _).trans (if_neg absent.1))

theorem applyWrites_get_of_mem {table : Table ℕ+ (Row Rest)} {column : Column}
    {writes : List Selected} (once : (writes.map Prod.fst).Nodup) {write : Selected}
    (hmem : write ∈ writes) :
    (applyWrites table column writes).get write.1 =
      (table.get write.1).map (fun row => row.setPair column write.2) := by
  induction writes generalizing table with
  | nil => cases hmem
  | cons head rest ih =>
    obtain ⟨hnot, htail⟩ := List.nodup_cons.mp once
    rcases List.mem_cons.mp hmem with rfl | hrest
    · exact (applyWrites_get_of_not_mem hnot).trans ((setPair_get _ _ _ _).trans (if_pos rfl))
    · have hne : write.1 ≠ head.1 := fun h => hnot (List.mem_map.mpr ⟨write, hrest, h⟩)
      have step : (setPair table column head).get write.1 = table.get write.1 :=
        (setPair_get _ _ _ _).trans (if_neg hne)
      exact (ih htail hrest).trans (by rw [step])

theorem Row.setPair_self (row : Row Rest) (column : Column) (pair : EncryptedPair) :
    (row.setPair column pair).pairs column = pair := by
  simp [Row.setPair]

theorem Row.setPair_ne (row : Row Rest) {column other : Column} (pair : EncryptedPair)
    (hne : other ≠ column) : (row.setPair column pair).pairs other = row.pairs other := by
  simp [Row.setPair, hne]

theorem mem_selectOrdered {table : Table ℕ+ (Row Rest)} {column : Column}
    {version lastId : Nat} {selected : Selected} :
    selected ∈ selectOrdered table column version lastId ↔
      lastId < selected.1 ∧ whereClause version selected.2 = true ∧
        ∃ row, table.get selected.1 = some row ∧ row.pairs column = selected.2 :=
  mem_candidates

theorem mem_selectBatch {table : Table ℕ+ (Row Rest)} {column : Column} {version lastId : Nat}
    {selected : Selected} (hmem : selected ∈ selectBatch table column version lastId) :
    lastId < selected.1 ∧ whereClause version selected.2 = true ∧
      ∃ row, table.get selected.1 = some row ∧ row.pairs column = selected.2 :=
  mem_selectOrdered.mp (List.mem_of_mem_take hmem)

theorem selectBatch_nodup (table : Table ℕ+ (Row Rest)) (column : Column)
    (version lastId : Nat) : ((selectBatch table column version lastId).map Prod.fst).Nodup := by
  rw [selectBatch, List.map_take]
  exact List.Nodup.sublist (List.take_sublist _ _) (candidates_nodup _ _ _ _)

/-- The batch reaches up to its last row: a candidate outside it comes after. -/
theorem selectBatch_covers {table : Table ℕ+ (Row Rest)} {column : Column}
    {version lastId : Nat} {last : Selected}
    (hlast : (selectBatch table column version lastId).getLast? = some last) {id : ℕ+}
    {row : Row Rest} (hrow : table.get id = some row)
    (hmatch : whereClause version (row.pairs column) = true) (hid : lastId < id) :
    (id, row.pairs column) ∈ selectBatch table column version lastId ∨ last.1 < id := by
  have candidate : (id, row.pairs column) ∈ selectOrdered table column version lastId :=
    mem_selectOrdered.mpr ⟨hid, hmatch, row, hrow, rfl⟩
  rw [← List.take_append_drop BATCH_SIZE (selectOrdered table column version lastId)] at candidate
  rcases List.mem_append.mp candidate with inside | outside
  · exact Or.inl inside
  · rw [selectOrdered_eq, ← candidates_next hlast] at outside
    exact Or.inr (mem_candidates.mp outside).1

theorem selectBatch_le_last {table : Table ℕ+ (Row Rest)} {column : Column}
    {version lastId : Nat} {last selected : Selected}
    (hlast : (selectBatch table column version lastId).getLast? = some last)
    (hmem : selected ∈ selectBatch table column version lastId) : selected.1 ≤ last.1 := by
  have sorted : Keyset.Sorted Prod.fst (selectBatch table column version lastId) :=
    List.Pairwise.sublist (List.take_sublist _ _) (candidates_sorted _ _ _ _)
  exact sorted.le_last hlast hmem

theorem selectBatch_none {table : Table ℕ+ (Row Rest)} {column : Column} {version lastId : Nat}
    (hnone : (selectBatch table column version lastId).getLast? = none) {id : ℕ+}
    {row : Row Rest} (hrow : table.get id = some row)
    (hmatch : whereClause version (row.pairs column) = true) : ¬ lastId < id := by
  intro hid
  have candidate : (id, row.pairs column) ∈ selectOrdered table column version lastId :=
    mem_selectOrdered.mpr ⟨hid, hmatch, row, hrow, rfl⟩
  have hempty : (selectOrdered table column version lastId).take BATCH_SIZE = [] :=
    List.getLast?_eq_none_iff.mp hnone
  rcases List.take_eq_nil_iff.mp hempty with h | h
  · exact absurd h (by decide)
  · rw [h] at candidate
    cases candidate

section Invariant
variable (aes : AesGcm) (cipher : ContentCipher) (args : Args)

/-- No pair of the screen is left at the source version. -/
def Clear (db : Database Rest) (screen : Screen) : Prop :=
  ∀ id row, (db.tables screen.1).get id = some row →
    whereClause args.fromVersion (row.pairs screen.2) = false

/-- All screens but those still ahead are clear. -/
structure Ahead (db : Database Rest) (screens : List Screen) : Prop where
  within : ∀ screen ∈ screens, screen ∈ ROTATION_SCREENS
  clear : ∀ screen ∈ ROTATION_SCREENS, screen ∉ screens → Clear args db screen

/-- Before a SELECT: what still matches has a larger identifier than the cursor. -/
def Cursor (db : Database Rest) (loop : Loop) : Prop :=
  ∀ id row, (db.tables loop.screen.1).get id = some row →
    whereClause args.fromVersion (row.pairs loop.screen.2) = true → loop.lastId < id

/-- Inside a batch: the rows up to the cursor that match are written or listed. -/
structure InBatch (db : Database Rest) (loop : Loop) (batch writes : List Selected)
    (batchUpdated : Nat) : Prop where
  once : ((writes ++ batch).map Prod.fst).Nodup
  listed : ∀ id row, (db.tables loop.screen.1).get id = some row →
    whereClause args.fromVersion (row.pairs loop.screen.2) = true →
      loop.lastId < id ∨ id ∈ (writes ++ batch).map Prod.fst
  current : ∀ selected ∈ batch, whereClause args.fromVersion selected.2 = true ∧
    ∃ row, (db.tables loop.screen.1).get selected.1 = some row ∧
      row.pairs loop.screen.2 = selected.2
  written : ∀ write ∈ writes, ∃ row, (db.tables loop.screen.1).get write.1 = some row ∧
    Rotated aes cipher args (row.pairs loop.screen.2) write.2
  counted : batchUpdated = writes.length

def ScriptOk (db : Database Rest) : Option Phase → Prop
  | none => True
  | some (.count screens) => Ahead args db screens
  | some (.select loop) => Ahead args db (loop.screen :: loop.rest) ∧ Cursor args db loop
  | some (.update loop batch writes batchUpdated) =>
    Ahead args db (loop.screen :: loop.rest) ∧
      InBatch aes cipher args db loop batch writes batchUpdated

/-- How many pairs of a screen are at the source version. -/
def remainingOn (db : Database Rest) (screen : Screen) : Nat :=
  ((db.tables screen.1).keysWhere (fun _ row =>
    whereClause args.fromVersion (row.pairs screen.2))).length

def remaining (db : Database Rest) : Nat := (ROTATION_SCREENS.map (remainingOn args db)).sum

/-- The counts of the audit rows add up to the pairs that are gone from the source version. -/
def Audited (before after : Database Rest) : Prop :=
  ∃ written, after.auditLog = before.auditLog ++ written ∧
    (written.map AuditRow.count).sum + remaining args after = remaining args before

end Invariant

section Commit
variable {aes : AesGcm} {cipher : ContentCipher} {args : Args}

theorem Migrated.refl (db : Database Rest) : Migrated aes cipher args db db where
  keys := fun _ => rfl
  rows := fun _ _ row h => ⟨row, h, rfl, fun _ => Or.inl rfl⟩

theorem Migrated.trans (versions : Versions cipher args) {first second third : Database Rest}
    (one : Migrated aes cipher args first second) (two : Migrated aes cipher args second third) :
    Migrated aes cipher args first third where
  keys := fun name => (two.keys name).trans (one.keys name)
  rows := by
    intro name id row h
    obtain ⟨row', h', hrest, hpairs⟩ := one.rows name id row h
    obtain ⟨row'', h'', hrest', hpairs'⟩ := two.rows name id row' h'
    refine ⟨row'', h'', hrest'.trans hrest, ?_⟩
    intro column
    rcases hpairs column with hsame | ⟨hscreen, hrotated⟩
    · rw [← hsame]
      exact hpairs' column
    · rcases hpairs' column with hsame' | ⟨_, hrotated'⟩
      · exact Or.inr ⟨hscreen, hsame' ▸ hrotated⟩
      · -- A rotated pair is at the target version and is not rotated again.
        have hboth := versions.not_both hrotated'.1
        rw [hrotated.2.1] at hboth
        cases hboth

theorem Migrated.back {before after : Database Rest}
    (migrated : Migrated aes cipher args before after)
    {name : TableName} {id : ℕ+} {row' : Row Rest} (h : (after.tables name).get id = some row') :
    ∃ row, (before.tables name).get id = some row ∧ row'.rest = row.rest ∧
      ∀ column, row'.pairs column = row.pairs column ∨
        ((name, column) ∈ ROTATION_SCREENS ∧
          Rotated aes cipher args (row.pairs column) (row'.pairs column)) := by
  have hkey : id ∈ (before.tables name).keys := migrated.keys name ▸ Table.mem_keys.mpr ⟨row', h⟩
  obtain ⟨row, hrow⟩ := Table.mem_keys.mp hkey
  obtain ⟨row'', h'', hrest, hpairs⟩ := migrated.rows name id row hrow
  rw [h] at h''
  cases h''
  exact ⟨row, hrow, hrest, hpairs⟩

theorem Migrated.decryptable {before after : Database Rest}
    (migrated : Migrated aes cipher args before after)
    (decryptable : Decryptable aes cipher before) : Decryptable aes cipher after := by
  intro screen hscreen id row' h ct nonce hpair
  obtain ⟨row, hrow, _, hpairs⟩ := migrated.back h
  rcases hpairs screen.2 with hsame | ⟨_, _, _, _, _, _, _, text, _, hafter, _, hdecrypt⟩
  · exact decryptable screen hscreen id row hrow ct nonce (hsame ▸ hpair)
  · rw [hpair] at hafter
    cases hafter
    exact ⟨text, hdecrypt⟩

theorem Migrated.clear {before after : Database Rest}
    (migrated : Migrated aes cipher args before after) {screen : Screen}
    (clear : Clear args before screen) : Clear args after screen := by
  intro id row' h
  obtain ⟨row, hrow, _, hpairs⟩ := migrated.back h
  rcases hpairs screen.2 with hsame | ⟨_, hsource, _⟩
  · rw [hsame]
    exact clear id row hrow
  · rw [clear id row hrow] at hsource
    cases hsource

theorem Migrated.ahead {before after : Database Rest}
    (migrated : Migrated aes cipher args before after) {screens : List Screen}
    (ahead : Ahead args before screens) : Ahead args after screens :=
  ⟨ahead.within, fun screen h hnot => migrated.clear (ahead.clear screen h hnot)⟩

theorem Rotated.left_source (versions : Versions cipher args) {before after : EncryptedPair}
    (rotated : Rotated aes cipher args before after) :
    whereClause args.fromVersion after = false := by
  rw [Bool.eq_false_iff]
  intro hsource
  have hboth := versions.not_both hsource
  rw [rotated.2.1] at hboth
  cases hboth

variable {db : Database Rest} {loop : Loop} {writes : List Selected} {batchUpdated : Nat}

theorem commit_tables_ne {name : TableName} (hne : name ≠ loop.screen.1) :
    (commitBatch args db loop.screen writes batchUpdated).tables name = db.tables name :=
  Function.update_of_ne hne _ _

theorem commit_table :
    (commitBatch args db loop.screen writes batchUpdated).tables loop.screen.1 =
      applyWrites (db.tables loop.screen.1) loop.screen.2 writes :=
  Function.update_self _ _ _

theorem commit_keys (name : TableName) :
    ((commitBatch args db loop.screen writes batchUpdated).tables name).keys =
      (db.tables name).keys := by
  by_cases hname : name = loop.screen.1
  · rw [hname, commit_table, applyWrites_keys]
  · rw [commit_tables_ne hname]

/-- A row after the commit: as before, or with the written pair in place of its own. -/
theorem commit_row (batch : InBatch aes cipher args db loop [] writes batchUpdated)
    {name : TableName} {id : ℕ+} {row : Row Rest} (h : (db.tables name).get id = some row) :
    ((commitBatch args db loop.screen writes batchUpdated).tables name).get id = some row ∧
        (name = loop.screen.1 → id ∉ writes.map Prod.fst) ∨
      ∃ pair, name = loop.screen.1 ∧ (id, pair) ∈ writes ∧
        ((commitBatch args db loop.screen writes batchUpdated).tables name).get id =
          some (row.setPair loop.screen.2 pair) ∧
        Rotated aes cipher args (row.pairs loop.screen.2) pair := by
  have once : (writes.map Prod.fst).Nodup := by simpa using batch.once
  by_cases hname : name = loop.screen.1
  · subst hname
    rw [commit_table]
    by_cases hid : id ∈ writes.map Prod.fst
    · obtain ⟨write, hmem, rfl⟩ := List.mem_map.mp hid
      obtain ⟨row', hrow', hrotated⟩ := batch.written write hmem
      rw [h] at hrow'
      cases hrow'
      refine Or.inr ⟨write.2, rfl, hmem, ?_, hrotated⟩
      rw [applyWrites_get_of_mem once hmem, h]
      rfl
    · exact Or.inl ⟨(applyWrites_get_of_not_mem hid).trans h, fun _ => hid⟩
  · exact Or.inl ⟨by rw [commit_tables_ne hname, h], fun heq => False.elim (hname heq)⟩

theorem commit_migrated (batch : InBatch aes cipher args db loop [] writes batchUpdated)
    (within : loop.screen ∈ ROTATION_SCREENS) :
    Migrated aes cipher args db (commitBatch args db loop.screen writes batchUpdated) where
  keys := commit_keys
  rows := by
    intro name id row h
    rcases commit_row batch h with ⟨hsame, _⟩ | ⟨pair, rfl, _, hwritten, hrotated⟩
    · exact ⟨row, hsame, rfl, fun _ => Or.inl rfl⟩
    · refine ⟨_, hwritten, rfl, ?_⟩
      intro column
      by_cases hcolumn : column = loop.screen.2
      · subst hcolumn
        rw [Row.setPair_self]
        exact Or.inr ⟨within, hrotated⟩
      · exact Or.inl (Row.setPair_ne row pair hcolumn)

/-- The commit moves the cursor past the rows of the batch. -/
theorem commit_cursor (versions : Versions cipher args)
    (batch : InBatch aes cipher args db loop [] writes batchUpdated)
    (within : loop.screen ∈ ROTATION_SCREENS) :
    Cursor args (commitBatch args db loop.screen writes batchUpdated) loop := by
  intro id row' h' hmatch
  obtain ⟨row, h, _, _⟩ := (commit_migrated batch within).back h'
  rcases commit_row batch h with ⟨hsame, hid⟩ | ⟨pair, _, _, hwritten, hrotated⟩
  · rw [h'] at hsame
    cases hsame
    rcases batch.listed id row' h hmatch with hlast | hlisted
    · exact hlast
    · exact False.elim (hid rfl (by simpa using hlisted))
  · rw [h'] at hwritten
    cases hwritten
    rw [Row.setPair_self, hrotated.left_source versions] at hmatch
    cases hmatch

theorem remainingOn_eq (db : Database Rest) (screen : Screen) :
    remainingOn args db screen = (db.tables screen.1).keys.countP (fun id =>
      ((db.tables screen.1).get id).any (fun row =>
        whereClause args.fromVersion (row.pairs screen.2))) := by
  rw [remainingOn, Table.keysWhere_eq_filter, List.countP_eq_length_filter]

theorem commit_remaining_ne (batch : InBatch aes cipher args db loop [] writes batchUpdated)
    {screen : Screen} (hne : screen ≠ loop.screen) :
    remainingOn args (commitBatch args db loop.screen writes batchUpdated) screen =
      remainingOn args db screen := by
  rw [remainingOn_eq, remainingOn_eq, commit_keys]
  refine List.countP_congr ?_
  intro id hid
  obtain ⟨row, h⟩ := Table.mem_keys.mp hid
  rcases commit_row batch h with ⟨hsame, _⟩ | ⟨pair, hname, _, hwritten, _⟩
  · rw [hsame, h]
  · have hcolumn : screen.2 ≠ loop.screen.2 := fun heq => hne (Prod.ext hname heq)
    rw [hwritten, h, Option.any_some, Option.any_some, Row.setPair_ne row pair hcolumn]

theorem commit_remaining (versions : Versions cipher args)
    (batch : InBatch aes cipher args db loop [] writes batchUpdated) :
    remainingOn args (commitBatch args db loop.screen writes batchUpdated) loop.screen +
      writes.length = remainingOn args db loop.screen := by
  have once : (writes.map Prod.fst).Nodup := by simpa using batch.once
  have within : ∀ id ∈ writes.map Prod.fst, id ∈ (db.tables loop.screen.1).keys := by
    intro id hid
    obtain ⟨write, hmem, rfl⟩ := List.mem_map.mp hid
    obtain ⟨row, hrow, _⟩ := batch.written write hmem
    exact Table.mem_keys.mpr ⟨row, hrow⟩
  rw [← List.length_map Prod.fst, ← Ledger.countP_mem (Table.keys_nodup _) once within,
    remainingOn_eq, remainingOn_eq, commit_keys]
  refine Ledger.countP_split ?_
  intro id hid
  obtain ⟨row, h⟩ := Table.mem_keys.mp hid
  rcases commit_row batch h with ⟨hsame, hnot⟩ | ⟨pair, _, hmem, hwritten, hrotated⟩
  · simp [hsame, h, hnot rfl]
  · have hwrite : id ∈ writes.map Prod.fst := List.mem_map.mpr ⟨_, hmem, rfl⟩
    rw [hwritten, h, Option.any_some, Option.any_some, Row.setPair_self, hrotated.1,
      hrotated.left_source versions]
    simp [hwrite]

theorem commit_audited (versions : Versions cipher args)
    (batch : InBatch aes cipher args db loop [] writes batchUpdated)
    (within : loop.screen ∈ ROTATION_SCREENS) {before : Database Rest}
    (audited : Audited args before db) :
    Audited args before (commitBatch args db loop.screen writes batchUpdated) := by
  obtain ⟨written, hlog, hsum⟩ := audited
  have hgive : remaining args (commitBatch args db loop.screen writes batchUpdated) +
      writes.length = remaining args db :=
    Ledger.sum_map_give (by decide) within (fun _ _ hne => commit_remaining_ne batch hne)
      (commit_remaining versions batch)
  rw [← batch.counted] at hgive
  by_cases hzero : 0 < batchUpdated
  · refine ⟨written ++ [auditRow args loop.screen batchUpdated], ?_, ?_⟩
    · simp [commitBatch, hzero, hlog]
    · simp only [List.map_append, List.map_cons, List.map_nil, List.sum_append, List.sum_cons,
        List.sum_nil, auditRow]
      omega
  · refine ⟨written, ?_, by omega⟩
    simp [commitBatch, hzero, hlog]

end Commit

section Steps
variable {aes : AesGcm} {cipher : ContentCipher} {args : Args}

theorem clear_of_count {db : Database Rest} {screen : Screen}
    (hzero : remainingOn args db screen = 0) : Clear args db screen := by
  intro id row h
  rw [Bool.eq_false_iff]
  intro hmatch
  have hmem : id ∈ (db.tables screen.1).keysWhere (fun _ row =>
      whereClause args.fromVersion (row.pairs screen.2)) :=
    Table.mem_keysWhere.mpr ⟨row, h, hmatch⟩
  rw [List.length_eq_zero_iff.mp hzero] at hmem
  cases hmem

theorem count_of_clear {db : Database Rest} {screen : Screen} (clear : Clear args db screen) :
    remainingOn args db screen = 0 := by
  refine List.length_eq_zero_iff.mpr (List.eq_nil_iff_forall_not_mem.mpr ?_)
  intro id hmem
  obtain ⟨row, h, hmatch⟩ := Table.mem_keysWhere.mp hmem
  rw [clear id row h] at hmatch
  cases hmatch

theorem Ahead.tail {db : Database Rest} {screen : Screen} {rest : List Screen}
    (ahead : Ahead args db (screen :: rest)) (clear : Clear args db screen) :
    Ahead args db rest where
  within := fun other h => ahead.within other (List.mem_cons_of_mem _ h)
  clear := by
    intro other hother hnot
    by_cases hsame : other = screen
    · exact hsame ▸ clear
    · exact ahead.clear other hother (by simp [hsame, hnot])

theorem select_opens {db : Database Rest} {loop : Loop} (cursor : Cursor args db loop)
    {last : Selected} (hlast : (selectBatch (db.tables loop.screen.1) loop.screen.2
      args.fromVersion loop.lastId).getLast? = some last) :
    InBatch aes cipher args db { loop with lastId := last.1 }
      (selectBatch (db.tables loop.screen.1) loop.screen.2 args.fromVersion loop.lastId) [] 0 where
  once := selectBatch_nodup _ _ _ _
  listed := by
    intro id row h hmatch
    rcases selectBatch_covers hlast h hmatch (cursor id row h hmatch) with hmem | hafter
    · exact Or.inr (List.mem_map.mpr ⟨_, hmem, rfl⟩)
    · exact Or.inl hafter
  current := fun selected hmem => (mem_selectBatch hmem).2
  written := (fun _ h => by cases h)
  counted := rfl

theorem InBatch.write {db : Database Rest} {loop : Loop} {batch writes : List Selected}
    {row : Selected} {batchUpdated : Nat}
    (inBatch : InBatch aes cipher args db loop (row :: batch) writes batchUpdated)
    {pair : EncryptedPair} (rotated : Rotated aes cipher args row.2 pair) :
    InBatch aes cipher args db loop batch (writes ++ [(row.1, pair)]) (batchUpdated + 1) where
  once := by simpa using inBatch.once
  listed := by simpa using inBatch.listed
  current := fun selected hmem => inBatch.current selected (List.mem_cons_of_mem _ hmem)
  written := by
    intro write hmem
    rcases List.mem_append.mp hmem with hold | hnew
    · exact inBatch.written write hold
    · cases List.mem_singleton.mp hnew
      obtain ⟨_, stored, hstored, hpair⟩ := inBatch.current row List.mem_cons_self
      exact ⟨stored, hstored, hpair ▸ rotated⟩
  counted := by simp [inBatch.counted]

/-- An unfinished script goes on: it never raises, and either the statement
changes no row or it is the commit of a batch. -/
theorem advance_ok (versions : Versions cipher args) {db : Database Rest}
    (decryptable : Decryptable aes cipher db) {phase : Phase}
    (ok : ScriptOk aes cipher args db (some phase)) (unfinished : phase ≠ .count [])
    (random : RandomTail) :
    ∃ db' phase', advance aes cipher args db random phase = some ⟨db', some phase'⟩ ∧
      ScriptOk aes cipher args db' (some phase') ∧
      (db' = db ∨ ∃ loop writes batchUpdated, loop.screen ∈ ROTATION_SCREENS ∧
        InBatch aes cipher args db loop [] writes batchUpdated ∧
        db' = commitBatch args db loop.screen writes batchUpdated) := by
  cases phase with
  | count screens =>
    cases screens with
    | nil => exact False.elim (unfinished rfl)
    | cons screen rest =>
      have ahead : Ahead args db (screen :: rest) := ok
      by_cases hzero : remainingOn args db screen = 0
      · exact ⟨db, .count rest, by simp [advance, ← remainingOn.eq_1, hzero],
          ahead.tail (clear_of_count hzero), Or.inl rfl⟩
      · exact ⟨db, .select ⟨screen, rest, 0⟩, by simp [advance, ← remainingOn.eq_1, hzero],
          ⟨ahead, fun id _ _ _ => id.pos⟩, Or.inl rfl⟩
  | select loop =>
    obtain ⟨ahead, cursor⟩ := ok
    cases hlast : (selectBatch (db.tables loop.screen.1) loop.screen.2 args.fromVersion
      loop.lastId).getLast? with
    | none =>
      have clear : Clear args db loop.screen := by
        intro id row h
        rw [Bool.eq_false_iff]
        intro hmatch
        exact selectBatch_none hlast h hmatch (cursor id row h hmatch)
      exact ⟨db, .count loop.rest, by simp only [advance, hlast], ahead.tail clear, Or.inl rfl⟩
    | some last =>
      refine ⟨db, .update { loop with lastId := last.1 } (selectBatch (db.tables loop.screen.1)
        loop.screen.2 args.fromVersion loop.lastId) [] 0, ?_, ⟨ahead, select_opens cursor hlast⟩,
        Or.inl rfl⟩
      simp only [advance, hlast]
  | update loop batch writes batchUpdated =>
    obtain ⟨ahead, inBatch⟩ := ok
    have within := ahead.within loop.screen List.mem_cons_self
    cases batch with
    | nil =>
      refine ⟨_, _, rfl, ?_, Or.inr ⟨loop, writes, batchUpdated, within, inBatch, rfl⟩⟩
      exact ⟨(commit_migrated inBatch within).ahead ahead,
        commit_cursor versions inBatch within⟩
    | cons row batch =>
      obtain ⟨hmatch, stored, hstored, hpair⟩ := inBatch.current row List.mem_cons_self
      obtain ⟨ct, first, tail, hct, hnonce, _⟩ :=
        (whereClause_iff (known_lt versions.fromKnown)).mp hmatch
      have hrow : row.2 = ⟨some ct, some (first :: tail)⟩ := by
        cases hvalue : row.2
        simp only [hvalue] at hct hnonce
        rw [hct, hnonce]
      obtain ⟨text, hdecrypt⟩ := decryptable loop.screen within row.1 stored hstored ct
        (first :: tail) (hpair.trans hrow)
      obtain ⟨pair, houtcome, hrotated⟩ := rotateRow_eq versions hmatch hrow hdecrypt random
      refine ⟨db, .update loop batch (writes ++ [(row.1, pair)]) (batchUpdated + 1), ?_,
        ⟨ahead, inBatch.write hrotated⟩, Or.inl rfl⟩
      simp only [advance, houtcome, hstored]

/-- What holds at every point of every history of runs. -/
structure Progress (aes : AesGcm) (cipher : ContentCipher) (args : Args)
    (before : Database Rest) (w : World Rest) : Prop where
  migrated : Migrated aes cipher args before w.db
  script : ScriptOk aes cipher args w.db w.script
  audited : Audited args before w.db

theorem Progress.initial (before : Database Rest) :
    Progress aes cipher args before ⟨before, none⟩ where
  migrated := Migrated.refl before
  script := trivial
  audited := ⟨[], by simp, by simp⟩

theorem step_progress (versions : Versions cipher args) {before : Database Rest}
    (decryptable : Decryptable aes cipher before) (w : World Rest) (a : ScriptAction)
    (w' : World Rest) (progress : Progress aes cipher args before w)
    (stepped : scriptStep aes cipher args w a = some w') :
    Progress aes cipher args before w' := by
  cases a with
  | start =>
    simp only [scriptStep, versions.toKnown, if_true, Option.some.injEq] at stepped
    subst stepped
    refine ⟨progress.migrated, ⟨fun _ h => h, fun screen h hnot => False.elim (hnot h)⟩,
      progress.audited⟩
  | step random =>
    obtain ⟨phase, hphase, hadvance⟩ := Option.bind_eq_some_iff.mp stepped
    have script := progress.script
    rw [hphase] at script
    have unfinished : phase ≠ .count [] := by
      rintro rfl
      cases hadvance
    obtain ⟨db', phase', hnext, hok, heffect⟩ := advance_ok versions
      (progress.migrated.decryptable decryptable) script unfinished random
    cases hnext.symm.trans hadvance
    rcases heffect with rfl | ⟨loop, writes, batchUpdated, within, inBatch, rfl⟩
    · exact ⟨progress.migrated, hok, progress.audited⟩
    · exact ⟨progress.migrated.trans versions (commit_migrated inBatch within), hok,
        commit_audited versions inBatch within progress.audited⟩
  | crash =>
    cases stepped
    exact ⟨progress.migrated, trivial, progress.audited⟩

end Steps

section Duration

/-- The rows of a table after the cursor. -/
def rowsAfter (db : Database Rest) (name : TableName) (lastId : Nat) : Nat :=
  (db.tables name).keys.countP (fun id : ℕ+ => decide (lastId < (id : Nat)))

def workload (db : Database Rest) (screens : List Screen) : Nat :=
  (screens.map (fun screen => 2 + 3 * (db.tables screen.1).keys.length)).sum

/-- A bound on the statements that are left. -/
def duration (db : Database Rest) : Phase → Nat
  | .count screens => workload db screens
  | .select loop => 1 + 3 * rowsAfter db loop.screen.1 loop.lastId + workload db loop.rest
  | .update loop batch _ _ =>
    batch.length + 2 + 3 * rowsAfter db loop.screen.1 loop.lastId + workload db loop.rest

variable {aes : AesGcm} {cipher : ContentCipher} {args : Args}

theorem rowsAfter_le (db : Database Rest) (name : TableName) (lastId : Nat) :
    rowsAfter db name lastId ≤ (db.tables name).keys.length :=
  List.countP_le_length

theorem commit_workload (db : Database Rest) (screen : Screen) (writes : List Selected)
    (batchUpdated : Nat) (screens : List Screen) :
    workload (commitBatch args db screen writes batchUpdated) screens = workload db screens := by
  unfold workload
  refine congrArg List.sum (List.map_congr_left ?_)
  intro other _
  have hkeys := @commit_keys _ args db ⟨screen, [], 0⟩ writes batchUpdated other.1
  rw [hkeys]

/-- The rows of a batch lie between the old cursor and the new one. -/
theorem batch_rowsAfter {db : Database Rest} {loop : Loop} {version : Nat} {last : Selected}
    (hlast : (selectBatch (db.tables loop.screen.1) loop.screen.2 version
      loop.lastId).getLast? = some last) :
    (selectBatch (db.tables loop.screen.1) loop.screen.2 version loop.lastId).length +
      rowsAfter db loop.screen.1 last.1 ≤ rowsAfter db loop.screen.1 loop.lastId := by
  have once := selectBatch_nodup (db.tables loop.screen.1) loop.screen.2 version loop.lastId
  have candidates : ∀ selected ∈
      selectBatch (db.tables loop.screen.1) loop.screen.2 version loop.lastId,
      loop.lastId < selected.1 ∧ selected.1 ≤ last.1 ∧
        selected.1 ∈ (db.tables loop.screen.1).keys := by
    intro selected hmem
    obtain ⟨hafter, _, row, hrow, _⟩ := mem_selectBatch hmem
    refine ⟨hafter, ?_, Table.mem_keys.mpr ⟨row, hrow⟩⟩
    exact selectBatch_le_last hlast hmem
  have within : ∀ id ∈ (selectBatch (db.tables loop.screen.1) loop.screen.2 version
      loop.lastId).map Prod.fst, id ∈ (db.tables loop.screen.1).keys := by
    intro id hid
    obtain ⟨selected, hmem, rfl⟩ := List.mem_map.mp hid
    exact (candidates selected hmem).2.2
  have hlastAfter := (candidates last (List.mem_of_getLast? hlast)).1
  let listed (id : ℕ+) : Bool := decide (id ∈ (selectBatch (db.tables loop.screen.1)
    loop.screen.2 version loop.lastId).map Prod.fst)
  let later (id : ℕ+) : Bool := decide ((last.1 : Nat) < (id : Nat))
  have split : (db.tables loop.screen.1).keys.countP listed +
      (db.tables loop.screen.1).keys.countP later =
      (db.tables loop.screen.1).keys.countP (fun id => listed id || later id) := by
    refine Ledger.countP_split ?_
    intro id _
    refine ⟨rfl, Bool.and_eq_false_iff.mpr ?_⟩
    by_cases hmem : id ∈ (selectBatch (db.tables loop.screen.1) loop.screen.2 version
        loop.lastId).map Prod.fst
    · obtain ⟨selected, hselected, rfl⟩ := List.mem_map.mp hmem
      exact Or.inr (decide_eq_false (not_lt.mpr (candidates selected hselected).2.1))
    · exact Or.inl (decide_eq_false hmem)
  rw [← List.length_map Prod.fst, ← Ledger.countP_mem (Table.keys_nodup _) once within]
  refine (le_of_eq split).trans (List.countP_mono_left ?_)
  intro id _ h
  rcases Bool.or_eq_true_iff.mp h with h | h
  · obtain ⟨selected, hmem, rfl⟩ := List.mem_map.mp (of_decide_eq_true h)
    exact decide_eq_true (candidates selected hmem).1
  · exact decide_eq_true (hlastAfter.trans (of_decide_eq_true h))

theorem advance_shortens {db db' : Database Rest} {random : RandomTail} {phase phase' : Phase}
    (h : advance aes cipher args db random phase = some ⟨db', some phase'⟩) :
    duration db' phase' < duration db phase := by
  cases phase with
  | count screens =>
    cases screens with
    | nil => cases h
    | cons screen rest =>
      have hle := rowsAfter_le db screen.1 0
      simp only [advance] at h
      split at h
      · cases h
        simp only [duration, workload, List.map_cons, List.sum_cons]
        omega
      · cases h
        simp only [duration, workload, List.map_cons, List.sum_cons]
        omega
  | select loop =>
    simp only [advance] at h
    split at h
    · cases h
      simp only [duration]
      omega
    · next last hlast =>
      cases h
      have hle := batch_rowsAfter hlast
      have hpos : 0 < (selectBatch (db.tables loop.screen.1) loop.screen.2 args.fromVersion
          loop.lastId).length := List.length_pos_of_mem (List.mem_of_getLast? hlast)
      simp only [duration]
      omega
  | update loop batch writes batchUpdated =>
    cases batch with
    | nil =>
      cases h
      have hkeys : rowsAfter (commitBatch args db loop.screen writes batchUpdated) loop.screen.1
          loop.lastId = rowsAfter db loop.screen.1 loop.lastId := by
        rw [rowsAfter, rowsAfter, commit_keys]
      simp only [duration, hkeys, commit_workload, List.length_nil]
      omega
    | cons row batch =>
      simp only [advance] at h
      split at h
      · cases h
        simp only [duration, List.length_cons]
        omega
      · cases h
      · cases h
        simp only [duration, List.length_cons]
        omega

/-- A running script finishes within its duration, whatever is drawn at random. -/
theorem run_finishes (versions : Versions cipher args) {before : Database Rest}
    (decryptable : Decryptable aes cipher before) (randoms : List RandomTail) {w : World Rest}
    (progress : Progress aes cipher args before w) {phase : Phase} (running : w.script = some phase)
    (enough : duration w.db phase ≤ randoms.length) :
    ∃ k w', Replay.run (scriptStep aes cipher args) w ((randoms.take k).map .step) = some w' ∧
      w'.script = some (.count []) := by
  induction randoms generalizing w phase with
  | nil =>
    refine ⟨0, w, rfl, ?_⟩
    rw [running]
    cases phase with
    | count screens =>
      cases screens with
      | nil => rfl
      | cons screen rest =>
        simp only [duration, workload, List.map_cons, List.sum_cons, List.length_nil] at enough
        omega
    | select loop => simp only [duration, List.length_nil] at enough; omega
    | update loop batch writes batchUpdated =>
      simp only [duration, List.length_nil] at enough
      omega
  | cons random randoms ih =>
    by_cases hfinished : phase = .count []
    · exact ⟨0, w, rfl, by rw [running, hfinished]⟩
    · have script := progress.script
      rw [running] at script
      obtain ⟨db', phase', hnext, _, _⟩ := advance_ok versions
        (progress.migrated.decryptable decryptable) script hfinished random
      have stepped : scriptStep aes cipher args w (.step random) = some ⟨db', some phase'⟩ := by
        simp only [scriptStep, running, Option.bind_some, hnext]
      have shorter := advance_shortens hnext
      have progress' := step_progress versions decryptable _ _ _ progress stepped
      rw [List.length_cons] at enough
      obtain ⟨k, w', hran, hdone⟩ := ih progress' rfl
        (show duration db' phase' ≤ randoms.length by omega)
      refine ⟨k + 1, w', ?_, hdone⟩
      rw [List.take_succ_cons, List.map_cons]
      exact Replay.run_cons.mpr ⟨_, stepped, hran⟩

end Duration

section Main
variable {aes : AesGcm} {cipher : ContentCipher} {args : Args}

/-- After a completed run nothing happens any more: further runs only count. -/
theorem finished_stays {w w' : World Rest} (finished : w.script = some (.count []))
    (clear : ∀ screen ∈ ROTATION_SCREENS, Clear args w.db screen) {acts : List ScriptAction}
    (ran : Replay.run (scriptStep aes cipher args) w acts = some w') : w'.db = w.db := by
  generalize hdb : w.db = db at clear ⊢
  have keeps : ∀ (w : World Rest) (a : ScriptAction) (w' : World Rest),
      (w.db = db ∧ ∀ phase, w.script = some phase →
        ∃ screens, phase = .count screens ∧ ∀ screen ∈ screens, screen ∈ ROTATION_SCREENS) →
      scriptStep aes cipher args w a = some w' →
      (w'.db = db ∧ ∀ phase, w'.script = some phase →
        ∃ screens, phase = .count screens ∧ ∀ screen ∈ screens, screen ∈ ROTATION_SCREENS) := by
    rintro w a w' ⟨hdb, hcounting⟩ stepped
    cases a with
    | start =>
      simp only [scriptStep] at stepped
      split at stepped
      · cases stepped
        refine ⟨hdb, ?_⟩
        rintro _ ⟨⟩
        exact ⟨_, rfl, fun _ h => h⟩
      · cases stepped
    | step random =>
      obtain ⟨phase, hphase, hadvance⟩ := Option.bind_eq_some_iff.mp stepped
      obtain ⟨screens, rfl, hwithin⟩ := hcounting phase hphase
      cases screens with
      | nil => cases hadvance
      | cons screen rest =>
        have hzero := count_of_clear (clear screen (hwithin screen List.mem_cons_self))
        rw [hdb] at hadvance
        simp only [advance, ← remainingOn.eq_1, hzero, if_true, Option.some.injEq] at hadvance
        subst hadvance
        refine ⟨rfl, ?_⟩
        rintro _ ⟨⟩
        exact ⟨rest, rfl, fun other h => hwithin other (List.mem_cons_of_mem _ h)⟩
    | crash =>
      cases stepped
      exact ⟨hdb, fun _ h => by cases h⟩
  have counting : ∀ phase, w.script = some phase →
      ∃ screens, phase = .count screens ∧ ∀ screen ∈ screens, screen ∈ ROTATION_SCREENS := by
    intro phase hphase
    rw [finished] at hphase
    cases hphase
    exact ⟨[], rfl, fun _ h => by cases h⟩
  exact (Replay.run_invariant' keeps ⟨hdb, counting⟩ ran).1

/-- The pair of the row is at the version. -/
def atVersion (db : Database Rest) (screen : Screen) (version : Nat) (id : ℕ+) : Bool :=
  ((db.tables screen.1).get id).any (fun row => whereClause version (row.pairs screen.2))

/-- How many pairs of the screen went from the source version to the target version. -/
def rotatedOn (args : Args) (before after : Database Rest) (screen : Screen) : Nat :=
  (before.tables screen.1).keys.countP (fun id =>
    atVersion before screen args.fromVersion id && atVersion after screen args.toVersion id)

def rotated (args : Args) (before after : Database Rest) : Nat :=
  (ROTATION_SCREENS.map (rotatedOn args before after)).sum

theorem Migrated.rotatedOn (versions : Versions cipher args) {before after : Database Rest}
    (migrated : Migrated aes cipher args before after) (screen : Screen) :
    rotatedOn args before after screen + remainingOn args after screen =
      remainingOn args before screen := by
  rw [remainingOn_eq, remainingOn_eq, migrated.keys]
  refine Ledger.countP_split ?_
  intro id hid
  obtain ⟨row, hrow⟩ := Table.mem_keys.mp hid
  obtain ⟨row', hrow', _, hpairs⟩ := migrated.rows screen.1 id row hrow
  simp only [atVersion, hrow, hrow', Option.any_some]
  rcases hpairs screen.2 with hsame | ⟨_, hrotated⟩
  · rw [hsame]
    cases hsource : whereClause args.fromVersion (row.pairs screen.2) with
    | true => simp [versions.not_both hsource]
    | false => simp
  · simp [hrotated.1, hrotated.2.1, hrotated.left_source versions]

theorem Migrated.rotated (versions : Versions cipher args) {before after : Database Rest}
    (migrated : Migrated aes cipher args before after) :
    rotated args before after + remaining args after = remaining args before := by
  have split := fun screen => migrated.rotatedOn versions screen
  simp only [KeyRotation.rotated, remaining, ← List.sum_map_add, split]

/-- The rotation is a restartable migration that preserves every plaintext. At
every point of every history of runs and interruptions, pairs of the source
version are as before or rotated with their plaintext, everything else is as
before, and the audit counts add up to the pairs rotated. A completed run has
rotated all of them, no later run changes anything, and a run that is let be
completes. -/
theorem rotation_migrates (versions : Versions cipher args) {before : Database Rest}
    (decryptable : Decryptable aes cipher before) {acts : List ScriptAction} {w : World Rest}
    (ran : Replay.run (scriptStep aes cipher args) ⟨before, none⟩ acts = some w) :
    Migrated aes cipher args before w.db ∧
    (∃ written, w.db.auditLog = before.auditLog ++ written ∧
      (written.map AuditRow.count).sum = rotated args before w.db) ∧
    (w.script = some (.count []) →
      (∀ screen ∈ ROTATION_SCREENS, ∀ id row, (before.tables screen.1).get id = some row →
        whereClause args.fromVersion (row.pairs screen.2) = true →
        ∃ row', (w.db.tables screen.1).get id = some row' ∧
          Rotated aes cipher args (row.pairs screen.2) (row'.pairs screen.2)) ∧
      ∀ acts' w', Replay.run (scriptStep aes cipher args) w acts' = some w' → w'.db = w.db) ∧
    (∀ phase, w.script = some phase → ∀ randoms : List RandomTail,
      duration w.db phase ≤ randoms.length →
      ∃ k w', Replay.run (scriptStep aes cipher args) w ((randoms.take k).map .step) = some w' ∧
        w'.script = some (.count [])) := by
  have progress : Progress aes cipher args before w :=
    Replay.run_invariant' (step_progress versions decryptable) (Progress.initial before) ran
  refine ⟨progress.migrated, ?_, ?_, ?_⟩
  · obtain ⟨written, hlog, hsum⟩ := progress.audited
    have hrotated := progress.migrated.rotated versions
    exact ⟨written, hlog, by omega⟩
  · intro finished
    have ahead : Ahead args w.db [] := by
      have script := progress.script
      rw [finished] at script
      exact script
    have clear : ∀ screen ∈ ROTATION_SCREENS, Clear args w.db screen :=
      fun screen h => ahead.clear screen h (fun h => by cases h)
    refine ⟨?_, ?_⟩
    · intro screen hscreen id row hrow hsource
      obtain ⟨row', hrow', _, hpairs⟩ := progress.migrated.rows screen.1 id row hrow
      refine ⟨row', hrow', ?_⟩
      rcases hpairs screen.2 with hsame | ⟨_, hrotated⟩
      · have hclear := clear screen hscreen id row' hrow'
        rw [hsame, hsource] at hclear
        cases hclear
      · exact hrotated
    · intro acts' w' hran
      exact finished_stays finished clear hran
  · intro phase running randoms enough
    exact run_finishes versions decryptable randoms progress running enough

end Main

def sampleArgs : Args := ⟨1, 2⟩

theorem sample_versions : Versions sampleCipher sampleArgs :=
  ⟨by decide, by decide, by decide⟩

def samplePair : EncryptedPair := ⟨some sampleCiphertext1, some sampleNonce1⟩

def sampleRow : Row Unit where
  pairs := fun column => if column = .content then samplePair else ⟨none, none⟩
  rest := ()

/-- One entry, encrypted under the first key. -/
def sampleDatabase : Database Unit where
  tables := fun name => if name = .entries then Table.empty.put sampleId sampleRow else Table.empty
  auditLog := []

theorem sample_decryptable : Decryptable sampleGcm sampleCipher sampleDatabase := by
  intro screen _ id row h ct nonce hpair
  simp only [sampleDatabase] at h
  split at h
  · rcases Table.get_put_eq_some h with ⟨_, rfl⟩ | ⟨_, h⟩
    · simp only [sampleRow] at hpair
      split at hpair
      · cases hpair
        exact ⟨_, sample_decrypt⟩
      · cases hpair
    · cases h
  · cases h

theorem rotation_migrates_sample : ∃ acts w,
    Replay.run (scriptStep sampleGcm sampleCipher sampleArgs) ⟨sampleDatabase, none⟩ acts =
      some w ∧
    ∃ row', (w.db.tables .entries).get 1 = some row' ∧
      Rotated sampleGcm sampleCipher sampleArgs samplePair (row'.pairs .content) := by
  obtain ⟨_, _, _, ends⟩ := @rotation_migrates _ _ _ _ sample_versions sampleDatabase
    sample_decryptable [.start] _ rfl
  obtain ⟨k, w, hran, hdone⟩ := ends _ rfl (List.replicate
    (duration sampleDatabase (.count ROTATION_SCREENS)) sampleTail)
    (by rw [List.length_replicate])
  have started : Replay.run (scriptStep sampleGcm sampleCipher sampleArgs)
      ⟨sampleDatabase, none⟩ [.start] = some ⟨sampleDatabase, some (.count ROTATION_SCREENS)⟩ :=
    rfl
  have ran := Replay.run_append.mpr ⟨_, started, hran⟩
  obtain ⟨_, _, completed, _⟩ := rotation_migrates sample_versions sample_decryptable ran
  exact ⟨_, w, ran, (completed hdone).1 (.entries, .content) (by decide) 1 sampleRow rfl
    (by decide)⟩

end KeyRotation
