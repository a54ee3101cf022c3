import Gubbi.Rotation.Script

/-!
# The rotation next to a running application

The batch is read in one connection and written back in a later transaction, by
identifier alone. An application write that commits in between is overwritten
with the plaintext of the earlier version. As long as each UPDATE finds the pair
that its SELECT read, every pair decrypts to what the application wrote last.

`written` records the last text the application wrote to each column; it is not
part of the program.
-/

namespace KeyRotation

open Text Cipher

variable {Rest : Type}

/-- A column of an application statement: a text to encrypt, or NULL. -/
structure Change where
  column : Column
  text : Option (PyStr × RandomTail)

/-- Committed statements of the application. Its active key version is its own
and need not be that of the script. -/
inductive AppAction (Rest : Type)
  | insert (name : TableName) (id : ℕ+) (version : Nat) (changes : List Change) (rest : Rest)
  | update (name : TableName) (id : ℕ+) (version : Nat) (changes : List Change)
      (rest : Rest → Rest)
  | delete (name : TableName) (id : ℕ+)

inductive Action (Rest : Type)
  | script (action : ScriptAction)
  | app (action : AppAction Rest)

abbrev Texts := TableName → ℕ+ → Column → Option PyStr

structure Shared (Rest : Type) where
  world : World Rest
  written : Texts

def emptyShared : Shared Rest where
  world := ⟨⟨fun _ => Table.empty, []⟩, none⟩
  written := fun _ _ _ => none

/-- The row is locked by an UPDATE of the open transaction of the script. -/
def locked (w : World Rest) (name : TableName) (id : ℕ+) : Bool :=
  match w.script with
  | some (.update loop _ writes _) => decide (loop.screen.1 = name ∧ id ∈ writes.map Prod.fst)
  | _ => false

def setTable (tables : TableName → Table ℕ+ (Row Rest)) (name : TableName)
    (table : Table ℕ+ (Row Rest)) : TableName → Table ℕ+ (Row Rest) :=
  Function.update tables name table

def setWritten (written : Texts) (name : TableName) (id : ℕ+) (texts : Column → Option PyStr) :
    Texts :=
  fun name' id' => if name' = name ∧ id' = id then texts else written name' id'

section Application
variable (aes : AesGcm) (cipher : ContentCipher)

/-- The column pair of a change; a text that cannot be encrypted fails the statement. -/
def encryptChange (version : Nat) (change : Change) : Option EncryptedPair :=
  match change.text with
  | none => some ⟨none, none⟩
  | some (text, random) =>
    match encryptWithVersion aes cipher text version random with
    | .ok (ct, nonce) => some ⟨some ct, some nonce⟩
    | .error _ => none

def applyChanges (version : Nat) (changes : List Change) (row : Row Rest) : Option (Row Rest) :=
  changes.foldlM (fun row change =>
    (encryptChange aes cipher version change).map (row.setPair change.column)) row

def changedTexts (changes : List Change) (texts : Column → Option PyStr) :
    Column → Option PyStr :=
  changes.foldl (fun texts change =>
    Function.update texts change.column (change.text.map Prod.fst)) texts

/-- The state after the row was written. -/
def putRow (s : Shared Rest) (name : TableName) (id : ℕ+) (texts : Column → Option PyStr)
    (row : Row Rest) : Shared Rest where
  world := { s.world with db := { s.world.db with
    tables := setTable s.world.db.tables name ((s.world.db.tables name).put id row) } }
  written := setWritten s.written name id texts

def appStep (s : Shared Rest) : AppAction Rest → Option (Shared Rest)
  | .insert name id version changes rest =>
    match (s.world.db.tables name).get id with
    | some _ => none
    | none =>
      -- A row that the script has locked is there, so its identifier is not free.
      if locked s.world name id then none
      else (applyChanges aes cipher version changes ⟨fun _ => ⟨none, none⟩, rest⟩).map
        (putRow s name id (changedTexts changes (fun _ => none)))
  | .update name id version changes rest =>
    if locked s.world name id then none
    else
      match (s.world.db.tables name).get id with
      | none => none
      | some row =>
        (applyChanges aes cipher version changes { row with rest := rest row.rest }).map
          (putRow s name id (changedTexts changes (s.written name id)))
  | .delete name id =>
    if locked s.world name id then none
    else some { s with world := { s.world with db := { s.world.db with
      tables := setTable s.world.db.tables name ((s.world.db.tables name).erase id) } } }

def sharedStep (args : Args) (s : Shared Rest) : Action Rest → Option (Shared Rest)
  | .script action =>
    (scriptStep aes cipher args s.world action).map (fun w => { s with world := w })
  | .app action => appStep aes cipher s action

/-- The pair reads as the text, or as no value. -/
def Reads (pair : EncryptedPair) (text : Option PyStr) : Prop :=
  decryptContentField aes cipher pair.encrypted pair.nonce = .ok text

end Application

/-- The row of the next UPDATE still has the pair the batch SELECT read, or has gone. -/
def readStillCurrent (s : Shared Rest) : Action Rest → Bool
  | .script (.step _) =>
    match s.world.script with
    | some (.update loop (selected :: _) _ _) =>
      match (s.world.db.tables loop.screen.1).get selected.1 with
      | none => true
      | some row => decide (row.pairs loop.screen.2 = selected.2)
    | _ => true
  | _ => true

section Invariant
variable {aes : AesGcm} {cipher : ContentCipher} {args : Args}

/-- Every column reads as written last. -/
def AllRead (aes : AesGcm) (cipher : ContentCipher)
    (tables : TableName → Table ℕ+ (Row Rest)) (written : Texts) : Prop :=
  ∀ name id row, (tables name).get id = some row → ∀ column,
    Reads aes cipher (row.pairs column) (written name id column)

/-- So do the uncommitted writes of the script. -/
def PendingRead (aes : AesGcm) (cipher : ContentCipher) (script : Option Phase)
    (written : Texts) : Prop :=
  ∀ loop batch writes batchUpdated, script = some (.update loop batch writes batchUpdated) →
    ∀ write ∈ writes, Reads aes cipher write.2 (written loop.screen.1 write.1 loop.screen.2)

structure Faithful (aes : AesGcm) (cipher : ContentCipher) (s : Shared Rest) : Prop where
  stored : AllRead aes cipher s.world.db.tables s.written
  pending : PendingRead aes cipher s.world.script s.written

theorem reads_encryptChange {version : Nat} {change : Change} {pair : EncryptedPair}
    (h : encryptChange aes cipher version change = some pair) :
    Reads aes cipher pair (change.text.map Prod.fst) := by
  unfold encryptChange at h
  split at h
  · next htext =>
    cases h
    simp [Reads, decryptContentField, htext]
  · next text random htext =>
    split at h
    · next ct nonce hencrypted =>
      cases h
      rw [htext]
      exact decryptContentField_some.mpr ⟨text, rfl, decrypt_encryptWithVersion hencrypted⟩
    · cases h

theorem reads_setPair {row : Row Rest} {texts : Column → Option PyStr}
    (reads : ∀ column, Reads aes cipher (row.pairs column) (texts column)) (column : Column)
    {pair : EncryptedPair} {text : Option PyStr} (h : Reads aes cipher pair text) :
    ∀ other, Reads aes cipher ((row.setPair column pair).pairs other)
      (Function.update texts column text other) := by
  intro other
  by_cases hother : other = column
  · subst hother
    simpa [Row.setPair] using h
  · simpa [Row.setPair, hother] using reads other

theorem reads_applyChanges {version : Nat} {changes : List Change} {row row' : Row Rest}
    {texts : Column → Option PyStr}
    (reads : ∀ column, Reads aes cipher (row.pairs column) (texts column))
    (h : applyChanges aes cipher version changes row = some row') :
    ∀ column, Reads aes cipher (row'.pairs column) (changedTexts changes texts column) := by
  induction changes generalizing row texts with
  | nil =>
    cases h
    exact reads
  | cons change rest ih =>
    rw [applyChanges, List.foldlM_cons, Option.bind_eq_bind, Option.bind_eq_some_iff] at h
    obtain ⟨next, hnext, hrest⟩ := h
    obtain ⟨pair, hpair, rfl⟩ := Option.map_eq_some_iff.mp hnext
    exact ih (reads_setPair reads change.column (reads_encryptChange hpair)) hrest

/-- Replacing one row together with what was written to it. -/
theorem AllRead.put {tables : TableName → Table ℕ+ (Row Rest)} {written : Texts}
    (all : AllRead aes cipher tables written) (name : TableName) (id : ℕ+) {row : Row Rest}
    {texts : Column → Option PyStr}
    (reads : ∀ column, Reads aes cipher (row.pairs column) (texts column)) :
    AllRead aes cipher (setTable tables name ((tables name).put id row))
      (setWritten written name id texts) := by
  intro name' id' row' h column
  by_cases hname : name' = name
  · subst hname
    rw [setTable, Function.update_self] at h
    rcases Table.get_put_eq_some h with ⟨rfl, rfl⟩ | ⟨hne, hold⟩
    · simpa [setWritten] using reads column
    · simpa [setWritten, hne] using all name' id' row' hold column
  · rw [setTable, Function.update_of_ne hname] at h
    simpa [setWritten, hname] using all name' id' row' h column

theorem AllRead.erase {tables : TableName → Table ℕ+ (Row Rest)} {written : Texts}
    (all : AllRead aes cipher tables written) (name : TableName) (id : ℕ+) :
    AllRead aes cipher (setTable tables name ((tables name).erase id)) written := by
  intro name' id' row' h
  by_cases hname : name' = name
  · subst hname
    rw [setTable, Function.update_self] at h
    exact all name' id' row' (Table.get_erase_eq_some h).2
  · rw [setTable, Function.update_of_ne hname] at h
    exact all name' id' row' h

/-- A committed write that reads as written keeps everything read as written. -/
theorem AllRead.applyWrites {tables : TableName → Table ℕ+ (Row Rest)} {written : Texts}
    (all : AllRead aes cipher tables written) {screen : Screen} {writes : List Selected}
    (reads : ∀ write ∈ writes,
      Reads aes cipher write.2 (written screen.1 write.1 screen.2)) :
    AllRead aes cipher (Function.update tables screen.1
      (applyWrites (tables screen.1) screen.2 writes)) written := by
  have one : ∀ (table : Table ℕ+ (Row Rest)) (write : Selected),
      (∀ id row, table.get id = some row → ∀ column,
        Reads aes cipher (row.pairs column) (written screen.1 id column)) →
      Reads aes cipher write.2 (written screen.1 write.1 screen.2) →
      ∀ id row, (setPair table screen.2 write).get id = some row → ∀ column,
        Reads aes cipher (row.pairs column) (written screen.1 id column) := by
    intro table write htable hwrite id row h column
    have hget := Table.get_modify table write.1 id (fun row => row.setPair screen.2 write.2)
    rw [setPair, hget] at h
    split at h
    · next hid =>
      obtain ⟨old, hold, rfl⟩ := Option.map_eq_some_iff.mp h
      subst hid
      have hreads := reads_setPair (htable write.1 old hold) screen.2 hwrite column
      rwa [Function.update_eq_self] at hreads
    · exact htable id row h column
  have many : ∀ (table : Table ℕ+ (Row Rest)),
      (∀ id row, table.get id = some row → ∀ column,
        Reads aes cipher (row.pairs column) (written screen.1 id column)) →
      ∀ id row, (KeyRotation.applyWrites table screen.2 writes).get id = some row → ∀ column,
        Reads aes cipher (row.pairs column) (written screen.1 id column) := by
    induction writes with
    | nil => exact fun _ h => h
    | cons write rest ih =>
      intro table htable
      exact ih (fun other h => reads other (List.mem_cons_of_mem _ h)) _
        (one table write htable (reads write List.mem_cons_self))
  intro name id row h
  by_cases hname : name = screen.1
  · subst hname
    rw [Function.update_self] at h
    exact many _ (all screen.1) id row h
  · rw [Function.update_of_ne hname] at h
    exact all name id row h

/-- What the script writes back for a row is the plaintext it has read. -/
theorem rotateRow_reads {pair pair' : EncryptedPair} {random : RandomTail}
    {text : Option PyStr} (h : rotateRow aes cipher args pair random = .rotated pair')
    (reads : Reads aes cipher pair text) : Reads aes cipher pair' text := by
  unfold rotateRow at h
  split at h
  · next ct nonce hct hnonce =>
    have hct' : pair.encrypted = some ct := by
      unfold truthy at hct
      split at hct
      · cases hct
      · exact hct
    have hnonce' : pair.nonce = some nonce := by
      unfold truthy at hnonce
      split at hnonce
      · cases hnonce
      · exact hnonce
    rw [Reads, hct', hnonce'] at reads
    obtain ⟨plaintext, rfl, hdecrypted⟩ := decryptContentField_some.mp reads
    rw [hdecrypted] at h
    split at h
    · cases h
    · simp only at h
      split at h
      · split at h <;> cases h
      · next newCt newNonce hencrypted =>
        cases h
        exact decryptContentField_some.mpr
          ⟨plaintext, rfl, decrypt_encryptWithVersion hencrypted⟩
  · cases h

theorem Faithful.script {s : Shared Rest} (inv : Faithful aes cipher s) {script : Option Phase}
    (idle : ∀ loop batch writes batchUpdated,
      script = some (.update loop batch writes batchUpdated) → writes = []) :
    Faithful aes cipher { s with world := ⟨s.world.db, script⟩ } where
  stored := inv.stored
  pending := by
    intro loop batch writes batchUpdated h write hmem
    rw [idle loop batch writes batchUpdated h] at hmem
    cases hmem

theorem Faithful.advance {s : Shared Rest} (inv : Faithful aes cipher s) {random : RandomTail}
    {phase : Phase} (running : s.world.script = some phase)
    (guard : readStillCurrent s (.script (.step random)) = true) {w : World Rest}
    (h : advance aes cipher args s.world.db random phase = some w) :
    Faithful aes cipher { s with world := w } := by
  cases phase with
  | count screens =>
    cases screens with
    | nil => cases h
    | cons screen rest =>
      simp only [KeyRotation.advance] at h
      split at h
      · cases h
        exact inv.script (fun _ _ _ _ h => by cases h)
      · cases h
        exact inv.script (fun _ _ _ _ h => by cases h)
  | select loop =>
    simp only [KeyRotation.advance] at h
    split at h
    · cases h
      exact inv.script (fun _ _ _ _ h => by cases h)
    · cases h
      refine inv.script ?_
      rintro _ _ _ _ ⟨⟩
      rfl
  | update loop batch writes batchUpdated =>
    have pending := inv.pending loop batch writes batchUpdated running
    cases batch with
    | nil =>
      cases h
      exact ⟨inv.stored.applyWrites pending, fun _ _ _ _ h => by cases h⟩
    | cons selected batch =>
      simp only [KeyRotation.advance] at h
      split at h
      · cases h
        refine ⟨inv.stored, ?_⟩
        rintro _ _ _ _ ⟨⟩
        exact pending
      · cases h
        exact inv.script (fun _ _ _ _ h => by cases h)
      · next pair hrotated =>
        cases h
        refine ⟨inv.stored, ?_⟩
        rintro _ _ _ _ ⟨⟩ write hmem
        split at hmem
        · exact pending write hmem
        · next row hrow =>
          rcases List.mem_append.mp hmem with hold | hnew
          · exact pending write hold
          · -- The pair that was read is still the pair of the row.
            cases List.mem_singleton.mp hnew
            simp only [readStillCurrent, running, hrow, decide_eq_true_eq] at guard
            have reads := inv.stored loop.screen.1 selected.1 row hrow loop.screen.2
            rw [guard] at reads
            exact rotateRow_reads hrotated reads

/-- An application write to an unlocked row leaves the pending writes of the script. -/
theorem PendingRead.setWritten {s : Shared Rest} (inv : Faithful aes cipher s) {name : TableName}
    {id : ℕ+} (unlocked : locked s.world name id = false) (texts : Column → Option PyStr) :
    PendingRead aes cipher s.world.script (setWritten s.written name id texts) := by
  intro loop batch writes batchUpdated running write hmem
  have hother : ¬ (loop.screen.1 = name ∧ write.1 = id) := by
    rintro ⟨hname, rfl⟩
    have hwrite : write.1 ∈ writes.map Prod.fst := List.mem_map.mpr ⟨write, hmem, rfl⟩
    simp [locked, running, hname, hwrite] at unlocked
  simpa [KeyRotation.setWritten, hother] using
    inv.pending loop batch writes batchUpdated running write hmem

theorem Faithful.putRow {s : Shared Rest} (inv : Faithful aes cipher s) {name : TableName}
    {id : ℕ+} (unlocked : locked s.world name id = false) {texts : Column → Option PyStr}
    {row : Row Rest} (reads : ∀ column, Reads aes cipher (row.pairs column) (texts column)) :
    Faithful aes cipher (putRow s name id texts row) :=
  ⟨inv.stored.put name id reads, PendingRead.setWritten inv unlocked texts⟩

theorem appStep_faithful {s t : Shared Rest} {a : AppAction Rest} (inv : Faithful aes cipher s)
    (stepped : appStep aes cipher s a = some t) : Faithful aes cipher t := by
  cases a with
  | insert name id version changes rest =>
    simp only [appStep] at stepped
    split at stepped
    · cases stepped
    · split at stepped
      · cases stepped
      · next unlocked =>
        obtain ⟨row, hrow, rfl⟩ := Option.map_eq_some_iff.mp stepped
        refine inv.putRow (by simpa using unlocked) (reads_applyChanges ?_ hrow)
        exact fun _ => rfl
  | update name id version changes rest =>
    simp only [appStep] at stepped
    split at stepped
    · cases stepped
    · next unlocked =>
      split at stepped
      · cases stepped
      · next row hrow =>
        obtain ⟨row', hrow', rfl⟩ := Option.map_eq_some_iff.mp stepped
        refine inv.putRow (by simpa using unlocked) (reads_applyChanges ?_ hrow')
        exact inv.stored name id row hrow
  | delete name id =>
    simp only [appStep] at stepped
    split at stepped
    · cases stepped
    · cases stepped
      exact ⟨inv.stored.erase name id, inv.pending⟩

theorem step_faithful (s : Shared Rest) (a : Action Rest) (t : Shared Rest)
    (inv : Faithful aes cipher s) (guard : readStillCurrent s a = true)
    (stepped : sharedStep aes cipher args s a = some t) : Faithful aes cipher t := by
  cases a with
  | app action => exact appStep_faithful inv stepped
  | script action =>
    obtain ⟨w, hw, rfl⟩ := Option.map_eq_some_iff.mp stepped
    cases action with
    | start =>
      simp only [scriptStep] at hw
      split at hw
      · cases hw
        exact inv.script (fun _ _ _ _ h => by cases h)
      · cases hw
    | step random =>
      obtain ⟨phase, running, hadvance⟩ := Option.bind_eq_some_iff.mp hw
      exact inv.advance running guard hadvance
    | crash =>
      cases hw
      exact inv.script (fun _ _ _ _ h => by cases h)

/-- The rotation loses no concurrent update, in every run in which each of its
UPDATEs finds the pair its SELECT has read: at every committed state each column
decrypts to what the application wrote last. -/
theorem rotation_keeps_updates {acts : List (Action Rest)} {s : Shared Rest}
    (obeys : Replay.Obeys (sharedStep aes cipher args) (fun s a => readStillCurrent s a = true)
      emptyShared acts)
    (ran : Replay.run (sharedStep aes cipher args) emptyShared acts = some s) :
    ∀ name id row, (s.world.db.tables name).get id = some row → ∀ column,
      decryptContentField aes cipher (row.pairs column).encrypted (row.pairs column).nonce =
        .ok (s.written name id column) := by
  have start : Faithful aes cipher (emptyShared : Shared Rest) :=
    ⟨(fun _ _ _ h => by cases h), fun _ _ _ _ h => by cases h⟩
  exact (Replay.run_invariant step_faithful start obeys ran).stored

end Invariant

def insertHi : Action Unit :=
  .app (.insert .entries sampleId 1 [⟨.content, some (py "hi", sampleTail)⟩] ())

/-- Rotate the one entry; nobody writes to it meanwhile. -/
def quietRotation : List (Action Unit) :=
  [insertHi, .script .start, .script (.step sampleTail), .script (.step sampleTail),
   .script (.step sampleTail), .script (.step sampleTail)]

theorem rotation_keeps_updates_quiet : ∃ s,
    Replay.run (sharedStep sampleGcm sampleCipher ⟨1, 2⟩) emptyShared quietRotation = some s ∧
    s.written .entries 1 .content = some (py "hi") ∧
    ∀ row, (s.world.db.tables .entries).get 1 = some row →
      decryptContentField sampleGcm sampleCipher (row.pairs .content).encrypted
        (row.pairs .content).nonce = .ok (some (py "hi")) := by
  refine ⟨_, rfl, rfl, ?_⟩
  intro row hrow
  exact @rotation_keeps_updates Unit sampleGcm sampleCipher ⟨1, 2⟩ quietRotation _ (by decide) rfl
    .entries 1 row hrow .content

/-- The entry is edited after the batch was read and before it is written back. -/
def editDuringBatch : List (Action Unit) :=
  [insertHi, .script .start, .script (.step sampleTail), .script (.step sampleTail),
   .app (.update .entries sampleId 2 [⟨.content, some (py "new", sampleTail)⟩] id),
   .script (.step sampleTail), .script (.step sampleTail)]

theorem rotation_restores_old_text :
    ¬ ∀ (acts : List (Action Unit)) (s : Shared Unit),
      Replay.run (sharedStep sampleGcm sampleCipher ⟨1, 2⟩) emptyShared acts = some s →
      ∀ name id row, (s.world.db.tables name).get id = some row → ∀ column,
        decryptContentField sampleGcm sampleCipher (row.pairs column).encrypted
          (row.pairs column).nonce = .ok (s.written name id column) := by
  intro h
  have reads := h editDuringBatch _ rfl .entries 1 _ rfl .content
  revert reads
  decide +kernel

end KeyRotation
