import Gubbi.Crypto.Cipher
import Gubbi.Library.Replay
import Mathlib.Data.PNat.Basic
import Mathlib.Data.List.Sort
import Mathlib.Logic.Function.Basic

/-!
# The key rotation script

`_run` and `_rotate_table` as a state machine. A step is one statement that
other sessions can come between: the COUNT of a screen, the SELECT of a batch,
the UPDATE of one row inside the transaction of the batch, its COMMIT. A crash
rolls back the open transaction.

Row identifiers come from identity columns, which start at 1.
-/

namespace KeyRotation

open Text Cipher

def BATCH_SIZE : Nat := 1000

inductive TableName
  | entries
  | messages
  | conversations
  deriving DecidableEq, Repr

inductive Column
  | content
  | reasoning
  | title
  | summary
  deriving DecidableEq, Repr

abbrev Screen := TableName × Column

/-- Five encrypted column-pairs the script rotates. -/
def ROTATION_SCREENS : List Screen :=
  [(.entries, .content), (.entries, .reasoning), (.messages, .content),
   (.conversations, .title), (.conversations, .summary)]

structure EncryptedPair where
  encrypted : Option Bytes
  nonce : Option Bytes
  deriving DecidableEq

/-- A row: its encrypted column pairs, and all its other columns. -/
structure Row (Rest : Type) where
  pairs : Column → EncryptedPair
  rest : Rest

def Row.setPair {Rest : Type} (row : Row Rest) (column : Column) (pair : EncryptedPair) :
    Row Rest :=
  { row with pairs := Function.update row.pairs column pair }

/-- The row `record_audit` inserts for one batch. -/
structure AuditRow where
  actorType : String
  actorId : String
  targetType : TableName
  count : Nat
  fromVersion : Nat
  toVersion : Nat
  column : Column
  deriving DecidableEq

structure Database (Rest : Type) where
  tables : TableName → Table ℕ+ (Row Rest)
  auditLog : List AuditRow

structure Args where
  fromVersion : Nat
  toVersion : Nat
  deriving DecidableEq

/-- `encode(nonce, 'hex')`. -/
def encodeHex (bytes : Bytes) : List Char :=
  bytes.flatMap (fun byte => [Nat.digitChar (byte.toNat / 16), Nat.digitChar (byte.toNat % 16)])

/-- `f"{version:02x}"`. -/
def hexPrefix (version : Nat) : List Char :=
  let digits := Nat.toDigits 16 version
  List.replicate (2 - digits.length) '0' ++ digits

/-- The WHERE clause: both columns set, and the nonce starts with the version. -/
def whereClause (version : Nat) (pair : EncryptedPair) : Bool :=
  match pair.encrypted, pair.nonce with
  | some _, some nonce => (hexPrefix version).isPrefixOf (encodeHex nonce)
  | _, _ => false

theorem hexPrefix_eq : ∀ version < 256,
    hexPrefix version = [Nat.digitChar (version / 16), Nat.digitChar (version % 16)] := by
  decide +kernel

theorem digitChar_inj : ∀ m < 16, ∀ n < 16, Nat.digitChar m = Nat.digitChar n → m = n := by
  decide +kernel

/-- For a version of one byte the hexadecimal test reads the first byte. -/
theorem whereClause_iff {version : Nat} (byte : version < 256) {pair : EncryptedPair} :
    whereClause version pair = true ↔ ∃ ct first tail, pair.encrypted = some ct ∧
      pair.nonce = some (first :: tail) ∧ first.toNat = version := by
  unfold whereClause
  cases hct : pair.encrypted with
  | none => simp
  | some ct =>
    cases hnonce : pair.nonce with
    | none => simp
    | some nonce =>
      cases nonce with
      | nil => simp [hexPrefix_eq version byte, encodeHex]
      | cons first tail =>
        have hfirst : first.toNat < 256 := first.toNat_lt
        simp only [hexPrefix_eq version byte, encodeHex, List.flatMap_cons, List.cons_append,
          List.nil_append, List.isPrefixOf_cons_cons, List.isPrefixOf_nil_left, Bool.and_true,
          Bool.and_eq_true, beq_iff_eq, Option.some.injEq, List.cons.injEq]
        constructor
        · rintro ⟨hhigh, hlow⟩
          have high := digitChar_inj _ (by omega) _ (by omega) hhigh
          have low := digitChar_inj _ (by omega) _ (by omega) hlow
          exact ⟨ct, first, tail, rfl, ⟨rfl, rfl⟩, by omega⟩
        · rintro ⟨_, _, _, rfl, ⟨rfl, rfl⟩, rfl⟩
          exact ⟨rfl, rfl⟩

variable {Rest : Type}

/-- A row as the batch SELECT returns it. -/
abbrev Selected := ℕ+ × EncryptedPair

/-- `SELECT id, ct, nonce ... AND id > last_id ORDER BY id ASC`. -/
def selectOrdered (table : Table ℕ+ (Row Rest)) (column : Column) (version lastId : Nat) :
    List Selected :=
  let candidates := table.rows.filter (fun row =>
    whereClause version (row.2.pairs column) && decide (lastId < row.1))
  (candidates.map (fun row => (row.1, row.2.pairs column))).insertionSort
    (fun one two => one.1 ≤ two.1)

/-- The same with `LIMIT BATCH_SIZE`. -/
def selectBatch (table : Table ℕ+ (Row Rest)) (column : Column) (version lastId : Nat) :
    List Selected :=
  (selectOrdered table column version lastId).take BATCH_SIZE

/-- `bytes(column) if column else None`. -/
def truthy : Option Bytes → Option Bytes
  | some [] => none
  | column => column

theorem truthy_of_ne {bytes : Bytes} (nonempty : bytes ≠ []) :
    truthy (some bytes) = some bytes := by
  cases bytes with
  | nil => exact False.elim (nonempty rfl)
  | cons byte rest => rfl

inductive RowOutcome
  | skipped
  | rotated (pair : EncryptedPair)
  | raised (error : CipherError)
  deriving DecidableEq

/-- What the loop over a batch does with one row before its UPDATE. -/
def rotateRow (aes : AesGcm) (cipher : ContentCipher) (args : Args) (pair : EncryptedPair)
    (random : RandomTail) : RowOutcome :=
  match truthy pair.encrypted, truthy pair.nonce with
  | some ct, some nonce =>
    -- Skip rows already at target version (idempotency).
    if (nonce.headD 0).toNat = args.toVersion then .skipped
    else
      match decrypt aes cipher ct nonce with
      | .error e => if e.isValueError then .skipped else .raised e
      | .ok plaintext =>
        match encryptWithVersion aes cipher plaintext args.toVersion random with
        | .error e => if e.isValueError then .skipped else .raised e
        | .ok (newCt, newNonce) => .rotated ⟨some newCt, some newNonce⟩
  | _, _ => .skipped

/-- The loop of `_rotate_table`: its screen, the screens after it, `last_id`. -/
structure Loop where
  screen : Screen
  rest : List Screen
  lastId : Nat
  deriving DecidableEq

/-- Where the script is: before the COUNT of the next screen, before a SELECT, or
in the transaction of a batch with its uncommitted writes and `batch_updated`. -/
inductive Phase
  | count (screens : List Screen)
  | select (loop : Loop)
  | update (loop : Loop) (batch : List Selected) (writes : List Selected) (batchUpdated : Nat)

structure World (Rest : Type) where
  db : Database Rest
  script : Option Phase

def setPair (table : Table ℕ+ (Row Rest)) (column : Column) (write : Selected) :
    Table ℕ+ (Row Rest) :=
  table.modify write.1 (fun row => row.setPair column write.2)

def applyWrites (table : Table ℕ+ (Row Rest)) (column : Column) (writes : List Selected) :
    Table ℕ+ (Row Rest) :=
  writes.foldl (fun table write => setPair table column write) table

def auditRow (args : Args) (screen : Screen) (batchUpdated : Nat) : AuditRow where
  actorType := "admin"
  actorId := "script:rotate_encryption_key"
  targetType := screen.1
  count := batchUpdated
  fromVersion := args.fromVersion
  toVersion := args.toVersion
  column := screen.2

/-- COMMIT of a batch: the UPDATEs and, if there were any, one audit row. -/
def commitBatch (args : Args) (db : Database Rest) (screen : Screen) (writes : List Selected)
    (batchUpdated : Nat) : Database Rest where
  tables := Function.update db.tables screen.1
    (applyWrites (db.tables screen.1) screen.2 writes)
  auditLog :=
    if 0 < batchUpdated then db.auditLog ++ [auditRow args screen batchUpdated] else db.auditLog

section Machine
variable (aes : AesGcm) (cipher : ContentCipher) (args : Args)

/-- The next statement of the script; `none` when it has finished. -/
def advance (db : Database Rest) (random : RandomTail) : Phase → Option (World Rest)
  | .count [] => none
  | .count (screen :: rest) =>
    let matching := (db.tables screen.1).keysWhere (fun _ row =>
      whereClause args.fromVersion (row.pairs screen.2))
    if matching.length = 0 then some ⟨db, some (.count rest)⟩
    else some ⟨db, some (.select ⟨screen, rest, 0⟩)⟩
  | .select loop =>
    let batch := selectBatch (db.tables loop.screen.1) loop.screen.2 args.fromVersion loop.lastId
    match batch.getLast? with
    | none => some ⟨db, some (.count loop.rest)⟩
    | some last => some ⟨db, some (.update { loop with lastId := last.1 } batch [] 0)⟩
  | .update loop [] writes batchUpdated =>
    some ⟨commitBatch args db loop.screen writes batchUpdated, some (.select loop)⟩
  | .update loop (row :: batch) writes batchUpdated =>
    match rotateRow aes cipher args row.2 random with
    | .skipped => some ⟨db, some (.update loop batch writes batchUpdated)⟩
    -- An exception that is not a ValueError leaves the transaction and the script.
    | .raised _ => some ⟨db, none⟩
    | .rotated pair =>
      -- The UPDATE of a row that has been deleted changes nothing but is counted.
      let writes := match (db.tables loop.screen.1).get row.1 with
        | none => writes
        | some _ => writes ++ [(row.1, pair)]
      some ⟨db, some (.update loop batch writes (batchUpdated + 1))⟩

inductive ScriptAction
  | start
  | step (random : RandomTail)
  | crash

/-- `_run` refuses an unknown target version before it reads anything. -/
def scriptStep (w : World Rest) : ScriptAction → Option (World Rest)
  | .start =>
    if args.toVersion ∈ cipher.knownVersions then
      some { w with script := some (.count ROTATION_SCREENS) }
    else none
  | .step random => w.script.bind (advance aes cipher args w.db random)
  | .crash => some { w with script := none }

end Machine

/-- The row of the examples. -/
def sampleId : ℕ+ := 1

end KeyRotation
