import Gubbi.Rotation.RotateTable

/-!
# The dry run

`_run` with its options as `argparse` returns them: the versions are any integers. The
dry run counts what the WHERE clause selects; the rotation skips what is at the target
version already. Both select by the hexadecimal text of the version, which for a version
of more than two digits reaches into the second byte of the nonce.
-/

namespace KeyRotation

open Text Cipher

variable {Rest : Type}

structure Namespace where
  fromVersion : Int
  toVersion : Int
  dryRun : Bool

structure Report where
  screen : Screen
  sourceVersion : Int
  count : Nat
  deriving DecidableEq

/-- The screens without rows are left out. -/
def collectDryRunCounts (db : Database Rest) (sourceVersion : Int) : List Report :=
  ROTATION_SCREENS.filterMap (fun screen =>
    if 0 < screenCount db sourceVersion screen then
      some ⟨screen, sourceVersion, screenCount db sourceVersion screen⟩
    else none)

/-- What one call of `_rotate_table` returns. -/
structure ScreenResult where
  screen : Screen
  rowsUpdated : Nat
  auditRowsWritten : Nat
  deriving DecidableEq

inductive RunResult
  /-- The `RuntimeError` of a target version without a key. -/
  | targetNotFound (version : Int)
  | reported (reports : List Report)
  | rotated (results : List ScreenResult)
  | raised (error : CipherError)
  deriving DecidableEq

section Model
variable (aes : AesGcm) (cipher : ContentCipher) (nonces : Nat → RandomTail)

def rotateScreens (sourceVersion : Int) (targetVersion : Nat) :
    List Screen → Database Rest → Nat →
      Option (Except CipherError (List ScreenResult) × Database Rest)
  | [], db, _ => some (.ok [], db)
  | screen :: rest, db, drawn =>
    match rotateTable aes cipher nonces ⟨sourceVersion, targetVersion, screen, false⟩ db drawn with
    | none => none
    | some (.raised r error) => some (.error error, r.db)
    | some (.returned r) =>
      match rotateScreens sourceVersion targetVersion rest r.db r.drawn with
      | none => none
      | some (.error error, db) => some (.error error, db)
      | some (.ok results, db) =>
        some (.ok (⟨screen, r.rowsUpdated, r.auditRowsWritten⟩ :: results), db)

/-- `tgt_ver in cipher.known_versions`. -/
def knownTarget (version : Int) : Option Nat :=
  match version with
  | .ofNat version => if version ∈ cipher.knownVersions then some version else none
  | .negSucc _ => none

/-- `_run` up to its verification, which only reads. -/
def runScript (args : Namespace) (db : Database Rest) : Option (RunResult × Database Rest) :=
  match knownTarget cipher args.toVersion with
  | none => some (.targetNotFound args.toVersion, db)
  | some targetVersion =>
    if args.dryRun then some (.reported (collectDryRunCounts db args.fromVersion), db)
    else
      match rotateScreens aes cipher nonces args.fromVersion targetVersion ROTATION_SCREENS db 0
        with
      | none => none
      | some (.error error, db) => some (.raised error, db)
      | some (.ok results, db) => some (.rotated results, db)

end Model

/-- The count of a screen; one that is not reported has no rows. -/
def reportedCount (reports : List Report) (screen : Screen) : Nat :=
  ((reports.find? (fun report => report.screen = screen)).map Report.count).getD 0

/-- How many pairs of the screen have a nonce whose first byte is the version. -/
def firstByteCount (db : Database Rest) (version : Int) (screen : Screen) : Nat :=
  ((db.tables screen.1).keysWhere (fun _ row =>
    match row.pairs screen.2 with
    | ⟨some _, some (first :: _)⟩ => (first.toNat : Int) = version
    | _ => false)).length

/-- The dry run changes nothing, and its counts are those of the rotation and those of
the first bytes. -/
def Predicts (aes : AesGcm) (cipher : ContentCipher) (nonces : Nat → RandomTail)
    (fromVersion toVersion : Int) (db : Database Rest) : Prop :=
  ∃ reports results after,
    runScript aes cipher nonces ⟨fromVersion, toVersion, true⟩ db = some (.reported reports, db) ∧
    runScript aes cipher nonces ⟨fromVersion, toVersion, false⟩ db =
      some (.rotated results, after) ∧
    results.map ScreenResult.screen = ROTATION_SCREENS ∧
    ∀ result ∈ results, reportedCount reports result.screen = result.rowsUpdated ∧
      result.rowsUpdated = firstByteCount db fromVersion result.screen

section Screens
variable {aes : AesGcm} {cipher : ContentCipher} {nonces : Nat → RandomTail}

theorem screenCount_eq (db : Database Rest) (version : Int) (screen : Screen) :
    screenCount db version screen =
      (candidates (screened version) (db.tables screen.1) screen.2 0).length := by
  rw [screenCount, ← List.length_map Prod.fst]
  refine List.Perm.length_eq ((List.perm_ext_iff_of_nodup (Table.nodup_keysWhere _ _)
    (candidates_nodup _ _ _ _)).mpr fun id => ?_)
  rw [Table.mem_keysWhere, List.mem_map]
  constructor
  · rintro ⟨row, hrow, hmatch⟩
    exact ⟨(id, row.pairs screen.2), mem_candidates.mpr ⟨id.pos, hmatch, row, hrow, rfl⟩, rfl⟩
  · rintro ⟨selected, mem, rfl⟩
    obtain ⟨_, hmatch, row, hrow, hpair⟩ := mem_candidates.mp mem
    exact ⟨row, hrow, by rw [hpair]; exact hmatch⟩

/-- The same pairs in the column of the screen. -/
def AgreesOn (db db' : Database Rest) (screen : Screen) : Prop :=
  ∀ id, ((db'.tables screen.1).get id).map (fun row => row.pairs screen.2) =
    ((db.tables screen.1).get id).map (fun row => row.pairs screen.2)

theorem AgreesOn.candidates {db db' : Database Rest} {screen : Screen}
    (agrees : AgreesOn db db' screen) (p : EncryptedPair → Bool) (lastId : Nat) :
    candidates p (db'.tables screen.1) screen.2 lastId =
      candidates p (db.tables screen.1) screen.2 lastId := by
  refine (candidates_sorted _ _ _ _).ext (candidates_sorted _ _ _ _) fun selected => ?_
  rw [mem_candidates, mem_candidates]
  refine and_congr_right fun _ => and_congr_right fun _ => ?_
  rw [← Option.map_eq_some_iff, ← Option.map_eq_some_iff, agrees]

theorem applyWrites_pairs_ne (table : Table ℕ+ (Row Rest)) {column other : Column}
    (hne : other ≠ column) (writes : List Selected) (id : ℕ+) :
    ((applyWrites table column writes).get id).map (fun row => row.pairs other) =
      (table.get id).map (fun row => row.pairs other) := by
  induction writes generalizing table with
  | nil => rfl
  | cons write rest ih =>
    refine (ih _).trans ?_
    rw [setPair_get]
    split
    · rw [Option.map_map]
      exact congrArg (fun f => (table.get id).map f)
        (funext fun row => Row.setPair_ne row write.2 hne)
    · rfl

/-- A screen is rotated without the others. -/
theorem Finished.agreesOn {a : TableArgs} {before after : Rotating Rest} {writes : List Selected}
    {drawn : Nat} (finished : Finished a before writes drawn after) {screen : Screen}
    (other : screen ≠ a.screen) : AgreesOn before.db after.db screen := by
  intro id
  by_cases name : screen.1 = a.screen.1
  · have column : screen.2 ≠ a.screen.2 := fun same => other (Prod.ext name same)
    rw [name, finished.table]
    exact applyWrites_pairs_ne _ column _ id
  · rw [finished.others _ name]

/-- The pair is not at the target version yet. -/
def toRotate (targetVersion : Nat) (selected : Selected) : Bool :=
  selected.2.nonce.all (fun nonce => (nonce.headD 0).toNat ≠ targetVersion)

variable (nonces) in
/-- Rows that decrypt are rotated, but for those at the target version. -/
theorem rotateRows_length {a : TableArgs} (known : a.targetVersion ∈ cipher.knownVersions)
    {rows : List Selected}
    (decryptable : ∀ row ∈ rows, ∃ ct nonce text, row.2 = ⟨some ct, some nonce⟩ ∧
      decrypt aes cipher ct nonce = .ok text) (drawn : Nat) :
    ∃ writes drawn', rotateRows aes cipher nonces a rows drawn = .ok (writes, drawn') ∧
      writes.length = rows.countP (toRotate a.targetVersion) := by
  induction rows generalizing drawn with
  | nil => exact ⟨[], drawn, rfl, rfl⟩
  | cons row rest ih =>
    have others := ih (fun row mem => decryptable row (List.mem_cons_of_mem _ mem))
    obtain ⟨ct, nonce, text, hpair, decrypted⟩ := decryptable row List.mem_cons_self
    obtain ⟨nonemptyCt, nonemptyNonce, _⟩ := nonempty_of_decrypt decrypted
    by_cases target : (nonce.headD 0).toNat = a.targetVersion
    · have skipped : rotateRow aes cipher a.args row.2 (nonces drawn) = .skipped := by
        rw [hpair]
        simp only [rotateRow, truthy_of_ne nonemptyCt, truthy_of_ne nonemptyNonce]
        exact if_pos target
      obtain ⟨writes, drawn', treated, counted⟩ := others drawn
      refine ⟨writes, drawn', by simp only [rotateRows, skipped, treated], ?_⟩
      rw [counted, List.countP_cons_of_neg]
      simp only [toRotate, hpair, Option.all_some, target, ne_eq, not_true_eq_false, decide_false]
      exact Bool.false_ne_true
    · obtain ⟨ct', encrypted⟩ := encryptWithVersion_ok_of_decrypt decrypted known (nonces drawn)
      have rotated : ∃ pair, rotateRow aes cipher a.args row.2 (nonces drawn) = .rotated pair := by
        refine ⟨⟨some ct', some (UInt8.ofNat a.targetVersion :: (nonces drawn).val)⟩, ?_⟩
        rw [hpair]
        simp only [rotateRow, truthy_of_ne nonemptyCt, truthy_of_ne nonemptyNonce,
          show a.args.toVersion = a.targetVersion from rfl, if_neg target, decrypted, encrypted]
      obtain ⟨pair, rotated⟩ := rotated
      obtain ⟨writes, drawn', treated, counted⟩ := others (drawn + 1)
      refine ⟨(row.1, pair) :: writes, drawn', by simp only [rotateRows, rotated, treated], ?_⟩
      rw [List.length_cons, counted, List.countP_cons_of_pos]
      simpa [toRotate, hpair] using target

/-- What the rotation of one screen comes to, on the pairs that it had before. -/
def rotatedCount (db : Database Rest) (sourceVersion : Int) (targetVersion : Nat)
    (screen : Screen) : Nat :=
  (candidates (screened sourceVersion) (db.tables screen.1) screen.2 0).countP
    (toRotate targetVersion)

theorem AgreesOn.trans {first second third : Database Rest} {screen : Screen}
    (one : AgreesOn first second screen) (two : AgreesOn second third screen) :
    AgreesOn first third screen := fun id => (two id).trans (one id)

/-- The rows that a screen selects decrypt. -/
theorem decrypts_of_decryptable {db : Database Rest} (decryptable : Decryptable aes cipher db)
    {screen : Screen} (within : screen ∈ ROTATION_SCREENS) (version : Int) :
    ∀ row ∈ candidates (screened version) (db.tables screen.1) screen.2 0,
      ∃ ct nonce text, row.2 = ⟨some ct, some nonce⟩ ∧
        decrypt aes cipher ct nonce = .ok text := by
  intro selected mem
  obtain ⟨_, hmatch, row, hrow, hpair⟩ := mem_candidates.mp mem
  obtain ⟨ct, nonce, shape, _⟩ := screened_eq_true hmatch
  obtain ⟨text, decrypted⟩ := decryptable screen within selected.1 row hrow ct nonce
    (hpair.trans shape)
  exact ⟨ct, nonce, text, shape, decrypted⟩

variable (nonces) in
/-- The screens are rotated one after the other, each as it was at the start. -/
theorem rotateScreens_results (sourceVersion : Int) {targetVersion : Nat}
    (known : targetVersion ∈ cipher.knownVersions) {start : Database Rest}
    (decryptable : Decryptable aes cipher start) {screens : List Screen} (once : screens.Nodup)
    (within : ∀ screen ∈ screens, screen ∈ ROTATION_SCREENS) {db : Database Rest}
    (agrees : ∀ screen ∈ screens, AgreesOn start db screen) (drawn : Nat) :
    ∃ results after,
      rotateScreens aes cipher nonces sourceVersion targetVersion screens db drawn =
        some (.ok results, after) ∧
      results.map ScreenResult.screen = screens ∧
      ∀ result ∈ results,
        result.rowsUpdated = rotatedCount start sourceVersion targetVersion result.screen := by
  induction screens generalizing db drawn with
  | nil => exact ⟨[], db, rfl, rfl, fun result mem => absurd mem List.not_mem_nil⟩
  | cons screen rest ih =>
    obtain ⟨fresh, onceRest⟩ := List.nodup_cons.mp once
    have same := (agrees screen List.mem_cons_self).candidates (screened sourceVersion) 0
    obtain ⟨writes, drawn', treated, counted⟩ := rotateRows_length nonces
      (a := ⟨sourceVersion, targetVersion, screen, false⟩) known
      (decrypts_of_decryptable decryptable (within screen List.mem_cons_self) sourceVersion) drawn
    rw [← same] at treated
    obtain ⟨ended, hended, ends⟩ := rotateTable_ends
      ⟨sourceVersion, targetVersion, screen, false⟩ aes cipher nonces db drawn
    rw [treated] at ends
    cases ended with
    | raised r error => exact ends.elim
    | returned r =>
      have finished : Finished ⟨sourceVersion, targetVersion, screen, false⟩ ⟨db, drawn, 0, 0⟩
        writes drawn' r := ends
      have agreesNext : ∀ other ∈ rest, AgreesOn start r.db other := fun other mem =>
        (agrees other (List.mem_cons_of_mem _ mem)).trans
          (finished.agreesOn (fun (equal : other = screen) => fresh (equal ▸ mem)))
      obtain ⟨results, after, ran, named, counts⟩ := ih onceRest
        (fun other mem => within other (List.mem_cons_of_mem _ mem)) agreesNext r.drawn
      refine ⟨⟨screen, r.rowsUpdated, r.auditRowsWritten⟩ :: results, after, ?_, ?_, ?_⟩
      · simp only [rotateScreens, hended, ran]
      · rw [List.map_cons, named]
      · intro result mem
        rcases List.mem_cons.mp mem with rfl | inRest
        · have all : updates ⟨sourceVersion, targetVersion, screen, false⟩ writes = writes := rfl
          change r.rowsUpdated = rotatedCount start sourceVersion targetVersion screen
          rw [finished.updated, all, counted, Nat.zero_add]
          rfl
        · exact counts result inRest

theorem reportedCount_of_mem (db : Database Rest) (version : Int) {screens : List Screen}
    {screen : Screen} (mem : screen ∈ screens) :
    reportedCount (screens.filterMap (fun screen =>
      if 0 < screenCount db version screen then
        some ⟨screen, version, screenCount db version screen⟩ else none)) screen =
      screenCount db version screen := by
  induction screens with
  | nil => exact absurd mem List.not_mem_nil
  | cons head rest ih =>
    rw [List.filterMap_cons]
    by_cases same : head = screen
    · subst same
      by_cases positive : 0 < screenCount db version head
      · simp [positive, reportedCount]
      · have zero : screenCount db version head = 0 := Nat.eq_zero_of_not_pos positive
        have empty : ∀ others : List Screen, reportedCount (others.filterMap (fun screen =>
            if 0 < screenCount db version screen then
              some (⟨screen, version, screenCount db version screen⟩ : Report) else none)) head =
            0 := by
          intro others
          rw [reportedCount, List.find?_eq_none.mpr]
          · rfl
          · intro report found
            obtain ⟨other, _, hother⟩ := List.mem_filterMap.mp found
            split at hother
            · next counted =>
              cases hother
              rw [decide_eq_true_eq]
              rintro rfl
              exact positive counted
            · cases hother
        simp only [positive, if_false]
        rw [empty, zero]
    · have inRest : screen ∈ rest := (List.mem_cons.mp mem).resolve_left (Ne.symm same)
      split
      · exact ih inRest
      · next report hreport =>
        split at hreport
        · cases hreport
          rw [← ih inRest, reportedCount, reportedCount,
            List.find?_cons_of_neg (by simpa using same)]
        · cases hreport

theorem screened_of_byte {version : Nat} (byte : version < 256) {pair : EncryptedPair} :
    screened version pair = true ↔
      (match pair with
        | ⟨some _, some (first :: _)⟩ => decide ((first.toNat : Int) = version)
        | _ => false) = true := by
  rw [screened_ofNat, whereClause_iff byte]
  obtain ⟨ct, nonce⟩ := pair
  cases ct with
  | none => simp
  | some ct =>
    cases nonce with
    | none => simp
    | some nonce =>
      cases nonce with
      | nil => simp
      | cons first tail =>
        simp only [Option.some.injEq, List.cons.injEq, decide_eq_true_eq]
        constructor
        · rintro ⟨_, byte, rest, rfl, ⟨rfl, rfl⟩, hbyte⟩
          exact congrArg Int.ofNat hbyte
        · intro hbyte
          exact ⟨ct, first, tail, rfl, ⟨rfl, rfl⟩, Int.ofNat.inj hbyte⟩

theorem firstByteCount_of_byte {version : Nat} (byte : version < 256) (db : Database Rest)
    (screen : Screen) : firstByteCount db version screen = screenCount db version screen := by
  refine congrArg (fun p => ((db.tables screen.1).keysWhere p).length) ?_
  funext _ row
  rw [Bool.eq_iff_iff]
  exact (screened_of_byte byte).symm

theorem byte_of_firstByteCount {version : Int} {db : Database Rest} {screen : Screen}
    (positive : 0 < firstByteCount db version screen) : 0 ≤ version ∧ version < 256 := by
  obtain ⟨id, mem⟩ := List.exists_mem_of_length_pos positive
  obtain ⟨row, _, hfirst⟩ := Table.mem_keysWhere.mp mem
  split at hfirst
  · next ct first tail shape =>
    have equal := of_decide_eq_true hfirst
    have small := first.toNat_lt
    omega
  · cases hfirst

theorem rotatedCount_of_byte {fromVersion toVersion : Nat} (byte : fromVersion < 256)
    (differ : fromVersion ≠ toVersion) (db : Database Rest) (screen : Screen) :
    rotatedCount db fromVersion toVersion screen = screenCount db fromVersion screen := by
  rw [screenCount_eq, rotatedCount, List.countP_eq_length]
  intro selected mem
  obtain ⟨_, hmatch, _, _, _⟩ := mem_candidates.mp mem
  obtain ⟨_, first, tail, _, hnonce, hfirst⟩ :=
    (whereClause_iff byte).mp ((screened_ofNat fromVersion selected.2) ▸ hmatch)
  simpa [toRotate, hnonce, hfirst] using differ

/-- A rotation to the version that the rows have skips all of them. -/
theorem rotatedCount_self {version : Nat} (byte : version < 256) (db : Database Rest)
    (screen : Screen) : rotatedCount db version version screen = 0 := by
  refine List.countP_eq_zero.mpr fun selected mem left => ?_
  obtain ⟨_, hmatch, _, _, _⟩ := mem_candidates.mp mem
  obtain ⟨_, first, tail, _, hnonce, hfirst⟩ :=
    (whereClause_iff byte).mp ((screened_ofNat version selected.2) ▸ hmatch)
  simp [toRotate, hnonce, hfirst] at left

theorem candidates_eq_nil_iff {version : Int} {db : Database Rest} {screen : Screen} :
    candidates (screened version) (db.tables screen.1) screen.2 0 = [] ↔
      ∀ id row, (db.tables screen.1).get id = some row →
        screened version (row.pairs screen.2) = false := by
  rw [List.eq_nil_iff_forall_not_mem]
  constructor
  · intro none id row hrow
    refine Bool.eq_false_iff.mpr fun hmatch => ?_
    exact none (id, row.pairs screen.2) (mem_candidates.mpr ⟨id.pos, hmatch, row, hrow, rfl⟩)
  · intro empty selected mem
    obtain ⟨_, hmatch, row, hrow, hpair⟩ := mem_candidates.mp mem
    rw [← hpair, empty selected.1 row hrow] at hmatch
    cases hmatch

/-- Where the screen selects no row, no nonce has the version for its first byte. -/
theorem firstByteCount_of_empty {version : Int} {db : Database Rest} {screen : Screen}
    (count : screenCount db version screen = 0) : firstByteCount db version screen = 0 := by
  by_contra counted
  obtain ⟨lower, upper⟩ := byte_of_firstByteCount (Nat.pos_of_ne_zero counted)
  obtain ⟨version, rfl⟩ := Int.eq_ofNat_of_zero_le lower
  exact counted ((firstByteCount_of_byte (by omega) db screen).trans count)

/-- The three counts of a screen. -/
theorem counts_agree_iff {db : Database Rest} {fromVersion : Int} {toVersion : Nat}
    {screen : Screen} :
    (screenCount db fromVersion screen = rotatedCount db fromVersion toVersion screen ∧
        rotatedCount db fromVersion toVersion screen = firstByteCount db fromVersion screen) ↔
      (0 ≤ fromVersion ∧ fromVersion < 256 ∧ fromVersion ≠ toVersion) ∨
        candidates (screened fromVersion) (db.tables screen.1) screen.2 0 = [] := by
  constructor
  · rintro ⟨reported, first⟩
    by_cases none : candidates (screened fromVersion) (db.tables screen.1) screen.2 0 = []
    · exact Or.inr none
    · have positive : 0 < screenCount db fromVersion screen := by
        rw [screenCount_eq]
        exact List.length_pos_iff.mpr none
      obtain ⟨lower, upper⟩ := byte_of_firstByteCount (by rw [← first, ← reported]; exact positive)
      refine Or.inl ⟨lower, upper, ?_⟩
      rintro rfl
      rw [reported, rotatedCount_self (by omega)] at positive
      exact absurd positive (Nat.lt_irrefl 0)
  · rintro (⟨lower, upper, differ⟩ | none)
    · obtain ⟨version, rfl⟩ := Int.eq_ofNat_of_zero_le lower
      have byte : version < 256 := by omega
      have all := rotatedCount_of_byte byte
        (fun same => differ (congrArg Int.ofNat same)) db screen
      exact ⟨all.symm, all.trans (firstByteCount_of_byte byte db screen).symm⟩
    · have count : screenCount db fromVersion screen = 0 := by
        rw [screenCount_eq, none, List.length_nil]
      rw [count, firstByteCount_of_empty count, rotatedCount, none]
      exact ⟨rfl, rfl⟩

theorem predicts_iff {db : Database Rest} {fromVersion : Int} {toVersion : Nat}
    (nonces : Nat → RandomTail) (decryptable : Decryptable aes cipher db)
    (known : toVersion ∈ cipher.knownVersions) :
    Predicts aes cipher nonces fromVersion toVersion db ↔
      ∀ screen ∈ ROTATION_SCREENS,
        screenCount db fromVersion screen = rotatedCount db fromVersion toVersion screen ∧
          rotatedCount db fromVersion toVersion screen = firstByteCount db fromVersion screen := by
  have target : knownTarget cipher toVersion = some toVersion := if_pos known
  obtain ⟨results, after, ran, named, counts⟩ := rotateScreens_results nonces fromVersion
    known decryptable (by decide) (fun _ mem => mem)
    (fun screen _ id => rfl) 0
  have dry : runScript aes cipher nonces ⟨fromVersion, toVersion, true⟩ db =
      some (.reported (collectDryRunCounts db fromVersion), db) := by
    simp only [runScript, target, if_true]
  have real : runScript aes cipher nonces ⟨fromVersion, toVersion, false⟩ db =
      some (.rotated results, after) := by
    simp only [runScript, target, Bool.false_eq_true, if_false, ran]
  constructor
  · rintro ⟨reports, results', after', hdry, hreal, _, equal⟩ screen mem
    cases dry.symm.trans hdry
    cases real.symm.trans hreal
    rw [← named] at mem
    obtain ⟨result, inResults, rfl⟩ := List.mem_map.mp mem
    have within : result.screen ∈ ROTATION_SCREENS :=
      named ▸ List.mem_map.mpr ⟨result, inResults, rfl⟩
    obtain ⟨reported, first⟩ := equal result inResults
    rw [collectDryRunCounts, reportedCount_of_mem db fromVersion within,
      counts result inResults] at reported
    rw [counts result inResults] at first
    exact ⟨reported, first⟩
  · intro equal
    refine ⟨_, results, after, dry, real, named, fun result inResults => ?_⟩
    have within : result.screen ∈ ROTATION_SCREENS :=
      named ▸ List.mem_map.mpr ⟨result, inResults, rfl⟩
    obtain ⟨reported, first⟩ := equal result.screen within
    rw [counts result inResults, collectDryRunCounts,
      reportedCount_of_mem db fromVersion within]
    exact ⟨reported, first⟩

end Screens

/-- The dry run predicts the rotation exactly when the source version is a byte other
than the target version, or no nonce of the screens starts with its hexadecimal text. -/
theorem dry_run_predicts_iff {aes : AesGcm} {cipher : ContentCipher} {db : Database Rest}
    {fromVersion : Int} {toVersion : Nat} (nonces : Nat → RandomTail)
    (decryptable : Decryptable aes cipher db) (known : toVersion ∈ cipher.knownVersions) :
    Predicts aes cipher nonces fromVersion toVersion db ↔
      (0 ≤ fromVersion ∧ fromVersion < 256 ∧ fromVersion ≠ toVersion) ∨
        ∀ screen ∈ ROTATION_SCREENS, ∀ id row, (db.tables screen.1).get id = some row →
          screened fromVersion (row.pairs screen.2) = false := by
  rw [predicts_iff nonces decryptable known]
  simp only [counts_agree_iff, candidates_eq_nil_iff]
  constructor
  · intro all
    by_cases byte : 0 ≤ fromVersion ∧ fromVersion < 256 ∧ fromVersion ≠ toVersion
    · exact Or.inl byte
    · exact Or.inr fun screen within => (all screen within).resolve_left byte
  · rintro (byte | empty) screen within
    · exact Or.inl byte
    · exact Or.inr (empty screen within)

theorem dry_run_predicts_sample :
    Predicts sampleGcm sampleCipher (fun _ => sampleTail) 1 (2 : Nat) sampleDatabase :=
  (dry_run_predicts_iff (fun _ => sampleTail) sample_decryptable (by decide)).mpr
    (Or.inl (by decide))

def wideCipher : ContentCipher where
  keys := (Table.empty.put 2 sampleKey2).put 16 sampleKey1
  nonempty := by decide
  checked := by
    intro version key h
    rcases Table.get_put_eq_some h with ⟨rfl, rfl⟩ | ⟨_, h⟩
    · decide
    · rcases Table.get_put_eq_some h with ⟨rfl, rfl⟩ | ⟨_, h⟩
      · decide
      · cases h

/-- A pair of version 16 whose nonce starts with the bytes `10 00`. -/
def widePair : EncryptedPair := ⟨some (zeroTag ++ sampleData), some (16 :: sampleTail.val)⟩

def wideDatabase : Database Unit where
  tables := fun name =>
    if name = .entries then
      Table.empty.put sampleId
        ⟨fun column => if column = .content then widePair else ⟨none, none⟩, ()⟩
    else Table.empty
  auditLog := []

theorem wide_decryptable : Decryptable sampleGcm wideCipher wideDatabase := by
  intro screen _ id row h ct nonce hpair
  simp only [wideDatabase] at h
  split at h
  · rcases Table.get_put_eq_some h with ⟨_, rfl⟩ | ⟨_, h⟩
    · simp only at hpair
      split at hpair
      · cases hpair
        refine ⟨py "hi", ?_⟩
        have hutf8 : decodeUtf8 sampleData = some (py "hi") := decodeUtf8_of_encodeUtf8 (by decide)
        have hkey : wideCipher.keys.get 16 = some sampleKey1 := by decide
        have hdata : sampleGcm.decrypt sampleKey1 (16 :: sampleTail.val) (zeroTag ++ sampleData) =
            some sampleData := by decide
        have hlength : (16 :: sampleTail.val : Bytes).length = NONCE_LEN := rfl
        have hversion : ((16 :: sampleTail.val : Bytes).headD 0).toNat = 16 := rfl
        simp only [decrypt, hlength, ne_eq, not_true_eq_false, if_false, hversion, hkey, hdata,
          hutf8]
      · cases hpair
    · cases h
  · cases h

/-- Between equal versions the dry run counts an entry that the rotation skips; for
version 256 both take one of version 16. -/
theorem dry_run_miscounts :
    (Decryptable sampleGcm sampleCipher sampleDatabase ∧
      ¬ Predicts sampleGcm sampleCipher (fun _ => sampleTail) 1 (1 : Nat) sampleDatabase) ∧
    (Decryptable sampleGcm wideCipher wideDatabase ∧
      ¬ Predicts sampleGcm wideCipher (fun _ => sampleTail) 256 (2 : Nat) wideDatabase) := by
  refine ⟨⟨sample_decryptable, ?_⟩, wide_decryptable, ?_⟩
  · rintro ⟨reports, results, after, dry, real, _, counts⟩
    have ran : runScript sampleGcm sampleCipher (fun _ => sampleTail) ⟨1, (1 : Nat), false⟩
        sampleDatabase = some (.rotated (ROTATION_SCREENS.map (fun screen => ⟨screen, 0, 0⟩)),
          commitBatch ⟨1, 1⟩ sampleDatabase (.entries, .content) [] 0) := rfl
    cases ran.symm.trans real
    cases dry
    exact absurd (counts ⟨(.entries, .content), 0, 0⟩ (by decide)).1 (by decide)
  · rintro ⟨reports, results, after, dry, _, named, counts⟩
    cases dry
    have within : (.entries, .content) ∈ results.map ScreenResult.screen := by
      rw [named]
      decide
    obtain ⟨result, mem, hscreen⟩ := List.mem_map.mp within
    obtain ⟨reported, first⟩ := counts result mem
    rw [first, hscreen] at reported
    exact absurd reported (by decide)

end KeyRotation
