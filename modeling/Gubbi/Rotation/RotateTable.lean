import Gubbi.Rotation.Migration

/-!
# `_rotate_table` by itself

The loop over the batches of one screen, without other writers, with what it returns
and with what is committed when an exception leaves it. The random parts of the
nonces are drawn from a stream, one for each row that is encrypted.

All batches together treat the rows that the WHERE clause selects at the start, in
their order and each once.
-/

namespace KeyRotation

open Text Cipher

/-- `f"{version:02x}"` of any `int`. -/
def formatHex : Int → List Char
  | .ofNat version => hexPrefix version
  | .negSucc n => '-' :: Nat.toDigits 16 (n + 1)

/-- The WHERE clause of the script for any `int`. -/
def screened (version : Int) (pair : EncryptedPair) : Bool :=
  match pair.encrypted, pair.nonce with
  | some _, some nonce => (formatHex version).isPrefixOf (encodeHex nonce)
  | _, _ => false

theorem screened_ofNat (version : Nat) (pair : EncryptedPair) :
    screened version pair = whereClause version pair := rfl

theorem screened_eq_true {version : Int} {pair : EncryptedPair}
    (h : screened version pair = true) : ∃ ct nonce, pair = ⟨some ct, some nonce⟩ ∧
      (formatHex version).isPrefixOf (encodeHex nonce) = true := by
  obtain ⟨ct, nonce⟩ := pair
  cases ct with
  | none => cases h
  | some ct =>
    cases nonce with
    | none => cases h
    | some nonce => exact ⟨ct, nonce, rfl, h⟩

/-- The arguments of `_rotate_table`. -/
structure TableArgs where
  sourceVersion : Int
  targetVersion : Nat
  screen : Screen
  dryRun : Bool

/-- The versions as the row loop and the audit row use them. A negative source version
selects no row, so that neither is reached. -/
def TableArgs.args (a : TableArgs) : Args := ⟨a.sourceVersion.toNat, a.targetVersion⟩

variable {Rest : Type}

/-- What the loop has committed and counted; `drawn` counts the nonces. -/
structure Rotating (Rest : Type) where
  db : Database Rest
  drawn : Nat
  rowsUpdated : Nat
  auditRowsWritten : Nat

inductive Ended (Rest : Type)
  | returned (r : Rotating Rest)
  | raised (r : Rotating Rest) (error : CipherError)

section Model
variable (aes : AesGcm) (cipher : ContentCipher) (nonces : Nat → RandomTail) (a : TableArgs)

/-- The loop over the rows of a batch: its UPDATEs, and the nonces drawn so far. -/
def rotateRows : List Selected → Nat → Except CipherError (List Selected × Nat)
  | [], drawn => .ok ([], drawn)
  | row :: rest, drawn =>
    match rotateRow aes cipher a.args row.2 (nonces drawn) with
    | .skipped => rotateRows rest drawn
    | .raised error => .error error
    | .rotated pair =>
      match rotateRows rest (drawn + 1) with
      | .error error => .error error
      | .ok (writes, drawn) => .ok ((row.1, pair) :: writes, drawn)

/-- One batch with its transaction. -/
def rotateBatch (r : Rotating Rest) (batch : List Selected) :
    Except CipherError (Rotating Rest) :=
  match rotateRows aes cipher nonces a batch r.drawn with
  | .error error => .error error
  | .ok (writes, drawn) =>
    if a.dryRun then .ok { r with drawn := drawn }
    else .ok {
      db := commitBatch a.args r.db a.screen writes writes.length
      drawn := drawn
      rowsUpdated := r.rowsUpdated + writes.length
      auditRowsWritten := r.auditRowsWritten + if 0 < writes.length then 1 else 0 }

/-- `while True`; `none` once the fuel is used up. -/
def rotateLoop : Nat → Nat → Rotating Rest → Option (Ended Rest)
  | 0, _, _ => none
  | fuel + 1, lastId, r =>
    let batch := (candidates (screened a.sourceVersion) (r.db.tables a.screen.1) a.screen.2
      lastId).take BATCH_SIZE
    match batch.getLast? with
    | none => some (.returned r)
    | some last =>
      match rotateBatch aes cipher nonces a r batch with
      | .error error => some (.raised r error)
      | .ok r => rotateLoop fuel last.1 r

/-- `SELECT COUNT(*)` with the WHERE clause. -/
def screenCount (db : Database Rest) (version : Int) (screen : Screen) : Nat :=
  ((db.tables screen.1).keysWhere (fun _ row => screened version (row.pairs screen.2))).length

/-- Each turn of the loop passes a row, so the rows of the table bound its turns. -/
def rotateTable (db : Database Rest) (drawn : Nat) : Option (Ended Rest) :=
  if screenCount db a.sourceVersion a.screen = 0 then some (.returned ⟨db, drawn, 0, 0⟩)
  else rotateLoop aes cipher nonces a ((db.tables a.screen.1).rows.length + 1) 0
    ⟨db, drawn, 0, 0⟩

end Model

section Rows
variable {aes : AesGcm} {cipher : ContentCipher} {nonces : Nat → RandomTail} {a : TableArgs}

variable (aes cipher nonces a) in
/-- A list of rows is treated part by part. -/
theorem rotateRows_append (first rest : List Selected) (drawn : Nat) :
    rotateRows aes cipher nonces a (first ++ rest) drawn =
      match rotateRows aes cipher nonces a first drawn with
      | .error error => .error error
      | .ok (writes, drawn) =>
        match rotateRows aes cipher nonces a rest drawn with
        | .error error => .error error
        | .ok (more, drawn) => .ok (writes ++ more, drawn) := by
  induction first generalizing drawn with
  | nil =>
    simp only [List.nil_append, rotateRows]
    cases rotateRows aes cipher nonces a rest drawn with
    | error error => rfl
    | ok done => rfl
  | cons row first ih =>
    rw [List.cons_append, rotateRows, rotateRows]
    cases rotateRow aes cipher a.args row.2 (nonces drawn) with
    | skipped => exact ih drawn
    | raised error => rfl
    | rotated pair =>
      simp only [ih (drawn + 1)]
      cases rotateRows aes cipher nonces a first (drawn + 1) with
      | error error => rfl
      | ok done =>
        simp only
        cases rotateRows aes cipher nonces a rest done.2 with
        | error error => rfl
        | ok more => rfl

/-- The writes are those of the rows that were rotated. -/
theorem rotateRows_writes {rows writes : List Selected} {drawn drawn' : Nat}
    (h : rotateRows aes cipher nonces a rows drawn = .ok (writes, drawn')) :
    (writes.map Prod.fst).Sublist (rows.map Prod.fst) ∧
      ∀ write ∈ writes, ∃ row ∈ rows, row.1 = write.1 ∧
        ∃ n, rotateRow aes cipher a.args row.2 (nonces n) = .rotated write.2 := by
  induction rows generalizing writes drawn with
  | nil =>
    cases h
    exact ⟨List.Sublist.refl _, fun write mem => absurd mem List.not_mem_nil⟩
  | cons row rest ih =>
    rw [rotateRows] at h
    split at h
    · obtain ⟨sublist, written⟩ := ih h
      refine ⟨sublist.cons _, fun write mem => ?_⟩
      obtain ⟨found, inRest, done⟩ := written write mem
      exact ⟨found, List.mem_cons_of_mem _ inRest, done⟩
    · cases h
    · next pair rotated =>
      split at h
      · cases h
      · next more drawnMore hrest =>
        cases h
        obtain ⟨sublist, written⟩ := ih hrest
        refine ⟨sublist.cons_cons _, fun write mem => ?_⟩
        rcases List.mem_cons.mp mem with rfl | inMore
        · exact ⟨row, List.mem_cons_self, rfl, drawn, rotated⟩
        · obtain ⟨found, inRest, done⟩ := written write inMore
          exact ⟨found, List.mem_cons_of_mem _ inRest, done⟩

end Rows

section Loop
variable (a : TableArgs)

/-- The UPDATEs that a run makes of its writes. -/
def updates (writes : List Selected) : List Selected := if a.dryRun then [] else writes

/-- What the writes of some batches leave behind. -/
structure Finished (before : Rotating Rest) (writes : List Selected) (drawn : Nat)
    (after : Rotating Rest) : Prop where
  table : after.db.tables a.screen.1 =
    applyWrites (before.db.tables a.screen.1) a.screen.2 (updates a writes)
  others : ∀ name, name ≠ a.screen.1 → after.db.tables name = before.db.tables name
  dry : a.dryRun = true → after.db = before.db
  updated : after.rowsUpdated = before.rowsUpdated + (updates a writes).length
  drawn : after.drawn = drawn

/-- A loop ends as the treatment of its rows does. -/
def Ends (r : Rotating Rest) : Except CipherError (List Selected × Nat) → Ended Rest → Prop
  | .error error, .raised _ error' => error = error'
  | .ok (writes, drawn), .returned after => Finished a r writes drawn after
  | _, _ => False

variable {a} {aes : AesGcm} {cipher : ContentCipher} {nonces : Nat → RandomTail}

theorem updates_append (first rest : List Selected) :
    updates a (first ++ rest) = updates a first ++ updates a rest := by
  unfold updates
  split
  · rfl
  · rfl

theorem updates_sublist (writes : List Selected) : (updates a writes).Sublist writes := by
  unfold updates
  split
  · exact List.nil_sublist _
  · exact List.Sublist.refl _

theorem Finished.nil (r : Rotating Rest) : Finished a r [] r.drawn r := by
  have none : updates a [] = [] := by
    unfold updates
    split
    · rfl
    · rfl
  constructor
  · rw [none]
    rfl
  · exact fun _ _ => rfl
  · exact fun _ => rfl
  · rw [none]
    rfl
  · rfl

theorem Finished.trans {first second third : Rotating Rest} {writes more : List Selected}
    {drawn drawn' : Nat} (one : Finished a first writes drawn second)
    (two : Finished a second more drawn' third) :
    Finished a first (writes ++ more) drawn' third where
  table := by
    rw [two.table, one.table, updates_append]
    exact (List.foldl_append).symm
  others := fun name hne => (two.others name hne).trans (one.others name hne)
  dry := fun dry => (two.dry dry).trans (one.dry dry)
  updated := by
    rw [two.updated, one.updated, updates_append, List.length_append, Nat.add_assoc]
  drawn := two.drawn

theorem rotateBatch_ok {r : Rotating Rest} {batch writes : List Selected} {drawn : Nat}
    (treated : rotateRows aes cipher nonces a batch r.drawn = .ok (writes, drawn)) :
    ∃ after, rotateBatch aes cipher nonces a r batch = .ok after ∧
      Finished a r writes drawn after := by
  unfold rotateBatch
  rw [treated]
  cases dry : a.dryRun with
  | true =>
    have none : updates a writes = [] := if_pos dry
    refine ⟨{ r with drawn := drawn }, rfl, ?_, fun _ _ => rfl, fun _ => rfl, ?_, rfl⟩
    · rw [none]
      rfl
    · rw [none]
      rfl
  | false =>
    have all : updates a writes = writes := if_neg (by simp [dry])
    refine ⟨_, rfl, ?_, ?_, fun h => by simp [dry] at h, ?_, rfl⟩
    · rw [all]
      exact Function.update_self _ _ _
    · exact fun name hne => Function.update_of_ne hne _ _
    · rw [all]

/-- A commit does not touch the rows after its batch. -/
theorem Finished.after_batch {r after : Rotating Rest} {batch writes : List Selected}
    {drawn drawn' : Nat} (finished : Finished a r writes drawn' after)
    (treated : rotateRows aes cipher nonces a batch drawn = .ok (writes, drawn'))
    {last : Selected} (sorted : Keyset.Sorted Prod.fst batch)
    (hlast : batch.getLast? = some last) (id : ℕ+) (hid : (last.1 : Nat) < id) :
    (after.db.tables a.screen.1).get id = (r.db.tables a.screen.1).get id := by
  rw [finished.table]
  refine applyWrites_get_of_not_mem fun written => ?_
  have inBatch : id ∈ batch.map Prod.fst := (rotateRows_writes treated).1.subset
    (((updates_sublist writes).map Prod.fst).subset written)
  obtain ⟨row, mem, rfl⟩ := List.mem_map.mp inBatch
  exact absurd (PNat.coe_le_coe _ _ |>.mpr (sorted.le_last hlast mem)) (not_le.mpr hid)

theorem rotateLoop_ends (fuel lastId : Nat) (r : Rotating Rest)
    (enough : (candidates (screened a.sourceVersion) (r.db.tables a.screen.1) a.screen.2
      lastId).length < fuel) :
    ∃ ended, rotateLoop aes cipher nonces a fuel lastId r = some ended ∧
      Ends a r (rotateRows aes cipher nonces a (candidates (screened a.sourceVersion)
        (r.db.tables a.screen.1) a.screen.2 lastId) r.drawn) ended := by
  induction fuel generalizing lastId r with
  | zero => exact absurd enough (Nat.not_lt_zero _)
  | succ fuel ih =>
    generalize htodo : candidates (screened a.sourceVersion) (r.db.tables a.screen.1) a.screen.2
      lastId = todo at enough
    cases hlast : (todo.take BATCH_SIZE).getLast? with
    | none =>
      refine ⟨.returned r, by simp only [rotateLoop, htodo, hlast], ?_⟩
      obtain rfl : todo = [] := (List.take_eq_nil_iff.mp
        (List.getLast?_eq_none_iff.mp hlast)).resolve_left (by decide)
      exact Finished.nil r
    | some last =>
      have sorted : Keyset.Sorted Prod.fst (todo.take BATCH_SIZE) := by
        rw [← htodo]
        exact List.Pairwise.sublist (List.take_sublist _ _) (candidates_sorted _ _ _ _)
      have parts := rotateRows_append aes cipher nonces a (todo.take BATCH_SIZE)
        (todo.drop BATCH_SIZE) r.drawn
      rw [List.take_append_drop] at parts
      rw [parts]
      cases treated : rotateRows aes cipher nonces a (todo.take BATCH_SIZE) r.drawn with
      | error error =>
        refine ⟨.raised r error, ?_, rfl⟩
        simp only [rotateLoop, htodo, hlast, rotateBatch, treated]
      | ok done =>
        obtain ⟨writes, drawn⟩ := done
        obtain ⟨next, hbatch, finished⟩ := rotateBatch_ok treated
        -- what the next SELECT finds is what this one left over
        have rest : candidates (screened a.sourceVersion) (next.db.tables a.screen.1) a.screen.2
            last.1 = todo.drop BATCH_SIZE := by
          rw [candidates_congr (finished.after_batch treated sorted hlast), ← htodo]
          rw [← htodo] at hlast
          exact candidates_next hlast
        have nonempty : 0 < todo.length := List.length_pos_of_mem
          (List.mem_of_mem_take (List.mem_of_getLast? hlast))
        have shorter : (todo.drop BATCH_SIZE).length < fuel := by
          rw [List.length_drop, BATCH_SIZE]
          omega
        obtain ⟨ended, hended, ends⟩ := ih last.1 next (by rw [rest]; exact shorter)
        refine ⟨ended, by simp only [rotateLoop, htodo, hlast, hbatch, hended], ?_⟩
        rw [rest, finished.drawn] at ends
        simp only
        cases others : rotateRows aes cipher nonces a (todo.drop BATCH_SIZE) drawn with
        | error error =>
          rw [others] at ends
          cases ended with
          | returned after => exact ends
          | raised after error' => exact ends
        | ok more =>
          rw [others] at ends
          cases ended with
          | returned after => exact finished.trans ends
          | raised after error' => exact ends

theorem candidates_of_count {db : Database Rest} {version : Int} {screen : Screen}
    (none : screenCount db version screen = 0) (lastId : Nat) :
    candidates (screened version) (db.tables screen.1) screen.2 lastId = [] := by
  refine List.eq_nil_iff_forall_not_mem.mpr fun selected mem => ?_
  obtain ⟨_, hmatch, row, hrow, hpair⟩ := mem_candidates.mp mem
  have counted : selected.1 ∈ (db.tables screen.1).keysWhere
      (fun _ row => screened version (row.pairs screen.2)) :=
    Table.mem_keysWhere.mpr ⟨row, hrow, by rw [hpair]; exact hmatch⟩
  rw [List.length_eq_zero_iff.mp none] at counted
  cases counted

variable (aes cipher nonces a) in
/-- `_rotate_table` ends, and as one pass over the rows that are selected at its start. -/
theorem rotateTable_ends (db : Database Rest) (drawn : Nat) :
    ∃ ended, rotateTable aes cipher nonces a db drawn = some ended ∧
      Ends a ⟨db, drawn, 0, 0⟩ (rotateRows aes cipher nonces a (candidates
        (screened a.sourceVersion) (db.tables a.screen.1) a.screen.2 0) drawn) ended := by
  unfold rotateTable
  by_cases none : screenCount db a.sourceVersion a.screen = 0
  · rw [if_pos none, candidates_of_count none]
    exact ⟨_, rfl, Finished.nil ⟨db, drawn, 0, 0⟩⟩
  · rw [if_neg none]
    exact rotateLoop_ends _ 0 ⟨db, drawn, 0, 0⟩ (Nat.lt_succ_of_le (length_candidates_le _ _ _ _))

end Loop

-- What `_rotate_table` does at once, the script does statement by statement.

section Statements
variable {aes : AesGcm} {cipher : ContentCipher} {nonces : Nat → RandomTail} {args : Args}

/-- Some statements of the script lead from one world to the other. -/
def Leads (aes : AesGcm) (cipher : ContentCipher) (args : Args) (w w' : World Rest) : Prop :=
  ∃ randoms : List RandomTail,
    Replay.run (scriptStep aes cipher args) w (randoms.map .step) = some w'

theorem Leads.refl (w : World Rest) : Leads aes cipher args w w := ⟨[], rfl⟩

theorem Leads.trans {first second third : World Rest} (one : Leads aes cipher args first second)
    (two : Leads aes cipher args second third) : Leads aes cipher args first third := by
  obtain ⟨randoms, ran⟩ := one
  obtain ⟨more, ranMore⟩ := two
  refine ⟨randoms ++ more, ?_⟩
  rw [List.map_append, Replay.run_append]
  exact ⟨second, ran, ranMore⟩

theorem Leads.advance {db : Database Rest} {phase : Phase} {w : World Rest} (random : RandomTail)
    (stepped : advance aes cipher args db random phase = some w) :
    Leads aes cipher args ⟨db, some phase⟩ w := by
  refine ⟨[random], Replay.run_cons.mpr ⟨w, ?_, rfl⟩⟩
  simp only [scriptStep, Option.bind_some, stepped]

variable (aes cipher nonces args) in
/-- The UPDATEs of a batch, up to its commit or to the exception. -/
theorem leads_update {db : Database Rest} (loop : Loop) {batch : List Selected}
    (present : ∀ row ∈ batch, ∃ stored, (db.tables loop.screen.1).get row.1 = some stored)
    {a : TableArgs} (same : a.args = args) (drawn : Nat) (writes : List Selected)
    (batchUpdated : Nat) :
    Leads aes cipher args ⟨db, some (.update loop batch writes batchUpdated)⟩
      (match rotateRows aes cipher nonces a batch drawn with
        | .error _ => ⟨db, none⟩
        | .ok (more, _) =>
          ⟨db, some (.update loop [] (writes ++ more) (batchUpdated + more.length))⟩) := by
  induction batch generalizing drawn writes batchUpdated with
  | nil =>
    simp only [rotateRows, List.append_nil, List.length_nil, Nat.add_zero]
    exact Leads.refl _
  | cons row rest ih =>
    obtain ⟨stored, hstored⟩ := present row List.mem_cons_self
    have others := ih (fun row mem => present row (List.mem_cons_of_mem _ mem))
    rw [rotateRows, same]
    cases treated : rotateRow aes cipher args row.2 (nonces drawn) with
    | skipped =>
      refine Leads.trans (Leads.advance (nonces drawn) ?_) (others drawn writes batchUpdated)
      simp only [KeyRotation.advance, treated]
    | raised error =>
      refine Leads.advance (nonces drawn) ?_
      simp only [KeyRotation.advance, treated]
    | rotated pair =>
      have next := others (drawn + 1) (writes ++ [(row.1, pair)]) (batchUpdated + 1)
      refine Leads.trans (Leads.advance (nonces drawn)
        (w := ⟨db, some (.update loop rest (writes ++ [(row.1, pair)]) (batchUpdated + 1))⟩) ?_) ?_
      · simp only [KeyRotation.advance, treated, hstored]
      · cases hrest : rotateRows aes cipher nonces a rest (drawn + 1) with
        | error error =>
          rw [hrest] at next
          exact next
        | ok done =>
          rw [hrest] at next
          simpa [Nat.add_assoc, Nat.add_comm 1] using next

/-- Where the script stands after `_rotate_table`. -/
def Ended.world (rest : List Screen) : Ended Rest → World Rest
  | .returned r => ⟨r.db, some (.count rest)⟩
  | .raised r _ => ⟨r.db, none⟩

theorem leads_loop {screen : Screen} {rest : List Screen} (fuel lastId : Nat) (r : Rotating Rest)
    {ended : Ended Rest}
    (ran : rotateLoop aes cipher nonces ⟨args.fromVersion, args.toVersion, screen, false⟩ fuel
      lastId r = some ended) :
    Leads aes cipher args ⟨r.db, some (.select ⟨screen, rest, lastId⟩)⟩ (ended.world rest) := by
  induction fuel generalizing lastId r with
  | zero => cases ran
  | succ fuel ih =>
    rw [rotateLoop] at ran
    change (match (selectBatch (r.db.tables screen.1) screen.2 args.fromVersion lastId).getLast?
      with
      | none => some (.returned r)
      | some last =>
        match rotateBatch aes cipher nonces ⟨args.fromVersion, args.toVersion, screen, false⟩ r
          (selectBatch (r.db.tables screen.1) screen.2 args.fromVersion lastId) with
        | .error error => some (.raised r error)
        | .ok r => rotateLoop aes cipher nonces ⟨args.fromVersion, args.toVersion, screen, false⟩
          fuel last.1 r) = some ended at ran
    generalize hbatch : selectBatch (r.db.tables screen.1) screen.2 args.fromVersion lastId =
      batch at ran
    cases hlast : batch.getLast? with
    | none =>
      rw [hlast] at ran
      cases ran
      refine Leads.advance (nonces 0) ?_
      simp only [KeyRotation.advance, hbatch, hlast]
      rfl
    | some last =>
      rw [hlast] at ran
      have opened : Leads aes cipher args ⟨r.db, some (.select ⟨screen, rest, lastId⟩)⟩
          ⟨r.db, some (.update ⟨screen, rest, last.1⟩ batch [] 0)⟩ := by
        refine Leads.advance (nonces 0) ?_
        simp only [KeyRotation.advance, hbatch, hlast]
      have present : ∀ row ∈ batch, ∃ stored, (r.db.tables screen.1).get row.1 = some stored := by
        intro row mem
        obtain ⟨_, _, stored, hstored, _⟩ := mem_selectBatch (hbatch ▸ mem)
        exact ⟨stored, hstored⟩
      have treated := leads_update aes cipher nonces args ⟨screen, rest, last.1⟩ present
        (a := ⟨args.fromVersion, args.toVersion, screen, false⟩) rfl r.drawn [] 0
      refine opened.trans ?_
      unfold rotateBatch at ran
      cases hrows : rotateRows aes cipher nonces
          ⟨args.fromVersion, args.toVersion, screen, false⟩ batch r.drawn with
      | error error =>
        rw [hrows] at ran treated
        cases ran
        exact treated
      | ok done =>
        rw [hrows] at ran treated
        simp only [Bool.false_eq_true, if_false, List.nil_append, Nat.zero_add] at ran treated
        refine treated.trans (Leads.trans (Leads.advance (nonces 0) rfl) ?_)
        exact ih last.1 _ ran

/-- The script goes through a screen to where `_rotate_table` ends. -/
theorem leads_rotateTable {screen : Screen} {rest : List Screen} {db : Database Rest}
    {drawn : Nat} {ended : Ended Rest}
    (ran : rotateTable aes cipher nonces ⟨args.fromVersion, args.toVersion, screen, false⟩ db
      drawn = some ended) :
    Leads aes cipher args ⟨db, some (.count (screen :: rest))⟩ (ended.world rest) := by
  unfold rotateTable at ran
  split at ran
  · next none =>
    cases ran
    refine Leads.advance (nonces 0) ?_
    exact if_pos none
  · next some =>
    refine Leads.trans (Leads.advance (nonces 0) (if_neg some)) ?_
    exact leads_loop _ 0 ⟨db, drawn, 0, 0⟩ ran

end Statements

end KeyRotation
