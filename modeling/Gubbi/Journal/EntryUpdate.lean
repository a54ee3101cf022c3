import Gubbi.Crypto.KeyMaps
import Gubbi.Journal.Writers
import Gubbi.Library.Placeholders

/-!
# The update of an entry

`entries.update` with the columns as they are stored: texts as ciphertexts, a search vector
beside them, and a statement whose SET clause is put together from the fields that are
given. A call returns what it leaves with its result, so that a raise after a write would
show. The caller rolls a transaction back that raises.
-/

namespace EntryUpdate

open Text JournalEntries Cipher Placeholders
open JournalTables (Date Timestamp Sealed TopicId TopicRow)
open JournalWriters (isTextParameter)

universe u v

/-- A row of `entries`. -/
structure Row (V : Type u) extends JournalTables.EntryRow where
  searchVector : V
  indexedAt : Option Timestamp

/-- The tables of the user that the statements of an update touch. -/
structure Tables (V : Type u) (E : Type v) where
  topics : Table TopicId TopicRow
  entries : Table EntryId (Row V)
  embeddings : Table EntryId E

inductive UpdateError
  | entryNotFound
  | decryptionError
  /-- A `ValueError` with this message. -/
  | valueError (message : PyStr)
  | unicodeEncodeError
  /-- A param that its column does not take. -/
  | dataError
  /-- A text that is too long for its search vector. -/
  | programLimitExceeded
  deriving DecidableEq

/-- What an update takes from the process and the database. -/
structure Host (V : Type u) extends JournalWriters.TextSearch where
  aes : AesGcm
  cipher : ContentCipher
  /-- `date.fromisoformat`, with the message of its `ValueError`. -/
  fromIsoformat : PyStr → Except PyStr Date
  /-- `to_tsvector('english', ...)` of a text that fits. -/
  toTsvector : PyStr → V
  now : Timestamp
  /-- The random parts of the nonces of the content and of the reasoning. -/
  contentTail : RandomTail
  reasoningTail : RandomTail

inductive Param
  | timestamp (t : Timestamp)
  | bytes (b : Bytes)
  | text (s : PyStr)
  | date (d : Date)
  | textArray (texts : List PyStr)
  | int (n : Int)
  deriving DecidableEq

/-- The columns of a SET clause; that of the search vector takes a text. -/
inductive Column
  | updatedAt
  | contentEncrypted
  | contentNonce
  | searchVector
  | reasoningEncrypted
  | reasoningNonce
  | date
  | tags
  deriving DecidableEq, Repr

inductive Assignment
  | updatedAt (t : Timestamp)
  | contentEncrypted (b : Bytes)
  | contentNonce (b : Bytes)
  | searchVector (text : PyStr)
  | reasoningEncrypted (b : Bytes)
  | reasoningNonce (b : Bytes)
  | date (d : Date)
  | tags (texts : List PyStr)
  | indexedAtNull
  deriving DecidableEq

def Column.bind : Column → Param → Option Assignment
  | .updatedAt, .timestamp t => some (.updatedAt t)
  | .contentEncrypted, .bytes b => some (.contentEncrypted b)
  | .contentNonce, .bytes b => some (.contentNonce b)
  | .searchVector, .text s => some (.searchVector s)
  | .reasoningEncrypted, .bytes b => some (.reasoningEncrypted b)
  | .reasoningNonce, .bytes b => some (.reasoningNonce b)
  | .date, .date d => some (.date d)
  | .tags, .textArray texts => some (.tags texts)
  | _, _ => none

/-- asyncpg and the server take the text. -/
def Param.sendable : Param → Bool
  | .text s => isTextParameter s
  | .textArray texts => texts.all isTextParameter
  | _ => true

abbrev SetClause := Draft Param Column Assignment

/-- What is to be written, encrypted and parsed. -/
structure Changes where
  content : Option (PyStr × Sealed)
  reasoning : Option Sealed
  date : Option Date
  tags : Option (List PyStr)

def setContent (d : SetClause) : Option (PyStr × Sealed) → SetClause
  | none => d
  | some (text, columns) => ((d.add .contentEncrypted (.bytes columns.1)).add .contentNonce
      (.bytes columns.2)).add .searchVector (.text text)

def setReasoning (d : SetClause) : Option Sealed → SetClause
  | none => d
  | some columns => (d.add .reasoningEncrypted (.bytes columns.1)).add .reasoningNonce
      (.bytes columns.2)

def setDate (d : SetClause) : Option Date → SetClause
  | none => d
  | some date => d.add .date (.date date)

def setTags (d : SetClause) : Option (List PyStr) → SetClause
  | none => d
  | some tags => d.add .tags (.textArray tags)

def Changes.textChanged (c : Changes) : Bool := c.content.isSome || c.reasoning.isSome

/-- `set_parts` with `params`. -/
def setClause (now : Timestamp) (c : Changes) : SetClause :=
  let stamped : SetClause := Draft.start.add .updatedAt (.timestamp now)
  let d := setTags (setDate (setReasoning (setContent stamped c.content) c.reasoning) c.date) c.tags
  if c.textChanged then d.addLiteral .indexedAtNull else d

/-- The statement: its SET clause, and the placeholder of its WHERE. -/
structure Statement where
  set : SetClause
  entryParam : Nat
  params : List Param

/-- `entry_param` is numbered before the id is appended. -/
def statement (now : Timestamp) (c : Changes) (entryId : Int) : Statement where
  set := setClause now c
  entryParam := (setClause now c).params.length + 1
  params := (setClause now c).params ++ [.int entryId]

section Model
variable {V : Type u} {E : Type v} (host : Host V)

def Assignment.apply (row : Row V) : Assignment → Row V
  | .updatedAt t => { row with updatedAt := t }
  | .contentEncrypted b => { row with content := (b, row.content.2) }
  | .contentNonce b => { row with content := (row.content.1, b) }
  | .searchVector text => { row with searchVector := host.toTsvector text }
  | .reasoningEncrypted b => { row with reasoningEncrypted := some b }
  | .reasoningNonce b => { row with reasoningNonce := some b }
  | .date d => { row with date := d }
  | .tags texts => { row with tags := texts }
  | .indexedAtNull => { row with indexedAt := none }

/-- The value of the column can be computed. -/
def Assignment.fits : Assignment → Bool
  | .searchVector text => host.fitsTsvector text
  | _ => true

def keyOf : Int → Option EntryId
  | .ofNat id => some id
  | .negSucc _ => none

/-- One round trip: the row, and with it the topic that it returns. -/
def Statement.execute (db : Tables V E) (st : Statement) : Except UpdateError (Tables V E) :=
  if !st.params.all Param.sendable then .error .dataError
  else
    match st.set.parts.mapM (Part.assign Column.bind st.params), param st.params st.entryParam,
      param st.params 1 with
    | some assignments, some (.int entryId), some (.timestamp now) =>
      if !assignments.all (Assignment.fits host) then .error .programLimitExceeded
      else match (keyOf entryId).bind
        (fun id => (db.entries.get id).map (fun row => (id, row))) with
      | none => .ok db
      | some (id, row) =>
        let written := assignments.foldl (Assignment.apply host) row
        .ok { db with
          entries := db.entries.put id written
          topics := db.topics.modify written.topicId
            (fun topic => { topic with updatedAt := now }) }
    | _, _, _ => .error .dataError

/-- A parameter of type `integer`. -/
def isInt4 (n : Int) : Bool := -2147483648 ≤ n && n ≤ 2147483647

/-- `SELECT ... WHERE id = $1 AND deleted_at IS NULL FOR UPDATE`. -/
def lockRow (db : Tables V E) (entryId : Int) : Except UpdateError (Row V) :=
  if !isInt4 entryId then .error .dataError
  else
    match (keyOf entryId).bind db.entries.get with
    | none => .error .entryNotFound
    | some row => if row.deletedAt = none then .ok row else .error .entryNotFound

def invalidMode (mode : PyStr) : UpdateError :=
  .valueError (py "Invalid mode '" ++ mode ++ py "'. Use 'replace' or 'append'.")

/-- `content` is `NOT NULL`, so that it never decrypts to `None`. -/
def newContent (row : Row V) (content mode : PyStr) : Except UpdateError PyStr :=
  if mode = py "append" then
    match decryptOrRaise host.aes host.cipher row.content.1 row.content.2 with
    | .error _ => .error .decryptionError
    | .ok old => .ok (joinParagraphs old content)
  else if mode = py "replace" then .ok content
  else .error (invalidMode mode)

/-- Any other mode replaces the reasoning. -/
def newReasoning (row : Row V) (reasoning mode : PyStr) : Except UpdateError PyStr :=
  if mode = py "append" then
    match decryptContentField host.aes host.cipher row.reasoningEncrypted row.reasoningNonce with
    | .error _ => .error .decryptionError
    | .ok (some (c :: rest)) => .ok (joinParagraphs (c :: rest) reasoning)
    | .ok _ => .ok reasoning
  else .ok reasoning

/-- `cipher.encrypt`. -/
def sealText (text : PyStr) (tail : RandomTail) : Except UpdateError Sealed :=
  (encrypt host.aes host.cipher text tail).mapError (fun _ => .unicodeEncodeError)

def parseDate (date : PyStr) : Except UpdateError Date :=
  (host.fromIsoformat date).mapError .valueError

/-- An argument that is given is treated, and `None` stays. -/
def ifGiven {A B : Type} (arg : Option A) (f : A → Except UpdateError B) :
    Except UpdateError (Option B) :=
  match arg with
  | none => .ok none
  | some a => (f a).map some

/-- All that comes before the statement. -/
def changes (row : Row V) (content reasoning : Option PyStr) (mode : PyStr) (date : Option PyStr)
    (tags : Option (List PyStr)) : Except UpdateError Changes := do
  let content ← ifGiven content (fun content => newContent host row content mode)
  let reasoning ← ifGiven reasoning (fun reasoning => newReasoning host row reasoning mode)
  let content ← ifGiven content (fun text =>
    (sealText host text host.contentTail).map (fun columns => (text, columns)))
  let reasoning ← ifGiven reasoning (fun text => sealText host text host.reasoningTail)
  let date ← ifGiven date (parseDate host)
  return ⟨content, reasoning, date, tags⟩

/-- `entries.update`. -/
def update (db : Tables V E) (entryId : Int) (content reasoning : Option PyStr) (mode : PyStr)
    (date : Option PyStr) (tags : Option (List PyStr)) : Tables V E × Except UpdateError Unit :=
  match lockRow db entryId with
  | .error e => (db, .error e)
  | .ok row =>
    match changes host row content reasoning mode date tags with
    | .error e => (db, .error e)
    | .ok c =>
      match (statement host.now c entryId).execute host db with
      | .error e => (db, .error e)
      | .ok written =>
        -- DELETE FROM entry_embeddings
        match c.textChanged, keyOf entryId with
        | true, some id => ({ written with embeddings := written.embeddings.erase id }, .ok ())
        | _, _ => (written, .ok ())

end Model

def contentAssignments : Option (PyStr × Sealed) → List Assignment
  | none => []
  | some (text, columns) =>
    [.contentEncrypted columns.1, .contentNonce columns.2, .searchVector text]

def reasoningAssignments : Option Sealed → List Assignment
  | none => []
  | some columns => [.reasoningEncrypted columns.1, .reasoningNonce columns.2]

/-- The assignments that the SET clause is meant to make. -/
def meant (now : Timestamp) (c : Changes) : List Assignment :=
  [.updatedAt now] ++ contentAssignments c.content ++ reasoningAssignments c.reasoning ++
    c.date.toList.map .date ++ c.tags.toList.map .tags ++
    if c.textChanged then [.indexedAtNull] else []

theorem assignments_setContent {d : SetClause} {as : List Assignment}
    (before : d.assignments Column.bind [] = some as) (content : Option (PyStr × Sealed)) :
    (setContent d content).assignments Column.bind [] =
      some (as ++ contentAssignments content) := by
  cases content with
  | none => rw [setContent, before, contentAssignments, List.append_nil]
  | some pair =>
    obtain ⟨text, ciphertext, nonce⟩ := pair
    have first : (d.add .contentEncrypted (.bytes ciphertext)).assignments Column.bind [] =
        some (as ++ [.contentEncrypted ciphertext]) := assignments_add before rfl []
    have second : ((d.add .contentEncrypted (.bytes ciphertext)).add .contentNonce
        (.bytes nonce)).assignments Column.bind [] =
        some (as ++ [.contentEncrypted ciphertext] ++ [.contentNonce nonce]) :=
      assignments_add first rfl []
    have third : (setContent d (some (text, ciphertext, nonce))).assignments Column.bind [] =
        some (as ++ [.contentEncrypted ciphertext] ++ [.contentNonce nonce] ++
          [.searchVector text]) := assignments_add second rfl []
    rw [List.append_assoc, List.append_assoc] at third
    exact third

theorem assignments_setReasoning {d : SetClause} {as : List Assignment}
    (before : d.assignments Column.bind [] = some as) (reasoning : Option Sealed) :
    (setReasoning d reasoning).assignments Column.bind [] =
      some (as ++ reasoningAssignments reasoning) := by
  cases reasoning with
  | none => rw [setReasoning, before, reasoningAssignments, List.append_nil]
  | some columns =>
    obtain ⟨ciphertext, nonce⟩ := columns
    have first : (d.add .reasoningEncrypted (.bytes ciphertext)).assignments Column.bind [] =
        some (as ++ [.reasoningEncrypted ciphertext]) := assignments_add before rfl []
    have second : (setReasoning d (some (ciphertext, nonce))).assignments Column.bind [] =
        some (as ++ [.reasoningEncrypted ciphertext] ++ [.reasoningNonce nonce]) :=
      assignments_add first rfl []
    rw [List.append_assoc] at second
    exact second

theorem assignments_setDate {d : SetClause} {as : List Assignment}
    (before : d.assignments Column.bind [] = some as) (date : Option Date) :
    (setDate d date).assignments Column.bind [] = some (as ++ date.toList.map .date) := by
  cases date with
  | none => exact before.trans (congrArg some (List.append_nil _).symm)
  | some date => exact assignments_add before rfl []

theorem assignments_setTags {d : SetClause} {as : List Assignment}
    (before : d.assignments Column.bind [] = some as) (tags : Option (List PyStr)) :
    (setTags d tags).assignments Column.bind [] = some (as ++ tags.toList.map .tags) := by
  cases tags with
  | none => exact before.trans (congrArg some (List.append_nil _).symm)
  | some tags => exact assignments_add before rfl []

/-- Whatever fields are given, each placeholder is bound to the value it was numbered for. -/
theorem assignments_setClause (now : Timestamp) (c : Changes) (more : List Param) :
    (setClause now c).assignments Column.bind more = some (meant now c) := by
  have stamped : (Draft.start.add .updatedAt (.timestamp now) : SetClause).assignments
      Column.bind [] = some [.updatedAt now] := assignments_add (assignments_start []) rfl []
  have fields := assignments_setTags (assignments_setDate (assignments_setReasoning
    (assignments_setContent stamped c.content) c.reasoning) c.date) c.tags
  rw [assignments_more, setClause, meant]
  cases c.textChanged with
  | true => exact assignments_addLiteral fields _ []
  | false =>
    rw [if_neg Bool.false_ne_true, if_neg Bool.false_ne_true, List.append_nil]
    exact fields

def contentParams : Option (PyStr × Sealed) → List Param
  | none => []
  | some (text, columns) => [.bytes columns.1, .bytes columns.2, .text text]

def reasoningParams : Option Sealed → List Param
  | none => []
  | some columns => [.bytes columns.1, .bytes columns.2]

theorem params_setClause (now : Timestamp) (c : Changes) :
    (setClause now c).params = .timestamp now :: (contentParams c.content ++
      reasoningParams c.reasoning ++ c.date.toList.map .date ++
      c.tags.toList.map .textArray) := by
  have content : ∀ d : SetClause, (setContent d c.content).params =
      d.params ++ contentParams c.content := by
    intro d
    cases c.content with
    | none => exact (List.append_nil _).symm
    | some pair => simp [setContent, Draft.add, contentParams]
  have reasoning : ∀ d : SetClause, (setReasoning d c.reasoning).params =
      d.params ++ reasoningParams c.reasoning := by
    intro d
    cases c.reasoning with
    | none => exact (List.append_nil _).symm
    | some columns => simp [setReasoning, Draft.add, reasoningParams]
  have date : ∀ d : SetClause, (setDate d c.date).params = d.params ++ c.date.toList.map .date := by
    intro d
    cases c.date with
    | none => exact (List.append_nil _).symm
    | some date => rfl
  have tags : ∀ d : SetClause, (setTags d c.tags).params =
      d.params ++ c.tags.toList.map .textArray := by
    intro d
    cases c.tags with
    | none => exact (List.append_nil _).symm
    | some tags => rfl
  have literal : ∀ d : SetClause, (if c.textChanged then d.addLiteral .indexedAtNull
      else d).params = d.params := by
    intro d
    cases c.textChanged with
    | true => rfl
    | false => rfl
  rw [setClause, literal, tags, date, reasoning, content]
  simp [Draft.start, Draft.add]

/-- The texts of the statement that the server has to take. -/
def Changes.sendable (c : Changes) : Bool :=
  c.content.all (fun pair => isTextParameter pair.1) &&
    c.tags.all (fun tags => tags.all isTextParameter)

theorem statement_sendable (now : Timestamp) (c : Changes) (entryId : Int) :
    (statement now c entryId).params.all Param.sendable = c.sendable := by
  have content : (contentParams c.content).all Param.sendable =
      c.content.all (fun pair => isTextParameter pair.1) := by
    cases c.content with
    | none => rfl
    | some pair => simp [contentParams, Param.sendable]
  have reasoning : (reasoningParams c.reasoning).all Param.sendable = true := by
    cases c.reasoning with
    | none => rfl
    | some columns => rfl
  have date : (c.date.toList.map Param.date).all Param.sendable = true := by
    cases c.date with
    | none => rfl
    | some date => rfl
  have tags : (c.tags.toList.map Param.textArray).all Param.sendable =
      c.tags.all (fun tags => tags.all isTextParameter) := by
    cases c.tags with
    | none => rfl
    | some tags => simp [Param.sendable]
  rw [statement, params_setClause, Changes.sendable]
  simp only [List.cons_append, List.all_cons, List.all_append, content, reasoning, date, tags,
    List.all_nil, Param.sendable, Bool.and_true, Bool.true_and]

/-- The search vector of a new content is within its limit. -/
def Changes.fits {V : Type u} (host : Host V) (c : Changes) : Bool :=
  c.content.all (fun pair => host.fitsTsvector pair.1)

theorem meant_fits {V : Type u} (host : Host V) (now : Timestamp) (c : Changes) :
    (meant now c).all (Assignment.fits host) = c.fits host := by
  have content : (contentAssignments c.content).all (Assignment.fits host) = c.fits host := by
    rw [Changes.fits]
    cases c.content with
    | none => rfl
    | some pair => simp [contentAssignments, Assignment.fits]
  have reasoning : (reasoningAssignments c.reasoning).all (Assignment.fits host) = true := by
    cases c.reasoning with
    | none => rfl
    | some columns => rfl
  have date : (c.date.toList.map Assignment.date).all (Assignment.fits host) = true := by
    cases c.date with
    | none => rfl
    | some date => rfl
  have tags : (c.tags.toList.map Assignment.tags).all (Assignment.fits host) = true := by
    cases c.tags with
    | none => rfl
    | some tags => rfl
  have literal : (if c.textChanged then [Assignment.indexedAtNull] else []).all
      (Assignment.fits host) = true := by
    cases c.textChanged with
    | true => rfl
    | false => rfl
  rw [meant, List.all_append, List.all_append, List.all_append, List.all_append, List.all_append,
    content, reasoning, date, tags, literal]
  simp [Assignment.fits]

/-- The server takes the statement and computes it. -/
def Changes.accepted {V : Type u} (host : Host V) (c : Changes) : Bool :=
  c.sendable && c.fits host

/-- The WHERE and the `updated_at` of the topic find their own params. -/
theorem statement_params (now : Timestamp) (c : Changes) (entryId : Int) :
    param (statement now c entryId).params (statement now c entryId).entryParam =
        some (.int entryId) ∧
      param (statement now c entryId).params 1 = some (.timestamp now) := by
  refine ⟨param_next _ _, ?_⟩
  rw [statement, params_setClause]
  rfl

section Calls
variable {V : Type u} {E : Type v} {host : Host V} {db db' : Tables V E} {entryId : Int}
  {content reasoning : Option PyStr} {mode : PyStr} {date : Option PyStr}
  {tags : Option (List PyStr)}

/-- The row with the changes in it. -/
def Changes.write (host : Host V) (c : Changes) (row : Row V) : Row V :=
  { row with
    updatedAt := host.now
    content := (c.content.map Prod.snd).getD row.content
    searchVector := (c.content.map (fun pair => host.toTsvector pair.1)).getD row.searchVector
    reasoningEncrypted := (c.reasoning.map Prod.fst).or row.reasoningEncrypted
    reasoningNonce := (c.reasoning.map Prod.snd).or row.reasoningNonce
    date := c.date.getD row.date
    tags := c.tags.getD row.tags
    indexedAt := if c.textChanged then none else row.indexedAt }

theorem apply_contentAssignments (content : Option (PyStr × Sealed)) (row : Row V) :
    (contentAssignments content).foldl (Assignment.apply host) row = { row with
      content := (content.map Prod.snd).getD row.content
      searchVector :=
        (content.map (fun pair => host.toTsvector pair.1)).getD row.searchVector } := by
  cases content with
  | none => rfl
  | some pair => rfl

theorem apply_reasoningAssignments (reasoning : Option Sealed) (row : Row V) :
    (reasoningAssignments reasoning).foldl (Assignment.apply host) row = { row with
      reasoningEncrypted := (reasoning.map Prod.fst).or row.reasoningEncrypted
      reasoningNonce := (reasoning.map Prod.snd).or row.reasoningNonce } := by
  cases reasoning with
  | none => rfl
  | some columns => rfl

theorem apply_dateAssignment (date : Option Date) (row : Row V) :
    (date.toList.map Assignment.date).foldl (Assignment.apply host) row =
      { row with date := date.getD row.date } := by
  cases date with
  | none => rfl
  | some date => rfl

theorem apply_tagsAssignment (tags : Option (List PyStr)) (row : Row V) :
    (tags.toList.map Assignment.tags).foldl (Assignment.apply host) row =
      { row with tags := tags.getD row.tags } := by
  cases tags with
  | none => rfl
  | some tags => rfl

theorem apply_meant (c : Changes) (row : Row V) :
    (meant host.now c).foldl (Assignment.apply host) row = c.write host row := by
  simp only [meant, List.foldl_append, apply_contentAssignments, apply_reasoningAssignments,
    apply_dateAssignment, apply_tagsAssignment, Changes.write]
  cases c.textChanged with
  | true => rfl
  | false => rfl

/-- The tables after an update of a row. -/
def written (host : Host V) (db : Tables V E) (id : EntryId) (row : Row V) (c : Changes) :
    Tables V E where
  topics := db.topics.modify row.topicId (fun topic => { topic with updatedAt := host.now })
  entries := db.entries.put id (c.write host row)
  embeddings := if c.textChanged then db.embeddings.erase id else db.embeddings

theorem keyOf_eq_some {id : EntryId} : keyOf entryId = some id ↔ entryId = id := by
  cases entryId with
  | ofNat n =>
    rw [keyOf, Option.some.injEq]
    exact Int.ofNat_inj.symm
  | negSucc n =>
    refine iff_of_false (Option.some_ne_none id).symm fun negative => ?_
    have nonneg := Int.natCast_nonneg id
    rw [← negative] at nonneg
    exact absurd nonneg (by simp)

theorem lockRow_eq_ok {row : Row V} : lockRow db entryId = .ok row ↔
    ∃ id : EntryId, entryId = id ∧ isInt4 entryId = true ∧ db.entries.get id = some row ∧
      row.deletedAt = none := by
  unfold lockRow
  cases int4 : isInt4 entryId with
  | false => simp
  | true =>
    cases hfound : (keyOf entryId).bind db.entries.get with
    | none =>
      refine iff_of_false (by simp) ?_
      rintro ⟨id, hid, _, hrow, _⟩
      rw [keyOf_eq_some.mpr hid, Option.bind_some, hrow] at hfound
      cases hfound
    | some found =>
      obtain ⟨id, hkey, hrow⟩ := Option.bind_eq_some_iff.mp hfound
      by_cases live : found.deletedAt = none
      · simp only [Bool.not_true, Bool.false_eq_true, if_false, if_pos live, Except.ok.injEq]
        constructor
        · rintro rfl
          exact ⟨id, keyOf_eq_some.mp hkey, trivial, hrow, live⟩
        · rintro ⟨id', hid', _, hrow', _⟩
          obtain rfl : id = id' := Option.some.inj (hkey.symm.trans (keyOf_eq_some.mpr hid'))
          exact Option.some.inj (hrow.symm.trans hrow')
      · simp only [Bool.not_true, Bool.false_eq_true, if_false, if_neg live]
        refine iff_of_false (by simp) ?_
        rintro ⟨id', hid', _, hrow', live'⟩
        obtain rfl : id = id' := Option.some.inj (hkey.symm.trans (keyOf_eq_some.mpr hid'))
        obtain rfl : found = row := Option.some.inj (hrow.symm.trans hrow')
        exact live live'

theorem execute_statement (host : Host V) {id : EntryId} {row : Row V}
    (hrow : db.entries.get id = some row) (c : Changes) :
    (statement host.now c (id : Int)).execute host db =
      if c.accepted host then .ok { db with
        entries := db.entries.put id (c.write host row)
        topics := db.topics.modify row.topicId (fun topic => { topic with updatedAt := host.now }) }
      else .error (if c.sendable then .programLimitExceeded else .dataError) := by
  obtain ⟨whereId, first⟩ := statement_params host.now c (id : Int)
  have assigned : (statement host.now c (id : Int)).set.parts.mapM
      (Part.assign Column.bind (statement host.now c (id : Int)).params) =
      some (meant host.now c) := assignments_setClause host.now c [.int id]
  rw [Statement.execute, statement_sendable, Changes.accepted]
  cases c.sendable with
  | false => rfl
  | true =>
    have found : (keyOf (id : Int)).bind (fun key => (db.entries.get key).map
        (fun row => (key, row))) = some (id, row) := by
      rw [keyOf_eq_some.mpr rfl, Option.bind_some, hrow]
      rfl
    simp only [Bool.not_true, Bool.false_eq_true, if_false, if_true, assigned, whereId, first,
      meant_fits, found, apply_meant, Bool.true_and]
    cases c.fits host with
    | false => rfl
    | true => rfl

/-- A call raises and writes nothing, or it writes all the changes to its row. -/
theorem update_cases (host : Host V) (db : Tables V E) (entryId : Int)
    (content reasoning : Option PyStr) (mode : PyStr) (date : Option PyStr)
    (tags : Option (List PyStr)) :
    (∃ e, update host db entryId content reasoning mode date tags = (db, .error e) ∧
      ∀ row c, lockRow db entryId = .ok row →
        changes host row content reasoning mode date tags = .ok c → c.accepted host = false) ∨
    ∃ (id : EntryId) (row : Row V) (c : Changes), entryId = id ∧ lockRow db entryId = .ok row ∧
      changes host row content reasoning mode date tags = .ok c ∧ c.accepted host = true ∧
      update host db entryId content reasoning mode date tags =
        (written host db id row c, .ok ()) := by
  unfold update
  cases hlock : lockRow db entryId with
  | error e => exact Or.inl ⟨e, rfl, fun row c locked => by cases locked⟩
  | ok row =>
    cases hchanges : changes host row content reasoning mode date tags with
    | error e =>
      refine Or.inl ⟨e, by simp only [hchanges], fun row' c locked prepared => ?_⟩
      cases locked
      rw [hchanges] at prepared
      cases prepared
    | ok c =>
      obtain ⟨id, rfl, int4, hrow, live⟩ := lockRow_eq_ok.mp hlock
      have executed := execute_statement host hrow c
      cases sends : c.accepted host with
      | false =>
        refine Or.inl ⟨if c.sendable then .programLimitExceeded else .dataError, ?_,
          fun row' c' locked prepared => ?_⟩
        · simp only [hchanges, executed, sends, Bool.false_eq_true, if_false]
        · cases locked
          cases hchanges.symm.trans prepared
          exact sends
      | true =>
        refine Or.inr ⟨id, row, c, rfl, rfl, hchanges, sends, ?_⟩
        simp only [hchanges, executed, sends, if_true, keyOf_eq_some.mpr rfl, written]
        cases c.textChanged with
        | true => rfl
        | false => rfl

theorem ifGiven_eq_ok {A B : Type} {arg : Option A} {f : A → Except UpdateError B}
    {out : Option B} : ifGiven arg f = .ok out ↔
      (arg = none ∧ out = none) ∨ ∃ a b, arg = some a ∧ f a = .ok b ∧ out = some b := by
  cases arg with
  | none => simp [ifGiven, eq_comm]
  | some a =>
    rw [ifGiven, Fallible.map_eq_ok]
    constructor
    · rintro ⟨b, done, rfl⟩
      exact Or.inr ⟨a, b, rfl, done, rfl⟩
    · rintro (⟨absent, _⟩ | ⟨_, b, same, done, rfl⟩)
      · cases absent
      · cases same
        exact ⟨b, done, rfl⟩

theorem changes_eq_ok {row : Row V} {c : Changes} :
    changes host row content reasoning mode date tags = .ok c ↔
      ∃ content' reasoning',
        ifGiven content (fun content => newContent host row content mode) = .ok content' ∧
        ifGiven reasoning (fun reasoning => newReasoning host row reasoning mode) =
          .ok reasoning' ∧
        ifGiven content' (fun text => (sealText host text host.contentTail).map
          (fun columns => (text, columns))) = .ok c.content ∧
        ifGiven reasoning' (fun text => sealText host text host.reasoningTail) =
          .ok c.reasoning ∧
        ifGiven date (parseDate host) = .ok c.date ∧ c.tags = tags := by
  obtain ⟨newContent, newReasoning, newDate, newTags⟩ := c
  simp only [changes, Fallible.bind_eq_ok, pure, Except.pure, Except.ok.injEq, Changes.mk.injEq]
  constructor
  · rintro ⟨text, htext, other, hother, _, hcontent, _, hreasoning, _, hdate, rfl, rfl, rfl, rfl⟩
    exact ⟨text, other, htext, hother, hcontent, hreasoning, hdate, rfl⟩
  · rintro ⟨text, other, htext, hother, hcontent, hreasoning, hdate, rfl⟩
    exact ⟨text, htext, other, hother, _, hcontent, _, hreasoning, _, hdate, rfl, rfl, rfl, rfl⟩

theorem ifGiven_error {A B : Type} {arg : Option A} {f : A → Except UpdateError B} {e : UpdateError}
    (failed : ifGiven arg f = .error e) : ∃ a, f a = .error e := by
  cases arg with
  | none => cases failed
  | some a =>
    cases done : f a with
    | error e' =>
      rw [ifGiven, done] at failed
      cases failed
      exact ⟨a, done⟩
    | ok b =>
      rw [ifGiven, done] at failed
      cases failed

theorem newContent_found (row : Row V) (argument : PyStr) :
    newContent host row argument mode ≠ .error .entryNotFound := by
  unfold newContent
  split
  · split <;> simp
  · split <;> simp [invalidMode]

theorem newReasoning_found (row : Row V) (argument : PyStr) :
    newReasoning host row argument mode ≠ .error .entryNotFound := by
  unfold newReasoning
  split
  · split <;> simp
  · simp

theorem sealText_found (text : PyStr) (tail : RandomTail) :
    sealText host text tail ≠ .error .entryNotFound := by
  unfold sealText
  cases encrypt host.aes host.cipher text tail <;> simp [Except.mapError]

theorem parseDate_found (argument : PyStr) : parseDate host argument ≠ .error .entryNotFound := by
  unfold parseDate
  cases host.fromIsoformat argument <;> simp [Except.mapError]

/-- Only the lookup of the row finds no entry. -/
theorem changes_found (row : Row V) :
    changes host row content reasoning mode date tags ≠ .error .entryNotFound := by
  intro failed
  simp only [changes, Fallible.bind_eq_error] at failed
  rcases failed with failed | ⟨_, _, failed | ⟨_, _, failed | ⟨_, _, failed |
    ⟨_, _, failed | ⟨_, _, failed⟩⟩⟩⟩⟩
  · obtain ⟨argument, failed⟩ := ifGiven_error failed
    exact newContent_found row argument failed
  · obtain ⟨argument, failed⟩ := ifGiven_error failed
    exact newReasoning_found row argument failed
  · obtain ⟨text, failed⟩ := ifGiven_error failed
    exact sealText_found text host.contentTail (Fallible.map_eq_error.mp failed)
  · obtain ⟨text, failed⟩ := ifGiven_error failed
    exact sealText_found text host.reasoningTail failed
  · obtain ⟨argument, failed⟩ := ifGiven_error failed
    exact parseDate_found argument failed
  · cases failed

theorem update_notFound_iff :
    (update host db entryId content reasoning mode date tags).2 = .error .entryNotFound ↔
      lockRow db entryId = .error .entryNotFound := by
  unfold update
  cases hlock : lockRow db entryId with
  | error e => simp
  | ok row =>
    refine iff_of_false ?_ (by simp)
    cases hchanges : changes host row content reasoning mode date tags with
    | error e =>
      simp only [hchanges]
      intro same
      cases same
      exact changes_found row hchanges
    | ok c =>
      obtain ⟨id, rfl, _, hrow, _⟩ := lockRow_eq_ok.mp hlock
      simp only [hchanges, execute_statement host hrow]
      cases c.accepted host with
      | false => cases c.sendable <;> simp
      | true => cases c.textChanged <;> simp [keyOf]

def modeOf (mode : PyStr) : Option Mode :=
  if mode = py "append" then some .append
  else if mode = py "replace" then some .replace
  else none

/-- The text that the content becomes. -/
def ContentText (host : Host V) (m : Mode) (before : Row V) (argument new : PyStr) : Prop :=
  match m with
  | .replace => new = argument
  | .append => ∃ old,
    decryptOrRaise host.aes host.cipher before.content.1 before.content.2 = .ok old ∧
      new = strip (old ++ py "\n\n" ++ argument)

/-- The text that the reasoning becomes; without one before, it is the argument. -/
def ReasoningText (host : Host V) (m : Mode) (before : Row V) (argument new : PyStr) : Prop :=
  match m with
  | .replace => new = argument
  | .append => ∃ old, decryptContentField host.aes host.cipher before.reasoningEncrypted
      before.reasoningNonce = .ok old ∧
      new = if old.getD [] = [] then argument else strip (old.getD [] ++ py "\n\n" ++ argument)

/-- The update has changed one row, and nothing of it that it was not given. -/
structure Applied (host : Host V) (m : Mode) (db after : Tables V E) (id : EntryId)
    (old new : Row V) (content reasoning date : Option PyStr) (tags : Option (List PyStr)) :
    Prop where
  found : db.entries.get id = some old ∧ old.deletedAt = none
  stored : after.entries.get id = some new
  contentText : match content with
    | none => new.content = old.content ∧ new.searchVector = old.searchVector
    | some argument => ∃ text, ContentText host m old argument text ∧
      decryptOrRaise host.aes host.cipher new.content.1 new.content.2 = .ok text ∧
      new.searchVector = host.toTsvector text
  reasoningText : match reasoning with
    | none => new.reasoningEncrypted = old.reasoningEncrypted ∧
      new.reasoningNonce = old.reasoningNonce
    | some argument => ∃ text, ReasoningText host m old argument text ∧
      decryptContentField host.aes host.cipher new.reasoningEncrypted new.reasoningNonce =
        .ok (some text)
  dateGiven : match date with
    | none => new.date = old.date
    | some argument => host.fromIsoformat argument = .ok new.date
  tagsGiven : new.tags = tags.getD old.tags
  indexedAt : new.indexedAt =
    if content.isSome || reasoning.isSome then none else old.indexedAt
  updatedAt : new.updatedAt = host.now
  others : new.topicId = old.topicId ∧ new.conversationId = old.conversationId ∧
    new.createdAt = old.createdAt ∧ new.deletedAt = old.deletedAt
  entries : ∀ key, key ≠ id → after.entries.get key = db.entries.get key
  embeddings : ∀ key, after.embeddings.get key =
    if key = id ∧ (content.isSome || reasoning.isSome) = true then none
    else db.embeddings.get key
  topics : ∀ key, after.topics.get key = (db.topics.get key).map (fun topic =>
    if key = old.topicId then { topic with updatedAt := host.now } else topic)

theorem newContent_eq_ok {row : Row V} {argument new : PyStr} :
    newContent host row argument mode = .ok new ↔
      ∃ m, modeOf mode = some m ∧ ContentText host m row argument new := by
  unfold newContent modeOf
  by_cases append : mode = py "append"
  · simp only [if_pos append, Option.some.injEq, exists_eq_left']
    cases hold : decryptOrRaise host.aes host.cipher row.content.1 row.content.2 with
    | error e => simp [ContentText, hold]
    | ok old => simp [ContentText, hold, joinParagraphs, eq_comm]
  · rw [if_neg append, if_neg append]
    by_cases replace : mode = py "replace"
    · simp only [if_pos replace, Option.some.injEq, exists_eq_left', ContentText, Except.ok.injEq]
      exact eq_comm
    · simp [if_neg replace]

theorem newReasoning_eq_ok {m : Mode} (known : modeOf mode = some m) {row : Row V}
    {argument new : PyStr} :
    newReasoning host row argument mode = .ok new ↔ ReasoningText host m row argument new := by
  unfold newReasoning
  unfold modeOf at known
  by_cases append : mode = py "append"
  · rw [if_pos append] at known ⊢
    cases known
    cases hold : decryptContentField host.aes host.cipher row.reasoningEncrypted
        row.reasoningNonce with
    | error e => simp [ReasoningText, hold]
    | ok old =>
      simp only [ReasoningText, hold, Except.ok.injEq, exists_eq_left']
      cases old with
      | none => simp only [Except.ok.injEq, Option.getD_none, if_true]; exact eq_comm
      | some old =>
        cases old with
        | nil => simp only [Except.ok.injEq, Option.getD_some, if_true]; exact eq_comm
        | cons c rest =>
          simp only [Except.ok.injEq, Option.getD_some, List.cons_ne_nil, if_false, joinParagraphs]
          exact eq_comm
  · rw [if_neg append] at known ⊢
    by_cases replace : mode = py "replace"
    · rw [if_pos replace] at known
      cases known
      rw [ReasoningText, Except.ok.injEq]
      exact eq_comm
    · rw [if_neg replace] at known
      cases known

/-- What is encrypted decrypts. -/
theorem decrypt_sealText {text : PyStr} {tail : RandomTail} {columns : Sealed}
    (done : sealText host text tail = .ok columns) :
    decrypt host.aes host.cipher columns.1 columns.2 = .ok text := by
  rw [sealText, Fallible.mapError_eq_ok] at done
  exact decrypt_encryptWithVersion done

theorem sealText_isOk (host : Host V) {text : PyStr} (tail : RandomTail) :
    (∃ columns, sealText host text tail = .ok columns) ↔ (encodeUtf8 text).isSome = true := by
  rw [← KeyMaps.encrypt_isOk host.aes host.cipher text tail]
  exact exists_congr fun _ => Fallible.mapError_eq_ok

theorem content_of_changes {row : Row V} {c : Changes}
    (prepared : changes host row content reasoning mode date tags = .ok c) :
    (content = none ∧ c.content = none) ∨ ∃ argument text columns, content = some argument ∧
      newContent host row argument mode = .ok text ∧
      sealText host text host.contentTail = .ok columns ∧ c.content = some (text, columns) := by
  obtain ⟨text', _, htext, _, hcontent, _⟩ := changes_eq_ok.mp prepared
  rcases ifGiven_eq_ok.mp htext with ⟨absent, rfl⟩ | ⟨argument, text, given, hnew, rfl⟩
  · exact Or.inl ⟨absent, (Except.ok.inj hcontent).symm⟩
  · rcases ifGiven_eq_ok.mp hcontent with ⟨absent, _⟩ | ⟨_, pair, same, sealed', stored⟩
    · cases absent
    · cases same
      obtain ⟨columns, hsealed, rfl⟩ := Fallible.map_eq_ok.mp sealed'
      exact Or.inr ⟨argument, text, columns, given, hnew, hsealed, stored⟩

theorem reasoning_of_changes {row : Row V} {c : Changes}
    (prepared : changes host row content reasoning mode date tags = .ok c) :
    (reasoning = none ∧ c.reasoning = none) ∨ ∃ argument text columns, reasoning = some argument ∧
      newReasoning host row argument mode = .ok text ∧
      sealText host text host.reasoningTail = .ok columns ∧ c.reasoning = some columns := by
  obtain ⟨_, text', _, htext, _, hreasoning, _⟩ := changes_eq_ok.mp prepared
  rcases ifGiven_eq_ok.mp htext with ⟨absent, rfl⟩ | ⟨argument, text, given, hnew, rfl⟩
  · exact Or.inl ⟨absent, (Except.ok.inj hreasoning).symm⟩
  · rcases ifGiven_eq_ok.mp hreasoning with ⟨absent, _⟩ | ⟨_, columns, same, hsealed, stored⟩
    · cases absent
    · cases same
      exact Or.inr ⟨argument, text, columns, given, hnew, hsealed, stored⟩

theorem textChanged_of_changes {row : Row V} {c : Changes}
    (prepared : changes host row content reasoning mode date tags = .ok c) :
    c.textChanged = (content.isSome || reasoning.isSome) := by
  have hcontent : c.content.isSome = content.isSome := by
    rcases content_of_changes prepared with ⟨rfl, absent⟩ | ⟨_, _, _, rfl, _, _, stored⟩
    · rw [absent]
      rfl
    · rw [stored]
      rfl
  have hreasoning : c.reasoning.isSome = reasoning.isSome := by
    rcases reasoning_of_changes prepared with ⟨rfl, absent⟩ | ⟨_, _, _, rfl, _, _, stored⟩
    · rw [absent]
      rfl
    · rw [stored]
      rfl
  rw [Changes.textChanged, hcontent, hreasoning]

theorem written_applied {m : Mode} (known : modeOf mode = some m) {id : EntryId} {row : Row V}
    {c : Changes} (hrow : db.entries.get id = some row) (live : row.deletedAt = none)
    (prepared : changes host row content reasoning mode date tags = .ok c) :
    Applied host m db (written host db id row c) id row (c.write host row) content reasoning date
      tags := by
  have changed := textChanged_of_changes prepared
  obtain ⟨_, _, _, _, _, _, hdate, htags⟩ := changes_eq_ok.mp prepared
  refine ⟨⟨hrow, live⟩, Table.get_put_self .., ?_, ?_, ?_, ?_, ?_, rfl, ⟨rfl, rfl, rfl, rfl⟩,
    ?_, ?_, ?_⟩
  · rcases content_of_changes prepared with ⟨rfl, absent⟩ |
      ⟨argument, text, columns, rfl, hnew, hsealed, stored⟩
    · exact ⟨by rw [Changes.write, absent]; rfl, by rw [Changes.write, absent]; rfl⟩
    · obtain ⟨m', known', became⟩ := newContent_eq_ok.mp hnew
      cases known.symm.trans known'
      refine ⟨text, became, ?_, by rw [Changes.write, stored]; rfl⟩
      rw [Changes.write, stored]
      rw [decryptOrRaise, Option.map_some, Option.getD_some, decrypt_sealText hsealed]
  · rcases reasoning_of_changes prepared with ⟨rfl, absent⟩ |
      ⟨argument, text, columns, rfl, hnew, hsealed, stored⟩
    · exact ⟨by rw [Changes.write, absent]; rfl, by rw [Changes.write, absent]; rfl⟩
    · refine ⟨text, (newReasoning_eq_ok known).mp hnew, ?_⟩
      rw [Changes.write, stored]
      exact decryptContentField_some.mpr ⟨text, rfl, decrypt_sealText hsealed⟩
  · rcases ifGiven_eq_ok.mp hdate with ⟨rfl, absent⟩ | ⟨argument, parsed, rfl, hparsed, stored⟩
    · rw [Changes.write, absent]
      rfl
    · rw [parseDate, Fallible.mapError_eq_ok] at hparsed
      rw [Changes.write, stored]
      exact hparsed
  · rw [Changes.write, htags]
  · rw [Changes.write, changed]
  · exact fun key other => Table.get_put_ne _ _ other
  · intro key
    rw [written, changed]
    cases content.isSome || reasoning.isSome with
    | true => simp [Table.get_erase]
    | false => simp
  · intro key
    rw [written, Table.get_modify]
    by_cases same : key = row.topicId
    · subst same
      simp
    · simp [same]

/-- Why an update has to raise. -/
inductive Refused (host : Host V) (db : Tables V E) (entryId : Int)
    (content reasoning : Option PyStr) (mode : PyStr) (date : Option PyStr) : Prop
  | missing (gone : ∀ id row, entryId = Int.ofNat id → db.entries.get id = some row →
      row.deletedAt ≠ none)
  | contentUnreadable (row : Row V) (locked : lockRow db entryId = .ok row)
      (given : content ≠ none) (append : modeOf mode = some .append)
      (unreadable : ∀ old,
        decryptOrRaise host.aes host.cipher row.content.1 row.content.2 ≠ .ok old)
  | reasoningUnreadable (row : Row V) (locked : lockRow db entryId = .ok row)
      (given : reasoning ≠ none) (append : modeOf mode = some .append)
      (unreadable : ∀ old, decryptContentField host.aes host.cipher row.reasoningEncrypted
        row.reasoningNonce ≠ .ok old)
  | modeInvalid (invalid : modeOf mode = none)
  | dateInvalid (argument : PyStr) (given : date = some argument)
      (invalid : ∀ parsed, host.fromIsoformat argument ≠ .ok parsed)

/-- Each placeholder of the statement is bound to the value meant for it. -/
def Bound (now : Timestamp) (c : Changes) (entryId : Int) : Prop :=
  (statement now c entryId).set.parts.mapM
      (Part.assign Column.bind (statement now c entryId).params) = some (meant now c) ∧
    param (statement now c entryId).params (statement now c entryId).entryParam =
      some (.int entryId) ∧
    param (statement now c entryId).params 1 = some (.timestamp now)

/-- An update changes exactly what was asked. -/
structure AsAsked (host : Host V) (db : Tables V E) (entryId : Int)
    (content reasoning : Option PyStr) (mode : PyStr) (date : Option PyStr)
    (tags : Option (List PyStr)) : Prop where
  applied : ∀ after, update host db entryId content reasoning mode date tags = (after, .ok ()) →
    ∃ m id old new, modeOf mode = some m ∧ entryId = Int.ofNat id ∧
      Applied host m db after id old new content reasoning date tags
  bound : ∀ c, Bound host.now c entryId
  refused : Refused host db entryId content reasoning mode date →
    ∃ e, (update host db entryId content reasoning mode date tags).2 = .error e
  unchanged : ∀ e, (update host db entryId content reasoning mode date tags).2 = .error e →
    (update host db entryId content reasoning mode date tags).1 = db

/-- Something other than the mode makes the update raise. -/
def RaisesAnyway (host : Host V) (db : Tables V E) (entryId : Int) (reasoning date : Option PyStr)
    (tags : Option (List PyStr)) : Prop :=
  (∀ row, lockRow db entryId ≠ .ok row) ∨
    (∃ argument, reasoning = some argument ∧ encodeUtf8 argument = none) ∨
    (∃ argument, date = some argument ∧ ∀ parsed, host.fromIsoformat argument ≠ .ok parsed) ∨
    ∃ texts, tags = some texts ∧ texts.all isTextParameter = false

/-- What has to be refused is, unless it is a mode that nothing reads. -/
theorem refused_of_changes {row : Row V} {c : Changes} (locked : lockRow db entryId = .ok row)
    (prepared : changes host row content reasoning mode date tags = .ok c)
    (reads : modeOf mode ≠ none ∨ content ≠ none) :
    ¬ Refused host db entryId content reasoning mode date := by
  have known : ∃ m, modeOf mode = some m := by
    rcases content_of_changes prepared with ⟨absent, _⟩ | ⟨_, _, _, _, hnew, _⟩
    · rcases reads with mode | given
      · exact Option.ne_none_iff_exists'.mp mode
      · exact absurd absent given
    · obtain ⟨m, known, _⟩ := newContent_eq_ok.mp hnew
      exact ⟨m, known⟩
  obtain ⟨m, known⟩ := known
  intro refused
  cases refused with
  | missing gone =>
    obtain ⟨id, same, _, hrow, live⟩ := lockRow_eq_ok.mp locked
    exact gone id row same hrow live
  | contentUnreadable found hfound given append unreadable =>
    cases locked.symm.trans hfound
    rcases content_of_changes prepared with ⟨absent, _⟩ | ⟨_, _, _, _, hnew, _⟩
    · exact given absent
    · obtain ⟨m', known', became⟩ := newContent_eq_ok.mp hnew
      cases append.symm.trans known'
      obtain ⟨old, hold, _⟩ := became
      exact unreadable old hold
  | reasoningUnreadable found hfound given append unreadable =>
    cases locked.symm.trans hfound
    rcases reasoning_of_changes prepared with ⟨absent, _⟩ | ⟨_, _, _, _, hnew, _⟩
    · exact given absent
    · obtain ⟨old, hold, _⟩ := (newReasoning_eq_ok append).mp hnew
      exact unreadable old hold
  | modeInvalid invalid =>
    rw [known] at invalid
    cases invalid
  | dateInvalid argument given invalid =>
    obtain ⟨_, _, _, _, _, _, hdate, _⟩ := changes_eq_ok.mp prepared
    rcases ifGiven_eq_ok.mp hdate with ⟨absent, _⟩ | ⟨_, parsed, same, hparsed, _⟩
    · rw [given] at absent
      cases absent
    · cases given.symm.trans same
      exact invalid parsed (Fallible.mapError_eq_ok.mp hparsed)

theorem newReasoning_of_invalid (invalid : modeOf mode = none) (row : Row V) (argument : PyStr) :
    newReasoning host row argument mode = .ok argument := by
  have other : mode ≠ py "append" := by
    rintro rfl
    cases invalid
  rw [newReasoning, if_neg other]

theorem ifGiven_isOk {A B : Type} {arg : Option A} {f : A → Except UpdateError B} :
    (∃ out, ifGiven arg f = .ok out) ↔ ∀ a, arg = some a → ∃ b, f a = .ok b := by
  cases arg with
  | none => exact iff_of_true ⟨none, rfl⟩ (fun a absent => by cases absent)
  | some a =>
    simp only [ifGiven_eq_ok, Option.some.injEq, reduceCtorEq, false_and, false_or]
    constructor
    · rintro ⟨_, a', b, same, done, _⟩ _ rfl
      exact ⟨b, same ▸ done⟩
    · intro all
      obtain ⟨b, done⟩ := all a rfl
      exact ⟨some b, a, b, rfl, done, rfl⟩

/-- Two steps after each other, on an argument that may be absent. -/
theorem ifGiven_ifGiven {A B C : Type} {arg : Option A} {f : A → Except UpdateError B}
    {g : B → Except UpdateError C} {P : C → Prop}
    (each : ∀ a, arg = some a → ∃ b c, f a = .ok b ∧ g b = .ok c ∧ P c) :
    ∃ mid out, ifGiven arg f = .ok mid ∧ ifGiven mid g = .ok out ∧ ∀ c, out = some c → P c := by
  cases arg with
  | none => exact ⟨none, none, rfl, rfl, fun c absent => by cases absent⟩
  | some a =>
    obtain ⟨b, c, first, second, holds⟩ := each a rfl
    refine ⟨some b, some c, ?_, ?_, fun c' same => Option.some.inj same ▸ holds⟩
    · exact ifGiven_eq_ok.mpr (Or.inr ⟨a, b, rfl, first, rfl⟩)
    · exact ifGiven_eq_ok.mpr (Or.inr ⟨b, c, rfl, second, rfl⟩)

/-- The changes reach the server exactly when each argument does. -/
theorem changes_sent_iff {row : Row V} :
    (∃ c, changes host row content reasoning mode date tags = .ok c ∧ c.accepted host = true) ↔
      (∀ argument, content = some argument →
        ∃ text, newContent host row argument mode = .ok text ∧
          isTextParameter text = true ∧ host.fitsTsvector text = true) ∧
      (∀ argument, reasoning = some argument →
        ∃ text, newReasoning host row argument mode = .ok text ∧
          (encodeUtf8 text).isSome = true) ∧
      (∀ argument, date = some argument → ∃ parsed, host.fromIsoformat argument = .ok parsed) ∧
      ∀ texts, tags = some texts → texts.all isTextParameter = true := by
  constructor
  · rintro ⟨c, prepared, sends⟩
    obtain ⟨_, _, _, _, _, _, hdate, htags⟩ := changes_eq_ok.mp prepared
    rw [Changes.accepted, Changes.sendable, Changes.fits, Bool.and_eq_true,
      Bool.and_eq_true] at sends
    obtain ⟨sends, fits⟩ := sends
    refine ⟨?_, ?_, ?_, ?_⟩
    · rintro argument rfl
      rcases content_of_changes prepared with ⟨absent, _⟩ | ⟨_, text, _, same, hnew, _, stored⟩
      · cases absent
      · cases same
        rw [stored] at sends fits
        exact ⟨text, hnew, sends.1, fits⟩
    · rintro argument rfl
      rcases reasoning_of_changes prepared with ⟨absent, _⟩ | ⟨_, text, _, same, hnew, done, _⟩
      · cases absent
      · cases same
        exact ⟨text, hnew, (sealText_isOk host host.reasoningTail).mp ⟨_, done⟩⟩
    · intro argument given
      obtain ⟨parsed, done⟩ := ifGiven_isOk.mp ⟨_, hdate⟩ argument given
      exact ⟨parsed, Fallible.mapError_eq_ok.mp done⟩
    · rintro texts rfl
      rw [htags] at sends
      exact sends.2
  · rintro ⟨hcontent, hreasoning, hdate, htags⟩
    obtain ⟨text, pair, htext, hpair, sends⟩ := ifGiven_ifGiven
      (P := fun pair : PyStr × Sealed =>
        isTextParameter pair.1 = true ∧ host.fitsTsvector pair.1 = true)
      (g := fun text => (sealText host text host.contentTail).map (fun columns => (text, columns)))
      (fun argument given => by
        obtain ⟨text, hnew, sends⟩ := hcontent argument given
        obtain ⟨columns, done⟩ := (sealText_isOk host host.contentTail).mpr
          (Bool.and_eq_true_iff.mp sends.1).1
        exact ⟨text, (text, columns), hnew, Fallible.map_eq_ok.mpr ⟨columns, done, rfl⟩, sends⟩)
    obtain ⟨reasoningText, columns, hreasoningText, hcolumns, _⟩ := ifGiven_ifGiven
      (P := fun _ => True) (g := fun text => sealText host text host.reasoningTail)
      (fun argument given => by
        obtain ⟨text, hnew, encodes⟩ := hreasoning argument given
        obtain ⟨columns, done⟩ := (sealText_isOk host host.reasoningTail).mpr encodes
        exact ⟨text, columns, hnew, done, trivial⟩)
    obtain ⟨parsed, hparsed⟩ := ifGiven_isOk.mpr (fun argument given =>
      (hdate argument given).imp (fun _ done => Fallible.mapError_eq_ok.mpr done))
    refine ⟨⟨pair, columns, parsed, tags⟩, changes_eq_ok.mpr
      ⟨text, reasoningText, htext, hreasoningText, hpair, hcolumns, hparsed, rfl⟩, ?_⟩
    rw [Changes.accepted, Changes.sendable, Changes.fits, Bool.and_eq_true, Bool.and_eq_true,
      Option.all_eq_true, Option.all_eq_true, Option.all_eq_true]
    exact ⟨⟨fun pair given => (sends pair given).1, htags⟩, fun pair given => (sends pair given).2⟩

/-- Without a content, a mode that is neither of the two passes. -/
theorem changes_of_invalid (invalid : modeOf mode = none) {row : Row V}
    (locked : lockRow db entryId = .ok row) :
    (∃ c, changes host row none reasoning mode date tags = .ok c ∧ c.accepted host = true) ↔
      ¬ RaisesAnyway host db entryId reasoning date tags := by
  have found : ¬ ∀ row, lockRow db entryId ≠ .ok row := fun missing => missing row locked
  simp only [changes_sent_iff, newReasoning_of_invalid invalid, RaisesAnyway, found, false_or,
    not_or, not_exists, not_and, reduceCtorEq, false_implies, implies_true, true_and,
    Except.ok.injEq, exists_eq_left', ne_eq, not_forall, not_not, Bool.not_eq_false,
    Option.isSome_iff_ne_none]

theorem update_as_asked_iff (host : Host V) (db : Tables V E) (entryId : Int)
    (content reasoning : Option PyStr) (mode : PyStr) (date : Option PyStr)
    (tags : Option (List PyStr)) :
    AsAsked host db entryId content reasoning mode date tags ↔
      modeOf mode ≠ none ∨ content ≠ none ∨ RaisesAnyway host db entryId reasoning date tags := by
  constructor
  · intro asked
    by_contra none_of
    simp only [not_or, not_not] at none_of
    obtain ⟨invalid, rfl, runs⟩ := none_of
    obtain ⟨e, raised⟩ := asked.refused (.modeInvalid invalid)
    have locked : ∃ row, lockRow db entryId = .ok row := by
      by_contra missing
      exact runs (Or.inl (not_exists.mp missing))
    obtain ⟨row, locked⟩ := locked
    obtain ⟨c, prepared, sends⟩ := (changes_of_invalid invalid locked).mpr runs
    rcases update_cases host db entryId none reasoning mode date tags with
      ⟨_, _, refuses⟩ | ⟨_, _, _, _, _, _, _, done⟩
    · rw [refuses row c locked prepared] at sends
      cases sends
    · rw [done] at raised
      cases raised
  · intro condition
    have bound : ∀ c, Bound host.now c entryId := fun c =>
      ⟨assignments_setClause host.now c [.int entryId], statement_params host.now c entryId⟩
    rcases update_cases host db entryId content reasoning mode date tags with
      ⟨e, raised, _⟩ | ⟨id, row, c, same, locked, prepared, sends, done⟩
    · refine ⟨fun after done => ?_, bound, fun _ => ⟨e, by rw [raised]⟩, fun _ _ => by rw [raised]⟩
      rw [raised] at done
      cases done
    · have reads : modeOf mode ≠ none ∨ content ≠ none := by
        by_contra neither
        simp only [not_or, not_not] at neither
        obtain ⟨invalid, rfl⟩ := neither
        have runs := (changes_of_invalid invalid locked).mp ⟨c, prepared, sends⟩
        rcases condition with known | given | raises
        · exact known invalid
        · exact given rfl
        · exact runs raises
      have accepted := refused_of_changes locked prepared reads
      obtain ⟨m, known⟩ := Option.ne_none_iff_exists'.mp
        (fun invalid => accepted (.modeInvalid invalid))
      obtain ⟨id', same', _, hrow, live⟩ := lockRow_eq_ok.mp locked
      obtain rfl : id = id' := Int.ofNat.inj (same.symm.trans same')
      have changed := written_applied known hrow live prepared
      refine ⟨fun after done' => ?_, bound, fun refused => absurd refused accepted,
        fun e raised => ?_⟩
      · cases done.symm.trans done'
        exact ⟨m, id, row, _, known, same, changed⟩
      · rw [done] at raised
        cases raised

end Calls

theorem sampleDay_valid : (1 ≤ 2026 ∧ 2026 ≤ 9999) ∧ (1 ≤ 2 ∧ 2 ≤ 12) ∧ 1 ≤ 28 ∧
    28 ≤ JournalTables.daysInMonth 2026 2 := by
  decide

def sampleDay : Date := ⟨2026, 2, 28, sampleDay_valid⟩

theorem sampleTime_valid : 0 < 86400000000 := by decide

def sampleTime : Timestamp := ⟨sampleDay, 0, sampleTime_valid⟩

def sampleHost : Host Unit where
  fitsTsvector := fun _ => true
  aes := sampleGcm
  cipher := sampleCipher
  fromIsoformat := fun text =>
    if text = sampleDay.text then .ok sampleDay else .error (py "Invalid isoformat string")
  toTsvector := fun _ => ()
  now := sampleTime
  contentTail := sampleTail
  reasoningTail := sampleTail

def sampleRow : Row Unit where
  topicId := 1
  date := sampleDay
  conversationId := none
  tags := []
  createdAt := sampleTime
  updatedAt := sampleTime
  deletedAt := none
  content := (sampleCiphertext1, sampleNonce1)
  reasoningEncrypted := none
  reasoningNonce := none
  searchVector := ()
  indexedAt := some sampleTime

def sampleTables : Tables Unit Unit :=
  ⟨Table.empty, Table.empty.put 1 sampleRow, Table.empty.put 1 ()⟩

/-- An update of the tags takes a mode that there is not. -/
theorem tags_update_takes_mode : ¬ AsAsked sampleHost sampleTables 1 none none (py "prepend") none
    (some [py "travel"]) := by
  intro asked
  obtain ⟨e, raised⟩ := asked.refused (.modeInvalid (by decide))
  have done : (update sampleHost sampleTables 1 none none (py "prepend") none
      (some [py "travel"])).2 = .ok () := by decide +kernel
  rw [done] at raised
  cases raised

section Clear
variable {V : Type u} {E : Type v} (host : Host V) (clock : Timestamp → Time)
  (dateText : Date → PyStr)

/-- A row holds an entry: its texts decrypt to those of the entry. -/
structure Holds (row : Row V) (entry : Entry) : Prop where
  content : decryptOrRaise host.aes host.cipher row.content.1 row.content.2 = .ok entry.content
  reasoning : decryptContentField host.aes host.cipher row.reasoningEncrypted row.reasoningNonce =
    .ok entry.reasoning
  conversationId : row.conversationId = entry.conversationId
  date : dateText row.date = entry.date
  tags : row.tags = entry.tags
  indexedAt : row.indexedAt.map clock = entry.indexedAt
  deletedAt : row.deletedAt.map clock = entry.deletedAt

variable {host clock dateText} {db after : Tables V E} {id : EntryId} {old new : Row V}
  {content reasoning date : Option PyStr} {tags : Option (List PyStr)} {m : Mode} {entry : Entry}

theorem contentText_eq (holds : Holds host clock dateText old entry) {argument text : PyStr}
    (became : ContentText host m old argument text) :
    text = JournalEntries.newContent m entry.content argument := by
  cases m with
  | replace => exact became
  | append =>
    obtain ⟨before, hbefore, rfl⟩ := became
    cases hbefore.symm.trans holds.content
    rfl

theorem reasoningText_eq (holds : Holds host clock dateText old entry) {argument text : PyStr}
    (became : ReasoningText host m old argument text) :
    text = JournalEntries.newReasoning m entry.reasoning argument := by
  cases m with
  | replace => exact became
  | append =>
    obtain ⟨before, hbefore, rfl⟩ := became
    cases hbefore.symm.trans holds.reasoning
    cases entry.reasoning with
    | none => rfl
    | some before =>
      cases before with
      | nil => rfl
      | cons c rest => rfl

/-- What an update writes is the update of the entry in the clear. -/
theorem Applied.holds (applied : Applied host m db after id old new content reasoning date tags)
    (holds : Holds host clock dateText old entry)
    (written : ∀ argument parsed, date = some argument → host.fromIsoformat argument = .ok parsed →
      dateText parsed = argument) :
    Holds host clock dateText new (entry.update content reasoning m date tags) where
  content := by
    have became := applied.contentText
    cases content with
    | none =>
      rw [became.1]
      exact holds.content
    | some argument =>
      obtain ⟨text, became, decrypts, _⟩ := became
      rw [decrypts, contentText_eq holds became]
      rfl
  reasoning := by
    have became := applied.reasoningText
    cases reasoning with
    | none =>
      rw [became.1, became.2]
      exact holds.reasoning
    | some argument =>
      obtain ⟨text, became, decrypts⟩ := became
      rw [decrypts, reasoningText_eq holds became]
      rfl
  conversationId := applied.others.2.1.trans holds.conversationId
  date := by
    have became := applied.dateGiven
    cases date with
    | none =>
      rw [became]
      exact holds.date
    | some argument => exact written argument new.date rfl became
  tags := by rw [applied.tagsGiven, holds.tags, Entry.update]
  indexedAt := by
    rw [applied.indexedAt, Entry.update]
    cases content.isSome || reasoning.isSome with
    | true => rfl
    | false => exact holds.indexedAt
  deletedAt := by
    rw [applied.others.2.2.2]
    exact holds.deletedAt

end Clear

theorem isTextParameter_iff {text : PyStr} : isTextParameter text = true ↔
    ∀ c ∈ text, (toChar c).isSome = true ∧ c.val ≠ 0 := by
  rw [isTextParameter, Bool.and_eq_true, encodeUtf8_isSome]
  simp only [Bool.not_eq_true', List.any_eq_false, decide_eq_true_eq]
  constructor
  · exact fun both c mem => ⟨both.1 c mem, both.2 c mem⟩
  · exact fun all => ⟨fun c mem => (all c mem).1, fun c mem => (all c mem).2⟩

/-- The characters of labels and titles are plain ASCII. -/
theorem isTextParameter_of_labelChars {text : PyStr}
    (chars : ∀ c ∈ text, Validation.isLabelChar c = true) : isTextParameter text = true := by
  refine isTextParameter_iff.mpr fun c mem => ?_
  have plain := chars c mem
  have value : (ofChar ' ').val = 0x20 ∧ (ofChar '_').val = 0x5f ∧ (ofChar '-').val = 0x2d ∧
      (ofChar '.').val = 0x2e := by decide
  simp only [Validation.isLabelChar, Validation.isTitleChar, Validation.isAlnum, Validation.isUpper,
    Validation.isLower, Validation.isDigit, Bool.or_eq_true, Bool.and_eq_true, decide_eq_true_eq,
    Fin.ext_iff, value] at plain
  exact ⟨toChar_isSome (by omega), by omega⟩

theorem forall_mem_joinParagraphs {p : CodePoint → Prop} {old new : PyStr}
    (spaces : ∀ c, isSpace c = true → p c) :
    (∀ c ∈ joinParagraphs old new, p c) ↔ (∀ c ∈ old, p c) ∧ ∀ c ∈ new, p c := by
  have separator : ∀ c ∈ py "\n\n", p c := by
    have all : (py "\n\n").all isSpace = true := by decide
    exact fun c mem => spaces c (List.all_eq_true.mp all c mem)
  rw [joinParagraphs, forall_mem_strip spaces]
  simp only [List.forall_mem_append]
  exact ⟨fun all => ⟨all.1.1, all.2⟩, fun all => ⟨⟨all.1, separator⟩, all.2⟩⟩

section Sent
variable {V : Type u} {host : Host V} {row : Row V} {content reasoning : Option PyStr}
  {mode : PyStr} {date : Option PyStr} {tags : Option (List PyStr)} {m : Mode}

/-- Both texts of the row decrypt. -/
def Readable (host : Host V) (row : Row V) : Prop :=
  (∃ old, decryptOrRaise host.aes host.cipher row.content.1 row.content.2 = .ok old) ∧
    ∃ old, decryptContentField host.aes host.cipher row.reasoningEncrypted row.reasoningNonce =
      .ok old

/-- A given content can be stored. In an appended one the old text must have no NUL, and what
becomes of the content must not be too long for its search vector. -/
def ContentStorable (host : Host V) (m : Mode) (row : Row V) (content : Option PyStr) : Prop :=
  ∀ argument, content = some argument → (isTextParameter argument = true ∧
    (m = .append → ∀ old,
      decryptOrRaise host.aes host.cipher row.content.1 row.content.2 = .ok old →
      ∀ c ∈ old, c.val ≠ 0)) ∧
    ∀ text, ContentText host m row argument text → host.fitsTsvector text = true

theorem encodes_of_decrypt {ciphertext nonce : Bytes} {text : PyStr}
    (decrypts : decrypt host.aes host.cipher ciphertext nonce = .ok text) :
    ∀ c ∈ text, (toChar c).isSome = true := by
  obtain ⟨_, _, data, hdata⟩ := nonempty_of_decrypt decrypts
  obtain ⟨encoded, hencoded⟩ := encodeUtf8_of_decodeUtf8 hdata
  exact encodeUtf8_isSome.mp (by rw [hencoded]; rfl)

theorem encodes_of_decryptContentField {encrypted nonce : Option Bytes} {old : Option PyStr}
    (decrypts : decryptContentField host.aes host.cipher encrypted nonce = .ok old) :
    ∀ c ∈ old.getD [], (toChar c).isSome = true := by
  cases encrypted with
  | none =>
    cases nonce with
    | none =>
      cases decrypts
      exact fun c mem => absurd mem List.not_mem_nil
    | some nonce => cases decrypts
  | some ciphertext =>
    cases nonce with
    | none => cases decrypts
    | some nonce =>
      obtain ⟨text, rfl, hplain⟩ := decryptContentField_some.mp decrypts
      exact encodes_of_decrypt hplain

theorem newContent_sent (known : modeOf mode = some m) (readable : Readable host row)
    {argument : PyStr} :
    (∃ text, newContent host row argument mode = .ok text ∧ isTextParameter text = true) ↔
      isTextParameter argument = true ∧ (m = .append → ∀ old,
        decryptOrRaise host.aes host.cipher row.content.1 row.content.2 = .ok old →
          ∀ c ∈ old, c.val ≠ 0) := by
  obtain ⟨⟨old, hold⟩, _⟩ := readable
  simp only [newContent_eq_ok, known, Option.some.injEq, exists_eq_left']
  cases m with
  | replace => simp [ContentText]
  | append =>
    have columns : decryptContentField host.aes host.cipher (some row.content.1)
        (some row.content.2) = .ok (some old) := by rw [decryptContentField, hold]
    have encodes : ∀ c ∈ old, (toChar c).isSome = true := encodes_of_decryptContentField columns
    simp only [ContentText, hold, Except.ok.injEq, exists_eq_left', exists_eq_left,
      isTextParameter_iff, forall_const, forall_eq']
    refine (forall_mem_joinParagraphs (fun c space => toChar_of_isSpace space)).trans ?_
    constructor
    · exact fun both => ⟨both.2, fun c mem => (both.1 c mem).2⟩
    · exact fun both => ⟨fun c mem => ⟨encodes c mem, both.2 c mem⟩, both.1⟩

/-- A mode leaves a content no more than one text to become. -/
theorem newContent_stored (known : modeOf mode = some m) {argument : PyStr} :
    (∃ text, newContent host row argument mode = .ok text ∧
      isTextParameter text = true ∧ host.fitsTsvector text = true) ↔
      (∃ text, newContent host row argument mode = .ok text ∧ isTextParameter text = true) ∧
        ∀ text, ContentText host m row argument text → host.fitsTsvector text = true := by
  have same : ∀ text, newContent host row argument mode = .ok text ↔
      ContentText host m row argument text := by
    intro text
    simp only [newContent_eq_ok, known, Option.some.injEq, exists_eq_left']
  constructor
  · rintro ⟨text, hnew, sends, fits⟩
    refine ⟨⟨text, hnew, sends⟩, fun other became => ?_⟩
    cases hnew.symm.trans ((same other).mpr became)
    exact fits
  · rintro ⟨⟨text, hnew, sends⟩, fits⟩
    exact ⟨text, hnew, sends, fits text ((same text).mp hnew)⟩

theorem newReasoning_sent (known : modeOf mode = some m) (readable : Readable host row)
    {argument : PyStr} :
    (∃ text, newReasoning host row argument mode = .ok text ∧
      (encodeUtf8 text).isSome = true) ↔ (encodeUtf8 argument).isSome = true := by
  obtain ⟨_, old, hold⟩ := readable
  simp only [newReasoning_eq_ok known]
  cases m with
  | replace => simp [ReasoningText]
  | append =>
    have encodes := encodes_of_decryptContentField hold
    simp only [ReasoningText, hold, Except.ok.injEq, exists_eq_left', exists_eq_left]
    by_cases empty : old.getD [] = []
    · rw [if_pos empty]
    · rw [if_neg empty, encodeUtf8_isSome, encodeUtf8_isSome]
      refine (forall_mem_joinParagraphs (fun c space => (toChar_of_isSpace space).1)).trans ?_
      exact ⟨fun both => both.2, fun all => ⟨encodes, all⟩⟩

theorem changes_readable_iff (known : modeOf mode = some m) (readable : Readable host row) :
    (∃ c, changes host row content reasoning mode date tags = .ok c ∧ c.accepted host = true) ↔
      ContentStorable host m row content ∧
      (∀ argument, reasoning = some argument → (encodeUtf8 argument).isSome = true) ∧
      (∀ argument, date = some argument → ∃ parsed, host.fromIsoformat argument = .ok parsed) ∧
      ∀ texts, tags = some texts → texts.all isTextParameter = true := by
  simp only [changes_sent_iff, newContent_stored known, newContent_sent known readable,
    newReasoning_sent known readable, ContentStorable]

end Sent

end EntryUpdate
