import Gubbi.Journal.Pagination

/-!
# The timeline index

`get_timeline_counts` counts what `get_by_date_range` returns in a statement of its
own: the same tables and bounds, with the bucket of a row in place of its columns.
-/

namespace Timeline

open Text Validation Cipher Queries JournalTables JournalRows Listing Pagination

structure CountRow where
  bucket : PyStr
  isEntry : Nat
  isConv : Nat
  deriving DecidableEq

structure BucketCount where
  bucket : PyStr
  entryCount : Nat
  conversationCount : Nat
  deriving DecidableEq

/-- `_timeline_bucket_expr`. -/
def timelineBucketExpr (bucket : PyStr) : Except ListingError (Date → PyStr) :=
  if bucket = py "month" then .ok Date.monthText
  else if bucket = py "day" then .ok Date.text
  else .error (.valueError (py "Invalid bucket '" ++ bucket ++ py "'. Use 'day' or 'month'."))

section Counts
variable (rt : Runtime)

/-- The first half of the union. -/
def entryCountRows (db : Tables) (expr : Date → PyStr) (dateFrom dateTo : Date)
    (pattern : Option PyStr) : List CountRow :=
  db.entries.rows.filterMap (fun row => (db.topics.get row.2.topicId).bind (fun topic =>
    if dateFrom.le row.2.date && row.2.date.le dateTo && row.2.deletedAt = none &&
        row.2.conversationId = none && pathMatches pattern topic.path then
      some ⟨expr row.2.date, 1, 0⟩
    else none))

def conversationCountRows (db : Tables) (expr : Date → PyStr) (dateFrom dateTo : Date)
    (pattern : Option PyStr) : List CountRow :=
  db.conversations.rows.filterMap (fun row => (db.topics.get row.2.topicId).bind (fun topic =>
    let day := rt.sessionDate row.2.createdAt
    if dateFrom.le day && day.le dateTo && pathMatches pattern topic.path then
      some ⟨expr day, 0, 1⟩
    else none))

def bucketOrder : Comparison BucketCount := rt.collation.asc BucketCount.bucket

def sumCounts (bucket : PyStr) (rows : List CountRow) : BucketCount :=
  ⟨bucket, (rows.map CountRow.isEntry).sum, (rows.map CountRow.isConv).sum⟩

/-- What `get_timeline_counts` checks before it selects; the dates come first here. -/
def countArgs (dateFrom dateTo bucket : PyStr) (topicPrefix : Option PyStr) :
    Except ListingError (Date × Date × Option PyStr × (Date → PyStr)) := do
  let dateFrom ← fromIsoformat rt dateFrom
  let dateTo ← fromIsoformat rt dateTo
  let topic ← topicFilter rt topicPrefix
  let expr ← timelineBucketExpr bucket
  return (dateFrom, dateTo, topic.2, expr)

def getTimelineCounts (db : Tables) (dateFrom dateTo bucket : PyStr) (topicPrefix : Option PyStr)
    (s : Sorter (bucketOrder rt)) : Except ListingError (List BucketCount) :=
  match countArgs rt dateFrom dateTo bucket topicPrefix with
  | .error e => .error e
  | .ok (dateFrom, dateTo, pattern, expr) =>
    let counts := entryCountRows db expr dateFrom dateTo pattern ++
      conversationCountRows rt db expr dateFrom dateTo pattern
    .ok (s.sort (groupBy CountRow.bucket sumCounts counts))

end Counts

inductive Bucket
  | day
  | month
  deriving DecidableEq, Repr

def Bucket.text : Bucket → PyStr
  | .day => py "day"
  | .month => py "month"

/-- The bucket of a date text. -/
def Bucket.ofDate : Bucket → PyStr → PyStr
  | .day, date => date
  | .month, date => date.take 7

def Bucket.expr : Bucket → Date → PyStr
  | .day => Date.text
  | .month => Date.monthText

theorem timelineBucketExpr_text (kind : Bucket) : timelineBucketExpr kind.text = .ok kind.expr := by
  cases kind with
  | day => rfl
  | month => rfl

/-- A month is the start of its days. -/
theorem ofDate_text (kind : Bucket) (date : Date) : kind.ofDate date.text = kind.expr date := by
  cases kind with
  | day => rfl
  | month =>
    have length : date.monthText.length = 7 := by
      rw [Date.monthText, List.length_append, List.length_append, length_padded, length_padded]
      rfl
    rw [Bucket.ofDate, Date.text, List.append_assoc, List.take_left' length]
    rfl

/-- The counts of a list of items, bucket by bucket in the order of the texts. -/
structure Tallies (c : Comparison PyStr) (kind : Bucket) (items : List TimelineItem)
    (counts : List BucketCount) : Prop where
  ascending : counts.Pairwise (fun a b => c.cmp a.bucket b.bucket = .lt)
  buckets : ∀ bucket, bucket ∈ counts.map BucketCount.bucket ↔
    ∃ item ∈ items, kind.ofDate item.updated = bucket
  entries : ∀ count ∈ counts, count.entryCount = items.countP (fun item =>
    decide (item.docType = .entry) && decide (kind.ofDate item.updated = count.bucket))
  conversations : ∀ count ∈ counts, count.conversationCount = items.countP (fun item =>
    decide (item.docType = .conversation) && decide (kind.ofDate item.updated = count.bucket))

/-- No item stands for an entry that is linked to a conversation. -/
def Unlinked (db : Tables) (items : List TimelineItem) : Prop :=
  ∀ item ∈ items, ∀ id, item.entryId = some id →
    ∃ row, db.entries.get id = some row ∧ row.conversationId = none ∧ row.deletedAt = none

/-- The count row of a timeline row. -/
def countRow (kind : Bucket) (row : TimelineRow) : CountRow :=
  ⟨kind.ofDate row.date, (decide (row.docType = .entry)).toNat,
    (decide (row.docType = .conversation)).toNat⟩

section Agreement
variable {rt : Runtime} {db : Tables} {kind : Bucket} {dateFrom dateTo : Date}
  {pattern : Option PyStr}

theorem entryCountRows_eq : entryCountRows db kind.expr dateFrom dateTo pattern =
    (timelineEntries db dateFrom dateTo pattern).map (countRow kind) := by
  rw [timelineEntries, List.map_filterMap, entryCountRows]
  simp only [map_join, countRow, ofDate_text]
  rfl

theorem conversationCountRows_eq :
    conversationCountRows rt db kind.expr dateFrom dateTo pattern =
      (timelineConversations rt db dateFrom dateTo pattern).map (countRow kind) := by
  rw [timelineConversations, List.map_filterMap, conversationCountRows]
  simp only [map_join, countRow, ofDate_text]
  rfl

theorem countRows_eq :
    entryCountRows db kind.expr dateFrom dateTo pattern ++
        conversationCountRows rt db kind.expr dateFrom dateTo pattern =
      (timelineRows rt db dateFrom dateTo pattern).map (countRow kind) := by
  rw [timelineRows, List.map_append, entryCountRows_eq, conversationCountRows_eq]

/-- The two functions accept the same arguments and read them the same way. -/
theorem countArgs_eq (rt : Runtime) (kind : Bucket) (dateFrom dateTo : PyStr)
    (topicPrefix : Option PyStr) {first last : Date} {pattern : Option PyStr}
    {expr : Date → PyStr} :
    countArgs rt dateFrom dateTo kind.text topicPrefix = .ok (first, last, pattern, expr) ↔
      rangeArgs rt dateFrom dateTo topicPrefix = .ok (first, last, pattern) ∧ expr = kind.expr := by
  unfold countArgs rangeArgs
  rw [timelineBucketExpr_text]
  cases fromIsoformat rt dateFrom with
  | error e =>
    cases topicFilter rt topicPrefix with
    | error e' => simp [bind, Except.bind]
    | ok topic => simp [bind, Except.bind]
  | ok first' =>
    cases fromIsoformat rt dateTo with
    | error e =>
      cases topicFilter rt topicPrefix with
      | error e' => simp [bind, Except.bind]
      | ok topic => simp [bind, Except.bind]
    | ok last' =>
      cases topicFilter rt topicPrefix with
      | error e => simp [bind, Except.bind]
      | ok topic => simp [bind, Except.bind, pure, Except.pure, and_assoc, eq_comm]

/-- An item keeps the type and the date of its row. -/
theorem timelineItem_row {cipher : Option ContentCipher} {titleOnly : Bool} {row : TimelineRow}
    {item : TimelineItem} (h : timelineItem rt cipher titleOnly row = .ok item) :
    (item.docType, item.updated) = (row.docType, row.date) ∧
      ∀ id, item.entryId = some id → row.docType = .entry ∧ row.docId = id := by
  unfold timelineItem at h
  split at h
  · cases h
    unfold toTitleOnlyRow
    split
    · next entry =>
      rw [entry]
      exact ⟨rfl, fun id same => ⟨rfl, Option.some.inj same⟩⟩
    · next conversation =>
      rw [conversation]
      exact ⟨rfl, fun id same => by cases same⟩
  · split at h
    · cases h
    · unfold toFullRow at h
      split at h
      · next entry =>
        rw [entry]
        split at h
        · cases h
        · cases h
        · cases h
          exact ⟨rfl, fun id same => ⟨rfl, Option.some.inj same⟩⟩
      · next conversation =>
        rw [conversation]
        split at h
        · cases h
        · split at h
          · cases h
          · split at h
            · cases h
              exact ⟨rfl, fun id same => by cases same⟩
            · cases h

theorem sumCounts_map (rows : List TimelineRow) (bucket : PyStr) :
    sumCounts bucket ((rows.map (countRow kind)).filter (fun row => row.bucket = bucket)) =
      ⟨bucket,
        rows.countP (fun row =>
          decide (row.docType = .entry) && decide (kind.ofDate row.date = bucket)),
        rows.countP (fun row =>
          decide (row.docType = .conversation) && decide (kind.ofDate row.date = bucket))⟩ := by
  rw [sumCounts, List.filter_map, List.map_map, List.map_map]
  exact congrArg₂ (BucketCount.mk bucket) (sum_indicator _ _ rows) (sum_indicator _ _ rows)

/-- The groups of the count rows tally any items with the types and dates of the rows. -/
theorem tallies_of_perm (s : Sorter (bucketOrder rt)) {rows : List TimelineRow}
    {items : List TimelineItem}
    (same : (items.map (fun item => (item.docType, item.updated))).Perm
      (rows.map (fun row => (row.docType, row.date)))) :
    Tallies rt.collation kind items
      (s.sort (groupBy CountRow.bucket sumCounts (rows.map (countRow kind)))) := by
  have labels : (groupBy CountRow.bucket sumCounts (rows.map (countRow kind))).map
      BucketCount.bucket = ((rows.map (countRow kind)).map CountRow.bucket).dedup :=
    map_groupBy (fun _ _ => rfl) _
  have counted : ∀ (p : DocType × PyStr → Bool),
      rows.countP (fun row => p (row.docType, row.date)) =
        items.countP (fun item => p (item.docType, item.updated)) := by
    intro p
    have eq := same.countP_eq p
    rw [List.countP_map, List.countP_map] at eq
    exact eq.symm
  have summed : ∀ count ∈ s.sort (groupBy CountRow.bucket sumCounts (rows.map (countRow kind))),
      count = ⟨count.bucket,
        rows.countP (fun row =>
          decide (row.docType = .entry) && decide (kind.ofDate row.date = count.bucket)),
        rows.countP (fun row =>
          decide (row.docType = .conversation) &&
            decide (kind.ofDate row.date = count.bucket))⟩ := by
    intro count mem
    obtain ⟨bucket, _, rfl⟩ := mem_groupBy.mp ((s.perm _).mem_iff.mp mem)
    rw [sumCounts_map]
  refine ⟨s.strict (fun a b => (rt.collation_tied a b).mp) ?_, fun bucket => ?_, ?_, ?_⟩
  · rw [labels]
    exact List.nodup_dedup _
  · rw [((s.perm _).map BucketCount.bucket).mem_iff, labels, List.mem_dedup, List.map_map]
    have dates := (same.map (fun pair => kind.ofDate pair.2)).mem_iff (a := bucket)
    rw [List.map_map, List.map_map] at dates
    exact dates.symm.trans List.mem_map
  · intro count mem
    rw [summed count mem]
    exact counted (fun pair =>
      decide (pair.1 = .entry) && decide (kind.ofDate pair.2 = count.bucket))
  · intro count mem
    rw [summed count mem]
    exact counted (fun pair =>
      decide (pair.1 = .conversation) && decide (kind.ofDate pair.2 = count.bucket))

theorem unlinked_of_rows {rows : List TimelineRow} {cipher : Option ContentCipher}
    {titleOnly : Bool} {items : List TimelineItem}
    (selected : ∀ row ∈ rows, row ∈ timelineRows rt db dateFrom dateTo pattern)
    (built : rows.mapM (timelineItem rt cipher titleOnly) = .ok items) : Unlinked db items := by
  intro item mem id isEntry
  obtain ⟨row, hrow, hitem⟩ := Fallible.exists_of_mem_mapM built mem
  obtain ⟨entry, rfl⟩ := (timelineItem_row hitem).2 id isEntry
  rcases List.mem_append.mp (selected row hrow) with found | found
  · obtain ⟨stored, hstored, h⟩ := List.mem_filterMap.mp found
    obtain ⟨topic, _, conditions, rfl⟩ := join_eq_some.mp h
    simp only [Bool.and_eq_true, decide_eq_true_eq] at conditions
    exact ⟨stored.2, Table.get_eq_some_iff.mpr hstored, conditions.1.2, conditions.1.1.2⟩
  · rw [timelineConversations_docType found] at entry
    cases entry

end Agreement

/-- Whenever the timeline is returned, with its texts or without, the index counts it
bucket by bucket; and whenever the index is returned, so is the timeline without texts. -/
theorem index_counts_timeline (rt : Runtime) (db : Tables) (dateFrom dateTo : PyStr)
    (kind : Bucket) (topicPrefix : Option PyStr) (s : Sorter (bucketOrder rt)) :
    (∀ cipher titleOnly ascending (planner : Sorter (timelineOrder rt ascending)) items,
      getByDateRange rt db cipher dateFrom dateTo none ascending planner 0 titleOnly topicPrefix =
        .ok items →
      ∃ counts, getTimelineCounts rt db dateFrom dateTo kind.text topicPrefix s = .ok counts ∧
        Tallies rt.collation kind items counts ∧ Unlinked db items) ∧
    (∀ counts, getTimelineCounts rt db dateFrom dateTo kind.text topicPrefix s = .ok counts →
      ∀ cipher ascending (planner : Sorter (timelineOrder rt ascending)),
        ∃ items, getByDateRange rt db cipher dateFrom dateTo none ascending planner 0 true
          topicPrefix = .ok items ∧ Tallies rt.collation kind items counts) := by
  have pairs : ∀ {cipher titleOnly ascending} {planner : Sorter (timelineOrder rt ascending)}
      {rows : List TimelineRow} {items : List TimelineItem},
      (planner.sort rows).mapM (timelineItem rt cipher titleOnly) = .ok items →
        (items.map (fun item => (item.docType, item.updated))).Perm
          (rows.map (fun row => (row.docType, row.date))) := by
    intro cipher titleOnly ascending planner rows items built
    rw [Fallible.map_of_mapM (fun row item h => (timelineItem_row h).1) built]
    exact (planner.perm rows).map _
  constructor
  · intro cipher titleOnly ascending planner items returned
    rw [getByDateRange_eq] at returned
    unfold rangeSelected at returned
    cases args : rangeArgs rt dateFrom dateTo topicPrefix with
    | error e =>
      rw [args] at returned
      cases returned
    | ok found =>
      obtain ⟨first, last, pattern⟩ := found
      have counted := (countArgs_eq rt kind dateFrom dateTo topicPrefix).mpr ⟨args, rfl⟩
      simp only [args] at returned
      split at returned
      · cases returned
      · next rows selected =>
        split at selected
        · cases selected
        · cases selected
          simp only [getTimelineCounts, counted, countRows_eq]
          exact ⟨_, rfl, tallies_of_perm s (pairs returned), unlinked_of_rows
            (fun row mem => (planner.perm _).mem_iff.mp mem) returned⟩
  · intro counts returned cipher ascending planner
    cases args : countArgs rt dateFrom dateTo kind.text topicPrefix with
    | error e =>
      rw [getTimelineCounts, args] at returned
      cases returned
    | ok found =>
      obtain ⟨first, last, pattern, expr⟩ := found
      obtain ⟨ranged, rfl⟩ := (countArgs_eq rt kind dateFrom dateTo topicPrefix).mp args
      simp only [getTimelineCounts, args, countRows_eq, Except.ok.injEq] at returned
      have built : (planner.sort (timelineRows rt db first last pattern)).mapM
          (timelineItem rt cipher true) =
            .ok ((planner.sort (timelineRows rt db first last pattern)).map
              (toTitleOnlyRow rt cipher)) := List.mapM_pure
      refine ⟨_, ?_, returned ▸ tallies_of_perm s (pairs built)⟩
      simp only [getByDateRange, ranged, Bool.true_eq_false, and_false, if_false]
      exact built

example : getTimelineCounts sampleRuntime sampleTables (py "2026-02-01") (py "2026-02-28")
    (py "month") (some (py "Wo")) (Comparison.sorter _) = .ok [⟨py "2026-02", 2, 1⟩] := by decide

end Timeline
