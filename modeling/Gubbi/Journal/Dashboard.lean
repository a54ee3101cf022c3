import Gubbi.Journal.DateChecks
import Gubbi.Journal.Pagination
import Gubbi.Journal.PeriodForms

/-!
# The dashboard

`get_dashboard_stats` counts the tables in a statement of its own. Its totals are those of the
lists, and its week is the one that `list_entries` selects between its two dates. The window of
the most active topics ends with this week, not with the day of the user, so entries that are
dated in the rest of the week are in it.
-/

namespace Dashboard

open Text Numerals Cipher Queries JournalTables JournalRows Listing Pagination Dates Periods
open PeriodRanges (Period WeekBounds)
open DateChecks (standard)

def MOST_ACTIVE_TOPICS_LIMIT : Nat := 5
def ACTIVE_WINDOW_DAYS : Nat := 30

/-- `GROUP BY t.id, t.path, t.title`. -/
def groupKey (topic : TopicId × TopicRow) : TopicId × PyStr × PyStr :=
  (topic.1, topic.2.path, topic.2.title)

structure MostActiveTopic where
  path : PyStr
  title : PyStr
  entriesLast30d : Nat
  deriving DecidableEq

structure DashboardStats where
  topicsTotal : Nat
  entriesTotal : Nat
  entriesThisWeek : Nat
  conversationsTotal : Nat
  lastEntryAt : Option Timestamp
  mostActiveTopics : List MostActiveTopic
  deriving DecidableEq

/-- What `ZoneInfo` raises for a key. -/
inductive ZoneError
  /-- `ZoneInfoNotFoundError`, which is a `KeyError`. -/
  | notFound
  /-- The key is no normalized relative path, like `/UTC`. -/
  | valueError

/-- The dates of now. -/
structure Clock where
  zoneToday : PyStr → Except ZoneError Date
  utcToday : Date

/-- The date that `local_today` writes. -/
def localToday (clock : Clock) (timezone : PyStr) : Except PeriodError Date :=
  match clock.zoneToday timezone with
  | .ok today => .ok today
  | .error .notFound => .ok clock.utcToday
  | .error .valueError => .error (.calendar .valueError)

section Model
variable (rt : Runtime) (loc : PyLocale) (clock : Clock)

/-- `date_cls.fromisoformat`. -/
def readDate (text : PyStr) : Except PeriodError Date :=
  (rt.fromIsoformat text).mapError (fun _ => .calendar .valueError)

def userWeekBounds (timezone : PyStr) : Except PeriodError (Date × Date) := do
  let written ← localToday clock timezone
  let today ← readDate rt written.text
  let week ← resolvePeriod loc (py "this-week") today
  let dateFrom ← readDate rt week.dateFrom
  let dateTo ← readDate rt week.dateTo
  return (dateFrom, dateTo)

/-- `_active_window_start`. -/
def activeWindowStart (reference : Date) : Except PeriodError Date :=
  (addDays reference (-(ACTIVE_WINDOW_DAYS - 1))).mapError .calendar

/-- `_read_user_timezone`; the session sees the row of its user, if there is one. -/
def readUserTimezone (user : Option PyStr) : PyStr := (given user).getD (py "UTC")

/-- `ORDER BY cnt DESC, path ASC`. -/
def activeOrder : Comparison MostActiveTopic :=
  (Comparison.nat.desc MostActiveTopic.entriesLast30d).andThen
    (rt.collation.asc MostActiveTopic.path)

/-- How the planner answers the `ORDER BY` of the subquery and that of `jsonb_agg`. -/
structure Plans where
  ranked : Sorter (activeOrder rt)
  aggregated : Sorter (activeOrder rt)

variable (plans : Plans rt) (db : Tables)

/-- `FROM topics t JOIN entries e ... AND e.deleted_at IS NULL AND e.date >= $3`. -/
def activeRows (start : Date) : List (TopicId × TopicRow) :=
  db.entries.rows.filterMap (fun row => (db.topics.get row.2.topicId).bind (fun topic =>
    if row.2.deletedAt = none && start.le row.2.date then some (row.2.topicId, topic) else none))

/-- The subquery and the aggregate over it, which `_parse_active_topics` reads back. -/
def mostActiveTopics (start : Date) : List MostActiveTopic :=
  let groups := groupBy groupKey
    (fun key group => MostActiveTopic.mk key.2.1 key.2.2 group.length) (activeRows db start)
  plans.aggregated.sort (page (some MOST_ACTIVE_TOPICS_LIMIT) 0 (plans.ranked.sort groups))

/-- `MAX(updated_at)`. -/
def latest : List Timestamp → Option Timestamp
  | [] => none
  | t :: rest =>
    match latest rest with
    | none => some t
    | some best => some (if (Timestamp.comparison.cmp t best).isLE then best else t)

/-- The one row of the statement. -/
def statsRow (weekFrom weekTo start : Date) : DashboardStats where
  topicsTotal := db.topics.rows.length
  entriesTotal := db.entries.countWhere (fun _ row => row.deletedAt = none)
  entriesThisWeek := db.entries.countWhere (fun _ row =>
    row.deletedAt = none && weekFrom.le row.date && row.date.le weekTo)
  conversationsTotal := db.conversations.rows.length
  lastEntryAt := latest ((db.entries.rows.filter (fun row => row.2.deletedAt = none)).map
    (fun row => row.2.updatedAt))
  mostActiveTopics := mostActiveTopics rt plans db start

def getDashboardStats (user : Option PyStr) : Except PeriodError DashboardStats := do
  let week ← userWeekBounds rt loc clock (readUserTimezone user)
  let start ← activeWindowStart week.2
  return statsRow rt plans db week.1 week.2 start

end Model

/-- The total of a list, on every page of it. -/
def HasTotal {ε B : Type} (call : Option Nat → Nat → Except ε (List B × Nat)) (total : Nat) :
    Prop :=
  call (some 0) 0 = .ok ([], total) ∧
    ∀ limit offset items n, call limit offset = .ok (items, n) → n = total

/-- `list_entries` without filters, or between two dates. -/
def dated (dateFrom dateTo : Option Date) (sort : PyStr) : EntryFilter :=
  ⟨none, dateFrom.map Date.text, dateTo.map Date.text, [], none, sort⟩

/-- One of the `ACTIVE_WINDOW_DAYS` days that end on `last`. -/
def inWindow (last date : Date) : Bool :=
  dayNumber date ≤ dayNumber last && dayNumber last < dayNumber date + ACTIVE_WINDOW_DAYS

/-- The active entries of a topic in the window. -/
def windowCount (db : Tables) (last : Date) (id : TopicId) : Nat :=
  db.entries.countWhere (fun _ row =>
    row.topicId = id && row.deletedAt = none && inWindow last row.date)

/-- The topics with a positive count. -/
def activeTopics (db : Tables) (count : TopicId → Nat) : List MostActiveTopic :=
  (db.topics.rows.filter (fun row => 0 < count row.1)).map
    (fun row => ⟨row.2.path, row.2.title, count row.1⟩)

/-- The first of the topics with entries in the window. -/
def ranking (rt : Runtime) (db : Tables) (s : Sorter (activeOrder rt)) (last : Date) :
    List MostActiveTopic :=
  page (some MOST_ACTIVE_TOPICS_LIMIT) 0 (s.sort (activeTopics db (windowCount db last)))

/-- The numbers are those of the lists, and the topics are ranked over the days up to the end of
the week, as long as no entry is dated after it. -/
structure Agrees (rt : Runtime) (db : Tables) (d : Date) (stats : DashboardStats) : Prop where
  topics : ∀ s, HasTotal (fun limit offset => listAll rt db s none limit offset) stats.topicsTotal
  conversations : ∀ cipher s softFail, HasTotal (fun limit offset =>
    listConversations rt db cipher s none limit offset softFail) stats.conversationsTotal
  entries : ∀ sort ∈ [py "newest", py "oldest"], ∀ s, HasTotal (fun limit offset =>
    listEntries rt db (dated none none sort) s limit offset) stats.entriesTotal
  week : ∃ monday sunday : Date,
    (∀ date, (monday.le date && date.le sunday) = true ↔ isoWeek date = isoWeek d) ∧
    (∀ sort ∈ [py "newest", py "oldest"], ∀ s, HasTotal (fun limit offset =>
      listEntries rt db (dated (some monday) (some sunday) sort) s limit offset)
        stats.entriesThisWeek) ∧
    ((∀ row ∈ db.entries.rows, row.2.deletedAt = none → row.2.date.le sunday = true) →
      ∀ s, stats.mostActiveTopics = ranking rt db s sunday)

/-- The last day of the week and the first day of the window are dates. -/
def Representable (d : Date) : Prop :=
  ∃ monday sunday, WeekBounds (dayNumber d / 7 * 7) monday sunday ∧
    ACTIVE_WINDOW_DAYS ≤ dayNumber sunday + 1

section Active
variable {rt : Runtime} {db : Tables} {start : Date}

/-- The active entries of a topic from a day on. -/
def countSince (db : Tables) (start : Date) (id : TopicId) : Nat :=
  db.entries.countWhere (fun _ row =>
    row.topicId = id && row.deletedAt = none && start.le row.date)

theorem countP_activeRows {topic : TopicId × TopicRow} (mem : topic ∈ db.topics.rows) :
    (activeRows db start).countP (fun view => groupKey view = groupKey topic) =
      countSince db start topic.1 := by
  rw [activeRows, List.countP_filterMap, countSince, Table.countWhere]
  refine List.countP_congr fun row _ => ?_
  rw [Bool.and_assoc]
  cases decide (row.2.deletedAt = none) && start.le row.2.date with
  | false => simp
  | true =>
    by_cases own : row.2.topicId = topic.1
    · have found : db.topics.get topic.1 = some topic.2 := Table.get_eq_some_iff.mpr mem
      simp [own, found]
    · cases db.topics.get row.2.topicId with
      | none => simp [own]
      | some other => simp [groupKey, own]

/-- Paths are unique, so no two topics tie. -/
theorem separates_activeTopics (count : TopicId → Nat) :
    Separates (activeOrder rt) (activeTopics db count) := by
  intro a ha b hb tied
  simp only [activeOrder, Comparison.tied_andThen, Comparison.tied_asc, rt.collation_tied] at tied
  obtain ⟨rowA, memA, rfl⟩ := List.mem_map.mp ha
  obtain ⟨rowB, memB, rfl⟩ := List.mem_map.mp hb
  have same : rowA = rowB := List.inj_on_of_nodup_map db.paths (List.mem_of_mem_filter memA)
    (List.mem_of_mem_filter memB) tied.2
  rw [same]

theorem groups_perm : (groupBy groupKey
    (fun key group => MostActiveTopic.mk key.2.1 key.2.2 group.length) (activeRows db start)).Perm
      (activeTopics db (countSince db start)) := by
  have nodup : (db.topics.rows.map groupKey).Nodup := by
    refine List.Nodup.of_map Prod.fst ?_
    rw [List.map_map]
    exact db.topics.unique
  have known : ∀ view ∈ activeRows db start, groupKey view ∈ db.topics.rows.map groupKey := by
    intro view mem
    obtain ⟨row, _, joined⟩ := List.mem_filterMap.mp mem
    obtain ⟨topic, found, _, rfl⟩ := join_eq_some.mp joined
    exact List.mem_map_of_mem (Table.get_eq_some_iff.mp found)
  refine (groupBy_perm nodup known).trans (List.Perm.of_eq ?_)
  rw [List.filter_map, List.map_map, activeTopics]
  have counted : ∀ topic ∈ db.topics.rows,
      ((activeRows db start).filter (fun view => groupKey view = groupKey topic)).length =
        countSince db start topic.1 := by
    intro topic mem
    rw [← List.countP_eq_length_filter, countP_activeRows mem]
  have kept : db.topics.rows.filter (fun topic =>
      0 < (activeRows db start).countP (fun view => groupKey view = groupKey topic)) =
        db.topics.rows.filter (fun topic => 0 < countSince db start topic.1) := by
    refine List.filter_congr fun topic mem => ?_
    rw [countP_activeRows mem]
  refine (congrArg (List.map _) kept).trans (List.map_congr_left fun topic mem => ?_)
  exact congrArg (MostActiveTopic.mk _ _) (counted topic (List.mem_of_mem_filter mem))

/-- Both orders are one, so the aggregate leaves the page of the subquery as it is. -/
theorem mostActiveTopics_eq (plans : Plans rt) (s : Sorter (activeOrder rt)) :
    mostActiveTopics rt plans db start =
      page (some MOST_ACTIVE_TOPICS_LIMIT) 0 (s.sort (activeTopics db (countSince db start))) := by
  have separates := @separates_activeTopics rt db (countSince db start)
  have sorted : plans.ranked.sort (groupBy groupKey
      (fun key group => MostActiveTopic.mk key.2.1 key.2.2 group.length) (activeRows db start)) =
        s.sort (activeTopics db (countSince db start)) :=
    (sort_of_perm separates groups_perm.symm s plans.ranked).symm
  have paged : Separates (activeOrder rt) (page (some MOST_ACTIVE_TOPICS_LIMIT) 0
      (s.sort (activeTopics db (countSince db start)))) := by
    intro a ha b hb
    exact separates a ((s.perm _).mem_iff.mp (mem_of_mem_page ha)) b
      ((s.perm _).mem_iff.mp (mem_of_mem_page hb))
  rw [mostActiveTopics, sorted]
  exact sort_of_sorted paged ((s.sorted _).sublist (List.take_sublist _ _)) plans.aggregated

/-- Without entries after it, the window has an end. -/
theorem countSince_eq {last : Date}
    (first : dayNumber last + 1 = dayNumber start + ACTIVE_WINDOW_DAYS)
    (none : ∀ row ∈ db.entries.rows, row.2.deletedAt = none → row.2.date.le last = true) :
    countSince db start = windowCount db last := by
  funext id
  refine List.countP_congr fun row mem => ?_
  simp only [Bool.and_eq_true, decide_eq_true_eq, inWindow, le_iff]
  refine and_congr_right fun own => ?_
  have before := le_iff.mp (none row mem own.2)
  omega

end Active

section Totals
variable {rt : Runtime} {digits : Digits} {message : PyStr → PyStr} {db : Tables}

theorem hasTotal_of_rows {ε R B : Type} {c : Comparison R} {s : Sorter c} {rows : List R}
    {decode : R → Except ε B} {call : Option Nat → Nat → Except ε (List B × Nat)}
    (calls : ∀ limit offset, call limit offset =
      ((page limit offset (s.sort rows)).mapM decode).map (fun items => (items, rows.length))) :
    HasTotal call rows.length := by
  refine ⟨by rw [calls]; rfl, fun limit offset items n returned => ?_⟩
  rw [calls] at returned
  obtain ⟨_, _, same⟩ := Fallible.map_eq_ok.mp returned
  exact (Prod.mk.inj same).2.symm

theorem topics_hasTotal (s : Sorter topicOrder) :
    HasTotal (fun limit offset => listAll rt db s none limit offset) db.topics.rows.length := by
  have selected : topicsSelected rt db none = .ok (topicViews db) :=
    congrArg Except.ok (List.filter_eq_self.mpr fun _ _ => rfl)
  have length : (topicViews db).length = db.topics.rows.length := List.length_map _
  rw [← length]
  exact hasTotal_of_rows fun limit offset => by rw [listAll_eq, selected]

theorem conversations_hasTotal (cipher : ContentCipher) (s : Sorter conversationOrder)
    (softFail : Bool) : HasTotal (fun limit offset =>
      listConversations rt db cipher s none limit offset softFail)
        db.conversations.rows.length := by
  have selected : conversationsSelected rt db none = .ok (conversationViews db) :=
    congrArg Except.ok (List.filter_eq_self.mpr fun _ _ => rfl)
  have length : (conversationViews db).length = db.conversations.rows.length := by
    refine List.filterMap_length_eq_length.mpr fun row mem => ?_
    obtain ⟨topic, found⟩ := Table.mem_keys.mp (db.conversationTopics row mem)
    rw [found]
    rfl
  rw [← length]
  exact hasTotal_of_rows fun limit offset => by rw [listConversations_eq, selected]

theorem text_ne_nil (d : Date) : d.text ≠ [] := by
  intro empty
  have length : (d.monthText ++ py "-").length + (padded 2 d.day).length = 0 := by
    rw [← List.length_append]
    exact congrArg List.length empty
  rw [length_padded] at length
  omega

theorem checkBound_text (bound : Option Date) :
    checkBound (standard rt digits message) (bound.map Date.text) = .ok () := by
  cases bound with
  | none => rfl
  | some d =>
    rw [Option.map_some, checkBound, given_some (text_ne_nil d)]
    exact DateChecks.validateDate_eq_ok.mpr ⟨d, DateTexts.spells_text digits d⟩

theorem fromIsoformat_text (d : Date) :
    (standard rt digits message).fromIsoformat d.text = .ok d :=
  DateChecks.fromIsoformat_standard.mpr (DateTexts.fromIsoformat_eq_some.mpr rfl).2

theorem parseBound_text (bound : Option Date) :
    parseBound (standard rt digits message) (bound.map Date.text) = .ok bound := by
  cases bound with
  | none => rfl
  | some d =>
    simp only [Option.map_some, parseBound, given_some (text_ne_nil d), Listing.fromIsoformat,
      fromIsoformat_text]
    rfl

theorem listArgs_dated {sort : PyStr} (sorted : sort ∈ [py "newest", py "oldest"])
    (dateFrom dateTo : Option Date) :
    listArgs (standard rt digits message) (dated dateFrom dateTo sort) =
      .ok (none, dateFrom, dateTo) := by
  have checked : checkSort sort = .ok () := by
    refine if_pos ?_
    simpa using sorted
  rw [listArgs, dated, checkBound_text, checkBound_text, checked, parseBound_text, parseBound_text]
  rfl

/-- Every entry has its topic, so the join loses none. -/
theorem countP_joinedEntryRows (p : EntryRow → Bool) :
    (joinedEntryRows db).countP (fun view => p view.row) =
      db.entries.countWhere (fun _ row => p row) := by
  rw [joinedEntryRows, List.countP_filterMap]
  refine List.countP_congr fun row mem => ?_
  obtain ⟨topic, found⟩ := Table.mem_keys.mp (db.entryTopics row mem)
  rw [found]
  rfl

theorem entries_hasTotal {sort : PyStr} (sorted : sort ∈ [py "newest", py "oldest"])
    (dateFrom dateTo : Option Date)
    (s : Sorter (entryOrder ((dated dateFrom dateTo sort).sort ≠ py "newest"))) :
    HasTotal (fun limit offset => listEntries (standard rt digits message) db
        (dated dateFrom dateTo sort) s limit offset)
      (db.entries.countWhere (fun _ row =>
        row.deletedAt = none && between dateFrom dateTo row.date)) := by
  have selected : listSelected (standard rt digits message) db (dated dateFrom dateTo sort) =
      .ok ((joinedEntryRows db).filter (fun view =>
        decide (view.row.deletedAt = none) && between dateFrom dateTo view.row.date)) := by
    rw [listSelected, listArgs_dated sorted]
    refine congrArg Except.ok (List.filter_congr fun view _ => ?_)
    simp [dated, given]
  rw [← countP_joinedEntryRows, List.countP_eq_length_filter]
  exact hasTotal_of_rows fun limit offset => by rw [listEntries_eq, selected]

end Totals

section Week
variable {rt : Runtime} {digits : Digits} {message : PyStr → PyStr} {loc : PyLocale}
  {clock : Clock} {timezone : PyStr} {monday sunday d : Date}

theorem readDate_text (d : Date) : readDate (standard rt digits message) d.text = .ok d := by
  rw [readDate, fromIsoformat_text]
  rfl

theorem userWeekBounds_eq_ok :
    userWeekBounds (standard rt digits message) loc clock timezone = .ok (monday, sunday) ↔
      ∃ today, localToday clock timezone = .ok today ∧
        WeekBounds (dayNumber today / 7 * 7) monday sunday := by
  have written : PeriodRanges.Written loc.lowering (py "this-week") .thisWeek :=
    PeriodRanges.written_text loc.lowering trivial
  constructor
  · intro h
    obtain ⟨today, now, h⟩ := Fallible.bind_eq_ok.mp h
    obtain ⟨read, hday, h⟩ := Fallible.bind_eq_ok.mp h
    obtain ⟨week, hweek, h⟩ := Fallible.bind_eq_ok.mp h
    obtain ⟨first, hfirst, h⟩ := Fallible.bind_eq_ok.mp h
    obtain ⟨last, hlast, h⟩ := Fallible.bind_eq_ok.mp h
    cases h
    rw [readDate_text] at hday
    cases hday
    obtain ⟨first, last, bounds, rfl⟩ := (PeriodRanges.resolvePeriod_written written).mp hweek
    simp only [readDate_text, Except.ok.injEq] at hfirst hlast
    rw [← hfirst, ← hlast]
    exact ⟨today, now, bounds⟩
  · rintro ⟨today, now, bounds⟩
    have resolved := (PeriodRanges.resolvePeriod_written written).mpr ⟨monday, sunday, bounds, rfl⟩
    refine Fallible.bind_eq_ok.mpr ⟨today, now, ?_⟩
    refine Fallible.bind_eq_ok.mpr ⟨_, readDate_text _, Fallible.bind_eq_ok.mpr ⟨_, resolved, ?_⟩⟩
    refine Fallible.bind_eq_ok.mpr ⟨_, readDate_text _, Fallible.bind_eq_ok.mpr ⟨_, ?_, rfl⟩⟩
    exact readDate_text sunday

theorem activeWindowStart_eq_ok {start : Date} : activeWindowStart sunday = .ok start ↔
    dayNumber sunday + 1 = dayNumber start + ACTIVE_WINDOW_DAYS := by
  rw [activeWindowStart, Fallible.mapError_eq_ok, addDays_eq_ok, ACTIVE_WINDOW_DAYS]
  omega

theorem getDashboardStats_eq_ok {plans : Plans (standard rt digits message)} {db : Tables}
    {user : Option PyStr} {stats : DashboardStats} :
    getDashboardStats (standard rt digits message) loc clock plans db user = .ok stats ↔
      ∃ today monday sunday start : Date,
        localToday clock (readUserTimezone user) = .ok today ∧
        WeekBounds (dayNumber today / 7 * 7) monday sunday ∧
        dayNumber sunday + 1 = dayNumber start + ACTIVE_WINDOW_DAYS ∧
        statsRow (standard rt digits message) plans db monday sunday start = stats := by
  constructor
  · intro h
    obtain ⟨⟨monday, sunday⟩, hweek, h⟩ := Fallible.bind_eq_ok.mp h
    obtain ⟨start, hstart, h⟩ := Fallible.bind_eq_ok.mp h
    obtain ⟨today, now, bounds⟩ := userWeekBounds_eq_ok.mp hweek
    exact ⟨today, monday, sunday, start, now, bounds, activeWindowStart_eq_ok.mp hstart,
      Except.ok.inj h⟩
  · rintro ⟨today, monday, sunday, start, now, bounds, hstart, rfl⟩
    exact Fallible.bind_eq_ok.mpr ⟨(monday, sunday),
      userWeekBounds_eq_ok.mpr ⟨today, now, bounds⟩,
      Fallible.bind_eq_ok.mpr ⟨start, activeWindowStart_eq_ok.mpr hstart, rfl⟩⟩

theorem representable_iff : Representable d ↔ ∃ monday sunday start : Date,
    WeekBounds (dayNumber d / 7 * 7) monday sunday ∧
      dayNumber sunday + 1 = dayNumber start + ACTIVE_WINDOW_DAYS := by
  refine exists_congr fun monday => exists_congr fun sunday => ?_
  rw [exists_and_left]
  refine and_congr_right fun _ => ?_
  constructor
  · intro late
    have range := dayNumber_lt sunday
    rw [ACTIVE_WINDOW_DAYS] at late
    have number := @dayNumber_ofDayNumber (dayNumber sunday - 29) (by omega)
    refine ⟨ofDayNumber (dayNumber sunday - 29) (by omega), ?_⟩
    rw [number, ACTIVE_WINDOW_DAYS]
    omega
  · rintro ⟨start, first⟩
    omega

theorem agrees_statsRow {plans : Plans (standard rt digits message)} {db : Tables} {start : Date}
    (bounds : WeekBounds (dayNumber d / 7 * 7) monday sunday)
    (first : dayNumber sunday + 1 = dayNumber start + ACTIVE_WINDOW_DAYS) :
    Agrees (standard rt digits message) db d
      (statsRow (standard rt digits message) plans db monday sunday start) where
  topics := topics_hasTotal
  conversations := conversations_hasTotal
  entries := by
    intro sort sorted s
    have total := @entries_hasTotal rt digits message db sort sorted none none s
    simp only [between, Option.all_none, Bool.and_true] at total
    exact total
  week := by
    refine ⟨monday, sunday, fun date => ?_, fun sort sorted s => ?_, fun none s => ?_⟩
    · rw [Bool.and_eq_true, le_iff, le_iff, bounds.iff, isoWeek_eq_isoWeek]
    · have total := @entries_hasTotal rt digits message db sort sorted (some monday) (some sunday) s
      simp only [between, Option.all_some, ← Bool.and_assoc] at total
      exact total
    · have active := @mostActiveTopics_eq (standard rt digits message) db start plans s
      rwa [countSince_eq first none] at active

/-- The dashboard returns where the time zone has a date and its own are representable, and
agrees with the lists. -/
theorem getDashboardStats_agrees (rt : Runtime) (digits : Digits) (message : PyStr → PyStr)
    (loc : PyLocale) (clock : Clock) (plans : Plans (standard rt digits message))
    (db : Tables) (user : Option PyStr) :
    ((∃ stats, getDashboardStats (standard rt digits message) loc clock plans db user =
        .ok stats) ↔
      ∃ today, localToday clock (readUserTimezone user) = .ok today ∧ Representable today) ∧
    ∀ stats, getDashboardStats (standard rt digits message) loc clock plans db user = .ok stats →
      ∃ today, localToday clock (readUserTimezone user) = .ok today ∧
        Agrees (standard rt digits message) db today stats := by
  constructor
  · constructor
    · rintro ⟨stats, returned⟩
      obtain ⟨today, monday, sunday, start, now, bounds, first, _⟩ :=
        getDashboardStats_eq_ok.mp returned
      exact ⟨today, now, representable_iff.mpr ⟨monday, sunday, start, bounds, first⟩⟩
    · rintro ⟨today, now, representable⟩
      obtain ⟨monday, sunday, start, bounds, first⟩ := representable_iff.mp representable
      exact ⟨_, getDashboardStats_eq_ok.mpr
        ⟨today, monday, sunday, start, now, bounds, first, rfl⟩⟩
  · intro stats returned
    obtain ⟨today, monday, sunday, start, now, bounds, first, rfl⟩ :=
      getDashboardStats_eq_ok.mp returned
    exact ⟨today, now, agrees_statsRow bounds first⟩

end Week

theorem sampleMonday_valid : (1 ≤ 2026 ∧ 2026 ≤ 9999) ∧ (1 ≤ 2 ∧ 2 ≤ 12) ∧ 1 ≤ 23 ∧
    23 ≤ daysInMonth 2026 2 := by decide

/-- The Monday before the day of the sample, which is a Saturday. -/
def sampleMonday : Date := ⟨2026, 2, 23, sampleMonday_valid⟩

/-- It is that Monday wherever the zone is known. -/
def sampleClock : Clock := ⟨fun _ => .ok sampleMonday, sampleMonday⟩

def samplePlans : Plans (standard sampleRuntime sampleDigits id) :=
  ⟨Comparison.sorter _, Comparison.sorter _⟩

/-- Entries of the Saturday are counted on the Monday before. -/
theorem saturday_counted_on_monday : ¬ ∀ stats,
    getDashboardStats (standard sampleRuntime sampleDigits id) sampleLocale sampleClock
      samplePlans sampleTables none = .ok stats →
    ∀ item ∈ stats.mostActiveTopics, ∀ topic ∈ sampleTables.topics.rows,
      topic.2.path = item.path →
        item.entriesLast30d = windowCount sampleTables sampleMonday topic.1 := by
  intro counted
  have returned : getDashboardStats (standard sampleRuntime sampleDigits id) sampleLocale
      sampleClock samplePlans sampleTables none =
        .ok ⟨1, 3, 3, 1, some sampleTime, [⟨py "work", py "Work", 3⟩]⟩ := by decide +kernel
  have three := counted _ returned _ List.mem_cons_self _ List.mem_cons_self rfl
  revert three
  decide +kernel

end Dashboard
