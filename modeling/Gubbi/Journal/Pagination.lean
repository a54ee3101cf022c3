import Gubbi.Journal.Listing

/-!
# Pages of the listings

Every `ORDER BY` of the listings ends in a column that tells its rows apart, and
every count selects what its statement selects, so separate calls at the offsets
0, L, 2L, ... return the slices of one list.
-/

namespace Pagination

open Text Validation Cipher Queries JournalTables JournalRows Listing

theorem le_foldl_max (values : List Nat) (start : Nat) :
    start ≤ values.foldl max start ∧ ∀ n ∈ values, n ≤ values.foldl max start := by
  induction values generalizing start with
  | nil => exact ⟨Nat.le_refl _, fun n mem => absurd mem List.not_mem_nil⟩
  | cons value rest ih =>
    obtain ⟨first, others⟩ := ih (max start value)
    refine ⟨Nat.le_trans (Nat.le_max_left _ _) first, fun n mem => ?_⟩
    rcases List.mem_cons.mp mem with rfl | mem
    · exact Nat.le_trans (Nat.le_max_right _ _) first
    · exact others n mem

theorem placeholder_le_highest {parts : List Part} {part : Part} (mem : part ∈ parts) :
    part.placeholder ≤ highest parts :=
  (le_foldl_max _ 0).2 _ (List.mem_map_of_mem mem)

theorem param_append {params : List Param} {placeholder : Nat} (more : List Param)
    (le : placeholder ≤ params.length) :
    param (params ++ more) placeholder = param params placeholder := by
  cases placeholder with
  | zero => rfl
  | succ n => exact List.getElem?_append_left le

theorem param_added (params : List Param) (value : Param) :
    param (addParam params value).1 (addParam params value).2 = some value :=
  List.getElem?_concat_length

/-- Params behind those of a part do not change what it selects. -/
theorem holds_append {params : List Param} {part : Part} (more : List Param) (view : EntryView)
    (le : part.placeholder ≤ params.length) :
    part.holds (params ++ more) view = part.holds params view := by
  cases part with
  | notDeleted => rfl
  | compare test placeholder =>
    have same : param (params ++ more) placeholder = param params placeholder :=
      param_append more le
    rw [Part.holds, Part.holds, same]

theorem all_holds_append (f : Filter) (more : List Param) (view : EntryView) :
    f.parts.all (Part.holds (f.params ++ more) view) = f.selects view := by
  rw [Filter.selects, Bool.eq_iff_iff, List.all_eq_true, List.all_eq_true]
  refine forall₂_congr fun part mem => ?_
  have le : part.placeholder ≤ f.params.length := f.complete ▸ placeholder_le_highest mem
  rw [holds_append more view le]

@[simp] theorem selects_start (view : EntryView) : Filter.start.selects view = true := rfl

@[simp] theorem selects_notDeleted (f : Filter) (view : EntryView) :
    f.notDeleted.selects view = (f.selects view && decide (view.row.deletedAt = none)) := by
  rw [Filter.selects, Filter.notDeleted, List.all_append]
  exact congrArg _ (Bool.and_true _)

@[simp] theorem selects_add (f : Filter) (test : Test) (value : Param) (view : EntryView) :
    (f.add test value).selects view = (f.selects view && test.holds view value) := by
  have own : Part.holds (addParam f.params value).1 view
      (.compare test (addParam f.params value).2) = test.holds view value := by
    rw [Part.holds, param_added, Option.any_some]
  have others := all_holds_append f [value] view
  rw [Filter.selects, Filter.add, List.all_append, List.all_cons, List.all_nil, Bool.and_true, own]
  exact congrArg (· && _) others

@[simp] theorem selects_addIf (f : Filter) (test : Test) (value : Option Param) (view : EntryView) :
    (f.addIf test value).selects view = (f.selects view && value.all (test.holds view)) := by
  cases value with
  | none => exact (Bool.and_true _).symm
  | some value => exact selects_add f test value view

/-- The pagination params come behind those of the filter, each with its placeholder. -/
theorem paginate_spec (params : List Param) (limit : Option Nat) (offset : Nat) :
    ∃ more, (paginate params limit offset).params = params ++ more ∧
      (params ++ more).length = max params.length
        (max ((paginate params limit offset).limitAt.getD 0)
          ((paginate params limit offset).offsetAt.getD 0)) ∧
      intParam (params ++ more) (paginate params limit offset).limitAt = limit ∧
      (intParam (params ++ more) (paginate params limit offset).offsetAt).getD 0 = offset := by
  cases limit with
  | some size =>
    refine ⟨[.int size, .int offset], by simp [paginate, addParam], by simp [paginate, addParam],
      ?_, ?_⟩
    · simp [paginate, addParam, intParam, param]
    · simp [paginate, addParam, intParam, param]
  | none =>
    by_cases past : 0 < offset
    · refine ⟨[.int offset], by simp [paginate, addParam, past], by simp [paginate, addParam, past],
        ?_, ?_⟩
      · simp [paginate, past, intParam]
      · simp [paginate, addParam, past, intParam, param]
    · obtain rfl := Nat.eq_zero_of_not_pos past
      exact ⟨[], by simp [paginate], by simp [paginate], rfl, rfl⟩

/-- A statement with its own params is accepted, and selects what the filter does. -/
theorem fetch_paginate {c : Comparison EntryView} (rows : List EntryView) (s : Sorter c)
    (f : Filter) (limit : Option Nat) (offset : Nat) :
    fetch rows s f.parts (paginate f.params limit offset) =
      .ok (page limit offset (window (s.sort (rows.filter f.selects)))) := by
  obtain ⟨more, params, arity, limitAt, offsetAt⟩ := paginate_spec f.params limit offset
  have accepted : bindArguments (max (highest f.parts)
      (max ((paginate f.params limit offset).limitAt.getD 0)
        ((paginate f.params limit offset).offsetAt.getD 0)))
      (f.params ++ more) = .ok () := by
    rw [bindArguments, f.complete]
    exact if_pos arity
  have selected : (fun view => f.parts.all (Part.holds (f.params ++ more) view)) = f.selects :=
    funext fun view => all_holds_append f more view
  simp only [fetch, accepted, params, limitAt, offsetAt, selected]

theorem fetchval_filter (rows : List EntryView) (f : Filter) :
    fetchval rows f.parts f.params = .ok (rows.filter f.selects).length := by
  have accepted : bindArguments (highest f.parts) f.params = .ok () := if_pos f.complete.symm
  rw [← List.countP_eq_length_filter]
  simp only [fetchval, accepted]
  rfl

/-- The first params of a paginated statement are those of its filter. -/
theorem take_paginate (params : List Param) (limit : Option Nat) (offset : Nat) :
    (paginate params limit offset).params.take params.length = params := by
  obtain ⟨more, eq, _⟩ := paginate_spec params limit offset
  rw [eq, List.take_left]

theorem replace_append (c : CodePoint) (new s t : PyStr) :
    replace c new (s ++ t) = replace c new s ++ replace c new t := List.flatMap_append

/-- The three replacements put the escape character in front of each special one. -/
theorem escapeLike_eq (s : PyStr) : escapeLike s = Like.escaped likeAlphabet s := by
  induction s with
  | nil => rfl
  | cons c s ih =>
    have split : escapeLike (c :: s) = escapeLike [c] ++ escapeLike s := by
      rw [escapeLike, ← List.singleton_append, replace_append, replace_append, replace_append]
      rfl
    have one : escapeLike [c] = Like.escaped likeAlphabet [c] := by
      by_cases escape : c = ofChar '!'
      · rw [escape]
        rfl
      · by_cases many : c = ofChar '%'
        · rw [many]
          rfl
        · by_cases single : c = ofChar '_'
          · rw [single]
            rfl
          · simp [escapeLike, replace, Like.escaped, likeAlphabet, escape, many, single]
    rw [split, one, ih]
    exact List.flatMap_append.symm

/-- The paths a prefix selects. -/
def hasPrefix (topicPrefix : Option PyStr) (path : PyStr) : Bool :=
  (given topicPrefix).all (fun value => value.isPrefixOf path)

section Prefixes
variable {rt : Runtime} {topicPrefix valid pattern : Option PyStr}

theorem given_some {value : PyStr} (nonempty : value ≠ []) : given (some value) = some value :=
  Option.filter_eq_some_iff.mpr ⟨rfl, decide_eq_true nonempty⟩

theorem topicFilter_spec (h : topicFilter rt topicPrefix = .ok (valid, pattern)) :
    topicFilter rt valid = .ok (valid, pattern) ∧
      ∀ path, pathMatches pattern path = hasPrefix valid path := by
  unfold topicFilter at h
  cases hgiven : given topicPrefix with
  | none =>
    simp only [hgiven, Except.ok.injEq, Prod.mk.injEq] at h
    obtain ⟨rfl, rfl⟩ := h
    refine ⟨by rw [topicFilter, hgiven], fun path => ?_⟩
    rw [hasPrefix, hgiven]
    rfl
  | some value =>
    cases hvalid : validateTopic rt.lowering value with
    | error message => simp [hgiven, hvalid] at h
    | ok path =>
      simp only [hgiven, hvalid, Except.ok.injEq, Prod.mk.injEq] at h
      obtain ⟨rfl, rfl⟩ := h
      obtain ⟨again, nonempty⟩ := validateTopic_of_ok hvalid
      refine ⟨by simp only [topicFilter, given_some nonempty, again], fun other => ?_⟩
      rw [hasPrefix, given_some nonempty, pathMatches, escapeLike_eq]
      exact Like.like_escaped_many path other

end Prefixes

section Selections
variable (rt : Runtime) (db : Tables)

/-- Within the bounds that are there. -/
def between (dateFrom dateTo : Option Date) (date : Date) : Bool :=
  dateFrom.all (fun bound => bound.le date) && dateTo.all (fun bound => date.le bound)

/-- The entries of the topic that are not deleted, within the bounds. -/
def readSelected (topic : PyStr) (dateFrom dateTo : Option PyStr) :
    Except ListingError (List EntryView) :=
  (readArgs rt db topic dateFrom dateTo).map (fun args => (entryRows db).filter (fun view =>
    view.row.topicId = args.1.id && decide (view.row.deletedAt = none) &&
      between args.2.1 args.2.2 view.row.date))

/-- The entries that are not deleted and meet every filter that is given. -/
def listSelected (args : EntryFilter) : Except ListingError (List EntryView) :=
  (listArgs rt args).map (fun checked => (joinedEntryRows db).filter (fun view =>
    decide (view.row.deletedAt = none) && checked.1.all (fun path => view.path = some path) &&
      between checked.2.1 checked.2.2 view.row.date &&
      args.tags.all (fun tag => tag ∈ view.row.tags) &&
      (given args.source).all (fun source => view.source = some source)))

/-- The entries and conversations of the range, unless their texts cannot be read. -/
def rangeSelected (cipher : Option ContentCipher) (dateFrom dateTo : PyStr) (titleOnly : Bool)
    (topicPrefix : Option PyStr) : Except ListingError (List TimelineRow) :=
  match rangeArgs rt dateFrom dateTo topicPrefix with
  | .error e => .error e
  | .ok (dateFrom, dateTo, pattern) =>
    if cipher = none ∧ titleOnly = false then
      .error (.runtimeError (py "get_by_date_range requires cipher when title_only=False"))
    else .ok (timelineRows rt db dateFrom dateTo pattern)

def conversationsSelected (topicPrefix : Option PyStr) :
    Except ListingError (List ConversationView) :=
  (topicFilter rt topicPrefix).map (fun topic =>
    (conversationViews db).filter (fun view => hasPrefix topic.1 view.topic))

/-- The messages of a conversation that is there and has a readable title. -/
def messagesSelected (cipher : ContentCipher) (id : ConversationId) (softFail : Bool) :
    Except ListingError (List MessageRow) :=
  match conversationView db id with
  | .error e => .error e
  | .ok view => (rowToMeta rt cipher softFail view).map (fun _ => messagesOf db.messages id)

def topicsSelected (topicPrefix : Option PyStr) : Except ListingError (List TopicView) :=
  (topicFilter rt topicPrefix).map (fun topic =>
    (topicViews db).filter (fun view => hasPrefix topic.1 view.row.path))

end Selections

section Orders
variable {rt : Runtime} {db : Tables}

theorem separates_entryRows (ascending : Bool) :
    Separates (entryOrder ascending) (entryRows db) := by
  intro a ha b hb tied
  rw [entryRows, ← List.filterMap_eq_map] at ha hb
  simp only [entryOrder, Comparison.tied_andThen, Comparison.tied_directed,
    Comparison.tied_nat] at tied
  refine Table.eq_of_mem_filterMap ?_ ha hb tied.2.2
  rintro row _ ⟨⟩
  rfl

theorem separates_joinedEntryRows (ascending : Bool) :
    Separates (entryOrder ascending) (joinedEntryRows db) := by
  intro a ha b hb tied
  simp only [entryOrder, Comparison.tied_andThen, Comparison.tied_directed,
    Comparison.tied_nat] at tied
  refine Table.eq_of_mem_filterMap ?_ ha hb tied.2.2
  intro row view h
  obtain ⟨topic, _, rfl⟩ := Option.map_eq_some_iff.mp h
  rfl

theorem separates_conversationViews : Separates conversationOrder (conversationViews db) := by
  intro a ha b hb tied
  simp only [conversationOrder, Comparison.tied_andThen, Comparison.tied_desc,
    Comparison.tied_nat] at tied
  refine Table.eq_of_mem_filterMap ?_ ha hb tied.2.symm
  intro row view h
  obtain ⟨topic, _, rfl⟩ := Option.map_eq_some_iff.mp h
  rfl

theorem separates_topicViews : Separates topicOrder (topicViews db) := by
  intro a ha b hb tied
  rw [topicViews, ← List.filterMap_eq_map] at ha hb
  simp only [topicOrder, Comparison.tied_andThen, Comparison.tied_desc,
    Comparison.tied_nat] at tied
  refine Table.eq_of_mem_filterMap ?_ ha hb tied.2.symm
  rintro row _ ⟨⟩
  rfl

theorem timelineEntries_docType {dateFrom dateTo : Date} {pattern : Option PyStr}
    {row : TimelineRow} (mem : row ∈ timelineEntries db dateFrom dateTo pattern) :
    row.docType = .entry := by
  obtain ⟨entry, _, h⟩ := List.mem_filterMap.mp mem
  obtain ⟨topic, _, _, rfl⟩ := join_eq_some.mp h
  rfl

theorem timelineConversations_docType {dateFrom dateTo : Date} {pattern : Option PyStr}
    {row : TimelineRow} (mem : row ∈ timelineConversations rt db dateFrom dateTo pattern) :
    row.docType = .conversation := by
  obtain ⟨conversation, _, h⟩ := List.mem_filterMap.mp mem
  obtain ⟨topic, _, _, rfl⟩ := join_eq_some.mp h
  rfl

theorem docType_text_inj {a b : DocType} (h : a.text = b.text) : a = b := by
  cases a with
  | entry =>
    cases b with
    | entry => rfl
    | conversation => exact absurd h (by decide)
  | conversation =>
    cases b with
    | entry => exact absurd h (by decide)
    | conversation => rfl

/-- The union has the ids of two tables; the type of the document comes before them. -/
theorem separates_timelineRows (ascending : Bool) (dateFrom dateTo : Date)
    (pattern : Option PyStr) :
    Separates (timelineOrder rt ascending) (timelineRows rt db dateFrom dateTo pattern) := by
  intro a ha b hb tied
  simp only [timelineOrder, Comparison.tied_andThen, Comparison.tied_directed,
    Comparison.tied_asc, Comparison.tied_nat, rt.collation_tied] at tied
  have types : a.docType = b.docType := docType_text_inj tied.2.1
  rcases List.mem_append.mp ha with entryA | convA
  · rcases List.mem_append.mp hb with entryB | convB
    · refine Table.eq_of_mem_filterMap ?_ entryA entryB tied.2.2
      intro row view h
      obtain ⟨topic, _, _, rfl⟩ := join_eq_some.mp h
      rfl
    · rw [timelineEntries_docType entryA, timelineConversations_docType convB] at types
      cases types
  · rcases List.mem_append.mp hb with entryB | convB
    · rw [timelineConversations_docType convA, timelineEntries_docType entryB] at types
      cases types
    · refine Table.eq_of_mem_filterMap ?_ convA convB tied.2.2
      intro row view h
      obtain ⟨topic, _, _, rfl⟩ := join_eq_some.mp h
      rfl

theorem conversationView_mem {id : ConversationId} {view : ConversationView}
    (h : conversationView db id = .ok view) :
    view.id = id ∧ (view.id, view.row) ∈ db.conversations.rows := by
  unfold conversationView at h
  split at h
  · cases h
  · next found hfound =>
    cases h
    have same : view.id = id := by simpa using List.find?_some hfound
    obtain ⟨row, mem, hrow⟩ := List.mem_filterMap.mp (List.mem_of_find?_eq_some hfound)
    obtain ⟨topic, _, rfl⟩ := Option.map_eq_some_iff.mp hrow
    exact ⟨same, mem⟩

theorem separates_messagesOf {row : ConversationId × ConversationRow}
    (mem : row ∈ db.conversations.rows) :
    Separates messageOrder (messagesOf db.messages row.1) := by
  intro a ha b hb tied
  have nodup : ((messagesOf db.messages row.1).map MessageRow.position).Nodup :=
    (db.numbered row mem).nodup_iff.mpr List.nodup_range
  exact List.inj_on_of_nodup_map nodup ha hb (Comparison.tied_nat.mp tied)

theorem length_messagesOf {row : ConversationId × ConversationRow}
    (mem : row ∈ db.conversations.rows) :
    (messagesOf db.messages row.1).length = row.2.messageCount := by
  have length := (db.numbered row mem).length_eq
  rw [List.length_map, List.length_range] at length
  exact length

end Orders

section Calls
variable {rt : Runtime} {db : Tables}

/-- Both statements of `read` select what the function is asked for. -/
theorem selects_readFilter (id : TopicId) (dateFrom dateTo : Option Date) :
    (readFilter id dateFrom dateTo).selects = fun view =>
      view.row.topicId = id && decide (view.row.deletedAt = none) &&
        between dateFrom dateTo view.row.date := by
  funext view
  rw [readFilter, selects_addIf, selects_addIf, selects_notDeleted, selects_add, selects_start,
    Option.all_map, Option.all_map, Bool.true_and, Bool.and_assoc, between]
  rfl

theorem read_eq {cipher : ContentCipher} {s : Sorter (entryOrder false)} {topic : PyStr}
    {limit : Option Nat} {dateFrom dateTo : Option PyStr} {offset : Nat} {topicMeta : TopicMeta}
    {first last : Option Date} {rows : List EntryView}
    (args : readArgs rt db topic dateFrom dateTo = .ok (topicMeta, first, last))
    (selected : (entryRows db).filter (readFilter topicMeta.id first last).selects = rows) :
    (Listing.read rt db cipher s topic limit dateFrom dateTo offset).map Prod.snd =
      ((page (limit.filter (fun n => 0 < n)) offset (s.sort rows)).mapM (buildEntry rt cipher)).map
        (fun entries => (entries, rows.length)) := by
  have counts := fetchval_filter (entryRows db) (readFilter topicMeta.id first last)
  rw [selected] at counts
  simp only [Listing.read, args, fetch_paginate, selected,
    countedPage_window (s.length_sort rows) counts]
  cases (page (limit.filter (fun n => 0 < n)) offset (s.sort rows)).mapM (buildEntry rt cipher) with
  | error e => rfl
  | ok entries => rfl

theorem read_paginates (cipher : ContentCipher) (topic : PyStr) (dateFrom dateTo : Option PyStr) :
    Paginates (fun s limit offset =>
        (Listing.read rt db cipher s topic limit dateFrom dateTo offset).map Prod.snd)
      (readSelected rt db topic dateFrom dateTo) (buildEntry rt cipher) := by
  cases args : readArgs rt db topic dateFrom dateTo with
  | error e =>
    rw [readSelected, args]
    refine paginates_of_error fun s limit offset => ?_
    simp only [Listing.read, args]
    rfl
  | ok found =>
    obtain ⟨topicMeta, first, last⟩ := found
    rw [readSelected, args]
    simp only [Except.map, ← selects_readFilter]
    refine paginates_of_pages ((separates_entryRows false).filter _)
      (fun limit => limit.filter (fun n => 0 < n))
      (fun size positive => Option.filter_some_pos (decide_eq_true positive)) ?_
    exact fun s limit offset => read_eq args rfl

theorem selects_listFilter (args : EntryFilter) (topic : Option PyStr)
    (dateFrom dateTo : Option Date) :
    (listFilter args topic dateFrom dateTo).selects = fun view =>
      decide (view.row.deletedAt = none) && topic.all (fun path => view.path = some path) &&
        between dateFrom dateTo view.row.date &&
        args.tags.all (fun tag => tag ∈ view.row.tags) &&
        (given args.source).all (fun source => view.source = some source) := by
  funext view
  have tags : (tagsParam args.tags).all (Test.tags.holds view) =
      args.tags.all (fun tag => tag ∈ view.row.tags) := by
    rw [tagsParam]
    split
    · next empty => rw [empty]; rfl
    · rfl
  rw [listFilter, selects_addIf, selects_addIf, selects_addIf, selects_addIf, selects_addIf,
    selects_notDeleted, selects_start, tags, Option.all_map, Option.all_map, Option.all_map,
    Option.all_map, Bool.true_and, between, ← Bool.and_assoc]
  rfl

/-- A page of the entries that the filters select, with their number. -/
theorem listEntries_eq {args : EntryFilter} {s : Sorter (entryOrder (args.sort ≠ py "newest"))}
    {limit : Option Nat} {offset : Nat} : listEntries rt db args s limit offset =
      match listSelected rt db args with
      | .error e => .error e
      | .ok rows => ((page limit offset (s.sort rows)).mapM listedRow).map
          (fun listed => (listed, rows.length)) := by
  unfold listEntries
  cases checked : listArgs rt args with
  | error e => simp only [listSelected, checked, Except.map]
  | ok found =>
    obtain ⟨topic, first, last⟩ := found
    have counts := fetchval_filter (joinedEntryRows db) (listFilter args topic first last)
    simp only [listSelected, checked, Except.map, ← selects_listFilter, fetch_paginate,
      take_paginate, countedPage_window (s.length_sort _) counts]

theorem listEntries_paginates (args : EntryFilter) :
    Paginates (fun s limit offset => listEntries rt db args s limit offset)
      (listSelected rt db args) listedRow := by
  cases selected : listSelected rt db args with
  | error e =>
    refine paginates_of_error fun s limit offset => ?_
    rw [listEntries_eq, selected]
  | ok rows =>
    obtain ⟨checked, _, rfl⟩ := Fallible.map_eq_ok.mp selected
    refine paginates_of_pages ((separates_joinedEntryRows _).filter _) id (fun _ _ => rfl) ?_
    intro s limit offset
    rw [listEntries_eq, selected]
    rfl

theorem countConversations_eq (topicPrefix : Option PyStr) : countConversations rt db topicPrefix =
    (conversationsSelected rt db topicPrefix).map List.length := by
  unfold countConversations conversationsSelected
  cases checked : topicFilter rt topicPrefix with
  | error e => rfl
  | ok found =>
    obtain ⟨valid, pattern⟩ := found
    obtain ⟨_, pathMatches_eq⟩ := topicFilter_spec checked
    simp only [Except.map, pathMatches_eq, List.countP_eq_length_filter]

/-- A page of the conversations that the prefix selects, with their number. -/
theorem listConversations_eq {cipher : ContentCipher} {s : Sorter conversationOrder}
    {topicPrefix : Option PyStr} {limit : Option Nat} {offset : Nat} {softFail : Bool} :
    listConversations rt db cipher s topicPrefix limit offset softFail =
      match conversationsSelected rt db topicPrefix with
      | .error e => .error e
      | .ok rows => ((page limit offset (s.sort rows)).mapM (rowToMeta rt cipher softFail)).map
          (fun metas => (metas, rows.length)) := by
  unfold listConversations
  cases checked : topicFilter rt topicPrefix with
  | error e => simp only [conversationsSelected, checked, Except.map]
  | ok found =>
    obtain ⟨valid, pattern⟩ := found
    obtain ⟨again, pathMatches_eq⟩ := topicFilter_spec checked
    have counts := @countConversations_eq rt db valid
    simp only [conversationsSelected, again, Except.map] at counts
    simp only [conversationsSelected, checked, Except.map, pathMatches_eq,
      countedPage_window (s.length_sort _) counts]

theorem listConversations_paginates (cipher : ContentCipher) (topicPrefix : Option PyStr)
    (softFail : Bool) :
    Paginates (fun s limit offset =>
        listConversations rt db cipher s topicPrefix limit offset softFail)
      (conversationsSelected rt db topicPrefix) (rowToMeta rt cipher softFail) := by
  cases selected : conversationsSelected rt db topicPrefix with
  | error e =>
    refine paginates_of_error fun s limit offset => ?_
    rw [listConversations_eq, selected]
  | ok rows =>
    obtain ⟨topic, _, rfl⟩ := Fallible.map_eq_ok.mp selected
    refine paginates_of_pages (separates_conversationViews.filter _) id (fun _ _ => rfl) ?_
    intro s limit offset
    rw [listConversations_eq, selected]
    rfl

theorem countTopics_eq (topicPrefix : Option PyStr) : countTopics rt db topicPrefix =
    (topicsSelected rt db topicPrefix).map List.length := by
  unfold countTopics topicsSelected
  cases checked : topicFilter rt topicPrefix with
  | error e => rfl
  | ok found =>
    obtain ⟨valid, pattern⟩ := found
    obtain ⟨_, pathMatches_eq⟩ := topicFilter_spec checked
    simp only [Except.map, pathMatches_eq, topicViews, ← List.countP_eq_length_filter,
      List.countP_map]
    rfl

/-- A page of the topics that the prefix selects, with their number. -/
theorem listAll_eq {s : Sorter topicOrder} {topicPrefix : Option PyStr} {limit : Option Nat}
    {offset : Nat} : listAll rt db s topicPrefix limit offset =
      match topicsSelected rt db topicPrefix with
      | .error e => .error e
      | .ok rows => ((page limit offset (s.sort rows)).mapM (rowToTopicMeta rt)).map
          (fun metas => (metas, rows.length)) := by
  unfold listAll
  cases checked : topicFilter rt topicPrefix with
  | error e => simp only [topicsSelected, checked, Except.map]
  | ok found =>
    obtain ⟨valid, pattern⟩ := found
    obtain ⟨again, pathMatches_eq⟩ := topicFilter_spec checked
    have counts := @countTopics_eq rt db valid
    simp only [topicsSelected, again, Except.map] at counts
    simp only [topicsSelected, checked, Except.map, pathMatches_eq,
      countedPage_window (s.length_sort _) counts]

theorem listAll_paginates (topicPrefix : Option PyStr) :
    Paginates (fun s limit offset => listAll rt db s topicPrefix limit offset)
      (topicsSelected rt db topicPrefix) (rowToTopicMeta rt) := by
  cases selected : topicsSelected rt db topicPrefix with
  | error e =>
    refine paginates_of_error fun s limit offset => ?_
    rw [listAll_eq, selected]
  | ok rows =>
    obtain ⟨topic, _, rfl⟩ := Fallible.map_eq_ok.mp selected
    refine paginates_of_pages (separates_topicViews.filter _) id (fun _ _ => rfl) ?_
    intro s limit offset
    rw [listAll_eq, selected]
    rfl

theorem getByDateRange_eq {cipher : Option ContentCipher} {dateFrom dateTo : PyStr}
    {limit : Option Nat} {ascending : Bool} {s : Sorter (timelineOrder rt ascending)} {offset : Nat}
    {titleOnly : Bool} {topicPrefix : Option PyStr} :
    getByDateRange rt db cipher dateFrom dateTo limit ascending s offset titleOnly topicPrefix =
      match rangeSelected rt db cipher dateFrom dateTo titleOnly topicPrefix with
      | .error e => .error e
      | .ok rows => (page limit offset (s.sort rows)).mapM (timelineItem rt cipher titleOnly) := by
  unfold getByDateRange rangeSelected
  cases rangeArgs rt dateFrom dateTo topicPrefix with
  | error e => rfl
  | ok found =>
    by_cases unreadable : cipher = none ∧ titleOnly = false
    · simp only [if_pos unreadable]
    · simp only [if_neg unreadable]

theorem getByDateRange_partitions (cipher : Option ContentCipher) (dateFrom dateTo : PyStr)
    (ascending titleOnly : Bool) (topicPrefix : Option PyStr) :
    Partitions (fun (s : Sorter (timelineOrder rt ascending)) size offset =>
        getByDateRange rt db cipher dateFrom dateTo (some size) ascending s offset titleOnly
          topicPrefix)
      (rangeSelected rt db cipher dateFrom dateTo titleOnly topicPrefix)
      (timelineItem rt cipher titleOnly) := by
  cases selected : rangeSelected rt db cipher dateFrom dateTo titleOnly topicPrefix with
  | error e =>
    refine partitions_of_error fun s size offset => ?_
    rw [getByDateRange_eq, selected]
  | ok rows =>
    have separates : Separates (timelineOrder rt ascending) rows := by
      unfold rangeSelected at selected
      split at selected
      · cases selected
      · split at selected
        · cases selected
        · cases selected
          exact separates_timelineRows ascending _ _ _
    refine partitions_of_pages separates fun s size offset _ => ?_
    rw [getByDateRange_eq, selected]

theorem readConversation_eq {cipher : ContentCipher} {s : Sorter messageOrder}
    {id : ConversationId} {limit offset : Nat} {softFail : Bool} :
    (readConversationByIdPaginated rt db cipher s id limit offset softFail).map Prod.snd =
      match messagesSelected rt db cipher id softFail with
      | .error e => .error e
      | .ok rows =>
        ((page (some limit) offset (s.sort rows)).mapM (messageFromRow rt cipher softFail)).map
          (fun messages => (messages, rows.length)) := by
  unfold readConversationByIdPaginated messagesSelected
  cases found : conversationView db id with
  | error e => rfl
  | ok view =>
    obtain ⟨rfl, mem⟩ := conversationView_mem found
    cases hmeta : rowToMeta rt cipher softFail view with
    | error e =>
      simp only [hmeta]
      rfl
    | ok conversationMeta =>
      simp only [hmeta, Except.map, length_messagesOf mem]
      cases (page (some limit) offset (s.sort (messagesOf db.messages view.id))).mapM
        (messageFromRow rt cipher softFail) with
      | error e => rfl
      | ok messages => rfl

theorem messages_partitions (cipher : ContentCipher) (id : ConversationId) (softFail : Bool) :
    Partitions (fun s size offset =>
        ((readConversationByIdPaginated rt db cipher s id size offset softFail).map Prod.snd).map
          Prod.fst)
      (messagesSelected rt db cipher id softFail) (messageFromRow rt cipher softFail) := by
  cases selected : messagesSelected rt db cipher id softFail with
  | error e =>
    refine partitions_of_error fun s size offset => ?_
    rw [readConversation_eq, selected]
    rfl
  | ok rows =>
    have separates : Separates messageOrder rows := by
      unfold messagesSelected at selected
      split at selected
      · cases selected
      · next view found =>
        obtain ⟨rfl, mem⟩ := conversationView_mem found
        cases hmeta : rowToMeta rt cipher softFail view with
        | error e =>
          rw [hmeta] at selected
          cases selected
        | ok conversationMeta =>
          rw [hmeta] at selected
          cases selected
          exact separates_messagesOf mem
    refine partitions_of_pages separates fun s size offset _ => ?_
    rw [readConversation_eq, selected]
    cases h : (page (some size) offset (s.sort rows)).mapM (messageFromRow rt cipher softFail) with
    | error e => simp only [h]; rfl
    | ok messages => simp only [h]; rfl

theorem messages_total (cipher : ContentCipher) (id : ConversationId) (softFail : Bool) :
    CountsAll (fun (s : Sorter messageOrder) limit offset =>
        (readConversationByIdPaginated rt db cipher s id limit offset softFail).map Prod.snd)
      (messagesSelected rt db cipher id softFail) := by
  intro s limit offset items total returned
  simp only [readConversation_eq] at returned
  cases selected : messagesSelected rt db cipher id softFail with
  | error e =>
    rw [selected] at returned
    cases returned
  | ok rows =>
    rw [selected] at returned
    cases h : (page (some limit) offset (s.sort rows)).mapM (messageFromRow rt cipher softFail) with
    | error e =>
      simp only [h] at returned
      cases returned
    | ok messages =>
      simp only [h] at returned
      cases returned
      exact ⟨rows, rfl, rfl⟩

end Calls

/-- The six listings over one state of the tables. -/
structure ListingsPaginate (rt : Runtime) (db : Tables) : Prop where
  read : ∀ cipher topic dateFrom dateTo,
    Paginates (fun s limit offset =>
        (Listing.read rt db cipher s topic limit dateFrom dateTo offset).map Prod.snd)
      (readSelected rt db topic dateFrom dateTo) (buildEntry rt cipher)
  listEntries : ∀ args,
    Paginates (fun s limit offset => Listing.listEntries rt db args s limit offset)
      (listSelected rt db args) listedRow
  getByDateRange : ∀ cipher dateFrom dateTo ascending titleOnly topicPrefix,
    Partitions (fun (s : Sorter (timelineOrder rt ascending)) size offset =>
        Listing.getByDateRange rt db cipher dateFrom dateTo (some size) ascending s offset titleOnly
          topicPrefix)
      (rangeSelected rt db cipher dateFrom dateTo titleOnly topicPrefix)
      (timelineItem rt cipher titleOnly)
  listConversations : ∀ cipher topicPrefix softFail,
    Paginates (fun s limit offset =>
        Listing.listConversations rt db cipher s topicPrefix limit offset softFail)
      (conversationsSelected rt db topicPrefix) (rowToMeta rt cipher softFail)
  readConversation : ∀ cipher id softFail,
    Partitions (fun s size offset =>
        ((readConversationByIdPaginated rt db cipher s id size offset softFail).map Prod.snd).map
          Prod.fst)
      (messagesSelected rt db cipher id softFail) (messageFromRow rt cipher softFail)
  readConversationTotal : ∀ cipher id softFail,
    CountsAll (fun (s : Sorter messageOrder) limit offset =>
        (readConversationByIdPaginated rt db cipher s id limit offset softFail).map Prod.snd)
      (messagesSelected rt db cipher id softFail)
  listAll : ∀ topicPrefix,
    Paginates (fun s limit offset => Listing.listAll rt db s topicPrefix limit offset)
      (topicsSelected rt db topicPrefix) (rowToTopicMeta rt)

/-- Pages of any size make up the listing, and every total is its length. -/
theorem listings_paginate (rt : Runtime) (db : Tables) : ListingsPaginate rt db where
  read := read_paginates
  listEntries := listEntries_paginates
  getByDateRange := getByDateRange_partitions
  listConversations := listConversations_paginates
  readConversation := messages_partitions
  readConversationTotal := messages_total
  listAll := listAll_paginates

/-- Three entries that tie but for their ids, on pages of two. -/
example : (collect (fun offset => (Listing.listEntries sampleRuntime sampleTables
      ⟨none, none, none, [], none, py "newest"⟩ (Comparison.sorter _) (some 2) offset).map
        (fun page => page.1.map ListedRow.id)) 2 3 0) = .ok (some [6, 5, 4]) := by decide

end Pagination
