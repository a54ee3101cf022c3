import Gubbi.Journal.Pagination
import Gubbi.Journal.SearchFailures

/-!
# Prefix filters

A prefix becomes a pattern of `LIKE` in the repositories, and a second time in
`search_by_vector`. The pattern is a test for the prefix itself. The two searches take the
prefix as it was given; the listings and their counts validate it first, and validation
changes capital letters to small ones.
-/

namespace PrefixFilters

open Text Validation Cipher Queries JournalTables JournalRows JournalSearch Listing Pagination
open JournalWriters (isTextParameter)
open SearchFailures (Bounds Host Plans SearchError boundError ftsEntries ftsConversations)

/-- The pattern of `fts_search`. -/
def ftsPattern (topicPrefix : Option PyStr) : Option PyStr :=
  (given topicPrefix).map (fun s => escapeLike s ++ py "%")

/-- The pattern of `search_by_vector`, which has the replacements written out. -/
def vectorPattern (topicPrefix : Option PyStr) : Option PyStr :=
  (given topicPrefix).map (fun s =>
    replace (ofChar '_') (py "!_") (replace (ofChar '%') (py "!%")
      (replace (ofChar '!') (py "!!") s)) ++ py "%")

/-- The arguments are encoded by the client first, and the server takes no NUL. -/
def textArguments (texts : List PyStr) : Except SearchError Unit :=
  if texts.any (fun text => (encodeUtf8 text).isNone) then .error .other
  else if texts.any (fun text => text.any (fun c => c.val = 0)) then
    .error (.postgresError (py "invalid byte sequence for encoding \"UTF8\": 0x00"))
  else .ok ()

section Searches
variable {V E : Type} (host : Host V E) (plans : Plans) (db : SearchFailures.Store V E)

/-- The union of `fts_search`. -/
def ftsSelected (query : PyStr) (topicPrefix dateFrom dateTo : Option PyStr) :
    Except SearchError (List FtsRow) := do
  let pattern := ftsPattern topicPrefix
  let dateFrom ← (parseBound host.toRuntime dateFrom).mapError boundError
  let dateTo ← (parseBound host.toRuntime dateTo).mapError boundError
  textArguments (query :: pattern.toList)
  return ftsEntries host db query ⟨pattern, dateFrom, dateTo⟩ ++
    ftsConversations host db query ⟨pattern, dateFrom, dateTo⟩

def ftsSearch (query : PyStr) (topicPrefix dateFrom dateTo : Option PyStr) (limit : Nat) :
    Except SearchError (List SearchResult) :=
  (ftsSelected host db query topicPrefix dateFrom dateTo).map
    (fun rows => (page (some limit) 0 (plans.fts.sort rows)).map ftsResult)

/-- The rows of `_SEARCH_BY_VECTOR_SQL`, without a floor for `None`. -/
def similarRows (embedding : E) (bounds : Bounds) (minSimilarity : Option ℚ) : List VectorRow :=
  db.embeddings.rows.filterMap (fun stored => (db.entries.get stored.1).bind (fun row =>
    (db.topics.get row.topicId).bind (fun topic =>
      let similarity := host.similarity stored.2 embedding
      if row.deletedAt = none && minSimilarity.all (fun floor => floor ≤ similarity) &&
          bounds.admit topic row.date then
        some ⟨some stored.1, topic.path, similarity, row.date.text⟩
      else none)))

def vectorSelected (embedding : E) (topicPrefix : Option PyStr) (dateFrom dateTo : Option Date)
    (minSimilarity : Option ℚ) : Except SearchError (List VectorRow) := do
  let likePattern := vectorPattern topicPrefix
  textArguments likePattern.toList
  return similarRows host db embedding ⟨likePattern, dateFrom, dateTo⟩ minSimilarity

def searchByVector (embedding : E) (limit : Nat) (topicPrefix : Option PyStr)
    (dateFrom dateTo : Option Date) (minSimilarity : Option ℚ) :
    Except SearchError (List VectorRow) :=
  (vectorSelected host db embedding topicPrefix dateFrom dateTo minSimilarity).map
    (fun rows => page (some limit) 0 (plans.vector.sort rows))

end Searches

section Patterns
variable {s t : PyStr} {texts : List PyStr}

theorem like_escapeLike (s t : PyStr) :
    Like.like likeAlphabet (escapeLike s ++ py "%") t = s.isPrefixOf t := by
  rw [escapeLike_eq]
  exact Like.like_escaped_many s t

example : ([py "50%_!", py "50%_!!", py "500_!"].map
    (Like.like likeAlphabet (escapeLike (py "50%_!") ++ py "%"))) = [true, true, false] := by decide

/-- The two places build one pattern. -/
theorem vectorPattern_eq (topicPrefix : Option PyStr) :
    vectorPattern topicPrefix = ftsPattern topicPrefix := rfl

theorem pathMatches_ftsPattern (s path : PyStr) :
    pathMatches (ftsPattern (some s)) path = s.isPrefixOf path := by
  by_cases empty : s = []
  · rw [empty]
    rfl
  · rw [ftsPattern, given_some empty]
    exact like_escapeLike s path

/-- The escaped prefix is a text for PostgreSQL if the prefix is. -/
theorem isTextParameter_pattern (s : PyStr) :
    isTextParameter (escapeLike s ++ py "%") = isTextParameter s := by
  have special : isTextParameter (py "!") = true ∧ isTextParameter (py "%") = true := by
    decide +kernel
  simp only [EntryUpdate.isTextParameter_iff] at special
  have escape : (toChar likeAlphabet.escape).isSome = true ∧ likeAlphabet.escape.val ≠ 0 :=
    special.1 _ List.mem_cons_self
  rw [Bool.eq_iff_iff, EntryUpdate.isTextParameter_iff, EntryUpdate.isTextParameter_iff,
    List.forall_mem_append, and_iff_left special.2, escapeLike_eq]
  exact Like.forall_mem_escaped escape

theorem textArguments_append {more : List PyStr}
    (taken : ∀ text ∈ more, isTextParameter text = true) :
    textArguments (texts ++ more) = textArguments texts := by
  have encoded : more.any (fun text => (encodeUtf8 text).isNone) = false := by
    refine List.any_eq_false.mpr fun text mem => ?_
    have both := Bool.and_eq_true_iff.mp (taken text mem)
    rw [← Option.not_isSome, both.1]
    decide
  have plain : more.any (fun text => text.any (fun c => c.val = 0)) = false := by
    refine List.any_eq_false.mpr fun text mem => ?_
    have both := Bool.and_eq_true_iff.mp (taken text mem)
    exact Bool.eq_false_iff.mp ((Bool.not_eq_true' _).mp both.2)
  rw [textArguments, List.any_append, List.any_append, encoded, plain, Bool.or_false, Bool.or_false]
  rfl

theorem textArguments_error {text : PyStr} (mem : text ∈ texts)
    (refused : isTextParameter text = false) : ∃ e, textArguments texts = .error e := by
  unfold textArguments
  split
  · exact ⟨_, rfl⟩
  · next encoded =>
    have encodes : (encodeUtf8 text).isSome = true := by
      by_contra none
      refine encoded (List.any_eq_true.mpr ⟨text, mem, ?_⟩)
      simpa using none
    rw [isTextParameter, encodes, Bool.true_and, Bool.not_eq_false'] at refused
    exact ⟨_, if_pos (List.any_eq_true.mpr ⟨text, mem, refused⟩)⟩

end Patterns

/-- The rows with the prefix, among those that are selected without one; a prefix that is no
text for PostgreSQL is an error. -/
structure SelectsGiven {Row : Type} (selected : Option PyStr → Except SearchError (List Row))
    (topic : Row → PyStr) : Prop where
  taken : ∀ s, isTextParameter s = true → selected (some s) =
    (selected none).map (List.filter (fun row => s.isPrefixOf (topic row)))
  refused : ∀ s, isTextParameter s = false → ∃ e, selected (some s) = .error e

section Given
variable {V E : Type} {host : Host V E} {plans : Plans} {db : SearchFailures.Store V E}

theorem admit_ftsPattern (s : PyStr) (dateFrom dateTo : Option Date) (topic : TopicRow)
    (day : Date) : Bounds.admit ⟨ftsPattern (some s), dateFrom, dateTo⟩ topic day =
      ( Bounds.admit ⟨none, dateFrom, dateTo⟩ topic day && s.isPrefixOf topic.path) := by
  simp only [pathMatches_ftsPattern, Bounds.admit]
  simp only [pathMatches, Option.all_none, Bool.true_and]
  rw [Bool.and_assoc, Bool.and_comm]

/-- A prefix in the condition of a joined row is a filter of the rows. -/
theorem filter_joined {Row : Type} {topic : Row → PyStr} {s : PyStr} {row : Row} {own : Bool} :
    (if (own && s.isPrefixOf (topic row)) = true then some row else none) =
      (if own = true then some row else none).filter (fun row => s.isPrefixOf (topic row)) := by
  cases own with
  | false => rfl
  | true =>
    rw [Bool.true_and, if_pos rfl, Option.filter_some]

theorem ftsEntries_filter (query : PyStr) (s : PyStr) (dateFrom dateTo : Option Date) :
    ftsEntries host db query ⟨ftsPattern (some s), dateFrom, dateTo⟩ =
      (ftsEntries host db query ⟨none, dateFrom, dateTo⟩).filter
        (fun row => s.isPrefixOf row.topic) := by
  rw [ftsEntries, ftsEntries, List.filter_filterMap]
  refine List.filterMap_congr fun row _ => ?_
  cases db.topics.get row.2.topicId with
  | none => rfl
  | some topic =>
    simp only [Option.bind_some, admit_ftsPattern, ← Bool.and_assoc]
    exact @filter_joined _ FtsRow.topic s ⟨.entry row.1, topic.path, _, _⟩ _

theorem ftsConversations_filter (query : PyStr) (s : PyStr) (dateFrom dateTo : Option Date) :
    ftsConversations host db query ⟨ftsPattern (some s), dateFrom, dateTo⟩ =
      (ftsConversations host db query ⟨none, dateFrom, dateTo⟩).filter
        (fun row => s.isPrefixOf row.topic) := by
  rw [ftsConversations, ftsConversations, List.filter_filterMap]
  refine List.filterMap_congr fun row _ => ?_
  cases db.topics.get row.2.topicId with
  | none => rfl
  | some topic =>
    simp only [Option.bind_some, admit_ftsPattern, ← Bool.and_assoc]
    exact @filter_joined _ FtsRow.topic s ⟨.conversation row.1, topic.path, _, _⟩ _

theorem similarRows_filter (embedding : E) (s : PyStr) (dateFrom dateTo : Option Date)
    (minSimilarity : Option ℚ) :
    similarRows host db embedding ⟨vectorPattern (some s), dateFrom, dateTo⟩ minSimilarity =
      (similarRows host db embedding ⟨none, dateFrom, dateTo⟩ minSimilarity).filter
        (fun row => s.isPrefixOf row.topic) := by
  rw [similarRows, similarRows, List.filter_filterMap]
  refine List.filterMap_congr fun stored _ => ?_
  cases db.entries.get stored.1 with
  | none => rfl
  | some row =>
    rw [Option.bind_some, Option.bind_some]
    cases db.topics.get row.topicId with
    | none => rfl
    | some topic =>
      simp only [Option.bind_some, vectorPattern_eq, admit_ftsPattern, ← Bool.and_assoc]
      exact @filter_joined _ VectorRow.topic s ⟨some stored.1, topic.path, _, _⟩ _

/-- The argument of a prefix is refused if the prefix is. -/
theorem textArguments_pattern (s : PyStr) (texts : List PyStr) :
    (isTextParameter s = true →
        textArguments (texts ++ (ftsPattern (some s)).toList) = textArguments texts) ∧
      (isTextParameter s = false →
        ∃ e, textArguments (texts ++ (ftsPattern (some s)).toList) = .error e) := by
  by_cases empty : s = []
  · rw [empty]
    exact ⟨fun _ => congrArg _ (List.append_nil _), fun refused => absurd refused (by decide)⟩
  · have pattern : (ftsPattern (some s)).toList = [escapeLike s ++ py "%"] := by
      rw [ftsPattern, given_some empty]
      rfl
    rw [pattern, ← isTextParameter_pattern]
    exact ⟨fun taken => textArguments_append (List.forall_mem_singleton.mpr taken),
      fun refused => textArguments_error (List.mem_append_right _ List.mem_cons_self) refused⟩

/-- The arguments are bound after the dates are read. -/
theorem ftsSelected_of_bounds {query : PyStr} {dateFrom dateTo : Option PyStr}
    {first last : Option Date} (topicPrefix : Option PyStr)
    (hfirst : (parseBound host.toRuntime dateFrom).mapError boundError = .ok first)
    (hlast : (parseBound host.toRuntime dateTo).mapError boundError = .ok last) :
    ftsSelected host db query topicPrefix dateFrom dateTo =
      (textArguments (query :: (ftsPattern topicPrefix).toList)).map
        (fun _ => ftsEntries host db query ⟨ftsPattern topicPrefix, first, last⟩ ++
          ftsConversations host db query ⟨ftsPattern topicPrefix, first, last⟩) := by
  unfold ftsSelected
  simp only [hfirst, hlast]
  cases textArguments (query :: (ftsPattern topicPrefix).toList) with
  | error e => rfl
  | ok _ => rfl

theorem vectorSelected_eq {embedding : E} {dateFrom dateTo : Option Date}
    {minSimilarity : Option ℚ} (topicPrefix : Option PyStr) :
    vectorSelected host db embedding topicPrefix dateFrom dateTo minSimilarity =
      (textArguments (vectorPattern topicPrefix).toList).map (fun _ =>
        similarRows host db embedding ⟨vectorPattern topicPrefix, dateFrom, dateTo⟩
          minSimilarity) := by
  simp only [vectorSelected]
  cases textArguments (vectorPattern topicPrefix).toList with
  | error e => rfl
  | ok _ => rfl

theorem selectsGiven_of_error {Row : Type} {topic : Row → PyStr} {e : SearchError}
    {selected : Option PyStr → Except SearchError (List Row)}
    (fails : ∀ topicPrefix, selected topicPrefix = .error e) : SelectsGiven selected topic := by
  constructor
  · intro s _
    rw [fails, fails]
    rfl
  · exact fun s _ => ⟨e, fails (some s)⟩

/-- A statement that binds the pattern after other texts, and whose rows a prefix filters. -/
theorem selectsGiven_of_rows {Row : Type} {topic : Row → PyStr} {rows : Option PyStr → List Row}
    {selected : Option PyStr → Except SearchError (List Row)} (texts : List PyStr)
    (calls : ∀ topicPrefix, selected topicPrefix =
      (textArguments (texts ++ (ftsPattern topicPrefix).toList)).map (fun _ => rows topicPrefix))
    (filtered : ∀ s, rows (some s) = (rows none).filter (fun row => s.isPrefixOf (topic row))) :
    SelectsGiven selected topic := by
  constructor
  · intro s taken
    have without : textArguments (texts ++ (ftsPattern none).toList) = textArguments texts :=
      congrArg textArguments (List.append_nil texts)
    rw [calls, calls, (textArguments_pattern s texts).1 taken, without, filtered]
    cases textArguments texts with
    | error e => rfl
    | ok _ => rfl
  · intro s refused
    obtain ⟨e, arguments⟩ := (textArguments_pattern s texts).2 refused
    refine ⟨e, ?_⟩
    rw [calls, arguments]
    rfl

theorem selectsGiven_fts (query : PyStr) (dateFrom dateTo : Option PyStr) :
    SelectsGiven (fun topicPrefix => ftsSelected host db query topicPrefix dateFrom dateTo)
      FtsRow.topic := by
  cases hfirst : (parseBound host.toRuntime dateFrom).mapError boundError with
  | error e =>
    refine @selectsGiven_of_error _ _ e _ fun topicPrefix => ?_
    rw [ftsSelected, hfirst]
    rfl
  | ok first =>
    cases hlast : (parseBound host.toRuntime dateTo).mapError boundError with
    | error e =>
      refine @selectsGiven_of_error _ _ e _ fun topicPrefix => ?_
      rw [ftsSelected, hfirst, hlast]
      rfl
    | ok last =>
      refine selectsGiven_of_rows [query]
        (fun topicPrefix => ftsSelected_of_bounds topicPrefix hfirst hlast) fun s => ?_
      rw [ftsEntries_filter, ftsConversations_filter, ← List.filter_append]
      rfl

theorem selectsGiven_vector (embedding : E) (dateFrom dateTo : Option Date)
    (minSimilarity : Option ℚ) :
    SelectsGiven (fun topicPrefix =>
        vectorSelected host db embedding topicPrefix dateFrom dateTo minSimilarity)
      VectorRow.topic :=
  selectsGiven_of_rows [] vectorSelected_eq
    fun s => similarRows_filter embedding s dateFrom dateTo minSimilarity

/-- The first statement of the search pipeline is this call. -/
theorem ftsSearch_parseBounds {args : SearchFailures.Args} {bounds : Bounds}
    (parsed : SearchFailures.parseBounds host args = .ok bounds)
    (arguments : textArguments (args.query :: bounds.pattern.toList) = .ok ()) :
    ftsSearch host plans db args.query args.topicPrefix args.dateFrom args.dateTo args.limit =
      .ok (SearchFailures.ftsHits host plans db args bounds) := by
  obtain ⟨first, hfirst, rest⟩ := Fallible.bind_eq_ok.mp parsed
  obtain ⟨last, hlast, made⟩ := Fallible.bind_eq_ok.mp rest
  cases made
  rw [ftsSearch, ftsSelected_of_bounds _ hfirst hlast]
  exact congrArg (fun bound => (Except.map _ bound).map _) arguments

/-- The pipeline has a floor. -/
theorem similarRows_floor (embedding : E) (bounds : Bounds) :
    similarRows host db embedding bounds (some SearchFailures.SEMANTIC_MIN_SIMILARITY) =
      SearchFailures.vectorRows host db embedding bounds := rfl

end Given

/-- The rows with the validated prefix, and all of them without a prefix; a prefix that is no
topic is a `ValueError`. -/
structure SelectsValidated (rt : Runtime) {Row : Type} (rows : List Row) (topic : Row → PyStr)
    (selected : Option PyStr → Except ListingError (List Row)) : Prop where
  absent : selected none = .ok rows
  empty : selected (some []) = .ok rows
  invalid : ∀ s message, s ≠ [] → validateTopic rt.lowering s = .error message →
    selected (some s) = .error (.valueError message)
  valid : ∀ s path, s ≠ [] → validateTopic rt.lowering s = .ok path →
    selected (some s) = .ok (rows.filter (fun row => path.isPrefixOf (topic row)))

section Validated
variable {rt : Runtime} {db : Tables}

theorem selectsValidated {Row : Type} (rows : List Row) (topic : Row → PyStr) :
    SelectsValidated rt rows topic (fun topicPrefix => (topicFilter rt topicPrefix).map
      (fun found => rows.filter (fun row => hasPrefix found.1 (topic row)))) where
  absent := congrArg Except.ok (List.filter_eq_self.mpr fun _ _ => rfl)
  empty := congrArg Except.ok (List.filter_eq_self.mpr fun _ _ => rfl)
  invalid := by
    intro s message nonempty failed
    simp only [topicFilter, given_some nonempty, failed]
    rfl
  valid := by
    intro s path nonempty passed
    obtain ⟨_, kept⟩ := validateTopic_of_ok passed
    simp only [topicFilter, given_some nonempty, passed, Except.map, hasPrefix, given_some kept,
      Option.all_some]

end Validated

/-- The prefix filters, over any tables. -/
structure Literal {V E : Type} (host : Host V E) (plans : Plans) (store : SearchFailures.Store V E)
    (rt : Runtime) (db : Tables) : Prop where
  like : ∀ s t : PyStr, Like.like likeAlphabet (escapeLike s ++ py "%") t = true ↔ s <+: t
  copies : ∀ topicPrefix, vectorPattern topicPrefix = ftsPattern topicPrefix
  fts : ∀ query dateFrom dateTo, SelectsGiven
    (fun topicPrefix => ftsSelected host store query topicPrefix dateFrom dateTo) FtsRow.topic
  ftsPage : ∀ query topicPrefix dateFrom dateTo limit,
    ftsSearch host plans store query topicPrefix dateFrom dateTo limit =
      (ftsSelected host store query topicPrefix dateFrom dateTo).map
        (fun rows => (page (some limit) 0 (plans.fts.sort rows)).map ftsResult)
  vector : ∀ embedding dateFrom dateTo minSimilarity, SelectsGiven (fun topicPrefix =>
    vectorSelected host store embedding topicPrefix dateFrom dateTo minSimilarity) VectorRow.topic
  vectorPage : ∀ embedding limit topicPrefix dateFrom dateTo minSimilarity,
    searchByVector host plans store embedding limit topicPrefix dateFrom dateTo minSimilarity =
      (vectorSelected host store embedding topicPrefix dateFrom dateTo minSimilarity).map
        (fun rows => page (some limit) 0 (plans.vector.sort rows))
  conversations : SelectsValidated rt (conversationViews db) ConversationView.topic
    (conversationsSelected rt db)
  conversationsPage : ∀ cipher s topicPrefix limit offset softFail,
    listConversations rt db cipher s topicPrefix limit offset softFail =
      match conversationsSelected rt db topicPrefix with
      | .error e => .error e
      | .ok rows => ((page limit offset (s.sort rows)).mapM (rowToMeta rt cipher softFail)).map
          (fun metas => (metas, rows.length))
  conversationsCount : ∀ topicPrefix, countConversations rt db topicPrefix =
    (conversationsSelected rt db topicPrefix).map List.length
  topics : SelectsValidated rt (topicViews db) (fun view => view.row.path) (topicsSelected rt db)
  topicsPage : ∀ s topicPrefix limit offset, listAll rt db s topicPrefix limit offset =
    match topicsSelected rt db topicPrefix with
    | .error e => .error e
    | .ok rows => ((page limit offset (s.sort rows)).mapM (rowToTopicMeta rt)).map
        (fun metas => (metas, rows.length))
  topicsCount : ∀ topicPrefix, countTopics rt db topicPrefix =
    (topicsSelected rt db topicPrefix).map List.length

/-- A prefix filter tests for the prefix that was given, or for the validated one. -/
theorem prefixFilters_literal {V E : Type} (host : Host V E) (plans : Plans)
    (store : SearchFailures.Store V E) (rt : Runtime) (db : Tables) :
    Literal host plans store rt db where
  like s t := by rw [like_escapeLike, List.isPrefixOf_iff_prefix]
  copies := vectorPattern_eq
  fts := selectsGiven_fts
  ftsPage _ _ _ _ _ := rfl
  vector := selectsGiven_vector
  vectorPage _ _ _ _ _ _ := rfl
  conversations := selectsValidated _ _
  conversationsPage _ _ _ _ _ _ := listConversations_eq
  conversationsCount := countConversations_eq
  topics := selectsValidated _ _
  topicsPage _ _ _ _ := listAll_eq
  topicsCount := countTopics_eq

/-- No path of the sample begins with a capital letter. -/
theorem capital_prefix_selects : ¬ ∀ s, countTopics sampleRuntime sampleTables (some s) =
    .ok ((topicViews sampleTables).countP (fun view => s.isPrefixOf view.row.path)) := by
  intro literal
  have counted := literal (py "Work")
  revert counted
  decide

end PrefixFilters
