import Gubbi.Journal.DateTexts
import Gubbi.Journal.SearchFailures
import Gubbi.Journal.Writers
import Gubbi.Titles

/-!
# Dates that are validated and then parsed

`validate_date` asks `DATE_PATTERN` and `strptime`, its callers go on with
`date.fromisoformat`. The three agree on ASCII. A date with a digit of another script in a
place where `\d` stands passes the first two and makes the third raise.
-/

namespace DateChecks

open Text Validation Numerals JournalTables JournalRows Listing Dates DateTexts Fallible
open JournalWriters (Host WriteError)

universe u v

/-- A runtime with the parsers of the standard library; the message of the `ValueError` of
`fromisoformat` depends on the release. -/
def standard (rt : Runtime) (digits : Digits) (message : PyStr → PyStr) : Runtime :=
  { rt with
    isDecimal := isDecimal digits
    strptime := fun text => (strptime digits text).isSome
    fromIsoformat := fun text =>
      (DateTexts.fromIsoformat text).elim (.error (message text)) .ok }

/-- A real date in digits that are not all ASCII. -/
def Foreign (digits : Digits) (text : PyStr) : Prop :=
  (∃ d, Spells digits text d) ∧ isAscii text = false

/-- `validate_date` accepts `text` exactly if it is the text of a date, and exactly if
`fromisoformat` reads it in that form. -/
def Exact (rt : Runtime) (text : PyStr) : Prop :=
  (validateDate rt text = .ok () ↔ ∃ d : Date, text = d.text) ∧
    (validateDate rt text = .ok () ↔
      shaped (py "0000-00-00") text = true ∧ ∃ d, rt.fromIsoformat text = .ok d)

section Validated
variable {rt : Runtime} {digits : Digits} {message : PyStr → PyStr} {text : PyStr} {d : Date}

theorem fromIsoformat_standard : (standard rt digits message).fromIsoformat text = .ok d ↔
    DateTexts.fromIsoformat text = some d := by
  change (DateTexts.fromIsoformat text).elim _ _ = _ ↔ _
  cases DateTexts.fromIsoformat text <;> simp

/-- `DATE_PATTERN` by its classes. -/
theorem matches_iff {front rest : PyStr} (ten : front.length = 10) :
    matchesDatePattern (standard rt digits message) (front ++ rest) = true ↔
      starts (dateShape digits) front = true ∧ rest ∈ [[], py "\n"] := by
  obtain ⟨a, b, c, e, dash, m₀, m₁, dash', t, u, rfl⟩ := exists_ten ten
  have decimal : (standard rt digits message).isDecimal = isDecimal digits := rfl
  have differs : ofChar '-' ≠ ofChar '0' := by decide
  simp [matchesDatePattern, decimal, dateShape, yearShape, starts, only, py, differs, and_assoc]

theorem starts_of_matches (h : matchesDatePattern (standard rt digits message) text = true)
    (short : text.length ≤ 10) : text.length = 10 ∧ starts (dateShape digits) text = true := by
  have long : 10 ≤ text.length := by
    simp only [matchesDatePattern, Bool.and_eq_true, decide_eq_true_eq] at h
    exact h.1.1
  have ten : text.length = 10 := by omega
  rw [← List.append_nil text, matches_iff ten] at h
  exact ⟨ten, h.1⟩

theorem matches_of_spells (h : Spells digits text d) :
    matchesDatePattern (standard rt digits message) text = true := by
  obtain ⟨ten, shape⟩ := starts_of_spells h
  rw [← List.append_nil text, matches_iff ten]
  exact ⟨shape, List.mem_cons_self⟩

/-- What is accepted, in the digits of any script. -/
theorem validateDate_eq_ok : validateDate (standard rt digits message) text = .ok () ↔
    ∃ d, Spells digits text d := by
  constructor
  · intro h
    rw [validateDate] at h
    split at h
    · cases h
    · next matched =>
      split at h
      · cases h
      · next parsed =>
        rw [Bool.not_eq_true, Bool.not_eq_false'] at matched parsed
        obtain ⟨d, hd⟩ := Option.isSome_iff_exists.mp parsed
        obtain ⟨ten, shape⟩ := starts_of_matches matched (length_of_strptime hd)
        exact ⟨d, spells_of_strptime ten shape hd⟩
  · rintro ⟨d, h⟩
    have parsed : (standard rt digits message).strptime text = true :=
      Option.isSome_iff_exists.mpr ⟨d, strptime_of_spells h⟩
    rw [validateDate, matches_of_spells h, parsed]
    rfl

theorem spells_iff : (∃ d, Spells digits text d) ↔
    (∃ d : Date, text = d.text) ∨ Foreign digits text := by
  constructor
  · rintro ⟨d, h⟩
    cases ascii : isAscii text with
    | true => exact Or.inl ⟨d, eq_text_of_spells h ascii⟩
    | false => exact Or.inr ⟨⟨d, h⟩, ascii⟩
  · rintro (⟨d, rfl⟩ | foreign)
    · exact ⟨d, spells_text digits d⟩
    · exact foreign.1

theorem not_text_of_foreign (h : Foreign digits text) : ¬ ∃ d : Date, text = d.text := by
  rintro ⟨d, rfl⟩
  have ascii := h.2
  rw [isAscii_text] at ascii
  cases ascii

theorem exact_iff : Exact (standard rt digits message) text ↔ ¬ Foreign digits text := by
  have parsed : (shaped (py "0000-00-00") text = true ∧
      ∃ d, (standard rt digits message).fromIsoformat text = .ok d) ↔
        ∃ d : Date, text = d.text := by
    simp only [fromIsoformat_standard, ← exists_and_left, fromIsoformat_eq_some]
  rw [Exact, parsed, validateDate_eq_ok, spells_iff, and_self]
  constructor
  · intro h foreign
    exact not_text_of_foreign foreign (h.mp (Or.inr foreign))
  · intro plain
    exact or_iff_left plain

end Validated

inductive RangeError
  | http (status : Nat) (detail : PyStr)
  | raised (error : ListingError)

/-- `except ValueError as exc`. -/
def unprocessable : ListingError → RangeError
  | .valueError message => .http 422 message
  | error => .raised error

def MAX_TIMELINE_SPAN_DAYS : Nat := 366

/-- `_parse_range` of the timeline endpoint. -/
def parseRange (rt : Runtime) (dateFrom dateTo : PyStr) : Except RangeError (Date × Date) := do
  (validateDate rt dateFrom).mapError unprocessable
  (validateDate rt dateTo).mapError unprocessable
  let start ← (Listing.fromIsoformat rt dateFrom).mapError .raised
  let stop ← (Listing.fromIsoformat rt dateTo).mapError .raised
  if ¬ start.le stop then .error (.http 422 (py "date_from must be on or before date_to."))
  else if MAX_TIMELINE_SPAN_DAYS < dayNumber stop - dayNumber start then
    .error (.http 422 (py "Date range exceeds the " ++ number MAX_TIMELINE_SPAN_DAYS ++
      py "-day maximum."))
  else return (start, stop)

/-- An argument that is a foreign date. -/
def ForeignBound (digits : Digits) (value : Option PyStr) : Prop :=
  ∃ text, given value = some text ∧ Foreign digits text

section Callers
variable {rt : Runtime} {digits : Digits} {message : PyStr → PyStr} {text : PyStr}
  {value dateFrom dateTo : Option PyStr}

theorem fromIsoformat_isOk (h : validateDate (standard rt digits message) text = .ok ()) :
    (∃ d, Listing.fromIsoformat (standard rt digits message) text = .ok d) ↔
      ¬ Foreign digits text := by
  have parsed : (∃ d, Listing.fromIsoformat (standard rt digits message) text = .ok d) ↔
      ∃ d, DateTexts.fromIsoformat text = some d := by
    refine exists_congr fun d => ?_
    rw [← @fromIsoformat_standard rt digits message text d, Listing.fromIsoformat]
    cases (standard rt digits message).fromIsoformat text <;> simp
  rw [parsed]
  constructor
  · rintro ⟨d, hd⟩ ⟨⟨_, spelled⟩, ascii⟩
    rw [isAscii_of_spells spelled hd] at ascii
    cases ascii
  · intro plain
    rcases spells_iff.mp (validateDate_eq_ok.mp h) with ⟨d, hd⟩ | foreign
    · exact ⟨d, (fromIsoformat_eq_some.mpr hd).2⟩
    · exact absurd foreign plain

theorem fromIsoformat_of_foreign (foreign : Foreign digits text) :
    Listing.fromIsoformat (standard rt digits message) text =
      .error (.valueError (message text)) := by
  have unread : DateTexts.fromIsoformat text = none := by
    cases read : DateTexts.fromIsoformat text with
    | none => rfl
    | some d =>
      obtain ⟨⟨_, spelled⟩, ascii⟩ := foreign
      rw [isAscii_of_spells spelled read] at ascii
      cases ascii
  have raised : (standard rt digits message).fromIsoformat text = .error (message text) := by
    change (DateTexts.fromIsoformat text).elim _ _ = _
    rw [unread, Option.elim_none]
  rw [Listing.fromIsoformat, raised]

/-- After a check only a foreign bound is not parsed. -/
theorem parseBound_isOk (h : checkBound (standard rt digits message) value = .ok ()) :
    (∃ bound, parseBound (standard rt digits message) value = .ok bound) ↔
      ¬ ForeignBound digits value := by
  rw [checkBound] at h
  rw [parseBound, ForeignBound]
  cases hgiven : given value with
  | none => simp
  | some text =>
    rw [hgiven] at h
    have parsed := fromIsoformat_isOk h
    constructor
    · rintro ⟨bound, hbound⟩ ⟨other, same, foreign⟩
      obtain ⟨d, hd, _⟩ := map_eq_ok.mp hbound
      obtain rfl := Option.some.inj same
      exact parsed.mp ⟨d, hd⟩ foreign
    · intro plain
      obtain ⟨d, hd⟩ := parsed.mpr fun foreign => plain ⟨text, rfl, foreign⟩
      exact ⟨some d, map_eq_ok.mpr ⟨d, hd, rfl⟩⟩

/-- Both bounds are parsed after both are checked. -/
theorem parseBounds_isOk {B : Type} (result : Option Date → Option Date → B)
    (hfrom : checkBound (standard rt digits message) dateFrom = .ok ())
    (hto : checkBound (standard rt digits message) dateTo = .ok ()) :
    (∃ args, (do
        let dateFrom ← parseBound (standard rt digits message) dateFrom
        let dateTo ← parseBound (standard rt digits message) dateTo
        return result dateFrom dateTo : Except ListingError B) = .ok args) ↔
      ¬ ForeignBound digits dateFrom ∧ ¬ ForeignBound digits dateTo := by
  rw [← parseBound_isOk hfrom, ← parseBound_isOk hto]
  constructor
  · rintro ⟨args, h⟩
    obtain ⟨first, hfirst, h⟩ := bind_eq_ok.mp h
    obtain ⟨second, hsecond, _⟩ := bind_eq_ok.mp h
    exact ⟨⟨first, hfirst⟩, second, hsecond⟩
  · rintro ⟨⟨first, hfirst⟩, second, hsecond⟩
    exact ⟨_, bind_eq_ok.mpr ⟨first, hfirst, bind_eq_ok.mpr ⟨second, hsecond, rfl⟩⟩⟩

/-- `entries.read`, once the bounds are checked and the topic is found. -/
theorem readArgs_isOk {db : Tables} {topic : PyStr} {topicMeta : TopicMeta}
    (hfrom : checkBound (standard rt digits message) dateFrom = .ok ())
    (hto : checkBound (standard rt digits message) dateTo = .ok ())
    (found : getTopic (standard rt digits message) db topic = .ok (some topicMeta)) :
    (∃ args, readArgs (standard rt digits message) db topic dateFrom dateTo = .ok args) ↔
      ¬ ForeignBound digits dateFrom ∧ ¬ ForeignBound digits dateTo := by
  rw [← parseBounds_isOk (fun first second => (topicMeta, first, second)) hfrom hto, readArgs,
    hfrom, hto, found]
  rfl

/-- `list_entries`, once its other arguments are accepted too. -/
theorem listArgs_isOk {args : EntryFilter} {path : Option PyStr}
    (hfrom : checkBound (standard rt digits message) args.dateFrom = .ok ())
    (hto : checkBound (standard rt digits message) args.dateTo = .ok ())
    (sorted : checkSort args.sort = .ok ())
    (hpath : topicPath (standard rt digits message) args.topic = .ok path) :
    (∃ parsed, listArgs (standard rt digits message) args = .ok parsed) ↔
      ¬ ForeignBound digits args.dateFrom ∧ ¬ ForeignBound digits args.dateTo := by
  rw [← parseBounds_isOk (fun first second => (path, first, second)) hfrom hto, listArgs, hfrom,
    hto, sorted, hpath]
  rfl

/-- The search, as its tool and its endpoint call it. -/
def standardSearch {V E : Type} (host : SearchFailures.Host V E) (digits : Digits)
    (message : PyStr → PyStr) : SearchFailures.Host V E :=
  { host with toRuntime := standard host.toRuntime digits message }

/-- `run_journal_search`, whose callers have checked both bounds. -/
theorem searchBounds_isOk {V E : Type} {host : SearchFailures.Host V E}
    {args : SearchFailures.Args}
    (hfrom : checkBound (standard host.toRuntime digits message) args.dateFrom = .ok ())
    (hto : checkBound (standard host.toRuntime digits message) args.dateTo = .ok ()) :
    (∃ bounds, SearchFailures.parseBounds (standardSearch host digits message) args =
        .ok bounds) ↔
      ¬ ForeignBound digits args.dateFrom ∧ ¬ ForeignBound digits args.dateTo := by
  rw [← parseBound_isOk hfrom, ← parseBound_isOk hto]
  constructor
  · rintro ⟨bounds, h⟩
    obtain ⟨first, hfirst, h⟩ := bind_eq_ok.mp h
    obtain ⟨second, hsecond, _⟩ := bind_eq_ok.mp h
    exact ⟨⟨first, mapError_eq_ok.mp hfirst⟩, second, mapError_eq_ok.mp hsecond⟩
  · rintro ⟨⟨first, hfirst⟩, second, hsecond⟩
    exact ⟨_, bind_eq_ok.mpr ⟨first, mapError_eq_ok.mpr hfirst,
      bind_eq_ok.mpr ⟨second, mapError_eq_ok.mpr hsecond, rfl⟩⟩⟩

theorem validateDate_eq_error {e : ListingError} (h : validateDate rt text = .error e) :
    ∃ detail, e = .valueError detail := by
  rw [validateDate] at h
  split at h
  · exact ⟨_, (Except.error.inj h).symm⟩
  · split at h
    · exact ⟨_, (Except.error.inj h).symm⟩
    · cases h

/-- A failed check is a 422. -/
theorem validateDate_unprocessable {error : ListingError} :
    (validateDate rt text).mapError unprocessable ≠ .error (.raised error) := by
  intro h
  cases checked : validateDate rt text with
  | ok u =>
    rw [checked] at h
    cases h
  | error e =>
    obtain ⟨detail, rfl⟩ := validateDate_eq_error checked
    rw [checked] at h
    cases h

/-- `_parse_range` lets something else than a 422 out on two dates one of which is foreign. -/
theorem parseRange_raised {first second : PyStr} :
    (∃ error, parseRange (standard rt digits message) first second = .error (.raised error)) ↔
      ((∃ d, Spells digits first d) ∧ ∃ d, Spells digits second d) ∧
        (Foreign digits first ∨ Foreign digits second) := by
  constructor
  · rintro ⟨error, h⟩
    rcases bind_eq_error.mp h with h | ⟨_, hfirst, h⟩
    · exact absurd h validateDate_unprocessable
    · rcases bind_eq_error.mp h with h | ⟨_, hsecond, h⟩
      · exact absurd h validateDate_unprocessable
      · have okFirst := mapError_eq_ok.mp hfirst
        have okSecond := mapError_eq_ok.mp hsecond
        refine ⟨⟨validateDate_eq_ok.mp okFirst, validateDate_eq_ok.mp okSecond⟩, ?_⟩
        by_contra plain
        rw [not_or] at plain
        obtain ⟨start, hstart⟩ := (fromIsoformat_isOk okFirst).mpr plain.1
        obtain ⟨stop, hstop⟩ := (fromIsoformat_isOk okSecond).mpr plain.2
        rw [hstart, hstop] at h
        rcases bind_eq_error.mp h with h | ⟨_, _, h⟩
        · cases h
        · rcases bind_eq_error.mp h with h | ⟨_, _, h⟩
          · cases h
          · split at h
            · cases h
            · split at h
              · cases h
              · cases h
  · rintro ⟨⟨spellsFirst, spellsSecond⟩, foreign⟩
    have okFirst : validateDate (standard rt digits message) first = .ok () :=
      validateDate_eq_ok.mpr spellsFirst
    have okSecond : validateDate (standard rt digits message) second = .ok () :=
      validateDate_eq_ok.mpr spellsSecond
    rw [parseRange, okFirst, okSecond]
    by_cases foreignFirst : Foreign digits first
    · rw [fromIsoformat_of_foreign foreignFirst]
      exact ⟨_, rfl⟩
    · obtain ⟨start, hstart⟩ := (fromIsoformat_isOk okFirst).mpr foreignFirst
      rw [hstart, fromIsoformat_of_foreign (foreign.resolve_left foreignFirst)]
      exact ⟨_, rfl⟩

end Callers

/-- The interpreter of the writers with the parsers of the standard library. -/
def standardHost (host : Host) (digits : Digits) (message : PyStr → PyStr) : Host :=
  { host with toRuntime := standard host.toRuntime digits message }

/-- No `ValueError` comes out of a computation. -/
def Silent {A : Type u} (x : Except WriteError A) : Prop :=
  ∀ detail, x ≠ .error (.valueError detail)

section Silent
variable {A : Type u} {B : Type u} {ε : Type v} {x : Except WriteError A}

theorem silent_iff : Silent x ↔ Avoids (fun e => ∃ detail, e = .valueError detail) x := by
  constructor
  · rintro silent e h ⟨detail, rfl⟩
    exact silent detail h
  · exact fun avoids detail h => avoids _ h ⟨detail, rfl⟩

theorem silent_ok (a : A) : Silent (.ok a) := silent_iff.mpr avoids_ok

theorem silent_bind {next : A → Except WriteError B} (hx : Silent x)
    (hnext : ∀ a, x = .ok a → Silent (next a)) : Silent (x >>= next) := by
  simp only [silent_iff] at hx hnext ⊢
  exact avoids_bind hx hnext

theorem silent_mapError {y : Except ε A} {g : ε → WriteError}
    (never : ∀ e, y = .error e → ∀ detail, g e ≠ .valueError detail) : Silent (y.mapError g) := by
  intro detail h
  cases y with
  | ok a => cases h
  | error e => exact never e rfl detail (Except.error.inj h)

theorem silent_map {f : A → B} (hx : Silent x) : Silent (x.map f) := by
  intro detail h
  exact hx detail (map_eq_error.mp h)

theorem silent_mapM {f : A → Except WriteError B} (each : ∀ a, Silent (f a)) (as : List A) :
    Silent (as.mapM f) := by
  simp only [silent_iff] at each ⊢
  exact avoids_mapM fun a _ => each a

end Silent

section Tools
variable {E : Type} {host : Host} {digits : Digits} {message : PyStr → PyStr}
  {date : Option PyStr} {today : Date}

open JournalWriters

theorem silent_toolError {A : Type u} {x : Except WriteError A} (hx : Silent x) (topic : PyStr) :
    Silent (x.mapError (toolError topic)) := by
  refine silent_mapError fun e failed detail h => ?_
  cases e with
  | valueError text => exact hx text failed
  | _ => cases h

theorem checkBound_of_checkDate {u : Unit}
    (h : checkDate (standardHost host digits message) date = .ok u) :
    checkBound (standard host.toRuntime digits message) date = .ok () :=
  mapError_eq_ok.mp h

theorem writersFromIsoformat {text : PyStr} :
    (∃ d, JournalWriters.fromIsoformat (standardHost host digits message) text = .ok d) ↔
      ∃ d, Listing.fromIsoformat (standard host.toRuntime digits message) text = .ok d := by
  change (∃ d, ((standard host.toRuntime digits message).fromIsoformat text).mapError _ = .ok d) ↔ _
  rw [Listing.fromIsoformat]
  cases (standard host.toRuntime digits message).fromIsoformat text <;> simp

/-- Once it is checked a given date is parsed, unless it is foreign. -/
theorem resolveDate_isOk
    (h : checkBound (standard host.toRuntime digits message) date = .ok ()) :
    (∃ d, resolveDate (standardHost host digits message) date today = .ok d) ↔
      ¬ ForeignBound digits date := by
  rw [checkBound] at h
  rw [resolveDate, ForeignBound]
  cases hgiven : given date with
  | none => simp
  | some text =>
    rw [hgiven] at h
    simp [writersFromIsoformat, fromIsoformat_isOk h]

theorem silent_resolveDate
    (h : checkBound (standard host.toRuntime digits message) date = .ok ())
    (plain : ¬ ForeignBound digits date) :
    Silent (resolveDate (standardHost host digits message) date today) := by
  obtain ⟨d, hd⟩ := (resolveDate_isOk h).mpr plain
  rw [hd]
  exact silent_ok d

theorem silent_checkTopic (topic : PyStr) : Silent (checkTopic host topic) :=
  silent_mapError fun _ _ _ h => by cases h

theorem silent_checkCap (field : PyStr) (cap : Nat) (text : PyStr) :
    Silent (checkCap field cap text) := by
  rw [checkCap]
  split
  · exact fun _ h => by cases h
  · exact silent_ok ()

theorem silent_rejectSyntax (text : PyStr) : Silent (rejectSyntax host text) :=
  silent_map (silent_mapError fun _ _ _ h => by cases h)

theorem silent_filterContent (content : PyStr) : Silent (filterContent host content) := by
  rw [filterContent]
  split
  · exact fun _ h => by cases h
  · exact silent_rejectSyntax _

theorem silent_appendReasoning (reasoning : Option PyStr) :
    Silent (appendReasoning host reasoning) := by
  match reasoning with
  | none => exact silent_ok none
  | some [] => exact silent_ok (some [])
  | some (c :: rest) => exact silent_map (silent_rejectSyntax _)

theorem silent_checkDate : Silent (checkDate host date) :=
  silent_mapError fun _ _ _ h => by cases h

/-- A path that was validated is validated again without an error. -/
theorem silent_getId {db : JournalConversations.JournalDb E} {topic path : PyStr}
    (h : checkTopic host topic = .ok path) : Silent (getId host db path) := by
  have valid := (validateTopic_of_ok (mapError_eq_ok.mp h)).1
  rw [getId, valid]
  simp only
  split
  · exact fun _ h => by cases h
  · exact silent_ok _

theorem silent_sealTexts (texts : List PyStr) : Silent (sealTexts texts) := by
  rw [sealTexts]
  split
  · exact silent_ok ()
  · exact fun _ h => by cases h

theorem silent_bindTexts (texts : List PyStr) : Silent (bindTexts texts) := by
  rw [bindTexts]
  split
  · exact silent_ok ()
  · exact fun _ h => by cases h

/-- Nothing that `journal_append_entry` calls raises a `ValueError` it does not catch. -/
theorem silent_journalAppendEntry (plain : ¬ ForeignBound digits date)
    (db : JournalConversations.JournalDb E) (topic content : PyStr) (reasoning : Option PyStr)
    (tags : List PyStr) : Silent (journalAppendEntry (standardHost host digits message) db topic
      content reasoning tags date today) := by
  refine silent_bind (silent_checkTopic topic) fun path validated => ?_
  refine silent_bind (silent_checkCap _ _ _) fun _ _ => ?_
  refine silent_bind (silent_checkCap _ _ _) fun _ _ => ?_
  refine silent_bind (silent_filterContent _) fun text _ => ?_
  refine silent_bind (silent_appendReasoning _) fun reason _ => ?_
  refine silent_bind silent_checkDate fun _ checked => ?_
  refine silent_toolError ?_ _
  refine silent_bind (silent_getId validated) fun _ _ => ?_
  refine silent_bind ?_ fun _ _ => silent_ok _
  refine silent_bind (silent_resolveDate (checkBound_of_checkDate checked) plain) fun _ _ => ?_
  refine silent_bind (silent_sealTexts _) fun _ _ => ?_
  exact silent_bind (silent_bindTexts _) fun _ _ => silent_ok _

theorem silent_updateContent (content : Option PyStr) : Silent (updateContent host content) := by
  cases content with
  | none => exact silent_ok none
  | some content =>
    refine silent_bind (silent_checkCap _ _ _) fun _ _ => ?_
    exact silent_bind (silent_filterContent _) fun _ _ => silent_ok _

theorem silent_updateReasoning (reasoning : Option PyStr) :
    Silent (updateReasoning host reasoning) := by
  cases reasoning with
  | none => exact silent_ok none
  | some reasoning =>
    refine silent_bind (silent_checkCap _ _ _) fun _ _ => ?_
    exact silent_bind (silent_rejectSyntax _) fun _ _ => silent_ok _

/-- `entries.update` parses every date that it is given, so an empty one has to be left out. -/
theorem silent_bindUpdate {entry : JournalEntries.Entry} {content reasoning : Option PyStr}
    {mode : JournalEntries.Mode} {tags : Option (List PyStr)}
    (h : checkBound (standard host.toRuntime digits message) date = .ok ())
    (plain : ¬ ForeignBound digits date) (nonempty : date ≠ some []) :
    Silent (bindUpdate (standardHost host digits message) entry content reasoning mode date
      tags) := by
  refine silent_bind (silent_sealTexts _) fun _ _ => ?_
  cases date with
  | none =>
    refine silent_bind (silent_ok none) fun _ _ => ?_
    exact silent_bind (silent_bindTexts _) fun _ _ => silent_ok _
  | some text =>
    have hgiven : given (some text) = some text := by
      rw [given, Option.filter_some_pos]
      exact decide_eq_true fun empty => nonempty (congrArg some empty)
    rw [checkBound, hgiven] at h
    have plainText : ¬ Foreign digits text := fun foreign => plain ⟨text, hgiven, foreign⟩
    obtain ⟨d, hd⟩ := writersFromIsoformat.mpr ((fromIsoformat_isOk h).mpr plainText)
    refine silent_bind ?_ fun _ _ => silent_bind (silent_bindTexts _) fun _ _ => silent_ok _
    rw [hd]
    exact silent_ok _

/-- The same for `journal_update_entry`. -/
theorem silent_journalUpdateEntry (plain : ¬ ForeignBound digits date) (nonempty : date ≠ some [])
    (db : JournalConversations.JournalDb E) (id : JournalEntries.EntryId)
    (content reasoning : Option PyStr) (mode : JournalEntries.Mode)
    (tags : Option (List PyStr)) : Silent (journalUpdateEntry (standardHost host digits message) db
      id content reasoning mode date tags) := by
  refine silent_bind (silent_updateContent _) fun text _ => ?_
  refine silent_bind (silent_updateReasoning _) fun reason _ => ?_
  refine silent_bind silent_checkDate fun _ checked => ?_
  split
  · exact fun _ h => by cases h
  · refine silent_toolError ?_ _
    rw [updateRow]
    split
    · exact fun _ h => by cases h
    · next entry _ =>
      split
      · next e failed =>
        intro detail h
        rw [Except.error.inj h] at failed
        exact silent_bindUpdate (checkBound_of_checkDate checked) plain nonempty detail failed
      · exact silent_ok _

theorem silent_rejectMessage (m : JournalConversations.Message) : Silent (rejectMessage host m) :=
  silent_mapError fun _ _ _ h => by cases h

/-- A title that was validated is validated again without an error. -/
theorem silent_saveRows {db : JournalConversations.JournalDb E} {topic path value title : PyStr}
    (htopic : checkTopic (standardHost host digits message) topic = .ok path)
    (htitle : validateTitle value = .ok title)
    (h : checkBound (standard host.toRuntime digits message) date = .ok ())
    (plain : ¬ ForeignBound digits date) (messages : List JournalConversations.Message)
    (summary source : PyStr) (tags : List PyStr) :
    Silent (saveRows (standardHost host digits message) db path title messages summary source tags
      date today) := by
  have again := Titles.validateTitle_of_ok htitle
  refine silent_bind ?_ fun _ _ => ?_
  · rw [again]
    exact silent_ok title
  · refine silent_bind (silent_getId htopic) fun _ _ => ?_
    refine silent_bind (silent_sealTexts _) fun _ _ => ?_
    refine silent_bind (silent_resolveDate h plain) fun _ _ => ?_
    refine silent_bind (silent_bindTexts _) fun _ _ => ?_
    refine silent_bind (silent_mapError fun e failed detail raised => ?_) fun _ _ => silent_ok _
    rw [JournalConversations.saveConversation, again] at failed
    simp only at failed
    split at failed
    · obtain rfl := Except.error.inj failed
      cases raised
    · cases failed

/-- The same for `journal_save_conversation`. -/
theorem silent_journalSaveConversation (plain : ¬ ForeignBound digits date)
    (db : JournalConversations.JournalDb E) (topic title : PyStr) (messages : List MessageInput)
    (summary source : PyStr) (tags : List PyStr) :
    Silent (journalSaveConversation (standardHost host digits message) db topic title messages
      summary source tags date today) := by
  refine silent_bind (silent_checkTopic topic) fun path validated => ?_
  refine silent_bind (silent_mapError fun e _ _ h => by cases e <;> cases h) fun clean titled => ?_
  refine silent_bind (silent_rejectSyntax _) fun _ _ => ?_
  refine silent_bind silent_checkDate fun _ checked => ?_
  split
  · exact fun _ h => by cases h
  · refine silent_bind (silent_mapM silent_rejectMessage _) fun _ _ => ?_
    split
    · exact fun _ h => by cases h
    · exact silent_toolError (silent_saveRows validated (mapError_eq_ok.mp titled)
        (checkBound_of_checkDate checked) plain _ _ _ _) _

end Tools

/-- What the callers of `validate_date` make of the dates that they are given: beyond the check
only a foreign date raises. -/
structure CallersExact (E : Type) (rt : Runtime) (host : Host) (digits : Digits)
    (message : PyStr → PyStr) : Prop where
  read : ∀ (db : Tables) (topic : PyStr) (topicMeta : TopicMeta) (dateFrom dateTo : Option PyStr),
    checkBound (standard rt digits message) dateFrom = .ok () →
    checkBound (standard rt digits message) dateTo = .ok () →
    getTopic (standard rt digits message) db topic = .ok (some topicMeta) →
    ((∃ args, readArgs (standard rt digits message) db topic dateFrom dateTo = .ok args) ↔
      ¬ ForeignBound digits dateFrom ∧ ¬ ForeignBound digits dateTo)
  listEntries : ∀ (args : EntryFilter) (path : Option PyStr),
    checkBound (standard rt digits message) args.dateFrom = .ok () →
    checkBound (standard rt digits message) args.dateTo = .ok () →
    checkSort args.sort = .ok () →
    topicPath (standard rt digits message) args.topic = .ok path →
    ((∃ parsed, listArgs (standard rt digits message) args = .ok parsed) ↔
      ¬ ForeignBound digits args.dateFrom ∧ ¬ ForeignBound digits args.dateTo)
  search : ∀ {V E : Type} (host : SearchFailures.Host V E) (args : SearchFailures.Args),
    checkBound (standard host.toRuntime digits message) args.dateFrom = .ok () →
    checkBound (standard host.toRuntime digits message) args.dateTo = .ok () →
    ((∃ bounds, SearchFailures.parseBounds (standardSearch host digits message) args =
        .ok bounds) ↔
      ¬ ForeignBound digits args.dateFrom ∧ ¬ ForeignBound digits args.dateTo)
  parseRange : ∀ first second : PyStr,
    (∃ error, parseRange (standard rt digits message) first second = .error (.raised error)) ↔
      ((∃ d, Spells digits first d) ∧ ∃ d, Spells digits second d) ∧
        (Foreign digits first ∨ Foreign digits second)
  writers : ∀ (date : Option PyStr) (today : Date),
    checkBound (standard host.toRuntime digits message) date = .ok () →
    ((∃ d, JournalWriters.resolveDate (standardHost host digits message) date today = .ok d) ↔
      ¬ ForeignBound digits date)
  append : ∀ (db : JournalConversations.JournalDb E) (topic content : PyStr)
    (reasoning : Option PyStr) (tags : List PyStr) (date : Option PyStr) (today : Date),
    ¬ ForeignBound digits date →
    Silent (JournalWriters.journalAppendEntry (standardHost host digits message) db topic content
      reasoning tags date today)
  update : ∀ (db : JournalConversations.JournalDb E) (id : JournalEntries.EntryId)
    (content reasoning : Option PyStr) (mode : JournalEntries.Mode) (date : Option PyStr)
    (tags : Option (List PyStr)), ¬ ForeignBound digits date → date ≠ some [] →
    Silent (JournalWriters.journalUpdateEntry (standardHost host digits message) db id content
      reasoning mode date tags)
  save : ∀ (db : JournalConversations.JournalDb E) (topic title : PyStr)
    (messages : List JournalWriters.MessageInput) (summary source : PyStr) (tags : List PyStr)
    (date : Option PyStr) (today : Date), ¬ ForeignBound digits date →
    Silent (JournalWriters.journalSaveConversation (standardHost host digits message) db topic title
      messages summary source tags date today)

section Claim
variable {E : Type} {rt : Runtime} {host : Host} {digits : Digits} {message : PyStr → PyStr}

theorem callersExact : CallersExact E rt host digits message where
  read _ _ _ _ _ hfrom hto found := readArgs_isOk hfrom hto found
  listEntries _ _ hfrom hto sorted hpath := listArgs_isOk hfrom hto sorted hpath
  search _ _ hfrom hto := searchBounds_isOk hfrom hto
  parseRange _ _ := parseRange_raised
  writers _ _ h := resolveDate_isOk h
  append db topic content reasoning tags _ _ plain :=
    silent_journalAppendEntry plain db topic content reasoning tags
  update db id content reasoning mode _ tags plain nonempty :=
    silent_journalUpdateEntry plain nonempty db id content reasoning mode tags
  save db topic title messages summary source tags _ _ plain :=
    silent_journalSaveConversation plain db topic title messages summary source tags

/-- `validate_date` is exact on every text that is not a foreign date, and on no other; its
callers raise on no other either. -/
theorem validateDate_exact (E : Type) (rt : Runtime) (host : Host) (digits : Digits)
    (message : PyStr → PyStr) :
    (∀ text, Exact (standard rt digits message) text ↔ ¬ Foreign digits text) ∧
      CallersExact E rt host digits message :=
  ⟨fun _ => exact_iff, callersExact⟩

end Claim

/-- The year in Arabic digits. -/
def arabicDate : PyStr := [0x662, 0x660, 0x662, 0x664] ++ py "-01-15"

theorem arabicDate_validated : ¬ Exact (standard sampleRuntime sampleDigits id) arabicDate := by
  rintro ⟨text, _⟩
  have accepted : validateDate (standard sampleRuntime sampleDigits id) arabicDate = .ok () := by
    decide +kernel
  obtain ⟨d, same⟩ := text.mp accepted
  have ascii := isAscii_text d
  rw [← same] at ascii
  exact absurd ascii (by decide)

end DateChecks
