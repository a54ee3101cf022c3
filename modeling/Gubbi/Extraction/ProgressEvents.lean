import Gubbi.Auth.Strategies
import Gubbi.Extraction.Owners
import Gubbi.Library.EventStream
import Gubbi.Library.FlatJson

/-!
# What a client sees on the progress stream

A worker that has committed an extraction publishes an event on a Redis channel named after
the user and the job, and each open stream of the user forwards what Redis delivers to its
subscription, as JSON on a line of an event stream, with a heartbeat when nothing comes. Redis
delivers an event to whoever is subscribed at that moment and keeps nothing; the glob matching
of its channel patterns is a parameter.
-/

namespace ProgressEvents

open Text ExtractionJobs AuthStrategies
open ExtractConversation (AttemptId)

/-- A UUID has 128 bits. -/
abbrev UserUuid := Fin (2 ^ 128)

abbrev StreamId := Nat

structure Event where
  topicPath : Option PyStr
  entriesCreated : Nat
  jobId : JobId
  conversationId : ConversationId
  deriving DecidableEq

/-- The UTF-16 code units of a text. -/
def units (text : PyStr) : List FlatJson.Unit16 := text.flatMap (fun c => FlatJson.utf16 c.val)

def Event.members (event : Event) : FlatJson.Members :=
  [(units (py "topic_path"), match event.topicPath with
      | some topicPath => .text (units topicPath)
      | none => .null),
    (units (py "entries_created"), .int event.entriesCreated),
    (units (py "job_id"), .text (units (uuidText event.jobId))),
    (units (py "conversation_id"), .int event.conversationId)]

/-- `json.dumps(event)`. -/
def Event.text (event : Event) : List Char := FlatJson.dumps event.members

/-- An event of a user; `batch` is the position of the commit it tells of. -/
structure Publication where
  userId : UserUuid
  event : Event
  batch : Nat
  deriving DecidableEq

def channelStem (userId : UserUuid) : PyStr :=
  py "extraction:user:" ++ uuidText userId.val ++ py ":job:"

def channel (userId : UserUuid) (jobId : JobId) : PyStr := channelStem userId ++ uuidText jobId

def pattern (userId : UserUuid) : PyStr := channelStem userId ++ py "*"

/-- A star, a question mark, an opening bracket or a backslash means something else than itself
in a pattern. -/
def isSpecial (c : CodePoint) : Bool :=
  c.val = 0x2a || c.val = 0x3f || c.val = 0x5b || c.val = 0x5c

/-- Plain text with a star behind it matches what begins with the text. -/
def MatchesPrefixes (glob : PyStr → PyStr → Bool) : Prop :=
  ∀ stem channel, stem.any isSpecial = false →
    glob (stem ++ py "*") channel = stem.isPrefixOf channel

inductive Phase
  | subscribed
  | disconnected
  | closed
  deriving DecidableEq, Repr

/-- `since` counts the events published before the stream subscribed; `unbroken` says that its
connection to Redis never broke. -/
structure Stream where
  userId : UserUuid
  phase : Phase
  inbox : List Publication
  output : List Char
  since : Nat
  unbroken : Bool

structure World where
  worker : ExtractConversation.World
  /-- Extractions that are committed and not published yet. -/
  unpublished : List Publication
  /-- What Redis was given, in this order. -/
  log : List Publication
  streams : Table StreamId Stream

def World.start : World := ⟨.start, [], [], Table.empty⟩

inductive Action
  | work (action : ExtractConversation.Action)
  | publish (batch : Nat)
  | publishFails (batch : Nat)
  | subscribe (r : StreamId) (userId : UserUuid)
  | heartbeat (r : StreamId)
  | forward (r : StreamId)
  | disconnect (r : StreamId)
  | resubscribe (r : StreamId)
  | close (r : StreamId)

/-- The event of the attempt that is about to commit. -/
def completion (w : ExtractConversation.World) (p : AttemptId) : Option Publication :=
  (w.attempts.get p).bind fun a =>
    match a.phase with
    | .completed draft _ _ _ =>
      if small : a.userId < 2 ^ 128 then
        some ⟨⟨a.userId, small⟩,
          ⟨some draft.topicPath, draft.entries.length, a.jobId, a.conversationId⟩,
          w.batches.length⟩
      else none
    | _ => none

def Stream.receive (glob : PyStr → PyStr → Bool) (publication : Publication) (stream : Stream) :
    Stream :=
  if stream.phase = .subscribed ∧
      glob (pattern stream.userId) (channel publication.userId publication.event.jobId) = true then
    { stream with inbox := stream.inbox ++ [publication] }
  else stream

def Stream.emit (stream : Stream) (entry : EventStream.Entry) : Stream :=
  { stream with output := stream.output ++ entry.render }

/-- The next step of a stream by itself. -/
def Stream.next (stream : Stream) : Action → Option Stream
  | .heartbeat _ =>
    if stream.phase = .closed then none
    else some (stream.emit (.comment "heartbeat".toList))
  | .forward _ =>
    match stream.inbox with
    | publication :: rest =>
      some ({ stream with inbox := rest }.emit (.data publication.event.text))
    | [] => none
  | .disconnect _ =>
    if stream.phase = .subscribed then
      some { stream with phase := .disconnected, inbox := [], unbroken := false }
    else none
  | .resubscribe _ =>
    if stream.phase = .disconnected then some { stream with phase := .subscribed } else none
  | .close _ =>
    -- `finally` runs on a disconnect of the client, an error and a cancellation
    if stream.phase = .closed then none else some { stream with phase := .closed, inbox := [] }
  | _ => none

def World.moveStream (w : World) (r : StreamId) (action : Action) : Option World :=
  (w.streams.get r).bind fun stream =>
    (stream.next action).map fun stream => { w with streams := w.streams.put r stream }

section Steps
variable (preChargeCents : Cents) (glob : PyStr → PyStr → Bool)

def step (w : World) : Action → Option World
  | .work action =>
    (ExtractConversation.step preChargeCents w.worker action).bind fun worker =>
      match action with
      | .commit p _ => (completion w.worker p).map fun publication =>
        { w with worker := worker, unpublished := publication :: w.unpublished }
      | _ => some { w with worker := worker }
  | .publish batch =>
    (w.unpublished.find? (fun publication => publication.batch = batch)).map fun publication =>
      { w with
        unpublished := w.unpublished.erase publication
        log := w.log ++ [publication]
        streams := w.streams.update (fun _ stream => stream.receive glob publication) }
  | .publishFails batch =>
    -- the failure is swallowed, and a worker that dies here leaves the event unpublished too
    (w.unpublished.find? (fun publication => publication.batch = batch)).map fun publication =>
      { w with unpublished := w.unpublished.erase publication }
  | .subscribe r userId =>
    if w.streams.get r = none then
      some { w with
        streams := w.streams.put r ⟨userId, .subscribed, [], [], w.log.length, true⟩ }
    else none
  | .heartbeat r => w.moveStream r (.heartbeat r)
  | .forward r => w.moveStream r (.forward r)
  | .disconnect r => w.moveStream r (.disconnect r)
  | .resubscribe r => w.moveStream r (.resubscribe r)
  | .close r => w.moveStream r (.close r)

end Steps

section Channels

/-- The 32 digits of a UUID. -/
def digits (uuid : Nat) : PyStr :=
  (List.range 32).map (fun i => hexChar (uuid / 16 ^ (31 - i) % 16))

theorem val_hexChar {digit : Nat} (small : digit < 16) :
    (hexChar digit).val = if digit < 10 then 0x30 + digit else 0x57 + digit := by
  unfold hexChar
  split
  · exact Nat.mod_eq_of_lt (by omega)
  · exact (Nat.mod_eq_of_lt (by omega)).trans (by omega)

theorem hexChar_spec {digit : Nat} (small : digit < 16) :
    isSpecial (hexChar digit) = false ∧ (hexChar digit).val ≠ 0x2d ∧
      hexDigit (hexChar digit) = some digit := by
  have val := val_hexChar small
  by_cases decimal : digit < 10
  · rw [if_pos decimal] at val
    refine ⟨?_, by omega, ?_⟩
    · simp only [isSpecial, val, Bool.or_eq_false_iff, decide_eq_false_iff_not]
      omega
    · rw [hexDigit, val, if_pos (by omega), Nat.add_sub_cancel_left]
  · rw [if_neg decimal] at val
    refine ⟨?_, by omega, ?_⟩
    · simp only [isSpecial, val, Bool.or_eq_false_iff, decide_eq_false_iff_not]
      omega
    · rw [hexDigit, val, if_neg (by omega), if_pos (by omega)]
      exact congrArg some (by omega)

theorem digits_spec {uuid : Nat} {c : CodePoint} (mem : c ∈ digits uuid) :
    isSpecial c = false ∧ c.val ≠ 0x2d := by
  obtain ⟨i, _, rfl⟩ := List.mem_map.mp mem
  have spec := @hexChar_spec (uuid / 16 ^ (31 - i) % 16) (Nat.mod_lt _ (by decide))
  exact ⟨spec.1, spec.2.1⟩

/-- Five groups of digits with dashes between them. -/
theorem uuidText_eq (uuid : Nat) : uuidText uuid =
    (digits uuid).take 8 ++ py "-" ++ ((digits uuid).drop 8).take 4 ++ py "-" ++
      ((digits uuid).drop 12).take 4 ++ py "-" ++ ((digits uuid).drop 16).take 4 ++ py "-" ++
      (digits uuid).drop 20 := rfl

theorem plain_uuidText (uuid : Nat) : (uuidText uuid).any isSpecial = false := by
  have dash : (py "-").any isSpecial = false := by decide
  have group : ∀ part : PyStr, (∀ c ∈ part, c ∈ digits uuid) → part.any isSpecial = false :=
    fun part sub => List.any_eq_false.mpr fun c mem => by simp [(digits_spec (sub c mem)).1]
  simp only [uuidText_eq, List.any_append, dash, Bool.or_eq_false_iff, and_true]
  refine ⟨⟨⟨⟨?_, ?_⟩, ?_⟩, ?_⟩, ?_⟩
  · exact group _ fun c mem => List.mem_of_mem_take mem
  · exact group _ fun c mem => List.mem_of_mem_drop (List.mem_of_mem_take mem)
  · exact group _ fun c mem => List.mem_of_mem_drop (List.mem_of_mem_take mem)
  · exact group _ fun c mem => List.mem_of_mem_drop (List.mem_of_mem_take mem)
  · exact group _ fun c mem => List.mem_of_mem_drop mem

theorem length_uuidText (uuid : Nat) : (uuidText uuid).length = 36 := by
  have dash : (py "-").length = 1 := rfl
  have all : (digits uuid).length = 32 := by rw [digits, List.length_map, List.length_range]
  simp only [uuidText_eq, List.length_append, List.length_take, List.length_drop, all, dash]
  omega

/-- The digits are what is no dash. -/
theorem filter_uuidText (uuid : Nat) :
    (uuidText uuid).filter (fun c => c.val ≠ 0x2d) = digits uuid := by
  have dash : (py "-").filter (fun c => c.val ≠ 0x2d) = [] := by decide
  have kept : ∀ part : PyStr, (∀ c ∈ part, c ∈ digits uuid) →
      part.filter (fun c => c.val ≠ 0x2d) = part :=
    fun part sub => List.filter_eq_self.mpr fun c mem =>
      decide_eq_true (digits_spec (sub c mem)).2
  rw [uuidText_eq]
  simp only [List.filter_append, dash, List.append_nil]
  rw [kept _ fun c mem => List.mem_of_mem_take mem,
    kept _ fun c mem => List.mem_of_mem_drop (List.mem_of_mem_take mem),
    kept _ fun c mem => List.mem_of_mem_drop (List.mem_of_mem_take mem),
    kept _ fun c mem => List.mem_of_mem_drop (List.mem_of_mem_take mem),
    kept _ fun c mem => List.mem_of_mem_drop mem]
  have join : ∀ n k : Nat, ((digits uuid).drop n).take k ++ (digits uuid).drop (n + k) =
      (digits uuid).drop n := by
    intro n k
    rw [← List.drop_drop, List.take_append_drop]
  simp only [List.append_assoc, join 16 4, join 12 4, join 8 4, List.take_append_drop]

theorem digit_of_digits {one two : Nat} (same : digits one = digits two) {k : Nat} (lt : k < 32) :
    one / 16 ^ k % 16 = two / 16 ^ k % 16 := by
  have read := List.map_inj_left.mp same (31 - k) (List.mem_range.mpr (by omega))
  have place : 31 - (31 - k) = k := by omega
  rw [place] at read
  have value := congrArg hexDigit read
  rw [(hexChar_spec (Nat.mod_lt _ (by decide))).2.2,
    (hexChar_spec (Nat.mod_lt _ (by decide))).2.2] at value
  exact Option.some.inj value

/-- The text of a UUID tells its value. -/
theorem uuidText_inj {one two : UserUuid} (same : uuidText one.val = uuidText two.val) :
    one = two := by
  have equal : digits one.val = digits two.val := by
    rw [← filter_uuidText, same, filter_uuidText]
  -- from the digit in front down to the last one
  have fronts : ∀ n ≤ 32, one.val / 16 ^ (32 - n) = two.val / 16 ^ (32 - n) := by
    intro n
    induction n with
    | zero =>
      intro _
      have top : (2 : Nat) ^ 128 = 16 ^ 32 := by norm_num
      have small : one.val < 16 ^ 32 := Nat.lt_of_lt_of_eq one.isLt top
      have small' : two.val < 16 ^ 32 := Nat.lt_of_lt_of_eq two.isLt top
      exact (Nat.div_eq_of_lt small).trans (Nat.div_eq_of_lt small').symm
    | succ n ih =>
      intro le
      have front := ih (by omega)
      have digit := digit_of_digits equal (show 32 - (n + 1) < 32 by omega)
      have up : 16 ^ (32 - n) = 16 ^ (32 - (n + 1)) * 16 := by
        rw [← Nat.pow_succ]
        exact congrArg (16 ^ ·) (by omega)
      rw [up, ← Nat.div_div_eq_div_mul, ← Nat.div_div_eq_div_mul] at front
      rw [← Nat.div_add_mod (one.val / 16 ^ (32 - (n + 1))) 16, front, digit, Nat.div_add_mod]
  have whole := fronts 32 (Nat.le_refl 32)
  rw [Nat.sub_self, Nat.pow_zero, Nat.div_one, Nat.div_one] at whole
  exact Fin.ext whole

/-- The channels that a stream's pattern matches are its own user's. -/
theorem glob_pattern {glob : PyStr → PyStr → Bool} (prefixes : MatchesPrefixes glob)
    (userId other : UserUuid) (jobId : JobId) :
    glob (pattern userId) (channel other jobId) = decide (other = userId) := by
  have plain : (channelStem userId).any isSpecial = false := by
    have front : (py "extraction:user:").any isSpecial = false := by decide
    have back : (py ":job:").any isSpecial = false := by decide
    rw [channelStem, List.any_append, List.any_append, front, plain_uuidText, back]
    rfl
  rw [pattern, prefixes _ _ plain, Bool.eq_iff_iff, List.isPrefixOf_iff_prefix, decide_eq_true_iff]
  constructor
  · intro front
    have lengths : (channelStem userId).length = (channelStem other).length := by
      simp only [channelStem, List.length_append, length_uuidText]
    have stems : channelStem userId = channelStem other :=
      (List.prefix_of_prefix_length_le front (List.prefix_append _ _)
        (Nat.le_of_eq lengths)).eq_of_length lengths
    rw [channelStem, channelStem, List.append_left_inj, List.append_right_inj] at stems
    exact (uuidText_inj stems).symm
  · rintro rfl
    exact List.prefix_append _ _

end Channels

/-- The user's events since the stream subscribed. -/
def due (log : List Publication) (stream : Stream) : List Publication :=
  (log.drop stream.since).filter (fun publication => publication.userId = stream.userId)

/-- What a stream has written is entries whose data are the events `shown`. -/
structure Follows (log : List Publication) (stream : Stream) (entries : List EventStream.Entry)
    (shown : List Publication) : Prop where
  output : stream.output = entries.flatMap EventStream.Entry.render
  oneLine : ∀ entry ∈ entries, EventStream.OneLine entry.text
  data : entries.filterMap EventStream.Entry.data? =
    shown.map (fun publication => publication.event.text)
  since : stream.since ≤ log.length
  broken : stream.phase = .disconnected → stream.unbroken = false
  order : (shown ++ stream.inbox).Sublist (due log stream)
  unbroken : stream.unbroken = true → shown ++ stream.inbox <+: due log stream
  current : stream.unbroken = true → stream.phase = .subscribed →
    shown ++ stream.inbox = due log stream

section Following
variable {glob : PyStr → PyStr → Bool} {log : List Publication} {stream next : Stream}
  {entries : List EventStream.Entry} {shown : List Publication}

theorem oneLine_of_printable {text : List Char} (printable : FlatJson.PrintableText text) :
    EventStream.OneLine text := by
  intro c mem
  have low := (printable c mem).1
  constructor
  · rintro rfl
    exact absurd low (by decide)
  · rintro rfl
    exact absurd low (by decide)

theorem due_append (stream : Stream) (since : stream.since ≤ log.length)
    (publication : Publication) : due (log ++ [publication]) stream =
      due log stream ++ if publication.userId = stream.userId then [publication] else [] := by
  rw [due, List.drop_append_of_le_length since, List.filter_append]
  congr 1
  by_cases same : publication.userId = stream.userId
  · simp [same]
  · simp [same]

/-- Redis has been given another event. -/
theorem Follows.publish (prefixes : MatchesPrefixes glob)
    (follows : Follows log stream entries shown) (publication : Publication) :
    Follows (log ++ [publication]) (stream.receive glob publication) entries shown := by
  have more := due_append stream follows.since publication
  have later : due log stream <+: due (log ++ [publication]) stream := by
    rw [more]
    exact List.prefix_append _ _
  have since : stream.since ≤ (log ++ [publication]).length :=
    Nat.le_trans follows.since (by simp)
  unfold Stream.receive
  rw [glob_pattern prefixes]
  split
  · next received =>
    obtain ⟨subscribed, own⟩ := received
    rw [if_pos (of_decide_eq_true own)] at more
    have grown : due (log ++ [publication]) { stream with inbox := stream.inbox ++ [publication] } =
        due log stream ++ [publication] := more
    refine ⟨follows.output, follows.oneLine, follows.data, since, follows.broken, ?_, ?_, ?_⟩
    · rw [grown, ← List.append_assoc]
      exact follows.order.append (List.Sublist.refl _)
    · intro unbroken
      have whole : shown ++ (stream.inbox ++ [publication]) = due log stream ++ [publication] := by
        rw [← List.append_assoc, follows.current unbroken subscribed]
      simp only [grown, whole, List.prefix_rfl]
    · intro unbroken _
      rw [grown, ← List.append_assoc, follows.current unbroken subscribed]
  · next passed =>
    refine ⟨follows.output, follows.oneLine, follows.data, since, follows.broken,
      follows.order.trans later.sublist,
      fun unbroken => (follows.unbroken unbroken).trans later, ?_⟩
    intro unbroken subscribed
    rw [more, if_neg (fun own => passed ⟨subscribed, decide_eq_true own⟩), List.append_nil]
    exact follows.current unbroken subscribed

/-- An entry goes out. -/
theorem Follows.emit (follows : Follows log stream entries shown) {entry : EventStream.Entry}
    {inbox more : List Publication} (oneLine : EventStream.OneLine entry.text)
    (data : entry.data?.toList = more.map (fun publication => publication.event.text))
    (queue : stream.inbox = more ++ inbox) :
    Follows log ({ stream with inbox := inbox }.emit entry) (entries ++ [entry])
      (shown ++ more) where
  output := by
    rw [List.flatMap_append, ← follows.output]
    simp [Stream.emit]
  oneLine := by
    intro other mem
    rcases List.mem_append.mp mem with mem | mem
    · exact follows.oneLine other mem
    · exact List.mem_singleton.mp mem ▸ oneLine
  data := by
    rw [List.filterMap_append, follows.data, List.map_append, ← data]
    cases entry <;> rfl
  since := follows.since
  broken := follows.broken
  order := by
    have before := follows.order
    rw [queue, ← List.append_assoc] at before
    exact before
  unbroken := by
    have before := follows.unbroken
    rw [queue, ← List.append_assoc] at before
    exact before
  current := by
    have before := follows.current
    rw [queue, ← List.append_assoc] at before
    exact before

/-- The connection is gone, with what was in transit. -/
theorem Follows.drop (follows : Follows log stream entries shown) {phase : Phase} {unbroken : Bool}
    (still : unbroken = true → stream.unbroken = true)
    (broken : phase = .disconnected → unbroken = false) (left : phase ≠ .subscribed) :
    Follows log { stream with phase := phase, inbox := [], unbroken := unbroken } entries
      shown where
  output := follows.output
  oneLine := follows.oneLine
  data := follows.data
  since := follows.since
  broken := broken
  order := by
    rw [List.append_nil]
    exact (List.sublist_append_left shown stream.inbox).trans follows.order
  unbroken := fun whole => by
    rw [List.append_nil]
    exact (List.prefix_append shown stream.inbox).trans (follows.unbroken (still whole))
  current := fun _ subscribed => absurd subscribed left

theorem follows_next {action : Action} (follows : Follows log stream entries shown)
    (taken : stream.next action = some next) :
    ∃ entries shown, Follows log next entries shown := by
  cases action with
  | heartbeat r =>
    simp only [Stream.next] at taken
    split at taken
    · cases taken
    · cases taken
      have plain : EventStream.OneLine "heartbeat".toList := by decide
      exact ⟨_, _, @Follows.emit _ _ _ _ follows (.comment "heartbeat".toList) stream.inbox []
        plain rfl rfl⟩
  | forward r =>
    simp only [Stream.next] at taken
    split at taken
    · next publication rest queue =>
      cases taken
      have plain := oneLine_of_printable (FlatJson.printable_dumps publication.event.members)
      exact ⟨_, _, @Follows.emit _ _ _ _ follows (.data publication.event.text) rest [publication]
        plain rfl queue⟩
    · cases taken
  | disconnect r =>
    simp only [Stream.next] at taken
    split at taken
    · cases taken
      exact ⟨entries, shown, follows.drop (fun whole => absurd whole Bool.false_ne_true)
        (fun _ => rfl) (by decide)⟩
    · cases taken
  | resubscribe r =>
    simp only [Stream.next] at taken
    split at taken
    · next away =>
      cases taken
      have broken := follows.broken away
      refine ⟨entries, shown, follows.output, follows.oneLine, follows.data, follows.since,
        fun _ => broken, follows.order, follows.unbroken, ?_⟩
      intro whole
      rw [broken] at whole
      cases whole
    · cases taken
  | close r =>
    simp only [Stream.next] at taken
    split at taken
    · cases taken
    · cases taken
      exact ⟨entries, shown, follows.drop (fun whole => whole) (fun same => by cases same)
        (by decide)⟩
  | work action => cases taken
  | publish batch => cases taken
  | publishFails batch => cases taken
  | subscribe r userId => cases taken

end Following

/-- The publication tells of a commit that the owner of the conversation can see. -/
structure Tells (w : ExtractConversation.World) (publication : Publication) : Prop where
  owner : w.owner publication.event.conversationId = some publication.userId.val
  batch : ∃ batch, w.batches.reverse[publication.batch]? = some batch ∧
    batch.conversationId = publication.event.conversationId ∧
    publication.event.topicPath = some batch.topicPath ∧
    publication.event.entriesCreated = batch.entries.length

theorem Tells.kept {w t : ExtractConversation.World} {publication : Publication}
    (tells : Tells w publication) (kept : ExtractConversation.Kept w t) : Tells t publication := by
  obtain ⟨batch, found, same⟩ := tells.batch
  obtain ⟨more, grown⟩ := kept.batches
  refine ⟨kept.owner _ _ tells.owner, batch, ?_, same⟩
  rw [← grown, List.getElem?_append_left (List.getElem?_eq_some_iff.mp found).1]
  exact found

theorem Tells.earlier {w : ExtractConversation.World} {publication : Publication}
    (tells : Tells w publication) : publication.batch < w.batches.length := by
  obtain ⟨batch, found, _⟩ := tells.batch
  rw [← List.length_reverse]
  exact (List.getElem?_eq_some_iff.mp found).1

structure Sound (w : World) : Prop where
  owned : ExtractConversation.Owned w.worker
  tells : ∀ publication ∈ w.log ++ w.unpublished, Tells w.worker publication
  apart : ((w.log ++ w.unpublished).map Publication.batch).Nodup
  streams : ∀ r stream, w.streams.get r = some stream →
    ∃ entries shown, Follows w.log stream entries shown

section Run
variable {preChargeCents : Cents} {glob : PyStr → PyStr → Bool} {w t : World}

theorem sound_start : Sound World.start where
  owned := ExtractConversation.owned_start
  tells := fun _ mem => by cases mem
  apart := List.nodup_nil
  streams := fun _ _ found => by cases found

/-- Steps that leave the log and what waits for it alone. -/
theorem Sound.of_same (sound : Sound w) (worker : t.worker = w.worker) (log : t.log = w.log)
    (unpublished : t.unpublished = w.unpublished)
    (streams : ∀ r stream, t.streams.get r = some stream →
      ∃ entries shown, Follows t.log stream entries shown) : Sound t where
  owned := worker ▸ sound.owned
  tells := by
    rw [worker, log, unpublished]
    exact sound.tells
  apart := by
    rw [log, unpublished]
    exact sound.apart
  streams := streams

theorem Sound.moveStream (sound : Sound w) {r : StreamId} {action : Action}
    (taken : w.moveStream r action = some t) : Sound t := by
  obtain ⟨stream, found, moved⟩ := Option.bind_eq_some_iff.mp taken
  obtain ⟨next, followed, rfl⟩ := Option.map_eq_some_iff.mp moved
  refine sound.of_same rfl rfl rfl ?_
  intro other current here
  rcases Table.get_put_eq_some here with ⟨_, rfl⟩ | ⟨_, same⟩
  · obtain ⟨entries, shown, follows⟩ := sound.streams r stream found
    exact follows_next follows followed
  · exact sound.streams other current same

/-- What a commit is going to tell. -/
theorem completion_tells {p : AttemptId} {now : Time} {publication : Publication}
    {worker worker' : ExtractConversation.World} (owned : ExtractConversation.Owned worker)
    (told : completion worker p = some publication)
    (taken : ExtractConversation.step preChargeCents worker (.commit p now) = some worker') :
    Tells worker' publication ∧ publication.batch = worker.batches.length := by
  obtain ⟨a, draft, topicsCreated, marked, updated, found, phase, rfl⟩ :=
    ExtractConversation.commit_some taken
  have kept := ExtractConversation.kept_step taken
  simp only [completion, found, Option.bind_some, phase] at told
  split at told
  · cases told
    refine ⟨⟨kept.owner _ _ (owned _ _ (.attempt found)),
      ExtractConversation.batchOf worker p a draft marked, ?_, rfl, rfl, rfl⟩, rfl⟩
    show (List.reverse (_ :: worker.batches))[worker.batches.length]? = _
    rw [List.reverse_cons, ← List.length_reverse, List.getElem?_concat_length]
  · cases told

theorem Sound.work (sound : Sound w) {action : ExtractConversation.Action}
    (taken : step preChargeCents glob w (.work action) = some t) : Sound t := by
  obtain ⟨worker, worked, after⟩ := Option.bind_eq_some_iff.mp taken
  have owned := ExtractConversation.owned_step _ _ _ _ sound.owned worked
  have kept := ExtractConversation.kept_step worked
  have moved : Sound { w with worker := worker } :=
    ⟨owned, fun publication mem => (sound.tells publication mem).kept kept, sound.apart,
      sound.streams⟩
  cases action with
  | commit p now =>
    obtain ⟨publication, told, rfl⟩ := Option.map_eq_some_iff.mp after
    obtain ⟨tells, latest⟩ := completion_tells sound.owned told worked
    have shape : (w.log ++ publication :: w.unpublished).Perm
        (publication :: (w.log ++ w.unpublished)) := List.perm_middle
    refine ⟨owned, ?_, ?_, sound.streams⟩
    · intro other mem
      rcases List.mem_cons.mp (shape.mem_iff.mp mem) with rfl | mem
      · exact tells
      · exact moved.tells other mem
    · refine (shape.map Publication.batch).nodup_iff.mpr (List.nodup_cons.mpr ⟨?_, sound.apart⟩)
      rw [latest]
      intro again
      obtain ⟨other, mem, same⟩ := List.mem_map.mp again
      exact absurd (sound.tells other mem).earlier (by omega)
  | _ =>
    cases after
    exact moved

theorem Sound.publish (prefixes : MatchesPrefixes glob) (sound : Sound w) {batch : Nat}
    (taken : step preChargeCents glob w (.publish batch) = some t) : Sound t := by
  obtain ⟨publication, found, rfl⟩ := Option.map_eq_some_iff.mp taken
  have waiting := List.mem_of_find?_eq_some found
  have shape : (w.log ++ [publication] ++ w.unpublished.erase publication).Perm
      (w.log ++ w.unpublished) := by
    rw [List.append_assoc]
    exact ((List.perm_cons_erase waiting).symm).append_left w.log
  refine ⟨sound.owned, fun other mem => sound.tells other (shape.mem_iff.mp mem),
    (shape.map Publication.batch).nodup_iff.mpr sound.apart, ?_⟩
  intro r stream here
  rw [Table.get_update] at here
  obtain ⟨before, old, rfl⟩ := Option.map_eq_some_iff.mp here
  obtain ⟨entries, shown, follows⟩ := sound.streams r before old
  exact ⟨entries, shown, follows.publish prefixes publication⟩

theorem Sound.publishFails (sound : Sound w) {batch : Nat}
    (taken : step preChargeCents glob w (.publishFails batch) = some t) : Sound t := by
  obtain ⟨publication, _, rfl⟩ := Option.map_eq_some_iff.mp taken
  have fewer : (w.log ++ w.unpublished.erase publication).Sublist (w.log ++ w.unpublished) :=
    (List.Sublist.refl _).append List.erase_sublist
  exact ⟨sound.owned, fun other mem => sound.tells other (fewer.subset mem),
    sound.apart.sublist (fewer.map Publication.batch), sound.streams⟩

theorem Sound.subscribe (sound : Sound w) {r : StreamId} {userId : UserUuid}
    (taken : step preChargeCents glob w (.subscribe r userId) = some t) : Sound t := by
  simp only [step] at taken
  split at taken
  · cases taken
    refine sound.of_same rfl rfl rfl ?_
    intro other stream here
    rcases Table.get_put_eq_some here with ⟨_, rfl⟩ | ⟨_, same⟩
    · have nothing : due w.log ⟨userId, .subscribed, [], [], w.log.length, true⟩ = [] := by
        rw [due, List.drop_length, List.filter_nil]
      refine ⟨[], [], rfl, fun _ mem => absurd mem List.not_mem_nil, rfl, Nat.le_refl _,
        (fun same => by cases same), List.nil_sublist _, fun _ => List.nil_prefix, ?_⟩
      intro _ _
      exact nothing.symm
    · exact sound.streams other stream same
  · cases taken

theorem sound_step (prefixes : MatchesPrefixes glob) (w : World) (action : Action) (t : World)
    (sound : Sound w) (taken : step preChargeCents glob w action = some t) : Sound t := by
  cases action with
  | work action => exact sound.work taken
  | publish batch => exact sound.publish prefixes taken
  | publishFails batch => exact sound.publishFails taken
  | subscribe r userId => exact sound.subscribe taken
  | heartbeat r => exact sound.moveStream taken
  | forward r => exact sound.moveStream taken
  | disconnect r => exact sound.moveStream taken
  | resubscribe r => exact sound.moveStream taken
  | close r => exact sound.moveStream taken

end Run

/-- What a client has read from a stream, of which `received` has arrived: events of its user,
each for another commit to a conversation of the user, in the order of their publication and
with every field in place. Nothing in between is missing as long as the stream kept its
connection to Redis, and then nothing at all once what was in transit has been forwarded. -/
structure Shows (w : World) (stream : Stream) (received : List Char) (shown : List Publication) :
    Prop where
  parsed : EventStream.parse received = shown.map (fun publication => publication.event.text)
  fields : ∀ publication ∈ shown,
    FlatJson.loads publication.event.text = some publication.event.members
  own : ∀ publication ∈ shown, publication.userId = stream.userId ∧ Tells w.worker publication
  once : (shown.map Publication.batch).Nodup
  order : shown.Sublist (due w.log stream)
  unbroken : stream.unbroken = true → shown <+: due w.log stream
  current : stream.unbroken = true → stream.phase = .subscribed → stream.inbox = [] →
    received = stream.output → shown = due w.log stream

section Clients
variable {preChargeCents : Cents} {glob : PyStr → PyStr → Bool} {w : World}

theorem shows_of_sound (sound : Sound w) {r : StreamId} {stream : Stream}
    (found : w.streams.get r = some stream) {received : List Char}
    (part : received <+: stream.output) : ∃ shown, Shows w stream received shown := by
  obtain ⟨entries, all, follows⟩ := sound.streams r stream found
  have written : EventStream.parse stream.output =
      all.map (fun publication => publication.event.text) := by
    rw [follows.output, EventStream.parse_render follows.oneLine, follows.data]
  have arrived := EventStream.parse_prefix part
  rw [written] at arrived
  obtain ⟨shown, first, parsed⟩ := List.prefix_map_iff.mp arrived
  have order : shown.Sublist (due w.log stream) :=
    (first.sublist.trans (List.sublist_append_left all stream.inbox)).trans follows.order
  have logged : shown.Sublist (w.log ++ w.unpublished) :=
    (order.trans (List.filter_sublist.trans (List.drop_sublist _ _))).trans
      (List.sublist_append_left _ _)
  refine ⟨shown, parsed, fun _ _ => FlatJson.loads_dumps _, ?_,
    sound.apart.sublist (logged.map Publication.batch), order, ?_, ?_⟩
  · intro publication mem
    exact ⟨of_decide_eq_true (List.mem_filter.mp (order.subset mem)).2,
      sound.tells publication (logged.subset mem)⟩
  · intro unbroken
    exact (first.trans (List.prefix_append all stream.inbox)).trans (follows.unbroken unbroken)
  · intro unbroken subscribed empty whole
    have same := parsed
    rw [whole, written] at same
    have lengths : shown.length = all.length := by
      simpa using (congrArg List.length same).symm
    have every := follows.current unbroken subscribed
    rw [empty, List.append_nil] at every
    exact (first.eq_of_length lengths).trans every

/-- In every interleaving of ingest, extraction attempts, sweeps, publications and streams. -/
theorem progress_shows_commits (prefixes : MatchesPrefixes glob) {actions : List Action}
    (ran : Replay.run (step preChargeCents glob) World.start actions = some w) {r : StreamId}
    {stream : Stream} (found : w.streams.get r = some stream) {received : List Char}
    (part : received <+: stream.output) : ∃ shown, Shows w stream received shown :=
  shows_of_sound (Replay.run_invariant' (sound_step prefixes) sound_start ran) found part

/-- Matching that knows plain text and a star at its end. -/
def starGlob (pattern channel : PyStr) : Bool :=
  if pattern.getLast? = (py "*").head? then pattern.dropLast.isPrefixOf channel
  else pattern = channel

theorem starGlob_prefixes : MatchesPrefixes starGlob := by
  intro stem channel _
  have star : (stem ++ py "*").getLast? = (py "*").head? := List.getLast?_concat
  have text : (stem ++ py "*").dropLast = stem := List.dropLast_concat
  rw [starGlob, if_pos star, text]

/-- Streams of the conversation's owner and of another user, while it is extracted. -/
def watched : List Action :=
  (ExtractConversation.queued ++ ExtractConversation.untilSecondCheck 1).map .work ++
    [.subscribe 0 7, .subscribe 1 8, .heartbeat 0] ++
    (ExtractConversation.persistAndCommit 1).map .work ++
    [.publish 0, .heartbeat 1, .forward 0, .close 1]

theorem progress_shows_commits_watched : ∃ w stream shown,
    Replay.run (step 5 starGlob) World.start watched = some w ∧
      w.streams.get 0 = some stream ∧ w.log.length = 1 ∧
      Shows w stream stream.output shown := by
  have ran : ∃ w, Replay.run (step 5 starGlob) World.start watched = some w ∧
      w.log.length = 1 ∧ (w.streams.get 0).isSome = true := by
    refine ⟨_, rfl, ?_⟩
    decide
  obtain ⟨w, ran, published, opened⟩ := ran
  obtain ⟨stream, found⟩ := Option.isSome_iff_exists.mp opened
  obtain ⟨shown, shows⟩ :=
    progress_shows_commits starGlob_prefixes ran found (List.prefix_refl stream.output)
  exact ⟨w, stream, shown, ran, found, published, shows⟩

end Clients

end ProgressEvents
