import Gubbi.Library.KeyedTable
import Gubbi.Library.Replay

/-!
# The connection cap of the progress stream

`extraction_progress` counts a user's streams in one Redis key: the handler
increments it, renews its lifetime and either refuses or answers with a stream,
and the cleanup of the stream's generator decrements it. Each Redis call is a step
of its own and requests of all users interleave. A generator whose first step was
never taken has no cleanup to run. A Redis call that takes effect and loses its
reply is the call followed by a failure of its request.
-/

namespace ProgressStreams

abbrev UserId := Nat
abbrev RequestId := Nat
abbrev Secs := Nat

structure Counter where
  value : Int
  expiresAt : Option Secs
  deriving DecidableEq, Repr

def Counter.alive (counter : Counter) (now : Secs) : Bool :=
  counter.expiresAt.all (fun deadline => decide (now < deadline))

def Counter.zero : Counter := ⟨0, none⟩

/-- What `INCR` and `DECR` start from: an expired key is an absent one. -/
def current (keys : Table UserId Counter) (now : Secs) (user : UserId) : Counter :=
  match keys.get user with
  | some counter => if counter.alive now then counter else Counter.zero
  | none => Counter.zero

/-- `INCR` (1) and `DECR` (-1) keep the lifetime of the key. -/
def incrBy (keys : Table UserId Counter) (now : Secs) (user : UserId) (amount : Int) :
    Table UserId Counter :=
  let counter := current keys now user
  keys.put user { counter with value := counter.value + amount }

/-- `EXPIRE` does nothing to an absent key. -/
def expire (keys : Table UserId Counter) (now : Secs) (user : UserId) (seconds : Secs) :
    Table UserId Counter :=
  match keys.get user with
  | some counter =>
    if counter.alive now then keys.put user { counter with expiresAt := some (now + seconds) }
    else keys
  | none => keys

def SSE_PER_USER_CAP : Int := 5

def capLifetime : Secs := 3600

/-- Where a request is: `counted` is past its `INCR` and before its `EXPIRE`. -/
inductive Phase
  | counted (count : Int)
  | refusing
  | accepted
  | streaming
  | ended
  deriving DecidableEq, Repr

structure Request where
  user : UserId
  phase : Phase
  deriving DecidableEq, Repr

/-- A stream is open from its response until its generator is gone. -/
def Phase.isOpen : Phase → Bool
  | .accepted => true
  | .streaming => true
  | _ => false

def Phase.inHandler : Phase → Bool
  | .counted _ => true
  | .refusing => true
  | _ => false

structure World where
  now : Secs
  keys : Table UserId Counter
  requests : Table RequestId Request

def start (now : Secs) : World := ⟨now, Table.empty, Table.empty⟩

inductive Action
  | connect (request : RequestId) (user : UserId)
  | renew (request : RequestId)
  | refuse (request : RequestId)
  | firstStep (request : RequestId)
  | cleanup (request : RequestId)
  | drop (request : RequestId)
  | fail (request : RequestId)
  | tick (elapsed : Secs)
  deriving DecidableEq, Repr

def World.move (w : World) (r : RequestId) (request : Request) (phase : Phase) : World :=
  { w with requests := w.requests.put r { request with phase := phase } }

def step (w : World) : Action → Option World
  | .connect r user =>
    match w.requests.get r with
    | some _ => none
    | none =>
      let keys := incrBy w.keys w.now user 1
      some { w with
        keys := keys
        requests := w.requests.put r ⟨user, .counted (current keys w.now user).value⟩ }
  | .renew r =>
    match w.requests.get r with
    | some ⟨user, .counted count⟩ =>
      let renewed := { w with keys := expire w.keys w.now user capLifetime }
      -- `if count > SSE_PER_USER_CAP`
      if count > SSE_PER_USER_CAP then some (renewed.move r ⟨user, .counted count⟩ .refusing)
      else some (renewed.move r ⟨user, .counted count⟩ .accepted)
    | _ => none
  | .refuse r =>
    -- the 429 is raised once the slot is given back
    match w.requests.get r with
    | some ⟨user, .refusing⟩ =>
      some ({ w with keys := incrBy w.keys w.now user (-1) }.move r ⟨user, .refusing⟩ .ended)
    | _ => none
  | .firstStep r =>
    match w.requests.get r with
    | some ⟨user, .accepted⟩ => some (w.move r ⟨user, .accepted⟩ .streaming)
    | _ => none
  | .cleanup r =>
    -- however the stream ends: a disconnect, an error of the pub/sub, a cancellation
    match w.requests.get r with
    | some ⟨user, .streaming⟩ =>
      some ({ w with keys := incrBy w.keys w.now user (-1) }.move r ⟨user, .streaming⟩ .ended)
    | _ => none
  | .drop r =>
    -- the client is gone before the generator is iterated
    match w.requests.get r with
    | some ⟨user, .accepted⟩ => some (w.move r ⟨user, .accepted⟩ .ended)
    | _ => none
  | .fail r =>
    -- the next Redis call of the request raises
    match w.requests.get r with
    | some ⟨user, .counted count⟩ => some (w.move r ⟨user, .counted count⟩ .ended)
    | some ⟨user, .refusing⟩ => some (w.move r ⟨user, .refusing⟩ .ended)
    | some ⟨user, .streaming⟩ => some (w.move r ⟨user, .streaming⟩ .ended)
    | _ => none
  | .tick elapsed => some { w with now := w.now + elapsed }

def World.count (w : World) (user : UserId) : Int := (current w.keys w.now user).value

/-- The requests of a user in the given phases. -/
def World.tally (w : World) (user : UserId) (phases : Phase → Bool) : Nat :=
  w.requests.countWhere (fun _ request => request.user = user && phases request.phase)

def World.openStreams (w : World) (user : UserId) : Nat := w.tally user Phase.isOpen

def World.handling (w : World) (user : UserId) : Nat := w.tally user Phase.inHandler

section Counters
variable {keys : Table UserId Counter} {now later : Secs} {user : UserId}

theorem alive_of_later {counter : Counter} (le : now ≤ later)
    (alive : counter.alive later = true) : counter.alive now = true := by
  obtain ⟨value, deadline | deadline⟩ := counter
  · rfl
  · simp only [Counter.alive, Option.all_some, decide_eq_true_eq] at alive ⊢
    exact Nat.lt_of_le_of_lt le alive

theorem current_alive (keys : Table UserId Counter) (now : Secs) (user : UserId) :
    (current keys now user).alive now = true := by
  unfold current
  split
  · split
    · assumption
    · rfl
  · rfl

theorem current_of_alive {counter : Counter} (found : keys.get user = some counter)
    (alive : counter.alive now = true) : current keys now user = counter := by
  simp only [current, found, alive, if_true]

theorem current_incrBy (amount : Int) (other : UserId) :
    (current (incrBy keys now user amount) now other).value =
      (current keys now other).value + if other = user then amount else 0 := by
  by_cases same : other = user
  · subst same
    have written : (incrBy keys now other amount).get other =
        some { current keys now other with value := (current keys now other).value + amount } :=
      Table.get_put_self _ _ _
    rw [current_of_alive written (current_alive keys now other), if_pos rfl]
  · rw [if_neg same, Int.add_zero]
    simp only [current, incrBy, Table.get_put_ne _ _ same]

theorem current_expire {seconds : Secs} (positive : 0 < seconds) (other : UserId) :
    (current (expire keys now user seconds) now other).value =
      (current keys now other).value := by
  unfold expire
  split
  · rename_i counter found
    split
    · rename_i alive
      by_cases same : other = user
      · subst same
        have renewed : ({ counter with expiresAt := some (now + seconds) } : Counter).alive now =
            true := by
          simp only [Counter.alive, Option.all_some, decide_eq_true_eq]
          exact Nat.lt_add_of_pos_right positive
        rw [current_of_alive (Table.get_put_self _ _ _) renewed, current_of_alive found alive]
      · simp only [current, Table.get_put_ne _ _ same]
    · rfl
  · rfl

/-- At a later time a counter is what it was, or it is gone. -/
theorem current_later (keys : Table UserId Counter) (user : UserId) (le : now ≤ later) :
    current keys later user = current keys now user ∨ current keys later user = Counter.zero := by
  unfold current
  split
  · rename_i counter found
    by_cases alive : counter.alive later = true
    · rw [if_pos alive, if_pos (alive_of_later le alive)]
      exact Or.inl rfl
    · rw [if_neg alive]
      exact Or.inr rfl
  · exact Or.inl rfl

theorem found_of_counted (counted : (current keys now user).value ≠ 0) :
    ∃ counter, keys.get user = some counter ∧ counter.alive now = true := by
  unfold current at counted
  split at counted
  · rename_i counter found
    split at counted
    · exact ⟨counter, found, by assumption⟩
    · exact absurd rfl counted
  · exact absurd rfl counted

end Counters

section Tallies
variable {w t : World} {r : RequestId} {request : Request} {user : UserId}

theorem tally_move {phase next : Phase} (found : w.requests.get r = some ⟨user, phase⟩)
    (u : UserId) (phases : Phase → Bool) :
    ((w.move r ⟨user, phase⟩ next).tally u phases : Int) = w.tally u phases +
      if u = user then ((phases next).toNat : Int) - (phases phase).toNat else 0 := by
  have counted := Table.countWhere_put w.requests
    (fun _ request => request.user = u && phases request.phase) r ⟨user, next⟩
  rw [found, Option.any_some] at counted
  simp only [World.tally, World.move]
  by_cases same : u = user
  · simp only [same, decide_true, Bool.true_and] at counted
    simp only [same, if_true]
    omega
  · simp only [Ne.symm same, decide_false, Bool.false_and, Bool.toNat_false, Nat.add_zero]
      at counted
    simp only [same, if_false, counted, Int.add_zero]

theorem tally_put (absent : w.requests.get r = none) (phase : Phase) (u : UserId)
    (phases : Phase → Bool) :
    (({ w with requests := w.requests.put r ⟨user, phase⟩ } : World).tally u phases : Int) =
      w.tally u phases + if u = user then ((phases phase).toNat : Int) else 0 := by
  have counted := Table.countWhere_put w.requests
    (fun _ request => request.user = u && phases request.phase) r ⟨user, phase⟩
  rw [absent, Option.any_none, Bool.toNat_false, Nat.add_zero] at counted
  simp only [World.tally, counted]
  by_cases same : u = user
  · simp [same]
  · simp [same, Ne.symm same]

theorem tally_mono {phases more : Phase → Bool}
    (covered : ∀ phase, phases phase = true → more phase = true) :
    w.tally user phases ≤ w.tally user more := by
  refine Table.countWhere_mono ?_
  intro _ request h
  simp only [Bool.and_eq_true] at h ⊢
  exact ⟨h.1, covered _ h.2⟩

theorem tally_pos {row : RequestId × Request} (mem : row ∈ w.requests.rows)
    (phases : Phase → Bool) (held : phases row.2.phase = true) :
    0 < w.tally row.2.user phases :=
  Table.countWhere_pos mem (by simp [held])

theorem tally_eq_zero {phases : Phase → Bool}
    (none : ∀ row ∈ w.requests.rows, row.2.user = user → phases row.2.phase = false) :
    w.tally user phases = 0 := by
  refine Table.countWhere_eq_zero ?_
  intro row mem
  by_cases owner : row.2.user = user
  · simp [owner, none row mem owner]
  · simp [owner]

theorem tally_le_slots (w : World) (user : UserId) (phases : Phase → Bool)
    (held : ∀ phase, phases phase = true → phase ≠ .ended) :
    w.tally user phases ≤ w.openStreams user + w.handling user := by
  simp only [World.openStreams, World.handling, World.tally]
  refine Table.countWhere_le_add ?_
  intro _ request h
  simp only [Bool.and_eq_true, decide_eq_true_eq] at h ⊢
  obtain ⟨owner, inPhase⟩ := h
  cases phase : request.phase with
  | counted count => exact Or.inr ⟨owner, rfl⟩
  | refusing => exact Or.inr ⟨owner, rfl⟩
  | accepted => exact Or.inl ⟨owner, rfl⟩
  | streaming => exact Or.inl ⟨owner, rfl⟩
  | ended => exact absurd phase (held _ inPhase)

end Tallies

/-- The stream or the handler of the request is gone without a `DECR`. -/
def Action.leavesSlot : Action → Bool
  | .drop _ => true
  | .fail _ => true
  | _ => false

/-- The request has a stream, or is going to be given one. -/
def Phase.admitted : Phase → Bool
  | .counted count => decide (count ≤ SSE_PER_USER_CAP)
  | .accepted => true
  | .streaming => true
  | _ => false

def World.admitted (w : World) (user : UserId) : Nat := w.tally user Phase.admitted

/-- By how much a step changes the counter, the open streams and the requests in
the handler of one user; nothing of the other users changes. Only a step that saw
the counter within the cap admits anybody. -/
structure Effect (w t : World) (user : UserId) (counted opened handled : Int) : Prop where
  count : ∀ u, t.count u = w.count u + if u = user then counted else 0
  openStreams : ∀ u, (t.openStreams u : Int) = w.openStreams u + if u = user then opened else 0
  handling : ∀ u, (t.handling u : Int) = w.handling u + if u = user then handled else 0
  admitted : ∀ u, t.admitted u ≤ w.admitted u ∨ t.count u ≤ SSE_PER_USER_CAP

section Effects
variable {w t : World} {r : RequestId} {user : UserId} {phase next : Phase}

/-- A request moves on, after a call that adds `counted` to the counter. -/
theorem move_effect {keys : Table UserId Counter} {counted : Int} (next : Phase)
    (found : w.requests.get r = some ⟨user, phase⟩)
    (called : ∀ u, (current keys w.now u).value = w.count u + if u = user then counted else 0)
    (kept : next.admitted = true → phase.admitted = true) :
    Effect w ({ w with keys := keys }.move r ⟨user, phase⟩ next) user counted
      (next.isOpen.toNat - phase.isOpen.toNat) (next.inHandler.toNat - phase.inHandler.toNat) where
  count := called
  openStreams := fun u => @tally_move { w with keys := keys } r user phase next found u Phase.isOpen
  handling := fun u => @tally_move { w with keys := keys } r user phase next found u Phase.inHandler
  admitted := fun u => by
    have moved := @tally_move { w with keys := keys } r user phase next found u Phase.admitted
    have before : ({ w with keys := keys } : World).tally u Phase.admitted = w.admitted u := rfl
    have fewer : next.admitted.toNat ≤ phase.admitted.toNat := by
      cases h : next.admitted with
      | false => exact Nat.zero_le _
      | true => exact Nat.le_of_eq (congrArg Bool.toNat (kept h).symm)
    refine Or.inl (Int.ofNat_le.mp (Int.le_trans (Int.le_of_eq moved) ?_))
    rw [before]
    split
    · omega
    · omega

theorem connect_effect (absent : w.requests.get r = none) {count : Int}
    (reply : count = (current (incrBy w.keys w.now user 1) w.now user).value) :
    Effect w { w with
      keys := incrBy w.keys w.now user 1
      requests := w.requests.put r ⟨user, .counted count⟩ } user 1 0 1 where
  count := fun u => current_incrBy 1 u
  openStreams := fun u => tally_put absent (.counted count) u Phase.isOpen
  handling := fun u => tally_put absent (.counted count) u Phase.inHandler
  admitted := fun u => by
    have put := @tally_put w r user absent (.counted count) u Phase.admitted
    by_cases same : u = user
    · by_cases within : count ≤ SSE_PER_USER_CAP
      · right
        rw [same, World.count, ← reply]
        exact within
      · left
        have refused : (Phase.counted count).admitted = false := decide_eq_false within
        rw [refused, Bool.toNat_false, Int.ofNat_zero, ite_self, Int.add_zero] at put
        exact Int.ofNat_le.mp (Int.le_of_eq put)
    · left
      rw [if_neg same, Int.add_zero] at put
      exact Int.ofNat_le.mp (Int.le_of_eq put)

theorem admitted_of_refusing (h : Phase.refusing.admitted = true) : phase.admitted = true := by
  cases h

theorem admitted_of_ended (h : Phase.ended.admitted = true) : phase.admitted = true := by
  cases h

theorem unchanged_count (u : UserId) : w.count u = w.count u + if u = user then 0 else 0 := by
  simp

/-- A step of a request keeps the books of its user, unless its stream or its
handler is gone without a `DECR`. -/
theorem step_effect {action : Action} (taken : step w action = some t)
    (timeless : ∀ elapsed, action ≠ .tick elapsed) :
    ∃ user counted opened handled, Effect w t user counted opened handled ∧
      counted = opened + handled + if action.leavesSlot then 1 else 0 := by
  cases action with
  | connect r user =>
    simp only [step] at taken
    split at taken
    · cases taken
    · rename_i absent
      cases taken
      exact ⟨user, 1, 0, 1, connect_effect absent rfl, rfl⟩
  | renew r =>
    simp only [step] at taken
    split at taken
    · rename_i user count found
      have called := fun u => (@current_expire w.keys w.now user capLifetime (by decide) u).trans
        (@unchanged_count w user u)
      split at taken
      · cases taken
        exact ⟨user, 0, _, _, move_effect .refusing found called admitted_of_refusing, rfl⟩
      · rename_i within
        cases taken
        exact ⟨user, 0, _, _, move_effect .accepted found called
          (fun _ => decide_eq_true (Int.not_lt.mp within)), rfl⟩
    · cases taken
  | refuse r =>
    simp only [step] at taken
    split at taken
    · rename_i user found
      cases taken
      exact ⟨user, -1, _, _, move_effect .ended found (current_incrBy (-1))
        admitted_of_ended, rfl⟩
    · cases taken
  | firstStep r =>
    simp only [step] at taken
    split at taken
    · rename_i user found
      cases taken
      exact ⟨user, 0, _, _, move_effect .streaming found unchanged_count id, rfl⟩
    · cases taken
  | cleanup r =>
    simp only [step] at taken
    split at taken
    · rename_i user found
      cases taken
      exact ⟨user, -1, _, _, move_effect .ended found (current_incrBy (-1))
        admitted_of_ended, rfl⟩
    · cases taken
  | drop r =>
    simp only [step] at taken
    split at taken
    · rename_i user found
      cases taken
      exact ⟨user, 0, _, _, move_effect .ended found unchanged_count admitted_of_ended, rfl⟩
    · cases taken
  | fail r =>
    simp only [step] at taken
    split at taken
    · rename_i user count found
      cases taken
      exact ⟨user, 0, _, _, move_effect .ended found unchanged_count admitted_of_ended, rfl⟩
    · rename_i user found
      cases taken
      exact ⟨user, 0, _, _, move_effect .ended found unchanged_count admitted_of_ended, rfl⟩
    · rename_i user found
      cases taken
      exact ⟨user, 0, _, _, move_effect .ended found unchanged_count admitted_of_ended, rfl⟩
    · cases taken
  | tick elapsed => exact absurd rfl (timeless elapsed)

end Effects

/-- No stream is dropped before its first step, no Redis call of a handler or a
cleanup fails, and no counter expires while its user has a request. -/
def orderly (w : World) : Action → Bool
  | .drop _ => false
  | .fail _ => false
  | .tick elapsed =>
    w.requests.rows.all (fun row => row.2.phase = .ended ||
      (w.keys.get row.2.user).any (fun counter => counter.alive (w.now + elapsed)))
  | _ => true

/-- Every request that has not ended has its unit in the counter. -/
def Balanced (w : World) : Prop :=
  ∀ user, w.count user = w.openStreams user + w.handling user

def Capped (w : World) : Prop :=
  ∀ user, (w.admitted user : Int) ≤ SSE_PER_USER_CAP

/-- The counter of a user is never negative and is the number of open streams,
next to the requests whose handler has not answered yet. -/
structure Accounted (w : World) (user : UserId) : Prop where
  nonneg : 0 ≤ w.count user
  counted : w.count user = w.openStreams user + w.handling user
  capped : (w.openStreams user : Int) ≤ SSE_PER_USER_CAP

section Cap
variable {w t : World} {action : Action}

theorem accounted_of_balanced (balanced : Balanced w) (capped : Capped w) (user : UserId) :
    Accounted w user where
  nonneg := by
    rw [balanced user]
    omega
  counted := balanced user
  capped := by
    have within := capped user
    have fewer : w.openStreams user ≤ w.admitted user := by
      refine tally_mono ?_
      intro phase isOpen
      cases phase with
      | accepted => rfl
      | streaming => rfl
      | counted count => cases isOpen
      | refusing => cases isOpen
      | ended => cases isOpen
    omega

theorem balanced_move (timeless : ∀ elapsed, action ≠ .tick elapsed) (balanced : Balanced w)
    (taken : step w action = some t) : Balanced t ↔ action.leavesSlot = false := by
  obtain ⟨user, counted, opened, handled, effect, delta⟩ := step_effect taken timeless
  constructor
  · intro after
    cases leaves : action.leavesSlot with
    | false => rfl
    | true =>
      have here := after user
      have before := balanced user
      rw [effect.count, effect.openStreams, effect.handling] at here
      simp only [leaves, if_true] at delta here
      omega
  · intro keeps u
    have before := balanced u
    have even : counted = opened + handled := by
      rw [delta, keeps, if_neg Bool.false_ne_true, Int.add_zero]
    rw [effect.count, effect.openStreams, effect.handling]
    split
    · omega
    · omega

/-- Time keeps the books exactly when it expires no counter of a user with requests. -/
theorem balanced_tick {elapsed : Secs} (balanced : Balanced w) :
    Balanced { w with now := w.now + elapsed } ↔ orderly w (.tick elapsed) = true := by
  simp only [orderly, List.all_eq_true, Bool.or_eq_true, decide_eq_true_eq, Option.any_eq_true]
  constructor
  · intro after row mem
    by_cases ended : row.2.phase = .ended
    · exact Or.inl ended
    · right
      have taken := tally_pos mem (fun phase => phase ≠ .ended) (decide_eq_true ended)
      have slots := tally_le_slots w row.2.user (fun phase => phase ≠ .ended)
        (fun _ => of_decide_eq_true)
      have later := after row.2.user
      have counted : (current w.keys (w.now + elapsed) row.2.user).value ≠ 0 := by
        have same : (current w.keys (w.now + elapsed) row.2.user).value =
          w.openStreams row.2.user + w.handling row.2.user := later
        omega
      exact found_of_counted counted
  · intro kept user
    have before := balanced user
    have after : (current w.keys (w.now + elapsed) user).value = w.count user := by
      rcases current_later w.keys user (Nat.le_add_right w.now elapsed) with same | gone
      · exact congrArg Counter.value same
      · -- a counter that is gone is one nobody has a request under
        by_cases idle : ∀ row ∈ w.requests.rows, row.2.user = user → row.2.phase = .ended
        · have noStream : w.openStreams user = 0 :=
            tally_eq_zero (fun row mem owner => by rw [idle row mem owner]; rfl)
          have noHandler : w.handling user = 0 :=
            tally_eq_zero (fun row mem owner => by rw [idle row mem owner]; rfl)
          rw [before, gone, noStream, noHandler]
          rfl
        · simp only [not_forall] at idle
          obtain ⟨row, mem, owner, unended⟩ := idle
          obtain ⟨counter, found, alive⟩ := (kept row mem).resolve_left unended
          rw [owner] at found
          have now := alive_of_later (Nat.le_add_right w.now elapsed) alive
          rw [current_of_alive found alive, World.count, current_of_alive found now]
    exact after.trans before

/-- From balanced books a step leads to balanced books exactly when it is orderly. -/
theorem step_balanced (balanced : Balanced w) (taken : step w action = some t) :
    Balanced t ↔ orderly w action = true := by
  by_cases timeless : ∀ elapsed, action ≠ .tick elapsed
  · rw [balanced_move timeless balanced taken]
    cases action with
    | tick elapsed => exact absurd rfl (timeless elapsed)
    | drop r => simp [Action.leavesSlot, orderly]
    | fail r => simp [Action.leavesSlot, orderly]
    | connect r user => simp [Action.leavesSlot, orderly]
    | renew r => simp [Action.leavesSlot, orderly]
    | refuse r => simp [Action.leavesSlot, orderly]
    | firstStep r => simp [Action.leavesSlot, orderly]
    | cleanup r => simp [Action.leavesSlot, orderly]
  · simp only [not_forall, not_not] at timeless
    obtain ⟨elapsed, rfl⟩ := timeless
    cases taken
    exact balanced_tick balanced

theorem step_capped (balanced : Balanced t) (capped : Capped w) (taken : step w action = some t) :
    Capped t := by
  intro user
  by_cases timeless : ∀ elapsed, action ≠ .tick elapsed
  · obtain ⟨_, _, _, _, effect, _⟩ := step_effect taken timeless
    rcases effect.admitted user with fewer | within
    · exact Int.le_trans (Int.ofNat_le.mpr fewer) (capped user)
    · have slots := tally_le_slots t user Phase.admitted
        (fun phase admitted ended => by rw [ended] at admitted; cases admitted)
      have counted := balanced user
      simp only [World.admitted]
      omega
  · simp only [not_forall, not_not] at timeless
    obtain ⟨elapsed, rfl⟩ := timeless
    cases taken
    exact capped user

end Cap

/-- A run has its counters right throughout exactly when it is orderly. -/
theorem counters_account_for_streams (now : Secs) {acts : List Action} {w : World}
    (ran : Replay.run step (start now) acts = some w) :
    Replay.Throughout step (fun w => ∀ user, Accounted w user) (start now) acts ↔
      Replay.Obeys step (fun w action => orderly w action = true) (start now) acts := by
  have keeps : ∀ w action t, Balanced w ∧ Capped w → orderly w action = true →
      step w action = some t → Balanced t ∧ Capped t := by
    rintro w action t ⟨balanced, capped⟩ guarded taken
    have after := (step_balanced balanced taken).mpr guarded
    exact ⟨after, step_capped after capped taken⟩
  have empty : Balanced (start now) ∧ Capped (start now) :=
    ⟨fun _ => rfl, fun _ => Int.ofNat_le.mpr (Nat.zero_le 5)⟩
  constructor
  · intro through
    have balanced := Replay.throughout_mono (fun w h user => (h user).counted) through
    have exact : ∀ w action t, True → Balanced w → step w action = some t →
        (Balanced t ↔ orderly w action = true) :=
      fun _ _ _ _ balanced taken => step_balanced balanced taken
    exact (Replay.throughout_iff_obeys (fun _ _ _ _ _ => trivial) exact trivial empty.1 ran).mp
      balanced
  · intro obeys
    exact Replay.throughout_mono (fun w h => accounted_of_balanced h.1 h.2)
      (Replay.throughout_of_obeys keeps empty obeys)

def openStream (r : RequestId) (user : UserId) : List Action :=
  [.connect r user, .renew r, .firstStep r]

/-- A sixth connection is refused, and let in once a stream has closed. -/
def sixthRefused : List Action :=
  (List.range 5).flatMap (openStream · 7) ++
    [.tick 60, .connect 5 7, .renew 5, .refuse 5, .cleanup 2, .tick 60] ++ openStream 6 7

theorem counters_account_for_streams_sixth : ∃ w,
    Replay.run step (start 0) sixthRefused = some w ∧
      Replay.Throughout step (fun w => ∀ user, Accounted w user) (start 0) sixthRefused ∧
      w.count 7 = 5 ∧ w.openStreams 7 = 5 := by
  refine ⟨_, rfl, ?_, by decide, by decide⟩
  exact (@counters_account_for_streams 0 sixthRefused _ rfl).mpr (by decide)

/-- The counter expires under five quiet streams and starts again from zero. -/
def counterExpires : List Action :=
  (List.range 5).flatMap (openStream · 7) ++ [.tick 3601] ++ openStream 5 7

theorem sixth_stream_opens :
    ¬ ∀ (now : Secs) (acts : List Action) (w : World),
      Replay.run step (start now) acts = some w → ∀ user, w.handling user = 0 →
        0 ≤ w.count user ∧ w.count user = w.openStreams user ∧ w.openStreams user ≤ 5 := by
  intro all
  obtain ⟨_, _, capped⟩ := all 0 counterExpires _ rfl 7 (by decide)
  revert capped
  decide

end ProgressStreams
