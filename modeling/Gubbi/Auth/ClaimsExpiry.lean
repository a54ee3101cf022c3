import Gubbi.Auth.SingleFlight

/-!
# Expiry of introspected claims

`exp` is compared with the clock once, when Hydra's reply is read. After that the
claims wait for a log line and for the followers to resume, and then they stay in
the cache, whose entries live as long as its TTL says and not as long as the token.
-/

namespace HydraIntrospector

open Text

/-- The claims that a running call is going to return. -/
def World.carried (w : World) (call : Call) : Option TokenClaims :=
  match call.phase with
  | .logging _ (.ok claims) => some claims
  | .waiting fut =>
    match w.futures.get fut with
    | some (.done (.returned claims)) => some claims
    | _ => none
  | _ => none

/-- A lookup finds no claims in the cache whose `exp` has passed, and the clock
does not pass the `exp` of claims that are on their way to a caller. -/
def inTime (w : World) : Action → Bool
  | .introspect _ key => (w.lookup key).all (fun claims => w.now ≤ claims.exp)
  | .tick elapsed _ =>
    w.calls.rows.all (fun row =>
      (w.carried row.2).all (fun claims => w.now + elapsed ≤ claims.exp))
  | _ => true

/-- Claims were returned in time, and those under way still are in time. -/
structure Unexpired (w : World) : Prop where
  carried : ∀ c call claims, w.calls.get c = some call → w.carried call = some claims →
    w.now ≤ claims.exp
  ended : ∀ c call claims time, w.calls.get c = some call →
    call.phase = .finished (.returned claims) time → time ≤ claims.exp

theorem start_unexpired (now : Instant) (ttlSeconds : Option Nat) :
    Unexpired (start now ttlSeconds) where
  carried := fun _ _ _ h => by cases h
  ended := fun _ _ _ _ h => by cases h

section Steps
variable {w t : World} {c : CallId} {call : Call} {fut : FutureId} {claims : TokenClaims}

theorem carried_cases (h : w.carried call = some claims) :
    (∃ fut, call.phase = .logging fut (.ok claims)) ∨
      ∃ fut, call.phase = .waiting fut ∧ w.futures.get fut = some (.done (.returned claims)) := by
  unfold World.carried at h
  split at h
  · next fut other hphase =>
    cases h
    exact Or.inl ⟨fut, hphase⟩
  · next fut hphase =>
    split at h
    · next other hdone =>
      cases h
      exact Or.inr ⟨fut, hphase, hdone⟩
    · cases h
  · cases h

theorem carried_logging (phase : call.phase = .logging fut (.ok claims)) :
    w.carried call = some claims := by
  rw [World.carried, phase]

theorem carried_waiting (phase : call.phase = .waiting fut)
    (done : w.futures.get fut = some (.done (.returned claims))) :
    w.carried call = some claims := by
  simp only [World.carried, phase, done]

/-- One call is written; a future that comes to hold claims holds claims in time. -/
theorem Unexpired.put (unexpired : Unexpired w) (call' : Call)
    (calls : t.calls = w.calls.put c call') (now : t.now = w.now)
    (futures : ∀ fut claims, t.futures.get fut = some (.done (.returned claims)) →
      w.futures.get fut = some (.done (.returned claims)) ∨ w.now ≤ claims.exp)
    (carried : ∀ claims, t.carried call' = some claims → w.now ≤ claims.exp)
    (ended : ∀ claims time, call'.phase = .finished (.returned claims) time →
      time ≤ claims.exp) : Unexpired t where
  carried := by
    intro d other claims hother hcarried
    rw [calls] at hother
    rw [now]
    rcases Table.get_put_eq_some hother with ⟨_, rfl⟩ | ⟨_, hold⟩
    · exact carried claims hcarried
    · rcases carried_cases hcarried with ⟨fut, phase⟩ | ⟨fut, phase, done⟩
      · exact unexpired.carried d other claims hold (carried_logging phase)
      · rcases futures fut claims done with before | intime
        · exact unexpired.carried d other claims hold (carried_waiting phase before)
        · exact intime
  ended := by
    intro d other claims time hother phase
    rw [calls] at hother
    rcases Table.get_put_eq_some hother with ⟨_, rfl⟩ | ⟨_, hold⟩
    · exact ended claims time phase
    · exact unexpired.ended d other claims time hold phase

/-- A leader hands on claims that are in time. -/
theorem Unexpired.settle (unexpired : Unexpired w) {outcome : Outcome}
    (intime : ∀ claims, outcome = .returned claims → w.now ≤ claims.exp) :
    Unexpired (w.settle c call fut outcome) := by
  refine unexpired.put _ (settle_calls outcome) (settle_now outcome) ?_ ?_ ?_
  · intro f claims hdone
    rw [settle_futures] at hdone
    split at hdone
    · cases hdone
      exact Or.inr (intime claims rfl)
    · exact Or.inl hdone
  · intro claims hcarried
    rcases carried_cases hcarried with ⟨_, phase⟩ | ⟨_, phase, _⟩
    · cases phase
    · cases phase
  · intro claims time phase
    obtain ⟨houtcome, rfl⟩ := Phase.finished.inj phase
    rw [World.settled] at houtcome
    split at houtcome
    · exact intime claims houtcome
    · cases houtcome

theorem step_unexpired {parseUuid : PyStr → Option Uuid} {action : Action}
    (unexpired : Unexpired w) (wired : Wired w) (guarded : inTime w action = true)
    (taken : step parseUuid w action = some t) : Unexpired t := by
  cases action with
  | introspect c key =>
    obtain ⟨_, ⟨claims, hit, rfl⟩ | ⟨_, fut, found, rfl⟩ | ⟨_, _, rfl⟩⟩ := introspect_cases taken
    · refine unexpired.put _ rfl rfl (fun _ _ h => Or.inl h) ?_ ?_
      · intro other hcarried
        cases hcarried
      · intro other time phase
        cases phase
        simpa [inTime, hit] using guarded
    · refine unexpired.put _ rfl rfl (fun _ _ h => Or.inl h) ?_ ?_
      · -- the leader is still there, so the future is not set
        intro other hcarried
        obtain ⟨d, leader, hleader, _, hleads⟩ := wired.led key fut found
        rcases carried_cases hcarried with ⟨_, phase⟩ | ⟨f, phase, done⟩
        · cases phase
        · cases phase
          exact absurd done (wired.unset d leader fut _ hleader hleads)
      · intro other time phase
        cases phase
    · refine unexpired.put _ rfl rfl ?_ ?_ ?_
      · intro f other done
        rcases Table.get_put_eq_some done with ⟨_, h⟩ | ⟨_, hold⟩
        · cases h
        · exact Or.inl hold
      · intro other hcarried
        cases hcarried
      · intro other time phase
        cases phase
  | cancel c =>
    obtain ⟨call, fut, was, _, ⟨phase, pending, rfl⟩ | ⟨_, rfl⟩⟩ := cancel_cases taken
    · refine unexpired.put _ rfl rfl ?_ ?_ ?_
      · intro f other done
        rcases Table.get_put_eq_some done with ⟨_, h⟩ | ⟨_, hold⟩
        · cases h
        · exact Or.inl hold
      · intro other hcarried
        rcases carried_cases hcarried with ⟨_, h⟩ | ⟨f, h, done⟩
        · exact unexpired.carried c call other was (carried_logging h)
        · rcases Table.get_put_eq_some done with ⟨_, h⟩ | ⟨_, hold⟩
          · cases h
          · exact unexpired.carried c call other was (carried_waiting h hold)
      · exact fun other time h => unexpired.ended c call other time was h
    · refine unexpired.put _ rfl rfl (fun _ _ h => Or.inl h) ?_ ?_
      · exact fun other hcarried => unexpired.carried c call other was hcarried
      · exact fun other time h => unexpired.ended c call other time was h
  | receive c reply =>
    obtain ⟨call, fut, verdict, was, _, answered, rfl⟩ := receive_cases taken
    refine unexpired.put _ rfl rfl (fun _ _ h => Or.inl h) ?_ ?_
    · intro other hcarried
      rcases carried_cases hcarried with ⟨_, phase⟩ | ⟨_, phase, _⟩
      · cases phase
        exact le_exp_of_callUpstream answered.symm
      · cases phase
    · intro other time phase
      cases phase
  | resolve c =>
    obtain ⟨call, fut, verdict, was, phase, rfl⟩ := resolve_cases taken
    have kept : Unexpired (w.remember call.key verdict) := by
      cases verdict with
      | error error => exact unexpired
      | ok claims => exact ⟨unexpired.carried, unexpired.ended⟩
    refine kept.settle ?_
    intro claims houtcome
    rw [remember_now]
    cases verdict with
    | error error => cases houtcome
    | ok other =>
      cases houtcome
      exact unexpired.carried c call claims was (carried_logging phase)
  | unwind c =>
    obtain ⟨call, fut, was, _, _, rfl⟩ := unwind_cases taken
    exact unexpired.settle (fun _ h => by cases h)
  | wake c =>
    obtain ⟨call, fut, state, outcome, was, phase, hstate, houtcome, rfl⟩ := wake_cases taken
    refine unexpired.put _ rfl rfl (fun _ _ h => Or.inl h) ?_ ?_
    · intro other hcarried
      cases hcarried
    · intro other time ended
      obtain ⟨returned, rfl⟩ := Phase.finished.inj ended
      split at returned
      · cases returned
      · subst returned
        cases state with
        | pending => cases houtcome
        | cancelled => cases houtcome
        | done o =>
          cases houtcome
          exact unexpired.carried c call other was (carried_waiting phase hstate)
  | tick elapsed ran =>
    cases taken
    refine ⟨?_, unexpired.ended⟩
    intro c call other hcall hcarried
    rw [inTime, List.all_eq_true] at guarded
    have row := guarded (c, call) (Table.get_eq_some_iff.mp hcall)
    have same : w.carried call = some other := hcarried
    simpa [same] using row
  | evict key =>
    cases taken
    exact ⟨unexpired.carried, unexpired.ended⟩

end Steps

/-- In a run that looks up no expired entry and does not let claims expire on their
way, no call returns expired claims. -/
theorem returned_claims_unexpired (parseUuid : PyStr → Option Uuid) (now : Instant)
    (ttlSeconds : Option Nat) {acts : List Action} {w : World}
    (ran : Replay.run (step parseUuid) (start now ttlSeconds) acts = some w)
    (timely : Replay.Obeys (step parseUuid) (fun w action => inTime w action = true)
      (start now ttlSeconds) acts) :
    ∀ c call claims time, w.calls.get c = some call →
      call.phase = .finished (.returned claims) time → time ≤ claims.exp := by
  have keeps : ∀ w action t, Wired w ∧ Unexpired w → inTime w action = true →
      step parseUuid w action = some t → Wired t ∧ Unexpired t := by
    rintro w action t ⟨wired, unexpired⟩ guarded taken
    exact ⟨step_wired wired taken, step_unexpired unexpired wired guarded taken⟩
  exact (Replay.run_invariant keeps
    ⟨start_wired now ttlSeconds, start_unexpired now ttlSeconds⟩ timely ran).2.ended

/-- A leader, a follower and a cache hit, all before `exp`. -/
def answeredInTime : List Action :=
  [.introspect 0 (py "k"), .introspect 1 (py "k"), .receive 0 (activeReply 15), .tick 2 2,
   .resolve 0, .wake 1, .tick 3 3, .introspect 2 (py "k")]

theorem returned_claims_unexpired_inTime : ∃ w,
    Replay.run (step sampleUuid) (start 10 (some 30)) answeredInTime = some w ∧
      (∀ c call claims time, w.calls.get c = some call →
        call.phase = .finished (.returned claims) time → time ≤ claims.exp) ∧
      w.calls.get 2 = some ⟨py "k", .finished (.returned ⟨7, py "journal:read", 15⟩) 15, false,
        false⟩ := by
  refine ⟨_, rfl, ?_, by decide⟩
  exact @returned_claims_unexpired sampleUuid 10 (some 30) answeredInTime _ rfl (by decide)

/-- The token expires five seconds after its introspection and is in the cache for
thirty. -/
def cachedBeyondExp : List Action :=
  [.introspect 0 (py "k"), .receive 0 (activeReply 15), .resolve 0, .tick 10 10,
   .introspect 1 (py "k")]

theorem expired_claims_from_cache :
    ¬ ∀ (parseUuid : PyStr → Option Uuid) (now : Instant) (ttlSeconds : Option Nat)
      (acts : List Action) (w : World),
      Replay.run (step parseUuid) (start now ttlSeconds) acts = some w →
      ∀ c call claims time, w.calls.get c = some call →
        call.phase = .finished (.returned claims) time → time ≤ claims.exp := by
  intro all
  have bound := all sampleUuid 10 (some 30) cachedBeyondExp _ rfl 1
    ⟨py "k", .finished (.returned ⟨7, py "journal:read", 15⟩) 20, false, false⟩ _ 20 (by decide)
    rfl
  revert bound
  decide

end HydraIntrospector
