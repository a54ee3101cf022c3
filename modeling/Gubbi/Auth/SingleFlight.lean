import Gubbi.Auth.Introspector

/-!
# Single flight

Concurrent calls for one token share the future of their leader. The wiring of
calls, futures and the in-flight map holds over every run. What a cancellation
does to the calls that share a future decides whether each of the others ends
with what upstream answered.
-/

namespace HydraIntrospector

open Text

section Inversion
variable {parseUuid : PyStr → Option Uuid} {w t : World} {c : CallId}

theorem introspect_cases {key : CacheKey} (h : introspect w c key = some t) :
    w.calls.get c = none ∧
      ((∃ claims, w.lookup key = some claims ∧
          t = w.putCall c ⟨key, .finished (.returned claims) w.now, false, false⟩) ∨
        (w.lookup key = none ∧ ∃ fut, w.inflight.get key = some fut ∧
          t = w.putCall c ⟨key, .waiting fut, false, false⟩) ∨
        (w.lookup key = none ∧ w.inflight.get key = none ∧
          t = World.putCall { w with
            futures := w.futures.put w.futures.freshKey .pending
            inflight := w.inflight.put key w.futures.freshKey } c
            ⟨key, .leading w.futures.freshKey, false, false⟩)) := by
  unfold introspect at h
  split at h
  · next absent =>
    refine ⟨absent, ?_⟩
    split at h
    · next claims hit => exact Or.inl ⟨claims, hit, (Option.some.inj h).symm⟩
    · next miss =>
      split at h
      · next fut found => exact Or.inr (Or.inl ⟨miss, fut, found, (Option.some.inj h).symm⟩)
      · next free => exact Or.inr (Or.inr ⟨miss, free, (Option.some.inj h).symm⟩)
  · cases h

theorem cancel_cases (h : cancel w c = some t) :
    ∃ call fut, w.calls.get c = some call ∧ call.future = some fut ∧
      ((call.phase = .waiting fut ∧ w.futures.get fut = some .pending ∧
          t = World.putCall { w with futures := w.futures.put fut .cancelled } c
            { call with cancelled := true }) ∨
        ((call.leads = some fut ∨ w.futures.get fut ≠ some .pending) ∧
          t = w.putCall c { call with mustCancel := true, cancelled := true })) := by
  unfold cancel at h
  split at h
  · cases h
  · next call hcall =>
    split at h
    · cases h
    · next fut hphase =>
      refine ⟨call, fut, hcall, by rw [Call.future, hphase], ?_⟩
      split at h
      · next pending => exact Or.inl ⟨hphase, pending, (Option.some.inj h).symm⟩
      · next settled => exact Or.inr ⟨Or.inr settled, (Option.some.inj h).symm⟩
    · next fut hphase =>
      exact ⟨call, fut, hcall, by rw [Call.future, hphase],
        Or.inr ⟨Or.inl (by rw [Call.leads, hphase]), (Option.some.inj h).symm⟩⟩
    · next fut verdict hphase =>
      exact ⟨call, fut, hcall, by rw [Call.future, hphase],
        Or.inr ⟨Or.inl (by rw [Call.leads, hphase]), (Option.some.inj h).symm⟩⟩

theorem receive_cases {reply : Reply} (h : receive parseUuid w c reply = some t) :
    ∃ call fut verdict, w.calls.get c = some call ∧ call.phase = .leading fut ∧
      verdict = callUpstream parseUuid reply w.now ∧
      t = World.putCall { w with verdicts := (call.key, verdict) :: w.verdicts } c
        { call with phase := .logging fut verdict } := by
  unfold receive at h
  split at h
  · cases h
  · next call hcall =>
    split at h
    · next fut hphase =>
      split at h
      · cases h
      · exact ⟨call, fut, _, hcall, hphase, rfl, (Option.some.inj h).symm⟩
    · cases h

theorem resolve_cases (h : resolve w c = some t) :
    ∃ call fut verdict, w.calls.get c = some call ∧ call.phase = .logging fut verdict ∧
      t = (w.remember call.key verdict).settle c call fut (.ofVerdict verdict) := by
  unfold resolve at h
  split at h
  · cases h
  · next call hcall =>
    split at h
    · next fut verdict hphase =>
      split at h
      · cases h
      · exact ⟨call, fut, verdict, hcall, hphase, (Option.some.inj h).symm⟩
    · cases h

theorem unwind_cases (h : unwind w c = some t) :
    ∃ call fut, w.calls.get c = some call ∧ call.leads = some fut ∧ call.mustCancel = true ∧
      t = w.settle c call fut .cancelledError := by
  unfold unwind at h
  split at h
  · cases h
  · next call hcall =>
    split at h
    · next fut hleads =>
      split at h
      · next must => exact ⟨call, fut, hcall, hleads, must, (Option.some.inj h).symm⟩
      · cases h
    · cases h

theorem wake_cases (h : wake w c = some t) :
    ∃ call fut state outcome, w.calls.get c = some call ∧ call.phase = .waiting fut ∧
      w.futures.get fut = some state ∧ state.outcome? = some outcome ∧
      t = w.finish c call (if call.mustCancel then .cancelledError else outcome) := by
  unfold wake at h
  split at h
  · cases h
  · next call hcall =>
    split at h
    · next fut hphase =>
      obtain ⟨outcome, hbind, rfl⟩ := Option.map_eq_some_iff.mp h
      obtain ⟨state, hstate, houtcome⟩ := Option.bind_eq_some_iff.mp hbind
      exact ⟨call, fut, state, outcome, hcall, hphase, hstate, houtcome, rfl⟩
    · cases h

end Inversion

section Views
variable {call : Call} {fut : FutureId}

theorem future_of_leads (h : call.leads = some fut) : call.future = some fut := by
  unfold Call.leads at h
  unfold Call.future
  split at h
  · exact h
  · exact h
  · cases h
  · cases h

theorem not_leads_of_waiting (h : call.phase = .waiting fut) : call.leads = none := by
  rw [Call.leads, h]

theorem future_of_waiting (h : call.phase = .waiting fut) : call.future = some fut := by
  rw [Call.future, h]

theorem leads_of_logging {verdict : Verdict} (h : call.phase = .logging fut verdict) :
    call.leads = some fut := by
  rw [Call.leads, h]

end Views

/-- A token is on the map exactly as long as its one leader runs, and a pending
future has a leader. -/
structure Wired (w : World) : Prop where
  led : ∀ key fut, w.inflight.get key = some fut →
    ∃ c call, w.calls.get c = some call ∧ call.key = key ∧ call.leads = some fut
  listed : ∀ c call fut, w.calls.get c = some call → call.leads = some fut →
    w.inflight.get call.key = some fut
  single : ∀ c d call other fut, w.calls.get c = some call → w.calls.get d = some other →
    call.leads = some fut → other.leads = some fut → c = d
  known : ∀ c call fut, w.calls.get c = some call → call.future = some fut →
    w.futures.get fut ≠ none
  owned : ∀ fut, w.futures.get fut = some .pending →
    ∃ c call, w.calls.get c = some call ∧ call.leads = some fut
  sameKey : ∀ c d call other fut, w.calls.get c = some call → w.calls.get d = some other →
    call.future = some fut → other.future = some fut → call.key = other.key
  unset : ∀ c call fut outcome, w.calls.get c = some call → call.leads = some fut →
    w.futures.get fut ≠ some (.done outcome)

theorem start_wired (now : Instant) (ttlSeconds : Option Nat) : Wired (start now ttlSeconds) where
  led := fun _ _ h => by cases h
  listed := fun _ _ _ h => by cases h
  single := fun _ _ _ _ _ h => by cases h
  known := fun _ _ _ h => by cases h
  owned := fun _ h => by cases h
  sameKey := fun _ _ _ _ _ h => by cases h
  unset := fun _ _ _ _ h => by cases h

section Wiring
variable {w t : World} {c : CallId} {call call' : Call} {fut : FutureId}

/-- What a step may do to the calls and futures while the map stays: the calls
with a future are old ones, leaders go on leading, and a future is set only when
nobody leads it. -/
theorem Wired.transfer (wired : Wired w) (inflight : t.inflight = w.inflight)
    (before : ∀ d other fut, t.calls.get d = some other → other.future = some fut →
      ∃ old, w.calls.get d = some old ∧ other.key = old.key ∧ other.leads = old.leads ∧
        old.future = some fut)
    (after : ∀ d old fut, w.calls.get d = some old → old.leads = some fut →
      ∃ other, t.calls.get d = some other ∧ other.key = old.key ∧ other.leads = some fut)
    (known : ∀ fut, w.futures.get fut ≠ none → t.futures.get fut ≠ none)
    (pending : ∀ fut, t.futures.get fut = some .pending → w.futures.get fut = some .pending)
    (unset : ∀ fut outcome, t.futures.get fut = some (.done outcome) →
      w.futures.get fut = some (.done outcome)) : Wired t := by
  constructor
  · intro key fut hfut
    rw [inflight] at hfut
    obtain ⟨d, old, hold, hkey, hleads⟩ := wired.led key fut hfut
    obtain ⟨other, hother, hkey', hleads'⟩ := after d old fut hold hleads
    exact ⟨d, other, hother, hkey'.trans hkey, hleads'⟩
  · intro d other fut hother hleads
    obtain ⟨old, hold, hkey, hleads', _⟩ := before d other fut hother (future_of_leads hleads)
    rw [inflight, hkey]
    exact wired.listed d old fut hold (hleads'.symm.trans hleads)
  · intro d e one two fut hone htwo hleads1 hleads2
    obtain ⟨old1, hold1, _, h1, _⟩ := before d one fut hone (future_of_leads hleads1)
    obtain ⟨old2, hold2, _, h2, _⟩ := before e two fut htwo (future_of_leads hleads2)
    exact wired.single d e old1 old2 fut hold1 hold2 (h1.symm.trans hleads1)
      (h2.symm.trans hleads2)
  · intro d other fut hother hfuture
    obtain ⟨old, hold, _, _, hfuture'⟩ := before d other fut hother hfuture
    exact known fut (wired.known d old fut hold hfuture')
  · intro fut hfut
    obtain ⟨d, old, hold, hleads⟩ := wired.owned fut (pending fut hfut)
    obtain ⟨other, hother, _, hleads'⟩ := after d old fut hold hleads
    exact ⟨d, other, hother, hleads'⟩
  · intro d e one two fut hone htwo hfuture1 hfuture2
    obtain ⟨old1, hold1, hkey1, _, h1⟩ := before d one fut hone hfuture1
    obtain ⟨old2, hold2, hkey2, _, h2⟩ := before e two fut htwo hfuture2
    rw [hkey1, hkey2]
    exact wired.sameKey d e old1 old2 fut hold1 hold2 h1 h2
  · intro d other fut outcome hother hleads hdone
    obtain ⟨old, hold, _, hleads', _⟩ := before d other fut hother (future_of_leads hleads)
    exact wired.unset d old fut outcome hold (hleads'.symm.trans hleads) (unset fut outcome hdone)

/-- The clock and the cache are not part of the wiring. -/
theorem Wired.frame (wired : Wired w) (calls : t.calls = w.calls) (futures : t.futures = w.futures)
    (inflight : t.inflight = w.inflight) : Wired t := by
  refine wired.transfer inflight ?_ ?_ ?_ ?_ ?_
  · intro d other fut hother hfuture
    exact ⟨other, calls ▸ hother, rfl, rfl, hfuture⟩
  · intro d old fut hold hleads
    exact ⟨old, calls ▸ hold, rfl, hleads⟩
  · exact fun fut h => futures ▸ h
  · exact fun fut h => futures ▸ h
  · exact fun fut outcome h => futures ▸ h

/-- A call that stays where it is, whatever its flags and its verdict; its future
may be cancelled. -/
theorem Wired.stay (wired : Wired w) (call' : Call) (fut : FutureId)
    (was : w.calls.get c = some call) (key : call'.key = call.key)
    (leads : call'.leads = call.leads) (future : call'.future = call.future)
    (calls : t.calls = w.calls.put c call')
    (futures : t.futures = w.futures ∨ t.futures = w.futures.put fut .cancelled)
    (inflight : t.inflight = w.inflight) : Wired t := by
  have state : ∀ f state, t.futures.get f = some state → state ≠ .cancelled →
      w.futures.get f = some state := by
    intro f state hstate hne
    rcases futures with same | put
    · exact same ▸ hstate
    · rw [put] at hstate
      rcases Table.get_put_eq_some hstate with ⟨_, rfl⟩ | ⟨_, hold⟩
      · exact absurd rfl hne
      · exact hold
  refine wired.transfer inflight ?_ ?_ ?_ ?_ ?_
  · intro d other f hother hfuture
    rw [calls] at hother
    rcases Table.get_put_eq_some hother with ⟨rfl, rfl⟩ | ⟨_, hold⟩
    · exact ⟨call, was, key, leads, future.symm.trans hfuture⟩
    · exact ⟨other, hold, rfl, rfl, hfuture⟩
  · intro d old f hold hleads
    rw [calls, Table.get_put]
    by_cases hd : d = c
    · subst hd
      obtain rfl : call = old := Option.some.inj (was.symm.trans hold)
      exact ⟨call', if_pos rfl, key, leads.trans hleads⟩
    · exact ⟨old, by rw [if_neg hd, hold], rfl, hleads⟩
  · intro f hknown
    rcases futures with same | put
    · exact same ▸ hknown
    · rw [put, Table.get_put]
      split
      · exact fun h => by cases h
      · exact hknown
  · exact fun f h => state f .pending h (fun h => by cases h)
  · exact fun f outcome h => state f (.done outcome) h (fun h => by cases h)

/-- A call without a future, in the place of one that led none. -/
theorem Wired.leave (wired : Wired w)
    (was : ∀ old, w.calls.get c = some old → old.leads = none)
    (future : call'.future = none) (calls : t.calls = w.calls.put c call')
    (futures : t.futures = w.futures) (inflight : t.inflight = w.inflight) : Wired t := by
  refine wired.transfer inflight ?_ ?_ ?_ ?_ ?_
  · intro d other fut hother hfuture
    rw [calls] at hother
    rcases Table.get_put_eq_some hother with ⟨rfl, rfl⟩ | ⟨_, hold⟩
    · rw [future] at hfuture
      cases hfuture
    · exact ⟨other, hold, rfl, rfl, hfuture⟩
  · intro d old fut hold hleads
    have hne : d ≠ c := by
      rintro rfl
      rw [was old hold] at hleads
      cases hleads
    exact ⟨old, by rw [calls, Table.get_put_ne _ _ hne, hold], rfl, hleads⟩
  · exact fun fut h => futures ▸ h
  · exact fun fut h => futures ▸ h
  · exact fun fut outcome h => futures ▸ h

/-- A new call that waits for the future on the map. -/
theorem Wired.join (wired : Wired w) {key : CacheKey} (absent : w.calls.get c = none)
    (found : w.inflight.get key = some fut) :
    Wired (w.putCall c ⟨key, .waiting fut, false, false⟩) := by
  obtain ⟨leader, lead, hlead, hkey, hleads⟩ := wired.led key fut found
  have before : ∀ d other f, (w.calls.put c ⟨key, .waiting fut, false, false⟩).get d = some other →
      other.future = some f →
      (other.leads = none ∧ other.key = key ∧ f = fut) ∨ w.calls.get d = some other := by
    intro d other f hother hfuture
    rcases Table.get_put_eq_some hother with ⟨rfl, rfl⟩ | ⟨_, hold⟩
    · exact Or.inl ⟨rfl, rfl, (Option.some.inj hfuture).symm⟩
    · exact Or.inr hold
  have leading : ∀ d other f, (w.calls.put c ⟨key, .waiting fut, false, false⟩).get d =
      some other → other.leads = some f → w.calls.get d = some other := by
    intro d other f hother hleads
    rcases before d other f hother (future_of_leads hleads) with ⟨none, _⟩ | hold
    · rw [none] at hleads
      cases hleads
    · exact hold
  have owner : ∀ d other f, (w.calls.put c ⟨key, .waiting fut, false, false⟩).get d =
      some other → other.future = some f → ∃ e old, w.calls.get e = some old ∧
        old.key = other.key ∧ old.future = some f := by
    intro d other f hother hfuture
    rcases before d other f hother hfuture with ⟨_, same, rfl⟩ | hold
    · exact ⟨leader, lead, hlead, hkey.trans same.symm, future_of_leads hleads⟩
    · exact ⟨d, other, hold, rfl, hfuture⟩
  constructor
  · intro k f hfut
    obtain ⟨d, old, hold, hk, hl⟩ := wired.led k f hfut
    exact ⟨d, old, Table.get_put_of_absent _ absent hold, hk, hl⟩
  · exact fun d other f hother hl => wired.listed d other f (leading d other f hother hl) hl
  · intro d e one two f hone htwo hl1 hl2
    exact wired.single d e one two f (leading d one f hone hl1) (leading e two f htwo hl2) hl1 hl2
  · intro d other f hother hfuture
    obtain ⟨e, old, hold, _, hfuture'⟩ := owner d other f hother hfuture
    exact wired.known e old f hold hfuture'
  · intro f hpending
    obtain ⟨d, old, hold, hl⟩ := wired.owned f hpending
    exact ⟨d, old, Table.get_put_of_absent _ absent hold, hl⟩
  · intro d e one two f hone htwo hf1 hf2
    obtain ⟨d', old1, hold1, hk1, h1⟩ := owner d one f hone hf1
    obtain ⟨e', old2, hold2, hk2, h2⟩ := owner e two f htwo hf2
    rw [← hk1, ← hk2]
    exact wired.sameKey d' e' old1 old2 f hold1 hold2 h1 h2
  · exact fun d other f outcome hother hl =>
      wired.unset d other f outcome (leading d other f hother hl) hl

/-- A new call that leads a new future. -/
theorem Wired.lead (wired : Wired w) {key : CacheKey} (absent : w.calls.get c = none)
    (free : w.inflight.get key = none) (new : w.futures.get fut = none) :
    Wired (World.putCall { w with
      futures := w.futures.put fut .pending
      inflight := w.inflight.put key fut } c ⟨key, .leading fut, false, false⟩) := by
  have before : ∀ d other f, (w.calls.put c ⟨key, .leading fut, false, false⟩).get d =
      some other → other.future = some f →
      (d = c ∧ other = ⟨key, .leading fut, false, false⟩ ∧ f = fut) ∨
        (w.calls.get d = some other ∧ f ≠ fut) := by
    intro d other f hother hfuture
    rcases Table.get_put_eq_some hother with ⟨rfl, rfl⟩ | ⟨_, hold⟩
    · exact Or.inl ⟨rfl, rfl, (Option.some.inj hfuture).symm⟩
    · refine Or.inr ⟨hold, ?_⟩
      rintro rfl
      exact wired.known d other f hold hfuture new
  constructor
  · intro k f hfut
    rcases Table.get_put_eq_some hfut with ⟨rfl, rfl⟩ | ⟨_, hfut⟩
    · exact ⟨c, _, Table.get_put_self _ _ _, rfl, rfl⟩
    · obtain ⟨d, old, hold, hk, hl⟩ := wired.led k f hfut
      exact ⟨d, old, Table.get_put_of_absent _ absent hold, hk, hl⟩
  · intro d other f hother hl
    rcases before d other f hother (future_of_leads hl) with ⟨_, rfl, rfl⟩ | ⟨hold, _⟩
    · exact Table.get_put_self _ _ _
    · exact Table.get_put_of_absent _ free (wired.listed d other f hold hl)
  · intro d e one two f hone htwo hl1 hl2
    rcases before d one f hone (future_of_leads hl1) with ⟨hd, _, hf⟩ | ⟨hold1, hne⟩
    · rcases before e two f htwo (future_of_leads hl2) with ⟨he, _, _⟩ | ⟨_, hne⟩
      · exact hd.trans he.symm
      · exact absurd hf hne
    · rcases before e two f htwo (future_of_leads hl2) with ⟨_, _, hf⟩ | ⟨hold2, _⟩
      · exact absurd hf hne
      · exact wired.single d e one two f hold1 hold2 hl1 hl2
  · intro d other f hother hfuture
    rcases before d other f hother hfuture with ⟨_, _, rfl⟩ | ⟨hold, hne⟩
    · rw [World.putCall, Table.get_put_self]
      exact fun h => by cases h
    · rw [World.putCall, Table.get_put_ne _ _ hne]
      exact wired.known d other f hold hfuture
  · intro f hpending
    rcases Table.get_put_eq_some hpending with ⟨rfl, _⟩ | ⟨_, hold⟩
    · exact ⟨c, _, Table.get_put_self _ _ _, rfl⟩
    · obtain ⟨d, old, hold, hl⟩ := wired.owned f hold
      exact ⟨d, old, Table.get_put_of_absent _ absent hold, hl⟩
  · intro d e one two f hone htwo hf1 hf2
    rcases before d one f hone hf1 with ⟨_, h1, hf⟩ | ⟨hold1, hne⟩
    · rcases before e two f htwo hf2 with ⟨_, h2, _⟩ | ⟨_, hne⟩
      · rw [h1, h2]
      · exact absurd hf hne
    · rcases before e two f htwo hf2 with ⟨_, _, hf⟩ | ⟨hold2, _⟩
      · exact absurd hf hne
      · exact wired.sameKey d e one two f hold1 hold2 hf1 hf2
  · intro d other f outcome hother hl
    rcases before d other f hother (future_of_leads hl) with ⟨_, _, rfl⟩ | ⟨hold, hne⟩
    · rw [World.putCall, Table.get_put_self]
      exact fun h => by cases h
    · rw [World.putCall, Table.get_put_ne _ _ hne]
      exact wired.unset d other f outcome hold hl

/-- The outcome of a leader that settles its future. -/
def World.settled (w : World) (fut : FutureId) (outcome : Outcome) : Outcome :=
  if w.futures.get fut = some .pending then outcome else .invalidStateError

theorem settle_calls (outcome : Outcome) :
    (w.settle c call fut outcome).calls =
      w.calls.put c { call with phase := .finished (w.settled fut outcome) w.now } := by
  unfold World.settle World.settled
  split <;> rfl

theorem settle_inflight (outcome : Outcome) :
    (w.settle c call fut outcome).inflight = w.inflight.erase call.key := by
  unfold World.settle
  split <;> rfl

theorem settle_verdicts (outcome : Outcome) :
    (w.settle c call fut outcome).verdicts = w.verdicts := by
  unfold World.settle
  split <;> rfl

theorem settle_cache (outcome : Outcome) : (w.settle c call fut outcome).cache = w.cache := by
  unfold World.settle
  split <;> rfl

theorem settle_now (outcome : Outcome) : (w.settle c call fut outcome).now = w.now := by
  unfold World.settle
  split <;> rfl

/-- A future after its leader has settled it. -/
theorem settle_futures (outcome : Outcome) (f : FutureId) :
    (w.settle c call fut outcome).futures.get f =
      if f = fut ∧ w.futures.get fut = some .pending then some (.done outcome)
      else w.futures.get f := by
  unfold World.settle
  split
  · next pending =>
    simp only [World.finish, World.putCall, Table.get_put, pending, and_true]
  · next settled =>
    rw [if_neg (fun h => settled h.2)]
    rfl

theorem Wired.settle (wired : Wired w) (was : w.calls.get c = some call)
    (leads : call.leads = some fut) (outcome : Outcome) :
    Wired (w.settle c call fut outcome) := by
  have before : ∀ d other f, (w.settle c call fut outcome).calls.get d = some other →
      other.future = some f → d ≠ c ∧ w.calls.get d = some other := by
    intro d other f hother hfuture
    rw [settle_calls] at hother
    rcases Table.get_put_eq_some hother with ⟨rfl, rfl⟩ | ⟨hne, hold⟩
    · cases hfuture
    · exact ⟨hne, hold⟩
  have elsewhere : ∀ d other f, d ≠ c → w.calls.get d = some other → other.leads = some f →
      f ≠ fut := by
    rintro d other f hne hother hl rfl
    exact hne (wired.single d c other call f hother was hl leads)
  have after : ∀ d old, d ≠ c → w.calls.get d = some old →
      (w.settle c call fut outcome).calls.get d = some old := by
    intro d old hne hold
    rw [settle_calls, Table.get_put_ne _ _ hne, hold]
  constructor
  · intro key f hfut
    rw [settle_inflight] at hfut
    obtain ⟨hkey, hfut⟩ := Table.get_erase_eq_some hfut
    obtain ⟨d, old, hold, hk, hl⟩ := wired.led key f hfut
    have hne : d ≠ c := by
      rintro rfl
      obtain rfl : call = old := Option.some.inj (was.symm.trans hold)
      exact hkey hk.symm
    exact ⟨d, old, after d old hne hold, hk, hl⟩
  · intro d other f hother hl
    obtain ⟨hne, hold⟩ := before d other f hother (future_of_leads hl)
    have hlisted := wired.listed d other f hold hl
    have hkey : other.key ≠ call.key := by
      intro same
      have hfut := wired.listed c call fut was leads
      rw [← same, hlisted] at hfut
      exact elsewhere d other f hne hold hl (Option.some.inj hfut)
    rw [settle_inflight, Table.get_erase, if_neg hkey]
    exact hlisted
  · intro d e one two f hone htwo hl1 hl2
    exact wired.single d e one two f (before d one f hone (future_of_leads hl1)).2
      (before e two f htwo (future_of_leads hl2)).2 hl1 hl2
  · intro d other f hother hfuture
    rw [settle_futures]
    split
    · exact fun h => by cases h
    · exact wired.known d other f (before d other f hother hfuture).2 hfuture
  · intro f hpending
    rw [settle_futures] at hpending
    split at hpending
    · cases hpending
    · next open' =>
      obtain ⟨d, old, hold, hl⟩ := wired.owned f hpending
      have hne : d ≠ c := by
        rintro rfl
        obtain rfl : call = old := Option.some.inj (was.symm.trans hold)
        obtain rfl : fut = f := Option.some.inj (leads.symm.trans hl)
        exact open' ⟨rfl, hpending⟩
      exact ⟨d, old, after d old hne hold, hl⟩
  · intro d e one two f hone htwo hf1 hf2
    exact wired.sameKey d e one two f (before d one f hone hf1).2 (before e two f htwo hf2).2
      hf1 hf2
  · intro d other f o hother hl
    obtain ⟨hne, hold⟩ := before d other f hother (future_of_leads hl)
    rw [settle_futures, if_neg (fun h => elsewhere d other f hne hold hl h.1)]
    exact wired.unset d other f o hold hl

theorem Wired.remember (wired : Wired w) (key : CacheKey) (verdict : Verdict) :
    Wired (w.remember key verdict) := by
  cases verdict with
  | error error => exact wired
  | ok claims => exact wired.frame rfl rfl rfl

@[simp] theorem remember_calls (key : CacheKey) (verdict : Verdict) :
    (w.remember key verdict).calls = w.calls := by
  cases verdict <;> rfl

@[simp] theorem remember_futures (key : CacheKey) (verdict : Verdict) :
    (w.remember key verdict).futures = w.futures := by
  cases verdict <;> rfl

@[simp] theorem remember_verdicts (key : CacheKey) (verdict : Verdict) :
    (w.remember key verdict).verdicts = w.verdicts := by
  cases verdict <;> rfl

@[simp] theorem remember_now (key : CacheKey) (verdict : Verdict) :
    (w.remember key verdict).now = w.now := by
  cases verdict <;> rfl

variable {parseUuid : PyStr → Option Uuid}

theorem step_wired {action : Action} (wired : Wired w)
    (taken : step parseUuid w action = some t) : Wired t := by
  cases action with
  | introspect c key =>
    obtain ⟨absent, ⟨claims, _, rfl⟩ | ⟨_, fut, found, rfl⟩ | ⟨_, free, rfl⟩⟩ :=
      introspect_cases taken
    · refine wired.leave ?_ rfl rfl rfl rfl
      intro old hold
      rw [absent] at hold
      cases hold
    · exact wired.join absent found
    · exact wired.lead absent free (Table.get_freshKey _)
  | cancel c =>
    obtain ⟨call, fut, was, _, ⟨_, _, rfl⟩ | ⟨_, rfl⟩⟩ := cancel_cases taken
    · exact wired.stay { call with cancelled := true } fut was rfl rfl rfl rfl (Or.inr rfl) rfl
    · exact wired.stay { call with mustCancel := true, cancelled := true } fut was rfl rfl rfl rfl
        (Or.inl rfl) rfl
  | receive c reply =>
    obtain ⟨call, fut, verdict, was, phase, _, rfl⟩ := receive_cases taken
    refine wired.stay { call with phase := .logging fut verdict } fut was rfl ?_ ?_ rfl
      (Or.inl rfl) rfl
    · rw [Call.leads, Call.leads, phase]
    · rw [Call.future, Call.future, phase]
  | resolve c =>
    obtain ⟨call, fut, verdict, was, phase, rfl⟩ := resolve_cases taken
    exact (wired.remember call.key verdict).settle (by rw [remember_calls, was])
      (leads_of_logging phase) _
  | unwind c =>
    obtain ⟨call, fut, was, leads, _, rfl⟩ := unwind_cases taken
    exact wired.settle was leads _
  | wake c =>
    obtain ⟨call, fut, state, outcome, was, phase, _, _, rfl⟩ := wake_cases taken
    refine wired.leave ?_ rfl rfl rfl rfl
    intro old hold
    obtain rfl : call = old := Option.some.inj (was.symm.trans hold)
    exact not_leads_of_waiting phase
  | tick elapsed ran =>
    cases taken
    exact wired.frame rfl rfl rfl
  | evict key =>
    cases taken
    exact wired.frame rfl rfl rfl

end Wiring

/-- The claims or the error of a request for the token. -/
def FromUpstream (w : World) (key : CacheKey) (outcome : Outcome) : Prop :=
  ∃ verdict, (key, verdict) ∈ w.verdicts ∧ outcome = .ofVerdict verdict

/-- The running calls that lead a future or wait for it. -/
def World.sharers (w : World) (fut : FutureId) : List (CallId × Call) :=
  w.calls.rows.filter (fun row => row.2.future = some fut)

/-- A call is cancelled while no live call shares its pending future, and no call
joins a future of which a running call has been cancelled. -/
def undisturbed (w : World) : Action → Bool
  | .cancel c =>
    (w.calls.get c).all (fun call => call.future.all (fun fut =>
      w.futures.get fut ≠ some .pending ||
        (w.sharers fut).all (fun row => row.1 = c || row.2.cancelled)))
  | .introspect _ key =>
    (w.lookup key).isSome || (w.inflight.get key).all (fun fut =>
      (w.sharers fut).all (fun row => !row.2.cancelled))
  | _ => true

/-- Verdicts are logged before they are used, and only a cancelled call has a
`CancelledError` waiting. -/
structure Traced (w : World) : Prop where
  flagged : ∀ c call, w.calls.get c = some call → call.mustCancel = true → call.cancelled = true
  logged : ∀ c call fut verdict, w.calls.get c = some call →
    call.phase = .logging fut verdict → (call.key, verdict) ∈ w.verdicts
  cached : ∀ cache key entry, w.cache = some cache → cache.entries.get key = some entry →
    (key, .ok entry.claims) ∈ w.verdicts

/-- A call that was not cancelled ends, or is going to end, with a verdict. -/
structure Fine (w : World) (call : Call) : Prop where
  ended : ∀ outcome time, call.phase = .finished outcome time →
    FromUpstream w call.key outcome
  waits : ∀ fut, call.phase = .waiting fut → w.futures.get fut = some .pending ∨
    ∃ outcome, w.futures.get fut = some (.done outcome) ∧ FromUpstream w call.key outcome
  leads : ∀ fut, call.leads = some fut → w.futures.get fut = some .pending

/-- The calls that share a pending future are all cancelled, or none of them is. -/
structure Isolated (w : World) : Prop where
  fine : ∀ c call, w.calls.get c = some call → call.cancelled = false → Fine w call
  together : ∀ c d call other fut, w.calls.get c = some call → w.calls.get d = some other →
    call.future = some fut → other.future = some fut → w.futures.get fut = some .pending →
    call.cancelled = true → other.cancelled = true

section Cancellation
variable {w t : World} {c : CallId} {call : Call} {fut : FutureId}

theorem mem_sharers {row : CallId × Call} :
    row ∈ w.sharers fut ↔ w.calls.get row.1 = some row.2 ∧ row.2.future = some fut := by
  rw [World.sharers, List.mem_filter, Table.get_eq_some_iff, decide_eq_true_eq]

theorem FromUpstream.grow {key : CacheKey} {outcome : Outcome} (h : FromUpstream w key outcome)
    (grown : ∀ entry ∈ w.verdicts, entry ∈ t.verdicts) : FromUpstream t key outcome := by
  obtain ⟨verdict, hmem, houtcome⟩ := h
  exact ⟨verdict, grown _ hmem, houtcome⟩

theorem Fine.frame (fine : Fine w call) (grown : ∀ entry ∈ w.verdicts, entry ∈ t.verdicts)
    (same : ∀ fut, call.future = some fut → t.futures.get fut = w.futures.get fut) :
    Fine t call where
  ended := fun outcome time h => (fine.ended outcome time h).grow grown
  waits := by
    intro fut hphase
    rw [same fut (future_of_waiting hphase)]
    rcases fine.waits fut hphase with pending | ⟨outcome, hdone, hfrom⟩
    · exact Or.inl pending
    · exact Or.inr ⟨outcome, hdone, hfrom.grow grown⟩
  leads := by
    intro fut hleads
    rw [same fut (future_of_leads hleads)]
    exact fine.leads fut hleads

/-- A call that has ended needs nothing but its outcome. -/
theorem Fine.of_finished {outcome : Outcome} {time : Instant}
    (phase : call.phase = .finished outcome time) (h : FromUpstream w call.key outcome) :
    Fine w call where
  ended := by
    intro outcome' time' hphase
    rw [phase] at hphase
    cases hphase
    exact h
  waits := by
    intro fut hphase
    rw [phase] at hphase
    cases hphase
  leads := by
    intro fut hleads
    rw [Call.leads, phase] at hleads
    cases hleads

/-- A follower needs its future only. -/
theorem Fine.of_waiting (phase : call.phase = .waiting fut)
    (waits : w.futures.get fut = some .pending ∨
      ∃ outcome, w.futures.get fut = some (.done outcome) ∧ FromUpstream w call.key outcome) :
    Fine w call where
  ended := by
    intro outcome time hphase
    rw [phase] at hphase
    cases hphase
  waits := by
    intro fut' hphase
    rw [phase] at hphase
    cases hphase
    exact waits
  leads := by
    intro fut' hleads
    rw [Call.leads, phase] at hleads
    cases hleads

/-- A leader needs its future only. -/
theorem Fine.of_leads (leads : call.leads = some fut)
    (pending : w.futures.get fut = some .pending) : Fine w call where
  ended := by
    intro outcome time hphase
    rw [Call.leads, hphase] at leads
    cases leads
  waits := by
    intro fut' hphase
    rw [Call.leads, hphase] at leads
    cases leads
  leads := by
    intro fut' hleads
    rw [leads] at hleads
    cases hleads
    exact pending

/-- One call is written. -/
theorem Isolated.put (isolated : Isolated w) (call' : Call)
    (calls : t.calls = w.calls.put c call')
    (fine : call'.cancelled = false → Fine t call')
    (others : ∀ d old, d ≠ c → w.calls.get d = some old → old.cancelled = false → Fine t old)
    (pending : ∀ d old fut, d ≠ c → w.calls.get d = some old → old.future = some fut →
      t.futures.get fut = some .pending → w.futures.get fut = some .pending)
    (pairs : ∀ d old fut, d ≠ c → w.calls.get d = some old → old.future = some fut →
      call'.future = some fut → t.futures.get fut = some .pending →
      old.cancelled = call'.cancelled) : Isolated t where
  fine := by
    intro d other hother live
    rw [calls] at hother
    rcases Table.get_put_eq_some hother with ⟨_, rfl⟩ | ⟨hne, hold⟩
    · exact fine live
    · exact others d other hne hold live
  together := by
    intro d e one two fut hone htwo hf1 hf2 hpending hcancelled
    rw [calls] at hone htwo
    rcases Table.get_put_eq_some hone with ⟨_, rfl⟩ | ⟨hd, old1⟩
    · rcases Table.get_put_eq_some htwo with ⟨_, rfl⟩ | ⟨he, old2⟩
      · exact hcancelled
      · exact (pairs e two fut he old2 hf2 hf1 hpending).trans hcancelled
    · rcases Table.get_put_eq_some htwo with ⟨_, rfl⟩ | ⟨he, old2⟩
      · exact (pairs d one fut hd old1 hf1 hf2 hpending).symm.trans hcancelled
      · exact isolated.together d e one two fut old1 old2 hf1 hf2
          (pending d one fut hd old1 hf1 hpending) hcancelled

theorem start_traced (now : Instant) (ttlSeconds : Option Nat) : Traced (start now ttlSeconds) where
  flagged := fun _ _ h => by cases h
  logged := fun _ _ _ _ h => by cases h
  cached := by
    intro cache key entry hcache hentry
    cases ttlSeconds with
    | none => cases hcache
    | some ttl =>
      cases hcache
      cases hentry

theorem start_isolated (now : Instant) (ttlSeconds : Option Nat) :
    Isolated (start now ttlSeconds) where
  fine := fun _ _ h => by cases h
  together := fun _ _ _ _ _ h => by cases h

theorem lookup_eq_some {key : CacheKey} {claims : TokenClaims} (h : w.lookup key = some claims) :
    ∃ cache entry, w.cache = some cache ∧ cache.entries.get key = some entry ∧
      entry.claims = claims := by
  obtain ⟨cache, hcache, hget⟩ := Option.bind_eq_some_iff.mp h
  obtain ⟨entry, hfilter, hclaims⟩ := Option.map_eq_some_iff.mp hget
  exact ⟨cache, entry, hcache, (Option.filter_eq_some_iff.mp hfilter).1, hclaims⟩

theorem Traced.hit (traced : Traced w) {key : CacheKey} {claims : TokenClaims}
    (h : w.lookup key = some claims) : FromUpstream w key (.returned claims) := by
  obtain ⟨cache, entry, hcache, hentry, rfl⟩ := lookup_eq_some h
  exact ⟨_, traced.cached cache key entry hcache hentry, rfl⟩

/-- One call is written, and verdicts may be logged. -/
theorem Traced.put (traced : Traced w) (call' : Call) (calls : t.calls = w.calls.put c call')
    (grown : ∀ entry ∈ w.verdicts, entry ∈ t.verdicts)
    (cached : ∀ cache key entry, t.cache = some cache → cache.entries.get key = some entry →
      (key, .ok entry.claims) ∈ t.verdicts)
    (flagged : call'.mustCancel = true → call'.cancelled = true)
    (logged : ∀ fut verdict, call'.phase = .logging fut verdict →
      (call'.key, verdict) ∈ t.verdicts) : Traced t where
  flagged := by
    intro d other hother
    rw [calls] at hother
    rcases Table.get_put_eq_some hother with ⟨_, rfl⟩ | ⟨_, hold⟩
    · exact flagged
    · exact traced.flagged d other hold
  logged := by
    intro d other fut verdict hother hphase
    rw [calls] at hother
    rcases Table.get_put_eq_some hother with ⟨_, rfl⟩ | ⟨_, hold⟩
    · exact logged fut verdict hphase
    · exact grown _ (traced.logged d other fut verdict hold hphase)
  cached := cached

/-- What a leader caches is its verdict. -/
theorem Traced.remember (traced : Traced w) {key : CacheKey} {verdict : Verdict}
    (logged : (key, verdict) ∈ w.verdicts) {cache : Cache} {k : CacheKey} {entry : CacheEntry}
    (hcache : (w.remember key verdict).cache = some cache)
    (hentry : cache.entries.get k = some entry) : (k, .ok entry.claims) ∈ w.verdicts := by
  cases verdict with
  | error error => exact traced.cached cache k entry hcache hentry
  | ok claims =>
    obtain ⟨old, hold, rfl⟩ := Option.map_eq_some_iff.mp hcache
    rcases Table.get_put_eq_some hentry with ⟨rfl, rfl⟩ | ⟨_, hentry⟩
    · exact logged
    · exact traced.cached old k entry hold hentry

/-- The end of a leader that ends with a verdict, or that has been cancelled. -/
theorem Isolated.settle (isolated : Isolated w) (wired : Wired w) {outcome : Outcome}
    (was : w.calls.get c = some call) (leads : call.leads = some fut)
    (right : call.cancelled = true ∨ FromUpstream w call.key outcome) :
    Isolated (w.settle c call fut outcome) := by
  have grown : ∀ entry ∈ w.verdicts, entry ∈ (w.settle c call fut outcome).verdicts := by
    rw [settle_verdicts]
    exact fun _ h => h
  refine isolated.put _ (settle_calls outcome) ?_ ?_ ?_ ?_
  · intro live
    have hfrom : FromUpstream w call.key outcome := by
      rcases right with cancelled | hfrom
      · exact absurd (live.symm.trans cancelled) (by decide)
      · exact hfrom
    have pending := (isolated.fine c call was live).leads fut leads
    have houtcome : w.settled fut outcome = outcome := if_pos pending
    rw [houtcome]
    exact Fine.of_finished rfl (hfrom.grow grown)
  · intro d old hne hold live
    have fine := isolated.fine d old hold live
    constructor
    · exact fun o time hphase => (fine.ended o time hphase).grow grown
    · intro f hphase
      rw [settle_futures]
      split
      · next shared =>
        obtain ⟨rfl, pending⟩ := shared
        have hf := future_of_waiting hphase
        rcases right with cancelled | hfrom
        · have both := isolated.together c d call old f was hold (future_of_leads leads) hf
            pending cancelled
          exact absurd (live.symm.trans both) (by decide)
        · rw [← wired.sameKey c d call old f was hold (future_of_leads leads) hf]
          exact Or.inr ⟨outcome, rfl, hfrom.grow grown⟩
      · rcases fine.waits f hphase with pending | ⟨o, hdone, hfrom⟩
        · exact Or.inl pending
        · exact Or.inr ⟨o, hdone, hfrom.grow grown⟩
    · intro f hl
      have hf : f ≠ fut := by
        rintro rfl
        exact hne (wired.single d c old call f hold was hl leads)
      rw [settle_futures, if_neg (fun h => hf h.1)]
      exact fine.leads f hl
  · intro d old f hne hold hf hpending
    rw [settle_futures] at hpending
    split at hpending
    · cases hpending
    · exact hpending
  · intro d old f hne hold hf hf'
    cases hf'

/-- A cancelled future, when every running call of it has been cancelled. -/
theorem Isolated.cancelFuture (isolated : Isolated w)
    (phase : call.phase = .waiting fut)
    (alone : ∀ d old, w.calls.get d = some old → old.future = some fut →
      d = c ∨ old.cancelled = true) :
    Isolated (World.putCall { w with futures := w.futures.put fut .cancelled } c
      { call with cancelled := true }) := by
  refine isolated.put { call with cancelled := true } rfl (fun h => by cases h) ?_ ?_ ?_
  · intro d old hne hold live
    refine (isolated.fine d old hold live).frame (fun _ h => h) ?_
    intro f hf
    have hother : f ≠ fut := by
      rintro rfl
      rcases alone d old hold hf with same | cancelled
      · exact hne same
      · exact absurd (live.symm.trans cancelled) (by decide)
    exact Table.get_put_ne _ _ hother
  · intro d old f hne hold hf hpending
    rcases Table.get_put_eq_some hpending with ⟨_, h⟩ | ⟨_, hold⟩
    · cases h
    · exact hold
  · intro d old f hne hold hf hf' hpending
    have same : call.future = some f := hf'
    rw [future_of_waiting phase] at same
    obtain rfl : fut = f := Option.some.inj same
    rcases alone d old hold hf with same | cancelled
    · exact absurd same hne
    · exact cancelled

/-- A call that only gets an exception or a verdict to carry. -/
theorem Isolated.stay (isolated : Isolated w) (call' : Call) (was : w.calls.get c = some call)
    (calls : t.calls = w.calls.put c call') (futures : t.futures = w.futures)
    (grown : ∀ entry ∈ w.verdicts, entry ∈ t.verdicts) (future : call'.future = call.future)
    (fine : call'.cancelled = false → Fine t call')
    (alone : call'.cancelled = call.cancelled ∨ ∀ d old fut, w.calls.get d = some old →
      old.future = some fut → call.future = some fut → w.futures.get fut = some .pending →
      d = c ∨ old.cancelled = call'.cancelled) : Isolated t := by
  refine isolated.put call' calls fine ?_ ?_ ?_
  · intro d old hne hold live
    exact (isolated.fine d old hold live).frame grown (fun f _ => by rw [futures])
  · intro d old f hne hold hf hpending
    rw [← futures]
    exact hpending
  · intro d old f hne hold hf hf' hpending
    rw [future] at hf'
    rw [futures] at hpending
    rcases alone with same | alone
    · rw [same]
      cases hcall : call.cancelled with
      | true => exact isolated.together c d call old f was hold hf' hf hpending hcall
      | false =>
        cases hold' : old.cancelled with
        | false => rfl
        | true =>
          have both := isolated.together d c old call f hold was hf hf' hpending hold'
          exact both.symm.trans hcall
    · rcases alone d old f hold hf hf' hpending with same | cancelled
      · exact absurd same hne
      · exact cancelled

theorem step_traced {parseUuid : PyStr → Option Uuid} {action : Action} (traced : Traced w)
    (taken : step parseUuid w action = some t) : Traced t := by
  have cached := traced.cached
  cases action with
  | introspect c key =>
    obtain ⟨_, ⟨claims, _, rfl⟩ | ⟨_, fut, _, rfl⟩ | ⟨_, _, rfl⟩⟩ := introspect_cases taken
    all_goals
      refine traced.put _ rfl (fun _ h => h) cached ?_ ?_
      · exact fun h => by cases h
      · exact fun _ _ h => by cases h
  | cancel c =>
    obtain ⟨call, fut, was, _, ⟨_, _, rfl⟩ | ⟨_, rfl⟩⟩ := cancel_cases taken
    all_goals
      refine traced.put _ rfl (fun _ h => h) cached ?_ ?_
      · exact fun _ => rfl
      · exact fun fut verdict h => traced.logged c call fut verdict was h
  | receive c reply =>
    obtain ⟨call, fut, verdict, was, _, _, rfl⟩ := receive_cases taken
    refine traced.put _ rfl (fun _ h => List.mem_cons_of_mem _ h) ?_ ?_ ?_
    · exact fun cache key entry hcache hentry =>
        List.mem_cons_of_mem _ (cached cache key entry hcache hentry)
    · exact traced.flagged c call was
    · intro fut' verdict' h
      cases h
      exact List.mem_cons_self
  | resolve c =>
    obtain ⟨call, fut, verdict, was, phase, rfl⟩ := resolve_cases taken
    have logged := traced.logged c call fut verdict was phase
    refine traced.put _ (by rw [settle_calls, remember_calls]) ?_ ?_ ?_ ?_
    · rw [settle_verdicts, remember_verdicts]
      exact fun _ h => h
    · intro cache key entry hcache hentry
      rw [settle_cache] at hcache
      rw [settle_verdicts, remember_verdicts]
      exact traced.remember logged hcache hentry
    · exact traced.flagged c call was
    · exact fun _ _ h => by cases h
  | unwind c =>
    obtain ⟨call, fut, was, _, _, rfl⟩ := unwind_cases taken
    refine traced.put _ (settle_calls _) ?_ ?_ ?_ ?_
    · rw [settle_verdicts]
      exact fun _ h => h
    · intro cache key entry hcache hentry
      rw [settle_cache] at hcache
      rw [settle_verdicts]
      exact cached cache key entry hcache hentry
    · exact traced.flagged c call was
    · exact fun _ _ h => by cases h
  | wake c =>
    obtain ⟨call, fut, state, outcome, was, _, _, _, rfl⟩ := wake_cases taken
    refine traced.put _ rfl (fun _ h => h) cached ?_ ?_
    · exact traced.flagged c call was
    · exact fun _ _ h => by cases h
  | tick elapsed ran =>
    cases taken
    exact ⟨traced.flagged, traced.logged, cached⟩
  | evict key =>
    cases taken
    refine ⟨traced.flagged, traced.logged, ?_⟩
    intro cache k entry hcache hentry
    obtain ⟨old, hold, rfl⟩ := Option.map_eq_some_iff.mp hcache
    exact cached old k entry hold (Table.get_erase_eq_some hentry).2

/-- The clock, the map and the cache do not matter. -/
theorem Isolated.frame (isolated : Isolated w) (calls : t.calls = w.calls)
    (futures : t.futures = w.futures) (verdicts : t.verdicts = w.verdicts) : Isolated t where
  fine := by
    intro c call hcall live
    rw [calls] at hcall
    refine (isolated.fine c call hcall live).frame ?_ (fun f _ => by rw [futures])
    rw [verdicts]
    exact fun _ h => h
  together := by
    rw [calls, futures]
    exact isolated.together

/-- The guard on a cancellation, on the calls of one future. -/
theorem alone_of_undisturbed (guarded : undisturbed w (.cancel c) = true)
    (was : w.calls.get c = some call) (future : call.future = some fut)
    (pending : w.futures.get fut = some .pending) (d : CallId) (old : Call)
    (hold : w.calls.get d = some old) (hf : old.future = some fut) :
    d = c ∨ old.cancelled = true := by
  simp only [undisturbed, was, Option.all_some, future, pending, ne_eq, not_true_eq_false,
    decide_false, Bool.false_or, List.all_eq_true, Bool.or_eq_true, decide_eq_true_eq] at guarded
  exact guarded (d, old) (mem_sharers.mpr ⟨hold, hf⟩)

/-- The guard on a call that joins a future. -/
theorem live_of_undisturbed {key : CacheKey} (guarded : undisturbed w (.introspect c key) = true)
    (miss : w.lookup key = none) (found : w.inflight.get key = some fut) (d : CallId) (old : Call)
    (hold : w.calls.get d = some old) (hf : old.future = some fut) : old.cancelled = false := by
  simp only [undisturbed, miss, Option.isSome_none, Bool.false_or, found, Option.all_some,
    List.all_eq_true, Bool.not_eq_true'] at guarded
  exact guarded (d, old) (mem_sharers.mpr ⟨hold, hf⟩)

theorem step_isolated {parseUuid : PyStr → Option Uuid} {action : Action}
    (isolated : Isolated w) (wired : Wired w) (traced : Traced w)
    (guarded : undisturbed w action = true) (taken : step parseUuid w action = some t) :
    Isolated t := by
  cases action with
  | introspect c key =>
    obtain ⟨absent, ⟨claims, hit, rfl⟩ | ⟨miss, fut, found, rfl⟩ | ⟨_, _, rfl⟩⟩ :=
      introspect_cases taken
    · refine isolated.put _ rfl (fun _ => ?_) ?_ (fun _ _ _ _ _ _ h => h) ?_
      · exact Fine.of_finished rfl (traced.hit hit)
      · exact fun d old _ hold live =>
          (isolated.fine d old hold live).frame (fun _ h => h) (fun _ _ => rfl)
      · exact fun _ _ _ _ _ _ h => by cases h
    · have live := live_of_undisturbed guarded miss found
      obtain ⟨d, leader, hleader, _, hleads⟩ := wired.led key fut found
      have alive := live d leader hleader (future_of_leads hleads)
      have pending := (isolated.fine d leader hleader alive).leads fut hleads
      refine isolated.put _ rfl (fun _ => ?_) ?_ (fun _ _ _ _ _ _ h => h) ?_
      · exact Fine.of_waiting rfl (Or.inl pending)
      · exact fun d old _ hold live =>
          (isolated.fine d old hold live).frame (fun _ h => h) (fun _ _ => rfl)
      · intro e old f _ hold hf hf'
        cases hf'
        exact fun _ => live e old hold hf
    · have fresh : ∀ d old f, w.calls.get d = some old → old.future = some f →
          f ≠ w.futures.freshKey := by
        rintro d old f hold hf rfl
        exact wired.known d old _ hold hf (Table.get_freshKey _)
      refine isolated.put _ rfl (fun _ => ?_) ?_ ?_ ?_
      · exact Fine.of_leads rfl (Table.get_put_self _ _ _)
      · exact fun d old _ hold live =>
          (isolated.fine d old hold live).frame (fun _ h => h)
            (fun f hf => Table.get_put_ne _ _ (fresh d old f hold hf))
      · intro d old f _ hold hf hpending
        exact (Table.get_put_ne _ _ (fresh d old f hold hf)).symm.trans hpending
      · intro d old f _ hold hf hf'
        cases hf'
        exact absurd rfl (fresh d old _ hold hf)
  | cancel c =>
    obtain ⟨call, fut, was, future, ⟨phase, pending, rfl⟩ | ⟨_, rfl⟩⟩ := cancel_cases taken
    · exact isolated.cancelFuture phase (alone_of_undisturbed guarded was future pending)
    · refine isolated.stay _ was rfl rfl (fun _ h => h) rfl (fun h => by cases h) (Or.inr ?_)
      exact fun d old f hold hf hf' pending =>
        alone_of_undisturbed guarded was hf' pending d old hold hf
  | receive c reply =>
    obtain ⟨call, fut, verdict, was, phase, _, rfl⟩ := receive_cases taken
    refine isolated.stay _ was rfl rfl (fun _ h => List.mem_cons_of_mem _ h) ?_ ?_ (Or.inl rfl)
    · rw [Call.future, Call.future, phase]
    · intro live
      have leads : call.leads = some fut := by rw [Call.leads, phase]
      exact Fine.of_leads rfl ((isolated.fine c call was live).leads fut leads)
  | resolve c =>
    obtain ⟨call, fut, verdict, was, phase, rfl⟩ := resolve_cases taken
    have kept : Isolated (w.remember call.key verdict) :=
      isolated.frame (remember_calls _ _) (remember_futures _ _) (remember_verdicts _ _)
    refine kept.settle (wired.remember _ _) (by rw [remember_calls, was])
      (leads_of_logging phase) (Or.inr ⟨verdict, ?_, rfl⟩)
    rw [remember_verdicts]
    exact traced.logged c call fut verdict was phase
  | unwind c =>
    obtain ⟨call, fut, was, leads, must, rfl⟩ := unwind_cases taken
    exact isolated.settle wired was leads (Or.inl (traced.flagged c call was must))
  | wake c =>
    obtain ⟨call, fut, state, outcome, was, phase, hstate, houtcome, rfl⟩ := wake_cases taken
    refine isolated.put _ rfl (fun live => ?_) ?_ (fun _ _ _ _ _ _ h => h) ?_
    · have must : call.mustCancel = false := by
        cases hmust : call.mustCancel with
        | false => rfl
        | true => exact absurd (live.symm.trans (traced.flagged c call was hmust)) (by decide)
      rw [must]
      refine Fine.of_finished rfl ?_
      rcases (isolated.fine c call was live).waits fut phase with pending | ⟨o, hdone, hfrom⟩
      · rw [hstate] at pending
        cases pending
        cases houtcome
      · rw [hstate] at hdone
        cases hdone
        cases houtcome
        exact hfrom
    · exact fun d old _ hold live =>
        (isolated.fine d old hold live).frame (fun _ h => h) (fun _ _ => rfl)
    · exact fun _ _ _ _ _ _ h => by cases h
  | tick elapsed ran =>
    cases taken
    exact isolated.frame rfl rfl rfl
  | evict key =>
    cases taken
    exact isolated.frame rfl rfl rfl

end Cancellation

/-- In a run whose cancellations disturb nobody, every call that is not cancelled
ends with what a request for its token came to. In every run, a token without a
running call is off the map, and no call waits for a future that nobody sets. -/
theorem calls_isolated (parseUuid : PyStr → Option Uuid) (now : Instant)
    (ttlSeconds : Option Nat) {acts : List Action} {w : World}
    (ran : Replay.run (step parseUuid) (start now ttlSeconds) acts = some w) :
    (Replay.Obeys (step parseUuid) (fun w action => undisturbed w action = true)
        (start now ttlSeconds) acts →
      ∀ c call outcome time, w.calls.get c = some call → call.phase = .finished outcome time →
        call.cancelled = false → FromUpstream w call.key outcome) ∧
    (∀ key, (∀ c call, w.calls.get c = some call → call.key = key → call.future = none) →
      w.inflight.get key = none) ∧
    ∀ c call fut, w.calls.get c = some call → call.phase = .waiting fut →
      w.futures.get fut = some .pending →
      ∃ d leader, w.calls.get d = some leader ∧ leader.leads = some fut := by
  have wired : Wired w := Replay.run_invariant' (fun _ _ _ wired => step_wired wired)
    (start_wired now ttlSeconds) ran
  refine ⟨?_, ?_, fun _ _ fut _ _ pending => wired.owned fut pending⟩
  · intro obeys c call outcome time hcall phase live
    have keeps : ∀ w action t, Wired w ∧ Traced w ∧ Isolated w → undisturbed w action = true →
        step parseUuid w action = some t → Wired t ∧ Traced t ∧ Isolated t := by
      rintro w action t ⟨wired, traced, isolated⟩ guarded taken
      exact ⟨step_wired wired taken, step_traced traced taken,
        step_isolated isolated wired traced guarded taken⟩
    obtain ⟨_, _, isolated⟩ := Replay.run_invariant keeps
      ⟨start_wired now ttlSeconds, start_traced now ttlSeconds, start_isolated now ttlSeconds⟩
      obeys ran
    exact (isolated.fine c call hcall live).ended outcome time phase
  · intro key idle
    cases hfut : w.inflight.get key with
    | none => rfl
    | some fut =>
      obtain ⟨c, call, hcall, hkey, hleads⟩ := wired.led key fut hfut
      have running := future_of_leads hleads
      rw [idle c call hcall hkey] at running
      cases running

def sampleUuid (value : PyStr) : Option Uuid :=
  if value = py "00000000-0000-0000-0000-000000000007" then some 7 else none

def activeReply (exp : Instant) : Reply :=
  .response 200 (.object ⟨true, .text (py "00000000-0000-0000-0000-000000000007"),
    py "journal:read", .number exp⟩)

/-- A shared request, then a call that is cancelled on its own. -/
def sharedThenCancelled : List Action :=
  [.introspect 0 (py "k"), .introspect 1 (py "k"), .receive 0 (activeReply 90), .resolve 0,
   .wake 1, .introspect 2 (py "other"), .cancel 2, .unwind 2]

theorem calls_isolated_shared : ∃ w,
    Replay.run (step sampleUuid) (start 10 (some 30)) sharedThenCancelled = some w ∧
      (∀ c call outcome time, w.calls.get c = some call → call.phase = .finished outcome time →
        call.cancelled = false → FromUpstream w call.key outcome) ∧
      w.inflight.get (py "k") = none ∧ w.inflight.get (py "other") = none := by
  refine ⟨_, rfl, ?_, by decide, by decide⟩
  exact (@calls_isolated sampleUuid 10 (some 30) sharedThenCancelled _ rfl).1 (by decide)

/-- One of two followers is cancelled, and then Hydra answers. -/
def followerCancelled : List Action :=
  [.introspect 0 (py "k"), .introspect 1 (py "k"), .introspect 2 (py "k"), .cancel 1, .wake 2,
   .receive 0 (activeReply 90), .resolve 0]

/-- The other follower gets a `CancelledError`, the leader an `InvalidStateError`. -/
theorem cancelled_follower_disturbs :
    ¬ ∀ (parseUuid : PyStr → Option Uuid) (now : Instant) (ttlSeconds : Option Nat)
      (acts : List Action) (w : World),
      Replay.run (step parseUuid) (start now ttlSeconds) acts = some w →
      ∀ c call outcome time, w.calls.get c = some call → call.phase = .finished outcome time →
        call.cancelled = false → FromUpstream w call.key outcome := by
  intro all
  obtain ⟨verdict, _, raised⟩ := all sampleUuid 10 (some 30) followerCancelled _ rfl 0
    ⟨py "k", .finished .invalidStateError 10, false, false⟩ .invalidStateError 10 (by decide) rfl
    rfl
  cases verdict with
  | error error => cases raised
  | ok claims => cases raised

end HydraIntrospector
