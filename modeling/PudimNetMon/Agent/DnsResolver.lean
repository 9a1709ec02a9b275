import PudimNetMon.Lib.Run
import PudimNetMon.Lib.Tenancy

/-!
# The shared resolver (`dns_resolver.cpp`)

`Lookup` without cache bypass, for any number of calls. It looks for a cached result and for a lookup that is in flight
in one critical section and registers its own lookup in another, so two calls can both find nothing. One worker runs for
a key in every run in which no check finds nothing while another call of the key stands between its check and its
registration, and a run in which one does can go on to two workers (`single_flight`).
-/

namespace PudimNetMon.Agent.DnsResolver

/-! ## Lookups -/

structure AddrInfo where
  flags : Int32
  family : Int32
  socktype : Int32
  protocol : Int32
  addr : List UInt8
  canonname : Option String
  deriving DecidableEq

structure LookupResult where
  ok : Bool := false
  error : String := ""
  addrs : List AddrInfo := []
  canonname : String := ""
  deriving DecidableEq

/-- The arguments of a call; of the hints the key and `getaddrinfo` read these. -/
structure Lookup where
  host : String
  service : String
  family : Int32
  socktype : Int32
  protocol : Int32
  flags : Int32
  timeoutMs : Int32

/-- `AI_CANONNAME` -/
def aiCanonname : Int32 := 2

/-- `MakeKey` -/
def Lookup.key (l : Lookup) : String :=
  l.host ++ "\x1f" ++ l.service ++ "\x1f" ++ toString l.family.toInt ++ "\x1f" ++ toString l.socktype.toInt ++ "\x1f" ++
    toString l.protocol.toInt ++ "\x1f" ++ toString (l.flags &&& aiCanonname).toInt

/-- The result of a lookup for what `getaddrinfo` has returned. -/
def resolved (gaiStrerror : Int32 → String) (rc : Int32) (raw : List AddrInfo) : LookupResult :=
  match raw with
  | head :: _ =>
    if rc = 0 then { ok := true, addrs := raw, canonname := head.canonname.getD "" }
    else { error := gaiStrerror rc }
  | [] => { error := if rc = 0 then "no addresses" else gaiStrerror rc }

def Lookup.timedOut (l : Lookup) : LookupResult :=
  { error := "resolution timed out after " ++ toString l.timeoutMs.toInt ++ "ms" }

/-! ## The state -/

structure CacheEntry where
  result : LookupResult
  /-- In nanoseconds of the steady clock. -/
  expiry : Int

/-- Where a call is. -/
inductive CallAt
  | outside
  /-- Behind the check, which has found nothing. -/
  | checked
  /-- Behind the registration, without a thread yet. -/
  | registered
  /-- For the lookup of a call, its own or another one's. -/
  | waiting (lookup : Nat)
  | returned (r : LookupResult)
  deriving DecidableEq

/-- Where the thread of a call is. -/
inductive WorkerAt
  | none
  | resolving
  | resolved (r : LookupResult)
  /-- `done` is set, the last critical section is still to come. -/
  | published (r : LookupResult)
  | ended
  deriving DecidableEq

def WorkerAt.isRunning : WorkerAt → Bool
  | .resolving | .resolved _ | .published _ => true
  | .none | .ended => false

/-- `Impl`, its lookups, which have the numbers of their calls, and the threads. -/
structure Impl where
  cache : String → Option CacheEntry := fun _ => none
  inflight : String → Option Nat := fun _ => none
  /-- The result of a lookup that is done. -/
  pending : Nat → Option LookupResult := fun _ => none
  calls : Nat → CallAt := fun _ => .outside
  workers : Nat → WorkerAt := fun _ => .none

inductive Event
  /-- The first critical section of a call, with the time that it has read before. -/
  | check (c : Nat) (now : Int)
  | register (c : Nat)
  | start (c : Nat)
  | resolve (c : Nat) (rc : Int32) (raw : List AddrInfo)
  | publish (c : Nat)
  /-- The last critical section of a worker. -/
  | finish (c : Nat) (now : Int)
  | wake (c : Nat)
  | timeout (c : Nat)

namespace Impl

def setCall (s : Impl) (c : Nat) (x : CallAt) : Impl := { s with calls := Function.update s.calls c x }

def setWorker (s : Impl) (c : Nat) (x : WorkerAt) : Impl := { s with workers := Function.update s.workers c x }

/-- The cached result of a key, if it has not expired. -/
def cached (s : Impl) (key : String) (now : Int) : Option LookupResult :=
  (s.cache key).bind fun e => if now < e.expiry then some e.result else none

def ttlMs : Int := 60000

/-- The cache behind the last critical section of a worker. -/
def cacheAfter (s : Impl) (key : String) (r : LookupResult) (now : Int) : String → Option CacheEntry :=
  if r.ok ∧ (s.cached key now).isNone then
    Function.update s.cache key (some { result := r, expiry := now + ttlMs * 1000000 })
  else s.cache

/-- The lookups in flight behind it: an entry of another lookup stays. -/
def inflightAfter (s : Impl) (key : String) (c : Nat) : String → Option Nat :=
  if s.inflight key = some c then Function.update s.inflight key none else s.inflight

end Impl

section

variable (gaiStrerror : Int32 → String) (lookups : Nat → Lookup)

/-- The key of a call. -/
abbrev keyOf (c : Nat) : String := (lookups c).key

/-- One critical section of a call or a worker, or what it does between two of them. -/
def step (s : Impl) : Event → Option Impl
  | .check c now =>
    if s.calls c = .outside then
      match s.cached (keyOf lookups c) now with
      | some r => some (s.setCall c (.returned r))
      | none =>
        match s.inflight (keyOf lookups c) with
        | some p => some (s.setCall c (.waiting p))
        | none => some (s.setCall c .checked)
    else none
  | .register c =>
    if s.calls c = .checked then
      some { s.setCall c .registered with inflight := Function.update s.inflight (keyOf lookups c) (some c) }
    else none
  | .start c =>
    if s.calls c = .registered then some ((s.setCall c (.waiting c)).setWorker c .resolving) else none
  | .resolve c rc raw =>
    if s.workers c = .resolving then some (s.setWorker c (.resolved (resolved gaiStrerror rc raw))) else none
  | .publish c =>
    match s.workers c with
    | .resolved r => some { s.setWorker c (.published r) with pending := Function.update s.pending c (some r) }
    | _ => none
  | .finish c now =>
    match s.workers c with
    | .published r =>
      some { s.setWorker c .ended with
        inflight := s.inflightAfter (keyOf lookups c) c
        cache := s.cacheAfter (keyOf lookups c) r now }
    | _ => none
  | .wake c =>
    match s.calls c with
    | .waiting p => (s.pending p).map fun r => s.setCall c (.returned r)
    | _ => none
  | .timeout c =>
    match s.calls c with
    | .waiting p => if (s.pending p).isNone then some (s.setCall c (.returned (lookups c).timedOut)) else none
    | _ => none

namespace Impl

/-- One worker runs for a key at a time. -/
def SingleFlight (s : Impl) : Prop := ∀ c d, (s.workers c).isRunning = true → (s.workers d).isRunning = true →
  keyOf lookups c = keyOf lookups d → c = d

/-- A check that finds nothing finds no call of its key between check and registration. -/
def Unraced (s : Impl) : Event → Prop
  | .check c now => s.cached (keyOf lookups c) now = none → s.inflight (keyOf lookups c) = none →
    ∀ d, s.calls d = .checked → keyOf lookups d ≠ keyOf lookups c
  | _ => True

end Impl

end

/-! ## Owners of keys -/

namespace Impl

/-- The call is between its check and the end of its worker. -/
def Owns (s : Impl) (c : Nat) : Prop :=
  s.calls c = .checked ∨ s.calls c = .registered ∨ (s.workers c).isRunning = true

/-- Its lookup is in flight. -/
def Registered (s : Impl) (c : Nat) : Prop := s.calls c = .registered ∨ (s.workers c).isRunning = true

/-- A worker runs behind the start of its call. -/
def Behind (s : Impl) (c : Nat) : Prop := s.calls c ≠ .outside ∧ s.calls c ≠ .checked ∧ s.calls c ≠ .registered

variable {lookups : Nat → Lookup} {s : Impl} {c d : Nat}

theorem calls_setCall (x : CallAt) : (s.setCall c x).calls d = if d = c then x else s.calls d :=
  Function.update_apply _ _ _ _

theorem workers_setWorker (x : WorkerAt) : (s.setWorker c x).workers d = if d = c then x else s.workers d :=
  Function.update_apply _ _ _ _

theorem Registered.owns (h : s.Registered c) : s.Owns c := .inr h

/-- A key has one owner, the one in flight if it is registered. -/
structure Inv (lookups : Nat → Lookup) (s : Impl) : Prop where
  tenancy : Tenancy (keyOf lookups) s.Owns s.Registered s.inflight
  behind : ∀ c, (s.workers c).isRunning = true → s.Behind c

theorem inv_start : Inv lookups {} := by
  refine ⟨.vacant ?_ ?_, ?_⟩
  · rintro c (h | h | h) <;> cases h
  · rintro c (h | h) <;> cases h
  · rintro c h
    cases h

theorem Inv.singleFlight (h : Inv lookups s) : s.SingleFlight lookups :=
  fun c d hc hd => h.tenancy.one c d (.inr (.inr hc)) (.inr (.inr hd))

/-! ## What each step does to them -/

/-- A call that waits or returns is no owner without its worker. -/
theorem Inv.setCall (h : Inv lookups s) {x : CallAt} (hoff : x ≠ .outside) (hchecked : x ≠ .checked)
    (hregistered : x ≠ .registered) : Inv lookups (s.setCall c x) := by
  have hcalls : ∀ d, (s.setCall c x).calls d = x ∨ (s.setCall c x).calls d = s.calls d := fun d => by
    rw [calls_setCall]
    split
    · exact .inl rfl
    · exact .inr rfl
  refine ⟨h.tenancy.mono ?_ ?_, ?_⟩
  · rintro d (hd | hd | hd)
    · rcases hcalls d with heq | heq
      · exact absurd (heq.symm.trans hd) hchecked
      · exact .inl (heq.symm.trans hd)
    · rcases hcalls d with heq | heq
      · exact absurd (heq.symm.trans hd) hregistered
      · exact .inr (.inl (heq.symm.trans hd))
    · exact .inr (.inr hd)
  · rintro d (hd | hd)
    · rcases hcalls d with heq | heq
      · exact absurd (heq.symm.trans hd) hregistered
      · exact ⟨.inr (.inl hd), .inl (heq.symm.trans hd)⟩
    · exact ⟨.inr (.inr hd), .inr hd⟩
  · intro d hd
    unfold Behind
    rcases hcalls d with heq | heq
    · rw [heq]
      exact ⟨hoff, hchecked, hregistered⟩
    · rw [heq]
      exact h.behind d hd

/-- A call whose check has found nothing, without another one there. -/
theorem Inv.check (h : Inv lookups s) (hcall : s.calls c = .outside) (hnone : s.inflight (keyOf lookups c) = none)
    (hfree : ∀ d, s.calls d = .checked → keyOf lookups d ≠ keyOf lookups c) :
    Inv lookups (s.setCall c .checked) := by
  have hidle : ¬ (s.workers c).isRunning = true := fun hrun => (h.behind c hrun).1 hcall
  have hbefore : ∀ d, d ≠ c → (s.setCall c .checked).calls d = s.calls d := fun d hne => by
    rw [calls_setCall, if_neg hne]
  have hhere : (s.setCall c .checked).calls c = .checked := by rw [calls_setCall, if_pos rfl]
  refine ⟨h.tenancy.enter (i := c) ?_ ?_ ?_, ?_⟩
  · rintro d hd heq
    rcases hd with hd | hd
    · exact absurd heq (hfree d hd)
    · -- a registered owner would be in flight
      have hentry := h.tenancy.entry d hd
      rw [heq, hnone] at hentry
      cases hentry
  · intro d hd
    by_cases hne : d = c
    · exact .inr hne
    · unfold Owns at hd
      rw [hbefore d hne] at hd
      exact .inl hd
  · intro d hd
    by_cases hne : d = c
    · subst hne
      rcases hd with hd | hd
      · rw [hhere] at hd
        cases hd
      · exact absurd hd hidle
    · unfold Registered at hd
      rw [hbefore d hne] at hd
      exact ⟨.inr (by rw [hbefore d hne]; exact hd), hd⟩
  · intro d hd
    have hne : d ≠ c := by
      rintro rfl
      exact hidle hd
    unfold Behind
    rw [hbefore d hne]
    exact h.behind d hd

theorem Inv.register (h : Inv lookups s) (hcall : s.calls c = .checked) :
    Inv lookups { s.setCall c .registered with
      inflight := Function.update s.inflight (keyOf lookups c) (some c) } := by
  have hbefore : ∀ d, d ≠ c → (s.setCall c .registered).calls d = s.calls d := fun d hne => by
    rw [calls_setCall, if_neg hne]
  have howns : ∀ d, (s.setCall c .registered).Owns d → s.Owns d := by
    intro d hd
    by_cases hne : d = c
    · exact .inl (hne ▸ hcall)
    · unfold Owns at hd
      rwa [hbefore d hne] at hd
  refine ⟨h.tenancy.register (.inl hcall) howns ?_, ?_⟩
  · intro d hd
    refine ⟨.inr hd, ?_⟩
    by_cases hne : d = c
    · exact .inr hne
    · have hd' : (s.setCall c .registered).Registered d := hd
      unfold Registered at hd'
      rw [hbefore d hne] at hd'
      exact .inl hd'
  · intro d hd
    have hne : d ≠ c := by
      rintro rfl
      exact (h.behind d hd).2.1 hcall
    have hbehind := h.behind d hd
    unfold Behind at hbehind ⊢
    dsimp only
    rwa [hbefore d hne]

theorem Inv.start (h : Inv lookups s) (hcall : s.calls c = .registered) :
    Inv lookups ((s.setCall c (.waiting c)).setWorker c .resolving) := by
  have hcalls : ∀ d, d ≠ c → ((s.setCall c (.waiting c)).setWorker c .resolving).calls d = s.calls d :=
    fun d hne => (calls_setCall _).trans (if_neg hne)
  have hworkers : ∀ d, d ≠ c → ((s.setCall c (.waiting c)).setWorker c .resolving).workers d = s.workers d :=
    fun d hne => (workers_setWorker _).trans (if_neg hne)
  refine ⟨h.tenancy.mono ?_ ?_, ?_⟩
  · intro d hd
    by_cases hne : d = c
    · exact .inr (.inl (hne ▸ hcall))
    · unfold Owns at hd
      rwa [hcalls d hne, hworkers d hne] at hd
  · intro d hd
    refine ⟨hd.owns, ?_⟩
    by_cases hne : d = c
    · exact .inl (hne ▸ hcall)
    · unfold Registered at hd
      rwa [hcalls d hne, hworkers d hne] at hd
  · intro d hd
    unfold Behind
    by_cases hne : d = c
    · subst hne
      have hhere : ((s.setCall d (.waiting d)).setWorker d .resolving).calls d = .waiting d :=
        (calls_setCall _).trans (if_pos rfl)
      rw [hhere]
      exact ⟨by simp, by simp, by simp⟩
    · rw [hworkers d hne] at hd
      rw [hcalls d hne]
      exact h.behind d hd

/-- A worker that goes on. -/
theorem Inv.setWorker (h : Inv lookups s) (hrun : (s.workers c).isRunning = true) {x : WorkerAt}
    (hx : x.isRunning = true) : Inv lookups (s.setWorker c x) := by
  have hrunning : ∀ d, ((s.setWorker c x).workers d).isRunning = true ↔ (s.workers d).isRunning = true := by
    intro d
    rw [workers_setWorker]
    split
    · rename_i heq
      subst heq
      exact iff_of_true hx hrun
    · rfl
  refine ⟨h.tenancy.mono ?_ ?_, fun d hd => h.behind d ((hrunning d).1 hd)⟩
  · rintro d (hd | hd | hd)
    · exact .inl hd
    · exact .inr (.inl hd)
    · exact .inr (.inr ((hrunning d).1 hd))
  · rintro d (hd | hd)
    · exact ⟨.inr (.inl hd), .inl hd⟩
    · exact ⟨.inr (.inr hd), .inr ((hrunning d).1 hd)⟩

theorem Inv.finish (h : Inv lookups s) (hrun : (s.workers c).isRunning = true) (cache : String → Option CacheEntry) :
    Inv lookups { s.setWorker c .ended with inflight := s.inflightAfter (keyOf lookups c) c, cache } := by
  have hworkers : ∀ d, d ≠ c → (s.setWorker c .ended).workers d = s.workers d := fun d hne => by
    rw [workers_setWorker, if_neg hne]
  have hended : ¬ ((s.setWorker c .ended).workers c).isRunning = true := by
    rw [workers_setWorker, if_pos rfl]
    decide
  have hbehind := h.behind c hrun
  have howns : ∀ d, (s.setWorker c .ended).Owns d → s.Owns d ∧ d ≠ c := by
    rintro d hd
    by_cases hne : d = c
    · subst hne
      rcases hd with hd | hd | hd
      · exact absurd hd hbehind.2.1
      · exact absurd hd hbehind.2.2
      · exact absurd hd hended
    · unfold Owns at hd
      rw [hworkers d hne] at hd
      exact ⟨hd, hne⟩
  have hentry : s.inflightAfter (keyOf lookups c) c = Function.update s.inflight (keyOf lookups c) none :=
    if_pos (h.tenancy.entry c (.inr hrun))
  refine ⟨?_, ?_⟩
  · dsimp only
    rw [hentry]
    refine h.tenancy.leave (.inr (.inr hrun)) howns fun d hd => ⟨.inr hd, ?_⟩
    obtain ⟨-, hne⟩ := howns d (.inr hd)
    have hd' : (s.setWorker c .ended).Registered d := hd
    unfold Registered at hd'
    rwa [hworkers d hne] at hd'
  · intro d hd
    have hne : d ≠ c := by
      rintro rfl
      exact hended hd
    have hd' : ((s.setWorker c .ended).workers d).isRunning = true := hd
    rw [hworkers d hne] at hd'
    exact h.behind d hd'

variable {gaiStrerror : Int32 → String} {s' : Impl}

theorem inv_step (s : Impl) (e : Event) (s' : Impl) (h : Inv lookups s) (hg : s.Unraced lookups e)
    (hs : step gaiStrerror lookups s e = some s') : Inv lookups s' := by
  cases e with
  | check c now =>
    rw [step] at hs
    split at hs
    · rename_i hcall
      split at hs
      · cases hs
        exact h.setCall (by simp) (by simp) (by simp)
      · rename_i hcached
        split at hs
        · cases hs
          exact h.setCall (by simp) (by simp) (by simp)
        · rename_i hinflight
          cases hs
          exact h.check hcall hinflight (hg hcached hinflight)
    · cases hs
  | register c =>
    rw [step] at hs
    split at hs
    · rename_i hcall
      cases hs
      exact h.register hcall
    · cases hs
  | start c =>
    rw [step] at hs
    split at hs
    · rename_i hcall
      cases hs
      exact h.start hcall
    · cases hs
  | resolve c rc raw =>
    rw [step] at hs
    split at hs
    · rename_i hworker
      cases hs
      exact h.setWorker (by rw [hworker]; rfl) rfl
    · cases hs
  | publish c =>
    rw [step] at hs
    split at hs
    · rename_i r hworker
      cases hs
      have hinv := @Inv.setWorker lookups s c h (by rw [hworker]; rfl) (.published r) rfl
      exact ⟨hinv.tenancy, hinv.behind⟩
    · cases hs
  | finish c now =>
    rw [step] at hs
    split at hs
    · rename_i hworker
      cases hs
      exact h.finish (by rw [hworker]; rfl) _
    · cases hs
  | wake c =>
    rw [step] at hs
    split at hs
    · obtain ⟨r, -, rfl⟩ := Option.map_eq_some_iff.1 hs
      exact h.setCall (by simp) (by simp) (by simp)
    · cases hs
  | timeout c =>
    rw [step] at hs
    split at hs
    · split at hs
      · cases hs
        exact h.setCall (by simp) (by simp) (by simp)
      · cases hs
    · cases hs

/-! ## A race -/

theorem step_check (hcall : s.calls c = .outside) {now : Int} (hcached : s.cached (keyOf lookups c) now = none)
    (hinflight : s.inflight (keyOf lookups c) = none) :
    step gaiStrerror lookups s (.check c now) = some (s.setCall c .checked) := by
  rw [step, if_pos hcall, hcached]
  dsimp only
  rw [hinflight]

/-- A call behind its check can register and start, and no other is affected. -/
theorem exists_started (hc : s.calls c = .checked) : ∃ t,
    runEvents (step gaiStrerror lookups) s [.register c, .start c] = some t ∧ (t.workers c).isRunning = true ∧
      ∀ d, d ≠ c → t.calls d = s.calls d ∧ t.workers d = s.workers d := by
  have hregister : step gaiStrerror lookups s (.register c) = some { s.setCall c .registered with
      inflight := Function.update s.inflight (keyOf lookups c) (some c) } := if_pos hc
  have hregistered : (s.setCall c .registered).calls c = .registered := (calls_setCall _).trans (if_pos rfl)
  rw [runEvents, hregister, Option.bind_some, runEvents, step, if_pos hregistered]
  refine ⟨_, rfl, ?_, fun d hne => ⟨?_, ?_⟩⟩
  · rw [workers_setWorker, if_pos rfl]
    rfl
  · refine (calls_setCall _).trans ?_
    rw [if_neg hne]
    exact (calls_setCall _).trans (if_neg hne)
  · exact (workers_setWorker _).trans (if_neg hne)

/-- Two calls between check and registration come to two workers. -/
theorem two_workers (hc : s.calls c = .checked) (hd : s.calls d = .checked) (hne : d ≠ c) :
    ∃ t, runEvents (step gaiStrerror lookups) s [.register d, .start d, .register c, .start c] = some t ∧
      (t.workers c).isRunning = true ∧ (t.workers d).isRunning = true := by
  obtain ⟨t, ht, hrun, hsame⟩ := @exists_started lookups s d gaiStrerror hd
  have hcall : t.calls c = .checked := (hsame c hne.symm).1.trans hc
  obtain ⟨u, hu, hrun', hsame'⟩ := @exists_started lookups t c gaiStrerror hcall
  refine ⟨u, ?_, hrun', ?_⟩
  · rw [← hu]
    exact runEvents_append ht _
  · rwa [(hsame' d hne).2]

end Impl

/-- **Single flight.** One worker runs for a key in every run without a race; and a run in which a check races goes on
to two workers. -/
theorem single_flight (gaiStrerror : Int32 → String) (lookups : Nat → Lookup) (events : List Event) :
    (Guarded (step gaiStrerror lookups) (Impl.Unraced lookups) {} events →
        Always (step gaiStrerror lookups) (Impl.SingleFlight lookups) {} events) ∧
      ∀ s c now s', runEvents (step gaiStrerror lookups) {} events = some s → ¬ s.Unraced lookups (.check c now) →
        step gaiStrerror lookups s (.check c now) = some s' →
          ∃ rest t, runEvents (step gaiStrerror lookups) {} (events ++ .check c now :: rest) = some t ∧
            ¬ t.SingleFlight lookups := by
  refine ⟨always_of_guarded Impl.inv_step (fun _ h => h.singleFlight) Impl.inv_start, ?_⟩
  intro s c now s' hrun hraced hs
  simp only [Impl.Unraced, not_forall, not_not] at hraced
  obtain ⟨hcached, hinflight, d, hd, hkey⟩ := hraced
  have hcall : s.calls c = .outside := by
    by_contra hcall
    rw [step, if_neg hcall] at hs
    cases hs
  have hne : d ≠ c := by
    rintro rfl
    rw [hcall] at hd
    cases hd
  rw [Impl.step_check hcall hcached hinflight] at hs
  cases hs
  have hc' : (s.setCall c .checked).calls c = .checked := (Impl.calls_setCall _).trans (if_pos rfl)
  have hd' : (s.setCall c .checked).calls d = .checked := (Impl.calls_setCall _).trans ((if_neg hne).trans hd)
  obtain ⟨t, ht, hrunc, hrund⟩ := @Impl.two_workers lookups _ c d gaiStrerror hc' hd' hne
  refine ⟨[.register d, .start d, .register c, .start c], t, ?_, fun hsingle => hne (hsingle d c hrund hrunc hkey)⟩
  rw [runEvents_append hrun, runEvents, Impl.step_check hcall hcached hinflight]
  exact ht

/-- Two calls for one host. -/
def twoLookups : Nat → Lookup := fun _ =>
  { host := "example.org", service := "443", family := 0, socktype := 1, protocol := 0, flags := 0, timeoutMs := 3000 }

/-- Both check before one registers. -/
theorem two_checks_race : ¬ Always (step (fun _ => "") twoLookups) (Impl.SingleFlight twoLookups) {}
    [.check 0 0, .check 1 0, .register 0, .start 0, .register 1, .start 1] := by
  intro h
  have hsingle := h.last rfl
  exact absurd (hsingle 0 1 rfl rfl rfl) (by decide)

end PudimNetMon.Agent.DnsResolver
