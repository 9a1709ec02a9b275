import Mathlib.Logic.Function.Iterate
import PudimNetMon.Lib.Strikes

/-!
# Failover between collectors (`failover_client.cpp`, `main.cpp`)

`FailoverClient` moves on to the next endpoint at each third failure in a row; the main loop reports its heartbeats and
the sends from its buffer to it and connects anew whenever it moved on. Sends from the disk buffer are not reported.

- `failover_history`: the endpoint an agent is connected to, from the calls it made so far;
- `failover_settles`: as long as the same endpoints answer, and one does, fewer than three failures for each endpoint
  lead to one that answers, and the agent stays there.
-/

namespace PudimNetMon.Agent

/-- `m_current` is an index into `m_endpoints`, and stays below `kMaxStrikes` strikes. -/
structure FailoverClient where
  endpoints : List String
  current : Nat := 0
  strikes : Nat := 0
  failovers : UInt64 := 0
  current_lt : current < endpoints.length

namespace FailoverClient

def kMaxStrikes : Nat := 3

def new (endpoints : List String) : FailoverClient :=
  if h : endpoints = [] then { endpoints := ["localhost:50051"], current_lt := by decide }
  else { endpoints, current_lt := List.length_pos_iff.2 h }

def currentEndpoint (f : FailoverClient) : String := f.endpoints.get ⟨f.current, f.current_lt⟩

def onSendFailure (f : FailoverClient) : Bool × FailoverClient :=
  let strikes := f.strikes + 1
  if strikes < kMaxStrikes then (false, { f with strikes := strikes })
  else (true, { f with
    strikes := 0, failovers := f.failovers + 1, current := (f.current + 1) % f.endpoints.length,
    current_lt := Nat.mod_lt _ (Nat.zero_lt_of_lt f.current_lt) })

def onSendSuccess (f : FailoverClient) : FailoverClient := { f with strikes := 0 }

end FailoverClient

/-- A call of the main loop to the collector. -/
inductive Call
  | heartbeat (ok : Bool)
  | send (ok : Bool)
  /-- A batch from the disk buffer. -/
  | drain (ok : Bool)
  deriving DecidableEq, Repr

/-- What the loop reports. -/
def Call.reported : Call → Option Bool
  | heartbeat ok | send ok => some ok
  | drain _ => none

/-- The failover client, and the endpoint of the clients `reconnect` has made. -/
structure Link where
  failover : FailoverClient
  connected : String

namespace Link

def reconnect (failover : FailoverClient) : Link := ⟨failover, failover.currentEndpoint⟩

def start (endpoints : List String) : Link := reconnect (.new endpoints)

/-- What the loop does with the result of a call. -/
def report (l : Link) (c : Call) : Link :=
  match c.reported with
  | some true => { l with failover := l.failover.onSendSuccess }
  | some false =>
    let (rotated, failover) := l.failover.onSendFailure
    if rotated then reconnect failover else { l with failover := failover }
  | none => l

/-- A call that succeeds exactly when the endpoint answers. -/
def tryCall (up : String → Bool) (l : Link) : Link := l.report (.send (up l.connected))

end Link

/-! ## Where the agent is connected -/

theorem FailoverClient.currentEndpoint_eq (f : FailoverClient) : f.endpoints[f.current]? = some f.currentEndpoint := by
  rw [List.getElem?_eq_getElem f.current_lt]
  rfl

/-- The clients are those of the current endpoint. -/
structure LinkInv (endpoints : List String) (l : Link) : Prop where
  endpoints : l.failover.endpoints = endpoints
  strikes : l.failover.strikes < FailoverClient.kMaxStrikes
  connected : l.connected = l.failover.currentEndpoint

variable {endpoints : List String} {l : Link}

theorem onSendFailure_cases (f : FailoverClient) :
    (f.strikes + 1 < FailoverClient.kMaxStrikes ∧ f.onSendFailure = (false, { f with strikes := f.strikes + 1 })) ∨
      (¬f.strikes + 1 < FailoverClient.kMaxStrikes ∧ f.onSendFailure.1 = true ∧ f.onSendFailure.2.strikes = 0 ∧
        f.onSendFailure.2.failovers = f.failovers + 1 ∧ f.onSendFailure.2.endpoints = f.endpoints ∧
        f.onSendFailure.2.current = (f.current + 1) % f.endpoints.length) := by
  by_cases h : f.strikes + 1 < FailoverClient.kMaxStrikes
  · exact .inl ⟨h, by simp only [FailoverClient.onSendFailure, h, if_true]⟩
  · refine .inr ⟨h, ?_⟩
    simp only [FailoverClient.onSendFailure, h, if_false]
    exact ⟨trivial, trivial, trivial, trivial, trivial⟩

theorem LinkInv.start (endpoints : List String) :
    LinkInv (FailoverClient.new endpoints).endpoints (Link.start endpoints) := by
  refine ⟨rfl, ?_, rfl⟩
  simp only [Link.start, Link.reconnect, FailoverClient.new]
  split <;> exact Nat.zero_lt_succ _

/-- A reported call, as the counter of strikes sees it. -/
theorem report_spec (h : LinkInv endpoints l) (c : Call) :
    LinkInv endpoints (l.report c) ∧
      ∃ moved : Nat, (l.report c).failover.failovers = l.failover.failovers + UInt64.ofNat moved ∧
        (l.report c).failover.current = (l.failover.current + moved) % endpoints.length ∧
        ∀ fired, (c.reported.toList.foldl (Strikes.record FailoverClient.kMaxStrikes) ⟨l.failover.strikes, fired⟩) =
          ⟨(l.report c).failover.strikes, fired + moved⟩ := by
  have hcurrent : l.failover.current % endpoints.length = l.failover.current :=
    Nat.mod_eq_of_lt (h.endpoints ▸ l.failover.current_lt)
  unfold Link.report
  cases hc : c.reported with
  | none => exact ⟨h, 0, by simp, by simpa using hcurrent.symm, fun fired => rfl⟩
  | some ok =>
    cases ok with
    | true =>
      refine ⟨⟨h.endpoints, Nat.zero_lt_succ _, h.connected⟩, 0, ?_, ?_, fun fired => rfl⟩
      · simp [FailoverClient.onSendSuccess]
      · simpa [FailoverClient.onSendSuccess] using hcurrent.symm
    | false =>
      dsimp only
      rcases onSendFailure_cases l.failover with ⟨hlt, hf⟩ | ⟨hge, hrotated, hstrikes, hfailovers, hendpoints, hnext⟩
      · rw [hf, if_neg Bool.false_ne_true]
        refine ⟨⟨h.endpoints, hlt, h.connected⟩, 0, by simp, by simpa using hcurrent.symm, fun fired => ?_⟩
        simp [Strikes.record, hlt]
      · rw [hrotated, if_pos rfl]
        refine ⟨⟨hendpoints.trans h.endpoints, ?_, rfl⟩, 1, hfailovers, ?_, fun fired => ?_⟩
        · simp only [Link.reconnect, hstrikes]
          decide
        · simp only [Link.reconnect, hnext, h.endpoints]
        · simp [Strikes.record, hge, Link.reconnect, hstrikes]

/-- **A history of calls.** -/
theorem link_history (calls : List Call) (h : LinkInv endpoints l) :
    LinkInv endpoints (calls.foldl Link.report l) ∧
      ∃ moved : Nat, (calls.foldl Link.report l).failover.failovers = l.failover.failovers + UInt64.ofNat moved ∧
        (calls.foldl Link.report l).failover.current = (l.failover.current + moved) % endpoints.length ∧
        ∀ fired, ((calls.filterMap Call.reported).foldl (Strikes.record FailoverClient.kMaxStrikes)
          ⟨l.failover.strikes, fired⟩) = ⟨(calls.foldl Link.report l).failover.strikes, fired + moved⟩ := by
  induction calls generalizing l with
  | nil =>
    refine ⟨h, 0, by simp, ?_, fun fired => rfl⟩
    simpa using (Nat.mod_eq_of_lt (h.endpoints ▸ l.failover.current_lt)).symm
  | cons c calls ih =>
    obtain ⟨hc, moved, hfailovers, hcurrent, hstrikes⟩ := report_spec h c
    obtain ⟨hinv, moved', hfailovers', hcurrent', hstrikes'⟩ := ih hc
    refine ⟨hinv, moved + moved', ?_, ?_, fun fired => ?_⟩
    · rw [List.foldl_cons, hfailovers', hfailovers, UInt64.ofNat_add, UInt64.add_assoc]
    · rw [List.foldl_cons, hcurrent', hcurrent, Nat.mod_add_mod, Nat.add_assoc]
    · have hsplit : (c :: calls).filterMap Call.reported = c.reported.toList ++ calls.filterMap Call.reported := by
        cases hr : c.reported <;> simp [hr]
      rw [hsplit, List.foldl_append, hstrikes, hstrikes', List.foldl_cons, Nat.add_assoc]

/-- **Main.** Behind any calls the agent has moved on once for every three failures of each streak of failures among the
reported ones, and is connected to the endpoint it moved on to. -/
theorem failover_history (endpoints : List String) (calls : List Call) :
    let l := calls.foldl Link.report (Link.start endpoints)
    let moved := ((Strikes.streaks (calls.filterMap Call.reported)).map (· / 3)).sum
    let known := (FailoverClient.new endpoints).endpoints
    l.failover.failovers = UInt64.ofNat moved ∧ known[moved % known.length]? = some l.connected := by
  intro l moved known
  obtain ⟨hinv, moved', hfailovers, hcurrent, hstrikes⟩ := link_history calls (LinkInv.start endpoints)
  have hbegin : (Link.start endpoints).failover.current = 0 ∧ (Link.start endpoints).failover.strikes = 0 ∧
      (Link.start endpoints).failover.failovers = 0 := by
    simp only [Link.start, Link.reconnect, FailoverClient.new]
    split <;> exact ⟨rfl, rfl, rfl⟩
  obtain ⟨hzero, hnone, hnever⟩ := hbegin
  obtain ⟨n, rest, hstreaks⟩ := Strikes.streaks_ne_nil (calls.filterMap Call.reported)
  have hmoved : moved' = moved := by
    have hrecord := (Strikes.record_streaks (show 0 < FailoverClient.kMaxStrikes by decide)
      (calls.filterMap Call.reported) (s := ⟨0, 0⟩) (by decide) hstreaks).1
    have hfold := hstrikes 0
    rw [hnone] at hfold
    rw [hfold] at hrecord
    simpa [moved, hstreaks, FailoverClient.kMaxStrikes] using hrecord
  subst hmoved
  refine ⟨by rw [hfailovers, hnever, UInt64.zero_add], ?_⟩
  rw [hzero, Nat.zero_add] at hcurrent
  have hknown : l.failover.endpoints = known := hinv.endpoints
  rw [← hcurrent, ← hknown, hinv.connected]
  exact l.failover.currentEndpoint_eq

/-! ## Endpoints that do not answer -/

variable {up : String → Bool}

/-- An endpoint that answers is not left. -/
theorem tryCall_up (h : up l.connected = true) (n : Nat) :
    ((Link.tryCall up)^[n] l).connected = l.connected := by
  induction n generalizing l with
  | zero => rfl
  | succ n ih =>
    have hsame : (Link.tryCall up l).connected = l.connected := by
      simp only [Link.tryCall, h, Link.report, Call.reported]
    rw [Function.iterate_succ_apply, ih (by rw [hsame]; exact h), hsame]

/-- One that does not answer is left behind its third failure. -/
theorem tryCall_down (h : LinkInv endpoints l) (hdown : up l.connected = false) :
    ∃ k ≤ 3, LinkInv endpoints ((Link.tryCall up)^[k] l) ∧
      ((Link.tryCall up)^[k] l).failover.current = (l.failover.current + 1) % endpoints.length := by
  -- by the number of failures that are left
  obtain ⟨left, hleft⟩ : ∃ left, l.failover.strikes + left = 2 := ⟨2 - l.failover.strikes, by
    have := h.strikes
    simp only [FailoverClient.kMaxStrikes] at this
    omega⟩
  suffices hsteps : ∃ k ≤ left + 1, LinkInv endpoints ((Link.tryCall up)^[k] l) ∧
      ((Link.tryCall up)^[k] l).failover.current = (l.failover.current + 1) % endpoints.length by
    obtain ⟨k, hk, hrest⟩ := hsteps
    exact ⟨k, by omega, hrest⟩
  induction left generalizing l with
  | zero =>
    obtain ⟨hinv, -⟩ := report_spec h (.send (up l.connected))
    refine ⟨1, Nat.le_refl _, hinv, ?_⟩
    rcases onSendFailure_cases l.failover with ⟨hlt, -⟩ | ⟨-, hrotated, -, -, -, hnext⟩
    · simp only [FailoverClient.kMaxStrikes] at hlt
      omega
    · simp only [Function.iterate_one, Link.tryCall, hdown, Link.report, Call.reported, hrotated, if_true,
        Link.reconnect, hnext, h.endpoints]
  | succ left ih =>
    obtain ⟨hinv, -⟩ := report_spec h (.send (up l.connected))
    have hnext : l.tryCall up = { l with failover := { l.failover with strikes := l.failover.strikes + 1 } } := by
      have hlt : l.failover.strikes + 1 < FailoverClient.kMaxStrikes := by
        simp only [FailoverClient.kMaxStrikes]
        omega
      simp only [Link.tryCall, hdown, Link.report, Call.reported, FailoverClient.onSendFailure, hlt, if_true,
        Bool.false_eq_true, if_false]
    have hinv : LinkInv endpoints (l.tryCall up) := hinv
    obtain ⟨k, hk, hreached, hmoved⟩ := @ih (l.tryCall up) hinv (by rw [hnext]; exact hdown) (by
      rw [hnext]
      show l.failover.strikes + 1 + left = 2
      omega)
    refine ⟨k + 1, by omega, hreached, ?_⟩
    rw [Function.iterate_succ_apply, hmoved, hnext]

/-- The endpoint `d` places on answers: three calls for each place lead to one that does. -/
theorem reaches (d : Nat) (h : LinkInv endpoints l)
    (hup : ∀ ep, endpoints[(l.failover.current + d) % endpoints.length]? = some ep → up ep = true) :
    ∃ k ≤ 3 * d, up ((Link.tryCall up)^[k] l).connected = true := by
  induction d generalizing l with
  | zero =>
    refine ⟨0, Nat.zero_le _, hup _ ?_⟩
    rw [Nat.add_zero, Nat.mod_eq_of_lt (h.endpoints ▸ l.failover.current_lt), Function.iterate_zero, id_eq, h.connected,
      ← h.endpoints]
    exact l.failover.currentEndpoint_eq
  | succ d ih =>
    cases hhere : up l.connected with
    | true => exact ⟨0, Nat.zero_le _, hhere⟩
    | false =>
      obtain ⟨k, hk, hinv, hcurrent⟩ := tryCall_down h hhere
      obtain ⟨k', hk', hreached⟩ := ih hinv fun ep hep => hup ep (by
        rw [hcurrent, Nat.mod_add_mod] at hep
        rw [← hep, Nat.add_assoc, Nat.add_comm 1 d])
      refine ⟨k' + k, by omega, ?_⟩
      rw [Function.iterate_add_apply]
      exact hreached

/-- **Main.** From any state of an agent: as long as the endpoints of a fixed set answer, one of which it knows, it is
connected to such an endpoint within three calls for each other endpoint, and stays there. -/
theorem failover_settles (endpoints : List String) (calls : List Call) (up : String → Bool)
    (hup : ∃ ep ∈ (FailoverClient.new endpoints).endpoints, up ep = true) :
    let l := calls.foldl Link.report (Link.start endpoints)
    ∃ k ≤ 3 * ((FailoverClient.new endpoints).endpoints.length - 1), ∃ ep, up ep = true ∧
      ∀ n, ((Link.tryCall up)^[k + n] l).connected = ep := by
  intro l
  obtain ⟨ep, hep, hanswers⟩ := hup
  obtain ⟨i, hi, rfl⟩ := List.getElem_of_mem hep
  have hinv := (link_history calls (LinkInv.start endpoints)).1
  have hlt : l.failover.current < (FailoverClient.new endpoints).endpoints.length :=
    hinv.endpoints ▸ l.failover.current_lt
  -- the way round to it
  obtain ⟨d, hd, hway⟩ : ∃ d ≤ (FailoverClient.new endpoints).endpoints.length - 1,
      (l.failover.current + d) % (FailoverClient.new endpoints).endpoints.length = i := by
    by_cases hle : l.failover.current ≤ i
    · refine ⟨i - l.failover.current, by omega, ?_⟩
      rw [Nat.add_sub_cancel' hle, Nat.mod_eq_of_lt hi]
    · refine ⟨i + (FailoverClient.new endpoints).endpoints.length - l.failover.current, by omega, ?_⟩
      rw [Nat.add_sub_cancel' (by omega), Nat.add_mod_right, Nat.mod_eq_of_lt hi]
  obtain ⟨k, hk, hreached⟩ := @reaches _ l up d hinv fun ep hep => by
    rw [hway, List.getElem?_eq_getElem hi] at hep
    cases hep
    exact hanswers
  refine ⟨k, by omega, _, hreached, fun n => ?_⟩
  rw [Nat.add_comm, Function.iterate_add_apply]
  exact tryCall_up hreached n

/-- Three endpoints of which the last answers, behind two failures. -/
theorem failover_settles_third :
    let l := [Call.heartbeat false, .send false].foldl Link.report (Link.start ["a", "b", "c"])
    (List.range 6).map (fun k => ((Link.tryCall (· == "c"))^[k] l).connected) = ["a", "b", "b", "b", "c", "c"] ∧
      ∃ k ≤ 6, ∃ ep, (ep == "c") = true ∧ ∀ n, ((Link.tryCall (· == "c"))^[k + n] l).connected = ep := by
  intro l
  exact ⟨by decide +kernel, failover_settles ["a", "b", "c"] [.heartbeat false, .send false] (· == "c")
    ⟨"c", by decide, rfl⟩⟩

end PudimNetMon.Agent
