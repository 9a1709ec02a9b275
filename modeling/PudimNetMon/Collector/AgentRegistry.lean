import Mathlib.Data.List.Dedup
import Mathlib.Data.List.Induction
import PudimNetMon.Collector.AgentEndpoint
import PudimNetMon.Collector.HttpBodies
import PudimNetMon.Lib.KeyedTable
import PudimNetMon.Lib.Log

/-!
# The agent registry (`agent_registry.cpp`, `agent_service.cpp`)

The registry keeps one entry for each agent, which heartbeats change in place and only a removal takes away. Seen from
its log of heartbeats and removals, an agent has a session: its heartbeats behind its last removal.

- `registry_refines`: the entry of an agent is what the first and the last heartbeat of its session say, and every
  question the registry answers is one about sessions.
-/

namespace PudimNetMon.Collector

structure HeartbeatRequest where
  agentId : String
  timestampUnixMs : Int := 0
  intervalMs : Int := 0
  version : String := ""
  diagnosticEndpoint : String := ""
  deriving DecidableEq, Repr

structure HeartbeatResponse where
  ack : Bool
  collectorTimeUnixMs : Int
  statusMessage : String
  deriving DecidableEq, Repr

/-- `m_agents`, in the order of insertion, and `m_heartbeat_count`. -/
structure AgentRegistry where
  agents : KeyedTable AgentEntry.agentId := .empty
  heartbeatCount : UInt64 := 0

def kDefaultAgentDiagnosticPort : String := "50052"

namespace AgentRegistry

def find (r : AgentRegistry) (agentId : String) : Option AgentEntry := r.agents.rows.find? (·.agentId = agentId)

def recordHeartbeat (r : AgentRegistry) (now : Int) (req : HeartbeatRequest) (fallbackEndpoint : String) :
    AgentRegistry :=
  let endpoint := if req.diagnosticEndpoint.isEmpty then fallbackEndpoint else req.diagnosticEndpoint
  let agents :=
    match r.find req.agentId with
    | none =>
      r.agents.insert { agentId := req.agentId, lastSeenUnixMs := now, intervalMs := req.intervalMs,
                        version := req.version, firstSeenUnixMs := now, diagnosticEndpoint := endpoint }
    | some _ =>
      r.agents.modify (fun e => if e.agentId = req.agentId then
          { e with lastSeenUnixMs := now, intervalMs := req.intervalMs, version := req.version,
                   diagnosticEndpoint := endpoint }
        else e) fun e => by split <;> rfl
  { agents, heartbeatCount := r.heartbeatCount + 1 }

def activeAgentCount (r : AgentRegistry) (now timeoutMs : Int) : Nat :=
  (r.agents.rows.filter fun e => now - e.lastSeenUnixMs < timeoutMs).length

def getDiagnosticEndpoint (r : AgentRegistry) (agentId : String) : String :=
  match r.find agentId with
  | some e => e.diagnosticEndpoint
  | none => ""

def isAgentAlive (r : AgentRegistry) (agentId : String) (now timeoutMs : Int) : Bool :=
  match r.find agentId with
  | some e => now - e.lastSeenUnixMs < timeoutMs
  | none => false

def totalAgentCount (r : AgentRegistry) : Nat := r.agents.rows.length

def removeAgent (r : AgentRegistry) (agentId : String) : Bool × AgentRegistry :=
  match r.find agentId with
  | some _ => (true, { r with agents := r.agents.filter fun e => e.agentId ≠ agentId })
  | none => (false, r)

/-- `SendHeartbeat`, with the peer of the call and the two readings of the clock. -/
def sendHeartbeat (r : AgentRegistry) (peer : Option String) (now later : Int) (req : HeartbeatRequest) :
    HeartbeatResponse × AgentRegistry :=
  let fallbackEndpoint :=
    match peer with
    | some peer =>
      if req.diagnosticEndpoint.isEmpty then diagnosticEndpointFromPeer peer kDefaultAgentDiagnosticPort else ""
    | none => ""
  (⟨true, later, "ok"⟩, r.recordHeartbeat now req fallbackEndpoint)

end AgentRegistry

/-! ## Sessions -/

/-- A heartbeat as the collector takes it. -/
structure Heartbeat where
  nowMs : Int
  request : HeartbeatRequest
  peer : Option String := none

/-- The endpoint the agent advertises, or else the address the heartbeat came from. -/
def Heartbeat.endpoint (h : Heartbeat) : String :=
  if h.request.diagnosticEndpoint.isEmpty then
    match h.peer with
    | some peer => diagnosticEndpointFromPeer peer kDefaultAgentDiagnosticPort
    | none => ""
  else h.request.diagnosticEndpoint

inductive RegistryEvent
  | heartbeat (h : Heartbeat)
  | remove (agentId : String)

namespace RegistryEvent

def removes (agentId : String) : RegistryEvent → Bool
  | heartbeat _ => false
  | remove id => id = agentId

/-- The heartbeat, when it is one. -/
def beat : RegistryEvent → Option Heartbeat
  | heartbeat h => some h
  | remove _ => none

end RegistryEvent

def AgentRegistry.step (r : AgentRegistry) : RegistryEvent → AgentRegistry
  | .heartbeat h => (r.sendHeartbeat h.peer h.nowMs h.nowMs h.request).2
  | .remove agentId => (r.removeAgent agentId).2

/-- The heartbeats of an agent behind its last removal. -/
def session (agentId : String) (log : List RegistryEvent) : List Heartbeat :=
  ((behind (RegistryEvent.removes agentId) log).filterMap RegistryEvent.beat).filter (·.request.agentId = agentId)

/-- The entry of a session. -/
def entryOf : List Heartbeat → Option AgentEntry
  | [] => none
  | first :: rest =>
    let last := (first :: rest).getLast (List.cons_ne_nil _ _)
    some { agentId := last.request.agentId, lastSeenUnixMs := last.nowMs, intervalMs := last.request.intervalMs,
           version := last.request.version, firstSeenUnixMs := first.nowMs, diagnosticEndpoint := last.endpoint }

variable {r : AgentRegistry} {log : List RegistryEvent} {agentId : String}

theorem session_heartbeat (log : List RegistryEvent) (h : Heartbeat) (agentId : String) :
    session agentId (log ++ [.heartbeat h]) =
      session agentId log ++ if h.request.agentId = agentId then [h] else [] := by
  unfold session
  rw [behind_snoc, if_neg (by simp [RegistryEvent.removes])]
  by_cases hid : h.request.agentId = agentId <;> simp [RegistryEvent.beat, hid]

theorem session_remove (log : List RegistryEvent) (id agentId : String) :
    session agentId (log ++ [.remove id]) = if id = agentId then [] else session agentId log := by
  unfold session
  rw [behind_snoc]
  by_cases hid : id = agentId <;> simp [RegistryEvent.removes, RegistryEvent.beat, hid]

/-- A session that goes on keeps its start. -/
theorem entryOf_snoc (hs : List Heartbeat) (h : Heartbeat) :
    entryOf (hs ++ [h]) = some { agentId := h.request.agentId, lastSeenUnixMs := h.nowMs
                                 intervalMs := h.request.intervalMs, version := h.request.version
                                 firstSeenUnixMs := (hs.head?.getD h).nowMs, diagnosticEndpoint := h.endpoint } := by
  cases hs with
  | nil => rfl
  | cons first rest => simp [entryOf]

theorem entryOf_eq_none {hs : List Heartbeat} : entryOf hs = none ↔ hs = [] := by
  cases hs <;> simp [entryOf]

/-! ## The registry as its log tells it -/

theorem sendHeartbeat_endpoint (h : Heartbeat) :
    (if h.request.diagnosticEndpoint.isEmpty then
      (match h.peer with
        | some peer => if h.request.diagnosticEndpoint.isEmpty then
            diagnosticEndpointFromPeer peer kDefaultAgentDiagnosticPort else ""
        | none => "")
      else h.request.diagnosticEndpoint) = h.endpoint := by
  unfold Heartbeat.endpoint
  by_cases hempty : h.request.diagnosticEndpoint.isEmpty = true
  · simp only [hempty, if_true]
  · simp only [hempty, Bool.false_eq_true, if_false]

/-- What a look-up finds behind a heartbeat. -/
theorem find_heartbeat (r : AgentRegistry) (h : Heartbeat) (agentId : String) :
    (r.step (.heartbeat h)).find agentId =
      if h.request.agentId = agentId then
        some { agentId := h.request.agentId, lastSeenUnixMs := h.nowMs, intervalMs := h.request.intervalMs
               version := h.request.version
               firstSeenUnixMs := ((r.find h.request.agentId).map (·.firstSeenUnixMs)).getD h.nowMs
               diagnosticEndpoint := h.endpoint }
      else r.find agentId := by
  simp only [AgentRegistry.step, AgentRegistry.sendHeartbeat, AgentRegistry.recordHeartbeat, sendHeartbeat_endpoint]
  cases hfind : r.find h.request.agentId with
  | none =>
    simp only [AgentRegistry.find, KeyedTable.find?_insert]
    split
    · rename_i hid
      subst hid
      rw [show (r.agents.rows.find? fun e => e.agentId = h.request.agentId) = none from hfind]
      rfl
    · exact Option.or_none
  | some e =>
    simp only [AgentRegistry.find, KeyedTable.find?_modify]
    split
    · rename_i hid
      subst hid
      rw [show (r.agents.rows.find? fun e => e.agentId = h.request.agentId) = some e from hfind]
      have hkey : e.agentId = h.request.agentId := (r.agents.find?_eq_some_iff.1 hfind).2
      simp [hkey]
    · rename_i hid
      cases hother : r.agents.rows.find? fun e => e.agentId = agentId with
      | none => rfl
      | some e' =>
        have hkey : e'.agentId = agentId := (r.agents.find?_eq_some_iff.1 hother).2
        have hne : ¬e'.agentId = h.request.agentId := fun he => hid (he.symm.trans hkey)
        rw [Option.map_some, if_neg hne]

/-- What one finds behind a removal. -/
theorem find_remove (r : AgentRegistry) (id agentId : String) :
    (r.step (.remove id)).find agentId = if id = agentId then none else r.find agentId := by
  simp only [AgentRegistry.step, AgentRegistry.removeAgent]
  cases hfind : r.find id with
  | none =>
    dsimp only
    split
    · rename_i hid
      exact hid ▸ hfind
    · rfl
  | some e =>
    simp only [AgentRegistry.find, KeyedTable.find?_remove]
    by_cases hid : id = agentId
    · rw [if_pos hid, if_pos hid.symm]
    · rw [if_neg hid, if_neg (Ne.symm hid)]

/-- The registry behind a log. -/
def registryOf (log : List RegistryEvent) : AgentRegistry := log.foldl AgentRegistry.step { }

/-- **Sessions.** The entry of an agent is the one of its session. -/
theorem find_registryOf (log : List RegistryEvent) (agentId : String) :
    (registryOf log).find agentId = entryOf (session agentId log) := by
  induction log using List.reverseRecOn generalizing agentId with
  | nil => rfl
  | append_singleton log e ih =>
    rw [registryOf, List.foldl_concat]
    cases e with
    | heartbeat h =>
      rw [find_heartbeat, session_heartbeat]
      split
      · rename_i hid
        subst hid
        rw [entryOf_snoc]
        have hfirst : (((registryOf log).find h.request.agentId).map (·.firstSeenUnixMs)).getD h.nowMs =
            ((session h.request.agentId log).head?.getD h).nowMs := by
          rw [ih]
          cases session h.request.agentId log <;> rfl
        rw [← hfirst]
        rfl
      · rw [List.append_nil]
        exact ih agentId
    | remove id =>
      rw [find_remove, session_remove]
      split
      · rfl
      · exact ih agentId

theorem heartbeatCount_registryOf (log : List RegistryEvent) :
    (registryOf log).heartbeatCount = UInt64.ofNat (log.filterMap RegistryEvent.beat).length := by
  induction log using List.reverseRecOn with
  | nil => rfl
  | append_singleton log e ih =>
    rw [registryOf, List.foldl_concat]
    cases e with
    | heartbeat h =>
      have hcount : ((registryOf log).step (.heartbeat h)).heartbeatCount = (registryOf log).heartbeatCount + 1 := rfl
      rw [show log.foldl AgentRegistry.step { } = registryOf log from rfl, hcount, ih]
      simp [RegistryEvent.beat, UInt64.ofNat_add]
    | remove id =>
      have hcount : ((registryOf log).step (.remove id)).heartbeatCount = (registryOf log).heartbeatCount := by
        simp only [AgentRegistry.step, AgentRegistry.removeAgent]
        split <;> rfl
      rw [show log.foldl AgentRegistry.step { } = registryOf log from rfl, hcount, ih]
      have hnone : ([RegistryEvent.remove id] : List RegistryEvent).filterMap RegistryEvent.beat = [] := rfl
      rw [List.filterMap_append, hnone, List.append_nil]

/-- An agent is known when its session has a heartbeat. -/
theorem mem_keys_registryOf (log : List RegistryEvent) (agentId : String) :
    agentId ∈ (registryOf log).agents.keys ↔ session agentId log ≠ [] := by
  rw [ne_eq, ← entryOf_eq_none, ← find_registryOf, AgentRegistry.find, List.find?_eq_none]
  simp [KeyedTable.keys]

/-- The agents with a heartbeat in the log, once each. -/
def agentIds (log : List RegistryEvent) : List String := ((log.filterMap RegistryEvent.beat).map (·.request.agentId)).dedup

theorem mem_agentIds_of_session {log : List RegistryEvent} {agentId : String} (h : session agentId log ≠ []) :
    agentId ∈ agentIds log := by
  obtain ⟨b, hb⟩ := List.exists_mem_of_ne_nil _ h
  obtain ⟨hbeat, hid⟩ := List.mem_filter.1 hb
  obtain ⟨e, he, hbeat⟩ := List.mem_filterMap.1 hbeat
  refine List.mem_dedup.2 (List.mem_map.2 ⟨b, List.mem_filterMap.2 ⟨e, ?_, hbeat⟩, by simpa using hid⟩)
  exact List.mem_reverse.1 ((List.takeWhile_sublist _).subset (List.mem_reverse.1 he))

/-- The number of agents with a property of their entries, counted over the table or over the log. -/
theorem length_filter_agents (log : List RegistryEvent) (p : AgentEntry → Bool) :
    ((registryOf log).agents.rows.filter p).length =
      ((agentIds log).filter fun id => ((entryOf (session id log)).map p).getD false).length := by
  have hfind : ∀ e, e ∈ (registryOf log).agents.rows ↔ entryOf (session e.agentId log) = some e := by
    intro e
    rw [← find_registryOf, AgentRegistry.find, (registryOf log).agents.find?_eq_some_iff]
    simp
  have hperm : (((registryOf log).agents.rows.filter p).map AgentEntry.agentId).Perm
      ((agentIds log).filter fun id => ((entryOf (session id log)).map p).getD false) := by
    refine (List.perm_ext_iff_of_nodup ?_ ((List.nodup_dedup _).filter _)).2 fun id => ?_
    · exact (registryOf log).agents.nodup.sublist (List.filter_sublist.map _)
    · simp only [List.mem_map, List.mem_filter]
      constructor
      · rintro ⟨e, ⟨he, hp⟩, rfl⟩
        have hentry := (hfind e).1 he
        refine ⟨mem_agentIds_of_session fun hnil => ?_, by simp [hentry, hp]⟩
        rw [hnil] at hentry
        cases hentry
      · rintro ⟨-, hp⟩
        cases hentry : entryOf (session id log) with
        | none => simp [hentry] at hp
        | some e =>
          have hid : e.agentId = id := by
            rw [← find_registryOf] at hentry
            exact ((registryOf log).agents.find?_eq_some_iff.1 hentry).2
          subst hid
          exact ⟨e, ⟨(hfind e).2 hentry, by simpa [hentry] using hp⟩, rfl⟩
  have hlength := hperm.length_eq
  rwa [List.length_map] at hlength

/-- The last heartbeat of a session is the one its entry shows. -/
theorem entryOf_last (hs : List Heartbeat) :
    (entryOf hs).map (fun e => (e.lastSeenUnixMs, e.diagnosticEndpoint)) =
      hs.getLast?.map fun h => (h.nowMs, h.endpoint) := by
  cases hs with
  | nil => rfl
  | cons first rest => simp [entryOf, List.getLast?_eq_some_getLast]

/-- The agent's last heartbeat, behind its last removal, is less than the timeout ago. -/
def SessionAlive (log : List RegistryEvent) (now timeoutMs : Int) (agentId : String) : Bool :=
  match (session agentId log).getLast? with
  | some h => now - h.nowMs < timeoutMs
  | none => false

theorem alive_eq (hs : List Heartbeat) (now timeoutMs : Int) :
    ((entryOf hs).map fun e => decide (now - e.lastSeenUnixMs < timeoutMs)).getD false =
      match hs.getLast? with
      | some h => decide (now - h.nowMs < timeoutMs)
      | none => false := by
  have hlast := entryOf_last hs
  cases he : entryOf hs with
  | none =>
    rw [he] at hlast
    cases hl : hs.getLast? with
    | none => rfl
    | some h => simp [hl] at hlast
  | some e =>
    rw [he] at hlast
    cases hl : hs.getLast? with
    | none => simp [hl] at hlast
    | some h =>
      simp only [hl, Option.map_some, Option.some.injEq, Prod.mk.injEq] at hlast
      simp [hlast.1]

/-- **Main.** Whatever heartbeats and removals the registry has seen: each agent's entry is the one of its session, the
counter counts all heartbeats ever, and the answers about the endpoint, about one agent being alive, about the number
of agents alive and known, and the result of a removal, are those of the sessions. -/
theorem registry_refines (log : List RegistryEvent) :
    let r := registryOf log
    (∀ id, r.find id = entryOf (session id log)) ∧
      r.heartbeatCount = UInt64.ofNat (log.filterMap RegistryEvent.beat).length ∧
      (∀ id, r.getDiagnosticEndpoint id = ((session id log).getLast?.map Heartbeat.endpoint).getD "") ∧
      (∀ id now timeoutMs, r.isAgentAlive id now timeoutMs = SessionAlive log now timeoutMs id) ∧
      (∀ now timeoutMs,
        r.activeAgentCount now timeoutMs = ((agentIds log).filter (SessionAlive log now timeoutMs)).length) ∧
      r.totalAgentCount = ((agentIds log).filter fun id => !(session id log).isEmpty).length ∧
      ∀ id, (r.removeAgent id).1 = !(session id log).isEmpty := by
  intro r
  refine ⟨find_registryOf log, heartbeatCount_registryOf log, fun id => ?_, fun id now timeoutMs => ?_,
    fun now timeoutMs => ?_, ?_, fun id => ?_⟩
  · have hlast := entryOf_last (session id log)
    rw [AgentRegistry.getDiagnosticEndpoint, find_registryOf]
    cases he : entryOf (session id log) with
    | none =>
      rw [entryOf_eq_none] at he
      rw [he]
      rfl
    | some e =>
      rw [he] at hlast
      cases hl : (session id log).getLast? with
      | none => simp [hl] at hlast
      | some h =>
        simp only [hl, Option.map_some, Option.some.injEq, Prod.mk.injEq] at hlast
        simp [hlast.2]
  · rw [SessionAlive, ← alive_eq, AgentRegistry.isAgentAlive, find_registryOf]
    cases entryOf (session id log) <;> rfl
  · rw [AgentRegistry.activeAgentCount, length_filter_agents]
    congr 1
    refine List.filter_congr fun id _ => ?_
    rw [SessionAlive, ← alive_eq]
  · have hcount := length_filter_agents log fun _ => true
    rw [List.filter_true] at hcount
    rw [AgentRegistry.totalAgentCount, hcount]
    congr 1
    refine List.filter_congr fun id _ => ?_
    cases session id log <;> rfl
  · rw [AgentRegistry.removeAgent, find_registryOf]
    cases session id log <;> rfl

end PudimNetMon.Collector
