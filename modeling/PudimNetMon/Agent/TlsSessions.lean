import PudimNetMon.Lib.RefCount
import PudimNetMon.Lib.Run

/-!
# The TLS session cache (`tls_context.cpp`, `probes.cpp`)

The probes of a cycle run in several threads and share one cache of sessions, which are counted. A handshake probe takes
a cached session out with a reference of its own, hands it to its connection, which takes another, and gives its own up;
after the handshake it hands a reference of the connection's session to the cache. A certificate probe leaves the cache
alone.

- `sessions_counted`: in any interleaving no session is used or given up after it is gone, between the probes exactly
  the cached sessions are alive, and none outlives the cache.
-/

namespace PudimNetMon.Agent.Tls

/-- A session is known by its address. -/
abbrev Session := Nat

/-- Where a probe is; what fails before the connection has a session leaves none behind. -/
inductive Stage
  | fresh
  /-- Behind `Get`, with a cached session. -/
  | got
  /-- Behind `SSL_set_session`. -/
  | resumed
  | ready
  /-- Behind a handshake that went well. -/
  | connected
  /-- Behind `SSL_get1_session`, with a session. -/
  | putting
  | closing
  deriving DecidableEq, Repr

structure Probe where
  hostPort : String
  /-- `RunTlsCertProbe` instead of `RunTlsProbe`. -/
  cert : Bool := false
  stage : Stage := .fresh
  /-- The reference of the connection. -/
  ssl : Option Session := none
  /-- `cached_session` and `new_session`. -/
  session : Option Session := none
  deriving DecidableEq, Repr

structure State where
  refs : Session → Nat := fun _ => 0
  sessions : List (String × Session) := []
  probes : List Probe := []
  /-- A session was used after it was gone. -/
  faulted : Bool := false
  /-- The cache is destroyed. -/
  exited : Bool := false

/-- What a handshake does to the session of its connection. -/
inductive Handshake
  | kept
  | replaced (x : Session)
  | cleared

inductive Event
  | start (hostPort : String) (cert : Bool)
  | get (i : Nat)
  /-- `ok` when OpenSSL accepts the session. -/
  | setSession (i : Nat) (ok : Bool)
  | freeCached (i : Nat)
  | connect (i : Nat) (ok : Bool) (h : Handshake)
  | get1Session (i : Nat)
  | put (i : Nat)
  | sslFree (i : Nat)
  | exit

/-- `TlsSessionCache::Get` -/
def lookup (hostPort : String) : List (String × Session) → Option Session
  | [] => none
  | (key, x) :: sessions => if key = hostPort then some x else lookup hostPort sessions

/-- `TlsSessionCache::Put`: the session that it replaces, and the cache behind it. -/
def store (hostPort : String) (x : Session) : List (String × Session) → Option Session × List (String × Session)
  | [] => (none, [(hostPort, x)])
  | (key, y) :: sessions =>
    if key = hostPort then (some y, (key, x) :: sessions)
    else
      let (old, sessions) := store hostPort x sessions
      (old, (key, y) :: sessions)

namespace State

/-- OpenSSL carries the operations out. -/
def exec (s : State) (ops : List (RefOp Session)) : State :=
  match RefOp.applyAll s.refs ops with
  | some refs => { s with refs }
  | none => { s with faulted := true }

def setProbe (s : State) (i : Nat) (p : Probe) : State := { s with probes := s.probes.set i p }

/-- One call of a probe or one critical section of the cache. -/
def step (s : State) : Event → Option State
  | .start hostPort cert =>
    if s.exited then none
    else some { s with probes := s.probes ++ [{ hostPort, cert, stage := if cert then .ready else .fresh }] }
  | .get i => do
    let p ← s.probes[i]?
    if p.stage = .fresh then
      match lookup p.hostPort s.sessions with
      | none => some (s.setProbe i { p with stage := .ready })
      | some x => some ((s.setProbe i { p with stage := .got, session := some x }).exec [.upRef x])
    else none
  | .setSession i ok => do
    let p ← s.probes[i]?
    let x ← p.session
    if p.stage = .got then
      if ok then some ((s.setProbe i { p with stage := .resumed, ssl := some x }).exec [.upRef x])
      else some (s.setProbe i { p with stage := .resumed })
    else none
  | .freeCached i => do
    let p ← s.probes[i]?
    let x ← p.session
    if p.stage = .resumed then some ((s.setProbe i { p with stage := .ready, session := none }).exec [.free x])
    else none
  | .connect i ok h => do
    let p ← s.probes[i]?
    if p.stage = .ready then
      let p := { p with stage := if ok ∧ ¬p.cert then .connected else .closing }
      match h with
      | .kept => some (s.setProbe i p)
      | .replaced x =>
        -- a new object is not one that is alive
        if s.refs x = 0 then
          some ((s.setProbe i { p with ssl := some x }).exec (.alloc x :: p.ssl.toList.map .free))
        else none
      | .cleared => some ((s.setProbe i { p with ssl := none }).exec (p.ssl.toList.map .free))
    else none
  | .get1Session i => do
    let p ← s.probes[i]?
    if p.stage = .connected then
      match p.ssl with
      | none => some (s.setProbe i { p with stage := .closing })
      | some x => some ((s.setProbe i { p with stage := .putting, session := some x }).exec [.upRef x])
    else none
  | .put i => do
    let p ← s.probes[i]?
    let x ← p.session
    if p.stage = .putting then
      let (old, sessions) := store p.hostPort x s.sessions
      some (({ s with sessions }.setProbe i { p with stage := .closing, session := none }).exec
        (old.toList.map .free))
    else none
  | .sslFree i => do
    let p ← s.probes[i]?
    if p.stage = .closing then
      some ({ s with probes := s.probes.eraseIdx i }.exec (p.ssl.toList.map .free))
    else none
  | .exit =>
    -- the threads of the probes are joined
    if s.probes = [] then
      some ({ s with sessions := [], exited := true }.exec ((s.sessions.map Prod.snd).map .free))
    else none

end State

/-! ## Who holds which session -/

def Probe.held (p : Probe) : List Session := p.ssl.toList ++ p.session.toList

/-- The references of the cache and of the probes. -/
def held (s : State) : List Session := s.sessions.map Prod.snd ++ s.probes.flatMap Probe.held

/-- What is held beside one probe. -/
def others (s : State) (i : Nat) : List Session := s.sessions.map Prod.snd ++ (s.probes.eraseIdx i).flatMap Probe.held

/-- What a probe holds at its stage. -/
def Probe.Ok (p : Probe) : Prop :=
  match p.stage with
  | .fresh => p.ssl = none ∧ p.session = none
  | .got => p.ssl = none
  | .resumed | .putting => True
  | .ready | .connected | .closing => p.session = none

structure Inv (s : State) : Prop where
  sound : s.faulted = false
  counted : Counted s.refs (held s)
  ok : ∀ p ∈ s.probes, p.Ok
  exited : s.exited = true → s.sessions = [] ∧ s.probes = []

variable {s s' : State} {i : Nat} {p q : Probe}

theorem held_perm (hp : s.probes[i]? = some p) : (held s).Perm (p.held ++ others s i) := by
  refine ((flatMap_eraseIdx hp).append_left _).trans ?_
  simp only [others, ← List.append_assoc]
  exact List.perm_append_comm.append_right _

theorem held_setProbe_perm (hp : s.probes[i]? = some p) (q : Probe) :
    (held (s.setProbe i q)).Perm (q.held ++ others s i) := by
  refine ((flatMap_set hp q).append_left _).trans ?_
  simp only [others, ← List.append_assoc]
  exact List.perm_append_comm.append_right _

/-- A cached session is held by the cache. -/
theorem mem_of_lookup {hostPort : String} {x : Session} : ∀ {sessions : List (String × Session)},
    lookup hostPort sessions = some x → x ∈ sessions.map Prod.snd
  | [], h => by cases h
  | (key, y) :: sessions, h => by
    rw [lookup] at h
    split at h
    · cases h
      simp
    · simp [mem_of_lookup h]

/-- The cache takes the reference over and hands out the one it has replaced. -/
theorem store_perm (hostPort : String) (x : Session) : ∀ sessions : List (String × Session),
    (x :: sessions.map Prod.snd).Perm
      ((store hostPort x sessions).1.toList ++ (store hostPort x sessions).2.map Prod.snd)
  | [] => by simp [store]
  | (key, y) :: sessions => by
    rw [store]
    split
    · exact List.Perm.swap ..
    · refine ((List.Perm.swap ..).trans ((store_perm hostPort x sessions).cons y)).trans ?_
      simp only [List.map_cons]
      exact List.perm_middle.symm

/-- The operations of a step, when they lead to the counts of what is held behind it. -/
theorem inv_exec {ops : List (RefOp Session)} (hs : s.faulted = false) (hl : Leads s.refs ops (held s))
    (hok : ∀ p ∈ s.probes, p.Ok) (he : s.exited = true → s.sessions = [] ∧ s.probes = []) : Inv (s.exec ops) := by
  obtain ⟨refs', hrefs, hc⟩ := hl
  unfold State.exec
  rw [hrefs]
  exact ⟨hs, hc, hok, he⟩

/-- A step of one probe. -/
theorem Inv.setProbe (h : Inv s) (hp : s.probes[i]? = some p) (hq : q.Ok) {ops : List (RefOp Session)}
    (hl : Counted s.refs (p.held ++ others s i) → Leads s.refs ops (q.held ++ others s i)) :
    Inv ((s.setProbe i q).exec ops) := by
  refine inv_exec h.sound ((hl (h.counted.perm (held_perm hp))).perm (held_setProbe_perm hp q).symm) ?_ ?_
  · intro p' hp'
    rcases List.mem_or_eq_of_mem_set hp' with hp' | rfl
    · exact h.ok p' hp'
    · exact hq
  · intro he
    have hnil := (h.exited he).2
    rw [hnil] at hp
    simp at hp

theorem Inv.start (h : Inv s) (he : s.exited = false) (hostPort : String) (cert : Bool) :
    Inv { s with probes := s.probes ++ [{ hostPort, cert, stage := if cert then .ready else .fresh }] } := by
  refine ⟨h.sound, ?_, fun p hp => ?_, fun he' => absurd he' (by simp [he])⟩
  · intro x
    rw [h.counted x]
    simp [held, Probe.held]
  · rcases List.mem_append.1 hp with hp | hp
    · exact h.ok p hp
    · rw [List.mem_singleton.1 hp]
      cases cert <;> simp [Probe.Ok]

/-- `Get`: what the cache holds is alive when a probe takes a reference. -/
theorem Inv.get (h : Inv s) (hp : s.probes[i]? = some p) (hstage : p.stage = .fresh) {x : Session}
    (hx : lookup p.hostPort s.sessions = some x) :
    Inv ((s.setProbe i { p with stage := .got, session := some x }).exec [.upRef x]) := by
  have hok := h.ok p (List.mem_of_getElem? hp)
  simp only [Probe.Ok, hstage] at hok
  refine h.setProbe hp (by simp [Probe.Ok, hok.1]) fun hc => ?_
  have hheld : x ∈ p.held ++ others s i := by
    simp only [others, List.mem_append]
    exact .inr (.inl (mem_of_lookup hx))
  refine (hc.upRef hheld).perm ?_
  simp [Probe.held, hok.1, hok.2]

/-- A handshake keeps the session of its connection, or gives it up for another one or none. -/
theorem Inv.connect (h : Inv s) (hp : s.probes[i]? = some p) (hstage : p.stage = .ready) {q : Probe}
    (hq : q.stage = .connected ∨ q.stage = .closing) (hsession : q.session = p.session) {ops : List (RefOp Session)}
    (hops : (q.ssl = p.ssl ∧ ops = []) ∨ (q.ssl = none ∧ ops = p.ssl.toList.map .free) ∨
      ∃ x, q.ssl = some x ∧ s.refs x = 0 ∧ ops = .alloc x :: p.ssl.toList.map .free) :
    Inv ((s.setProbe i q).exec ops) := by
  have hok := h.ok p (List.mem_of_getElem? hp)
  simp only [Probe.Ok, hstage] at hok
  have hq' : q.Ok := by rcases hq with hq | hq <;> simp [Probe.Ok, hq, hsession, hok]
  refine h.setProbe hp hq' fun hc => ?_
  simp only [Probe.held, hsession, hok, Option.toList_none, List.append_nil] at hc ⊢
  rcases hops with ⟨hssl, rfl⟩ | ⟨hssl, rfl⟩ | ⟨x, hssl, hx, rfl⟩
  · rw [hssl]
    exact hc.leads
  · rw [hssl]
    exact hc.freeAll
  · rw [hssl]
    refine Leads.append (hc.alloc hx) fun refs' hc' => ?_
    exact (hc'.perm List.perm_middle.symm).freeAll

/-- `Put`: the cache takes the probe's reference over and gives the replaced one up. -/
theorem Inv.put (h : Inv s) (hp : s.probes[i]? = some p) {x : Session} (hx : p.session = some x) :
    Inv (({ s with sessions := (store p.hostPort x s.sessions).2 }.setProbe i
      { p with stage := .closing, session := none }).exec
        ((store p.hostPort x s.sessions).1.toList.map .free)) := by
  have hc := h.counted.perm (held_perm hp)
  simp only [Probe.held, hx, Option.toList_some, others] at hc
  have hperm : (p.ssl.toList ++ [x] ++ (s.sessions.map Prod.snd ++ (s.probes.eraseIdx i).flatMap Probe.held)).Perm
      ((store p.hostPort x s.sessions).1.toList ++ (p.ssl.toList ++
        ((store p.hostPort x s.sessions).2.map Prod.snd ++ (s.probes.eraseIdx i).flatMap Probe.held))) := by
    refine List.perm_iff_count.2 fun y => ?_
    have hstore := (store_perm p.hostPort x s.sessions).count_eq y
    rw [← List.singleton_append] at hstore
    simp only [List.count_append] at hstore ⊢
    omega
  refine inv_exec h.sound ?_ ?_ ?_
  · refine Leads.perm ?_ (@held_setProbe_perm { s with sessions := (store p.hostPort x s.sessions).2 } i p hp _).symm
    simp only [Probe.held, others, Option.toList_none, List.append_nil]
    exact Counted.freeAll (hc.perm hperm)
  · intro p' hp'
    rcases List.mem_or_eq_of_mem_set hp' with hp' | rfl
    · exact h.ok p' hp'
    · simp [Probe.Ok]
  · intro he
    have hnil := (h.exited he).2
    rw [hnil] at hp
    simp at hp

/-- A probe that is through gives up the reference of its connection. -/
theorem Inv.sslFree (h : Inv s) (hp : s.probes[i]? = some p) (hstage : p.stage = .closing) :
    Inv ({ s with probes := s.probes.eraseIdx i }.exec (p.ssl.toList.map .free)) := by
  have hok := h.ok p (List.mem_of_getElem? hp)
  simp only [Probe.Ok, hstage] at hok
  have hc := h.counted.perm (held_perm hp)
  simp only [Probe.held, hok, Option.toList_none, List.append_nil] at hc
  refine inv_exec h.sound hc.freeAll (fun p' hp' => h.ok p' (List.mem_of_mem_eraseIdx hp')) fun he => ?_
  have hnil := (h.exited he).2
  rw [hnil] at hp
  simp at hp

/-- The cache gives up all its references. -/
theorem Inv.exit (h : Inv s) (hp : s.probes = []) :
    Inv ({ s with sessions := [], exited := true }.exec ((s.sessions.map Prod.snd).map .free)) := by
  have hc := h.counted
  simp only [held, hp, List.flatMap_nil] at hc
  refine inv_exec h.sound ?_ h.ok fun _ => ⟨rfl, hp⟩
  simp only [held, hp, List.map_nil, List.flatMap_nil, List.append_nil]
  exact hc.freeAll

theorem Inv.step (h : Inv s) {e : Event} (hs : s.step e = some s') : Inv s' := by
  cases e with
  | start hostPort cert =>
    simp only [State.step] at hs
    split at hs
    · cases hs
    · rename_i he
      cases hs
      exact h.start (by simpa using he) hostPort cert
  | get i =>
    obtain ⟨p, hp, hs⟩ := Option.bind_eq_some_iff.1 hs
    split at hs
    · rename_i hstage
      have hok := h.ok p (List.mem_of_getElem? hp)
      simp only [Probe.Ok, hstage] at hok
      split at hs
      · cases hs
        have hq : ({ p with stage := .ready } : Probe).Ok := by simp [Probe.Ok, hok.2]
        exact h.setProbe hp hq Counted.leads
      · rename_i x hx
        cases hs
        exact h.get hp hstage hx
    · cases hs
  | setSession i ok =>
    obtain ⟨p, hp, hs⟩ := Option.bind_eq_some_iff.1 hs
    obtain ⟨x, hx, hs⟩ := Option.bind_eq_some_iff.1 hs
    split at hs
    · rename_i hstage
      split at hs
      · cases hs
        have hok := h.ok p (List.mem_of_getElem? hp)
        simp only [Probe.Ok, hstage] at hok
        refine h.setProbe hp (by simp [Probe.Ok]) fun hc => ?_
        refine (hc.upRef (by simp [Probe.held, hx])).perm ?_
        simp [Probe.held, hok, hx]
      · cases hs
        have hq : ({ p with stage := .resumed } : Probe).Ok := by simp [Probe.Ok]
        exact h.setProbe hp hq Counted.leads
    · cases hs
  | freeCached i =>
    obtain ⟨p, hp, hs⟩ := Option.bind_eq_some_iff.1 hs
    obtain ⟨x, hx, hs⟩ := Option.bind_eq_some_iff.1 hs
    split at hs
    · cases hs
      refine h.setProbe hp (by simp [Probe.Ok]) fun hc => ?_
      refine Counted.free (hc.perm ?_)
      simp only [Probe.held, hx, Option.toList_some, Option.toList_none, List.append_nil, List.append_assoc,
        List.singleton_append]
      exact List.perm_middle
    · cases hs
  | connect i ok handshake =>
    obtain ⟨p, hp, hs⟩ := Option.bind_eq_some_iff.1 hs
    split at hs
    · rename_i hstage
      have hstages : (if ok = true ∧ ¬p.cert = true then Stage.connected else .closing) = .connected ∨
          (if ok = true ∧ ¬p.cert = true then Stage.connected else .closing) = .closing := by
        split <;> simp
      cases handshake with
      | kept =>
        cases hs
        exact @Inv.connect s i p h hp hstage { p with stage := _ } hstages rfl [] (.inl ⟨rfl, rfl⟩)
      | replaced x =>
        dsimp only at hs
        split at hs
        · rename_i hx
          cases hs
          exact @Inv.connect s i p h hp hstage { p with stage := _, ssl := some x } hstages rfl _
            (.inr (.inr ⟨x, rfl, hx, rfl⟩))
        · cases hs
      | cleared =>
        cases hs
        exact @Inv.connect s i p h hp hstage { p with stage := _, ssl := none } hstages rfl _ (.inr (.inl ⟨rfl, rfl⟩))
    · cases hs
  | get1Session i =>
    obtain ⟨p, hp, hs⟩ := Option.bind_eq_some_iff.1 hs
    split at hs
    · rename_i hstage
      have hok := h.ok p (List.mem_of_getElem? hp)
      simp only [Probe.Ok, hstage] at hok
      split at hs
      · cases hs
        have hq : ({ p with stage := .closing } : Probe).Ok := by simp [Probe.Ok, hok]
        exact h.setProbe hp hq Counted.leads
      · rename_i x hx
        cases hs
        refine h.setProbe hp (by simp [Probe.Ok]) fun hc => ?_
        refine (hc.upRef (by simp [Probe.held, hx])).perm ?_
        simp [Probe.held, hok, hx]
    · cases hs
  | put i =>
    obtain ⟨p, hp, hs⟩ := Option.bind_eq_some_iff.1 hs
    obtain ⟨x, hx, hs⟩ := Option.bind_eq_some_iff.1 hs
    split at hs
    · cases hs
      exact h.put hp hx
    · cases hs
  | sslFree i =>
    obtain ⟨p, hp, hs⟩ := Option.bind_eq_some_iff.1 hs
    split at hs
    · rename_i hstage
      cases hs
      exact h.sslFree hp hstage
    · cases hs
  | exit =>
    simp only [State.step] at hs
    split at hs
    · rename_i hp
      cases hs
      exact h.exit hp
    · cases hs

theorem inv_init : Inv { } := ⟨rfl, fun _ => rfl, nofun, nofun⟩

/-- What the counts come to. -/
structure Safe (s : State) : Prop where
  /-- No session has been used after it was gone. -/
  sound : s.faulted = false
  counted : Counted s.refs (held s)
  /-- Between the probes a session is alive when the cache has it, and has no other references. -/
  idle : s.probes = [] → ∀ x, s.refs x = (s.sessions.map Prod.snd).count x
  /-- Nothing outlives the cache. -/
  exited : s.exited = true → ∀ x, s.refs x = 0

/-- **Main.** Any number of probes in any interleaving, whatever their handshakes do. -/
theorem sessions_counted (es : List Event) : Always State.step Safe { } es := by
  refine always_of_inv (fun _ _ _ h hs => h.step hs) (fun s h => ?_) inv_init
  refine ⟨h.sound, h.counted, fun hp x => ?_, fun he x => ?_⟩
  · rw [h.counted x, held, hp]
    simp
  · obtain ⟨hsessions, hprobes⟩ := h.exited he
    rw [h.counted x, held, hsessions, hprobes]
    simp

end PudimNetMon.Agent.Tls
