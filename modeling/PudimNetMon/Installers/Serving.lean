import PudimNetMon.Installers.ReleaseMirror

/-!
# Downloads while the mirror works (`main.cpp`, `release_mirror.cpp`, `installer_dist.cpp`, `http_server.cpp`)

The main thread runs the mirror and scans the directory; the HTTP threads answer manifests and downloads. A download
takes the lock of `InstallerDist` three times, for `Has`, `Load` and `DownloadName`; the mirror renames files without
it. An exception that leaves `SyncOnce` ends the process, and it is started again.

- `consistent_of_orderly`: bytes served are those the manifest states, when no download reads a file that was replaced
  since the last scan, and no scan finds another file for a platform while a download of it is between `Load` and its
  answer.
-/

namespace PudimNetMon.Installers

/-- Where the main thread is. -/
inductive MirrorAt
  | waiting
  /-- In the loop of `SyncOnce`, with the assets to come. -/
  | syncing (version : String) (assets : List Json) (downloaded : Nat)
  /-- `SyncOnce` has returned true. -/
  | scanning
  | down

/-- A download in an HTTP thread. -/
structure Request where
  platform : String
  /-- What `Load` has read. -/
  bytes : Option Bytes := none

/-- A download that was answered, with the manifest at that time. -/
structure Served where
  platform : String
  filename : String
  bytes : Bytes
  manifest : Json

structure State where
  dir : InstallerDir
  dist : InstallerDist := {}
  mirror : MirrorAt := .down
  requests : List Request := []
  served : List Served := []
  /-- The files that the last scan read. -/
  scanned : List StagedFile := []

inductive Event
  /-- The process starts and scans. -/
  | start (listing : List StagedFile)
  /-- The process ends, at any point. -/
  | crash
  /-- `SyncOnce` has the answer of the release API. -/
  | sync (body : Option String)
  /-- The next asset, with what was downloaded and renamed to its place. -/
  | asset (answer : Option Bytes)
  /-- The end of `SyncOnce`. -/
  | writeVersion (written : Option Nat)
  /-- `Scan` behind a successful `SyncOnce`. -/
  | rescan (listing : List StagedFile)
  /-- A request for the manifest. -/
  | versions
  /-- A download begins: `Has`. -/
  | ask (platform : String)
  /-- `Load` of a download, and whether the file can be read. -/
  | load (i : Nat) (readable : Bool)
  /-- `DownloadName` of a download and its answer. -/
  | answer (i : Nat) (config : String)

/-- The files that a scan reads: files of the directory in some order, without those it cannot read. -/
def Listing (dir : InstallerDir) (listing : List StagedFile) : Prop :=
  (listing.map StagedFile.name).Nodup ∧ ∀ f ∈ listing, f ∈ dir.files

instance (dir : InstallerDir) (listing : List StagedFile) : Decidable (Listing dir listing) :=
  inferInstanceAs (Decidable (_ ∧ _))

section

variable (sha256 : Bytes → String) (lib : JsonLib) (cfg : ReleaseMirrorConfig)

namespace State

/-- The process is gone; the directory stays. -/
def crashed (s : State) : State := { s with dist := {}, mirror := .down, requests := [], scanned := [] }

def rescanned (s : State) (listing : List StagedFile) : State :=
  { s with dist := scan sha256 s.dir listing, mirror := .waiting, scanned := listing }

def beginSync (s : State) (body : Option String) : State :=
  match releaseOf lib body with
  | .error _ => s.crashed
  | .ok none => s
  | .ok (some (version, assets)) => { s with mirror := .syncing version assets 0 }

def mirrorNext (s : State) (version : String) (asset : Json) (assets : List Json) (downloaded : Nat)
    (answer : Option Bytes) : State :=
  match mirrorAsset cfg version asset answer s.dir with
  | .error _ => s.crashed
  | .ok none => { s with mirror := .syncing version assets downloaded }
  | .ok (some dir) => { s with dir, mirror := .syncing version assets (downloaded + 1) }

def loadRequest (s : State) (i : Nat) (r : Request) (readable : Bool) : State :=
  match s.dist.load s.dir r.platform with
  | some bytes =>
    if readable then { s with requests := s.requests.set i { r with bytes := some bytes } }
    else { s with requests := s.requests.eraseIdx i }
  | none => { s with requests := s.requests.eraseIdx i }

def answerRequest (s : State) (i : Nat) (r : Request) (bytes : Bytes) (config : String) : State :=
  let filename := s.dist.downloadName r.platform config
  let requests := s.requests.eraseIdx i
  if filename.isEmpty then { s with requests }
  else
    { s with
      requests
      served := s.served ++ [{ platform := r.platform, filename, bytes, manifest := s.dist.manifest }] }

def up (s : State) : Bool :=
  match s.mirror with
  | .down => false
  | _ => true

end State

def step (s : State) : Event → Option State
  | .start listing =>
    match s.mirror with
    | .down => if Listing s.dir listing then some (s.rescanned sha256 listing) else none
    | _ => none
  | .crash => some s.crashed
  | .sync body =>
    match s.mirror with
    | .waiting => some (s.beginSync lib body)
    | _ => none
  | .asset answer =>
    match s.mirror with
    | .syncing version (asset :: assets) downloaded => some (s.mirrorNext cfg version asset assets downloaded answer)
    | _ => none
  | .writeVersion written =>
    match s.mirror with
    | .syncing version [] downloaded =>
      some { s with dir := writeVersion cfg version written s.dir
                    mirror := if downloaded > 0 then .scanning else .waiting }
    | _ => none
  | .rescan listing =>
    match s.mirror with
    | .scanning => if Listing s.dir listing then some (s.rescanned sha256 listing) else none
    | _ => none
  | .versions => if s.up then some s else none
  | .ask platform =>
    if s.up && (s.dist.find platform).isSome then some { s with requests := s.requests ++ [{ platform }] } else none
  | .load i readable =>
    match s.requests[i]? with
    | some r => if r.bytes.isNone then some (s.loadRequest i r readable) else none
    | none => none
  | .answer i config =>
    match s.requests[i]? with
    | some r => r.bytes.map fun bytes => s.answerRequest i r bytes config
    | none => none

/-- **Every download had the digest and the size that the manifest stated when it was answered.** -/
def Consistent (s : State) : Prop := ∀ r ∈ s.served, States sha256 r.manifest r.platform r.bytes

/-- A `Load` finds the file as the last scan has read it, and a scan finds for a platform the bytes that the downloads
in progress have read for it. -/
def Orderly (s : State) : Event → Prop
  | .load i _ => ∀ r ∈ s.requests[i]?, ∀ a ∈ s.dist.find r.platform,
      ∀ f ∈ s.dir.files, f.name = a.filename → ∃ g ∈ s.scanned, g.name = f.name ∧ g.bytes = f.bytes
  | .rescan _ => ∀ r ∈ s.requests, ∀ bytes ∈ r.bytes,
      ∀ f ∈ s.dir.files, (parseInstallerFilename f.name).map InstallerArtifact.id = some r.platform → f.bytes = bytes
  | _ => True

instance (s : State) : (e : Event) → Decidable (Orderly s e)
  | .load i _ => inferInstanceAs (Decidable (∀ r ∈ s.requests[i]?, ∀ a ∈ s.dist.find r.platform,
      ∀ f ∈ s.dir.files, f.name = a.filename → ∃ g ∈ s.scanned, g.name = f.name ∧ g.bytes = f.bytes))
  | .rescan _ => inferInstanceAs (Decidable (∀ r ∈ s.requests, ∀ bytes ∈ r.bytes,
      ∀ f ∈ s.dir.files, (parseInstallerFilename f.name).map InstallerArtifact.id = some r.platform →
        f.bytes = bytes))
  | .start _ | .crash | .sync _ | .asset _ | .writeVersion _ | .versions | .ask _ | .answer _ _ =>
    inferInstanceAs (Decidable True)

/-- What the orderly steps keep. -/
structure Inv (s : State) : Prop where
  scanned : (s.scanned.map StagedFile.name).Nodup
  ids : (s.dist.artifacts.map InstallerArtifact.id).Nodup
  artifacts : ∀ a ∈ s.dist.artifacts, ∃ f ∈ s.scanned, artifactOf sha256 f = some a
  requests : ∀ r ∈ s.requests, ∀ bytes, r.bytes = some bytes →
    ∀ a ∈ s.dist.artifacts, a.id = r.platform → a.Matches sha256 bytes
  served : Consistent sha256 s
  down : s.mirror = .down → s.requests = []

end

/-! ## The steps -/

section

variable {sha256 : Bytes → String} {lib : JsonLib} {cfg : ReleaseMirrorConfig} {s : State}

theorem Inv.crashed (h : Inv sha256 s) : Inv sha256 s.crashed :=
  ⟨List.nodup_nil, List.nodup_nil, nofun, nofun, h.served, fun _ => rfl⟩

/-- The mirror moves on, on whatever directory. -/
theorem Inv.mirror (h : Inv sha256 s) (dir : InstallerDir) {mirror : MirrorAt} (hup : mirror ≠ .down) :
    Inv sha256 { s with dir, mirror } :=
  ⟨h.scanned, h.ids, h.artifacts, h.requests, h.served, fun hdown => absurd hdown hup⟩

/-- Downloads are taken up or end. -/
theorem Inv.requests_of_mem (h : Inv sha256 s) {requests : List Request} (hup : s.mirror ≠ .down)
    (hreq : ∀ r ∈ requests, ∀ bytes, r.bytes = some bytes →
      ∀ a ∈ s.dist.artifacts, a.id = r.platform → a.Matches sha256 bytes) : Inv sha256 { s with requests } :=
  ⟨h.scanned, h.ids, h.artifacts, hreq, h.served, fun hdown => absurd hdown hup⟩

/-- Who has requests is not down. -/
theorem Inv.up_of_request (h : Inv sha256 s) {r : Request} (hr : r ∈ s.requests) : s.mirror ≠ .down := by
  intro hdown
  rw [h.down hdown] at hr
  cases hr

theorem Inv.erased (h : Inv sha256 s) (hup : s.mirror ≠ .down) (i : Nat) :
    Inv sha256 { s with requests := s.requests.eraseIdx i } :=
  h.requests_of_mem hup fun r hr => h.requests r (List.mem_of_mem_eraseIdx hr)

/-- A scan finds for a platform what the downloads in progress have read for it. -/
theorem Inv.rescanned (h : Inv sha256 s) {listing : List StagedFile} (hlisting : Listing s.dir listing)
    (hreq : ∀ r ∈ s.requests, ∀ bytes, r.bytes = some bytes →
      ∀ f ∈ s.dir.files, (parseInstallerFilename f.name).map InstallerArtifact.id = some r.platform → f.bytes = bytes) :
    Inv sha256 (s.rescanned sha256 listing) := by
  obtain ⟨hids, hfrom⟩ := @scan_spec sha256 s.dir listing
  refine ⟨hlisting.1, hids, hfrom, fun r hr bytes hbytes a ha hid => ?_, h.served, nofun⟩
  obtain ⟨f, hf, hart⟩ := hfrom a ha
  have hplatform : (parseInstallerFilename f.name).map InstallerArtifact.id = some r.platform := by
    obtain ⟨b, hb, rfl⟩ := Option.map_eq_some_iff.1 hart
    rw [hb, ← hid]
    rfl
  rw [← hreq r hr bytes hbytes f (hlisting.2 f hf) hplatform]
  exact artifactOf_matches hart

/-- A file that is as the last scan has read it is what the manifest states. -/
theorem Inv.matches_of_scanned (h : Inv sha256 s) {a : InstallerArtifact} (ha : a ∈ s.dist.artifacts)
    {f g : StagedFile} (hname : f.name = a.filename) (hg : g ∈ s.scanned) (hgname : g.name = f.name)
    (hgbytes : g.bytes = f.bytes) : a.Matches sha256 f.bytes := by
  obtain ⟨g', hg', hart⟩ := h.artifacts a ha
  obtain rfl : g' = g := by
    apply List.inj_on_of_nodup_map h.scanned hg' hg
    rw [hgname, hname, artifactOf_filename hart]
  rw [← hgbytes]
  exact artifactOf_matches hart

theorem find_eq_some {d : InstallerDist} {platform : String} {a : InstallerArtifact} (h : d.find platform = some a) :
    a ∈ d.artifacts ∧ a.id = platform :=
  ⟨List.mem_of_find?_eq_some h, by simpa using List.find?_some h⟩

theorem Inv.loaded (h : Inv sha256 s) {i : Nat} {r : Request} (hr : s.requests[i]? = some r) (readable : Bool)
    (hg : Orderly s (.load i readable)) : Inv sha256 (s.loadRequest i r readable) := by
  have hup := h.up_of_request (List.mem_of_getElem? hr)
  have herase := h.erased hup i
  unfold State.loadRequest
  split
  · rename_i bytes hload
    split
    · apply h.requests_of_mem hup
      intro q hq bytes' hbytes' a ha hid
      rcases List.mem_or_eq_of_mem_set hq with hq | rfl
      · exact h.requests q hq bytes' hbytes' a ha hid
      cases hbytes'
      obtain ⟨b, hfind, hfile⟩ := Option.bind_eq_some_iff.1 hload
      obtain ⟨f, hf, rfl⟩ := Option.map_eq_some_iff.1 hfile
      obtain ⟨hb, hbid⟩ := find_eq_some hfind
      obtain rfl : a = b := List.inj_on_of_nodup_map h.ids ha hb (hid.trans hbid.symm)
      have hname : f.name = a.filename := by simpa using List.find?_some hf
      obtain ⟨g, hgmem, hgname, hgbytes⟩ := hg r hr a hfind f (List.mem_of_find?_eq_some hf) hname
      exact h.matches_of_scanned ha hname hgmem hgname hgbytes
    · exact herase
  · exact herase

theorem Inv.answered (h : Inv sha256 s) {i : Nat} {r : Request} {bytes : Bytes} (hr : s.requests[i]? = some r)
    (hbytes : r.bytes = some bytes) (config : String) : Inv sha256 (s.answerRequest i r bytes config) := by
  have hmem : r ∈ s.requests := List.mem_of_getElem? hr
  have herase := h.erased (h.up_of_request hmem) i
  unfold State.answerRequest
  dsimp only
  split
  · exact herase
  · rename_i hname
    refine ⟨herase.scanned, herase.ids, herase.artifacts, herase.requests, fun q hq => ?_, herase.down⟩
    rcases List.mem_append.1 hq with hq | hq
    · exact h.served q hq
    · rw [List.mem_singleton] at hq
      subst hq
      cases hfind : s.dist.find r.platform with
      | none =>
        unfold InstallerDist.downloadName at hname
        rw [hfind] at hname
        exact absurd rfl hname
      | some a => exact states_of_matches hfind fun a ha hid => h.requests r hmem bytes hbytes a ha hid

theorem Inv.beginSync (h : Inv sha256 s) (body : Option String) :
    Inv sha256 (s.beginSync lib body) := by
  unfold State.beginSync
  split
  · exact h.crashed
  · exact h
  · exact h.mirror s.dir nofun

theorem Inv.mirrorNext (h : Inv sha256 s) (version : String) (asset : Json) (assets : List Json) (downloaded : Nat)
    (answer : Option Bytes) : Inv sha256 (s.mirrorNext cfg version asset assets downloaded answer) := by
  unfold State.mirrorNext
  split
  · exact h.crashed
  · exact h.mirror s.dir nofun
  · exact h.mirror _ nofun

/-- **An orderly step keeps the invariant.** -/
theorem Inv.step (h : Inv sha256 s) {e : Event} (hg : Orderly s e) {s' : State}
    (hs : step sha256 lib cfg s e = some s') : Inv sha256 s' := by
  cases e with
  | start listing =>
    simp only [Installers.step] at hs
    split at hs
    · rename_i hdown
      obtain ⟨hlisting, hs⟩ := Option.ite_none_right_eq_some.1 hs
      cases hs
      apply h.rescanned hlisting
      rw [h.down hdown]
      nofun
    · cases hs
  | crash =>
    cases hs
    exact h.crashed
  | sync body =>
    simp only [Installers.step] at hs
    split at hs
    · cases hs
      exact h.beginSync body
    · cases hs
  | asset answer =>
    simp only [Installers.step] at hs
    split at hs
    · cases hs
      exact h.mirrorNext _ _ _ _ answer
    · cases hs
  | writeVersion written =>
    simp only [Installers.step] at hs
    split at hs
    · cases hs
      apply h.mirror
      split <;> nofun
    · cases hs
  | rescan listing =>
    simp only [Installers.step] at hs
    split at hs
    · obtain ⟨hlisting, hs⟩ := Option.ite_none_right_eq_some.1 hs
      cases hs
      exact h.rescanned hlisting hg
    · cases hs
  | versions =>
    obtain ⟨-, hs⟩ := Option.ite_none_right_eq_some.1 hs
    cases hs
    exact h
  | ask platform =>
    obtain ⟨hask, hs⟩ := Option.ite_none_right_eq_some.1 hs
    cases hs
    have hup : s.mirror ≠ .down := fun hdown => by simp [State.up, hdown] at hask
    apply h.requests_of_mem hup
    intro r hr bytes hbytes
    rcases List.mem_append.1 hr with hr | hr
    · exact h.requests r hr bytes hbytes
    · rw [List.mem_singleton] at hr
      subst hr
      cases hbytes
  | load i readable =>
    simp only [Installers.step] at hs
    split at hs
    · rename_i r hr
      obtain ⟨-, hs⟩ := Option.ite_none_right_eq_some.1 hs
      cases hs
      exact h.loaded hr readable hg
    · cases hs
  | answer i config =>
    simp only [Installers.step] at hs
    split at hs
    · rename_i r hr
      obtain ⟨bytes, hbytes, rfl⟩ := Option.map_eq_some_iff.1 hs
      exact h.answered hr hbytes config
    · cases hs

end

/-- The process before it is started, on a directory. -/
def initial (dir : InstallerDir) : State := { dir }

theorem inv_initial (sha256 : Bytes → String) (dir : InstallerDir) : Inv sha256 (initial dir) :=
  ⟨List.nodup_nil, List.nodup_nil, nofun, nofun, nofun, fun _ => rfl⟩

/-- **Every download of an orderly run is consistent with the manifest.** -/
theorem consistent_of_orderly (sha256 : Bytes → String) (lib : JsonLib) (cfg : ReleaseMirrorConfig)
    (dir : InstallerDir) (es : List Event) (h : Guarded (step sha256 lib cfg) Orderly (initial dir) es) :
    Always (step sha256 lib cfg) (Consistent sha256) (initial dir) es :=
  always_of_guarded (fun _ _ _ hi hg hs => hi.step hg hs) (fun _ hi => hi.served) (inv_initial sha256 dir) h

def agentInstaller (bytes : Bytes) (origin : String) : StagedFile :=
  { name := "pudimnetmon-agent-install-linux-amd64.run", bytes, origin }

def mirrorLib : JsonLib where
  parse _ := .ok <| Json.null |>.set "tag_name" (.string "v2.0") |>.set "assets" (.array [Json.null
    |>.set "name" (.string "pudimnetmon-agent-install-linux-amd64.run")
    |>.set "browser_download_url" (.string "https://github.com/amd64")])
  dump _ := .ok ""

def mirrorConfig : ReleaseMirrorConfig := { owner := "owner", repo := "repo", installerDir := "installers" }

/-- Release 2.0 replaces the installer of 1.0. -/
def mirroring : List Event :=
  [.start [agentInstaller [1] "1.0"],
   .sync (some ("\x7b\"assets\":[\x7b\"browser_download_url\":\"https://github.com/amd64\"," ++
     "\"name\":\"pudimnetmon-agent-install-linux-amd64.run\"\x7d],\"tag_name\":\"v2.0\"\x7d")),
   .asset (some [2, 2])]

def download : List Event := [.ask "linux-amd64", .load 0 true, .answer 0 ""]

/-- A download in front of the mirror and one behind its scan. -/
theorem consistent_of_orderly_downloads :
    Always (step (fun bytes => toString bytes.length) mirrorLib mirrorConfig)
      (Consistent fun bytes => toString bytes.length) (initial { files := [agentInstaller [1] "1.0"] })
      (mirroring.take 1 ++ download ++ mirroring.drop 1 ++
        [.writeVersion (some 4), .rescan [agentInstaller [2, 2] "2.0"]] ++ download) :=
  consistent_of_orderly _ mirrorLib mirrorConfig _ _ (by decide +kernel)

/-- A download between the replacement and the scan gets two bytes for an installer that the manifest states with one,
whatever the digest. -/
theorem replaced_file_is_served : ¬∃ sha256 : Bytes → String, ∀ es : List Event,
    Always (step sha256 mirrorLib mirrorConfig) (Consistent sha256)
      (initial { files := [agentInstaller [1] "1.0"] }) es := by
  rintro ⟨sha256, h⟩
  obtain ⟨s, hrun, r, hr, hplatform, hbytes, hmanifest⟩ : ∃ s, runEvents (step sha256 mirrorLib mirrorConfig)
      (initial { files := [agentInstaller [1] "1.0"] }) (mirroring ++ download) = some s ∧
      ∃ r ∈ s.served, r.platform = "linux-amd64" ∧ r.bytes = [2, 2] ∧
        ∃ item, r.manifest.find? "installers" = some (.array [item]) ∧
          item.find? "id" = some (.string "linux-amd64") ∧ item.find? "size_bytes" = some (.int 1) :=
    ⟨_, rfl, _, List.mem_singleton.2 rfl, rfl, rfl, _, rfl, rfl, rfl⟩
  obtain ⟨item, hitems, hid, hsize⟩ := hmanifest
  obtain ⟨items, hitems', -, hstates⟩ := (h (mirroring ++ download)).last hrun r hr
  rw [hitems] at hitems'
  cases hitems'
  rw [hplatform, hbytes] at hstates
  have hsize' := (hstates item List.mem_cons_self hid).2
  rw [hsize] at hsize'
  cases hsize'

end PudimNetMon.Installers
