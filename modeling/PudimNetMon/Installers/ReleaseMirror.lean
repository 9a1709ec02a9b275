import PudimNetMon.Installers.InstallerDist
import PudimNetMon.Lib.Run

/-!
# The release mirror (`release_mirror.cpp`)

`SyncOnce` asks for the latest release, downloads its installers one after the other over the staged ones, and writes
the version into `version.txt`. A download that fails leaves the old file, and the version is written all the same.

- `advertised_iff`: the runs in which `version.txt` always names the release of every staged installer.
-/

namespace PudimNetMon.Installers

structure ReleaseMirrorConfig where
  owner : String
  repo : String
  apiBase : String := "https://api.github.com"
  token : String := ""
  installerDir : String
  deriving DecidableEq

def stableAssetNames : List String :=
  ["pudimnetmon-agent-install-linux-amd64.run", "pudimnetmon-agent-install-linux-arm64.run",
   "PudimNetMon-Agent-Setup.exe"]

/-- The version of a release: its tag without the leading `v`. -/
def versionOf (j : Json) : Except JsonException String := do
  let tag ← j.valueOf Json.getString "tag_name" ""
  let version := match tag.toList with
    | 'v' :: c :: cs => String.ofList (c :: cs)
    | _ => tag
  return if version.isEmpty then "0.1.0" else version

/-- What a loop over a document visits: a value that is no container is its own only element. -/
def elements : Json → List Json
  | .array items => items
  | .object members => members.map Prod.snd
  | .null => []
  | j => [j]

/-- The assets that the loop visits. -/
def assetsOf (j : Json) : Except JsonException (List Json) :=
  (j.valueOf (fun v => .ok v) "assets" (.array [])).map elements

/-- The name and the address of an asset that is wanted. -/
def wantedAsset (asset : Json) : Except JsonException (Option (String × String)) := do
  let name ← asset.valueOf Json.getString "name" ""
  if name.isEmpty || !stableAssetNames.contains name then return none
  let url ← asset.valueOf Json.getString "browser_download_url" ""
  return if url.isEmpty then none else some (name, url)

/-- There is a directory to stage installers in. -/
def canStage (cfg : ReleaseMirrorConfig) (dir : InstallerDir) : Bool := !cfg.installerDir.isEmpty && dir.isDirectory

/-- One asset of the loop. `answer` is what `DownloadToFile` has moved to its place, if nothing on the way failed. -/
def mirrorAsset (cfg : ReleaseMirrorConfig) (version : String) (asset : Json) (answer : Option Bytes)
    (dir : InstallerDir) : Except JsonException (Option InstallerDir) := do
  match ← wantedAsset asset with
  | none => return none
  | some (name, _) =>
    if canStage cfg dir then
      return answer.map fun bytes => { dir with files := replaceFile { name, bytes, origin := version } dir.files }
    else return none

/-- The end of `SyncOnce`. `written` is how much of the text reaches `version.txt`, if it could be opened. -/
def writeVersion (cfg : ReleaseMirrorConfig) (version : String) (written : Option Nat) (dir : InstallerDir) :
    InstallerDir :=
  match written with
  | some n => if canStage cfg dir then { dir with versionTxt := some ((version.toList ++ ['\n']).take n) } else dir
  | none => dir

/-- What the network and the disk answer in a run. -/
structure SyncAnswers where
  /-- The release document, if `HttpGet` succeeds. -/
  body : Option String
  /-- The downloads, by the asset's place in the document. -/
  download : Nat → Option Bytes
  versionWritten : Option Nat

/-- The loop over the assets: the directory, and how many downloads went through or what was thrown. -/
def mirrorLoop (cfg : ReleaseMirrorConfig) (version : String) (download : Nat → Option Bytes) :
    List Json → Nat → InstallerDir → Nat → InstallerDir × Except JsonException Nat
  | [], _, dir, downloaded => (dir, .ok downloaded)
  | asset :: assets, i, dir, downloaded =>
    match mirrorAsset cfg version asset (download i) dir with
    | .error e => (dir, .error e)
    | .ok none => mirrorLoop cfg version download assets (i + 1) dir downloaded
    | .ok (some dir') => mirrorLoop cfg version download assets (i + 1) dir' (downloaded + 1)

/-- The release that a run mirrors: its version and its assets. What the parser throws is caught, what `value` throws
is not. -/
def releaseOf (lib : JsonLib) (body : Option String) : Except JsonException (Option (String × List Json)) :=
  match body with
  | none => .ok none
  | some text =>
    match lib.parse text with
    | .error _ => .ok none
    | .ok j => do
      let version ← versionOf j
      let assets ← assetsOf j
      return some (version, assets)

/-- `SyncOnce`: the directory it leaves, and its result. -/
def syncOnce (lib : JsonLib) (cfg : ReleaseMirrorConfig) (dir : InstallerDir) (a : SyncAnswers) :
    InstallerDir × Except JsonException Bool :=
  match releaseOf lib a.body with
  | .error e => (dir, .error e)
  | .ok none => (dir, .ok false)
  | .ok (some (version, assets)) =>
    match mirrorLoop cfg version a.download assets 0 dir 0 with
    | (dir', .error e) => (dir', .error e)
    | (dir', .ok downloaded) => (writeVersion cfg version a.versionWritten dir', .ok (decide (downloaded > 0)))

/-- A run of the mirror; the collector that one throws out of is started again on the directory it left. -/
def syncStep (lib : JsonLib) (cfg : ReleaseMirrorConfig) (dir : InstallerDir) (a : SyncAnswers) : Option InstallerDir :=
  some (syncOnce lib cfg dir a).1

/-- `version.txt` names the release of every staged installer. -/
def Advertised (dir : InstallerDir) : Prop := ∀ f ∈ dir.files, f.origin = dir.version

instance (dir : InstallerDir) : Decidable (Advertised dir) :=
  inferInstanceAs (Decidable (∀ f ∈ dir.files, f.origin = dir.version))

/-! ## The loop -/

/-- No asset makes the loop throw. -/
def Completes (assets : List Json) : Prop := ∀ asset ∈ assets, (wantedAsset asset).isOk = true

instance (assets : List Json) : Decidable (Completes assets) :=
  inferInstanceAs (Decidable (∀ asset ∈ assets, (wantedAsset asset).isOk = true))

/-- The names of the installers that arrive, the `i`-th asset and those behind it, up to one that makes the loop
throw. -/
def arrivals (download : Nat → Option Bytes) : List Json → Nat → List String
  | [], _ => []
  | asset :: assets, i =>
    match wantedAsset asset, download i with
    | .error _, _ => []
    | .ok (some (name, _)), some _ => name :: arrivals download assets (i + 1)
    | .ok _, _ => arrivals download assets (i + 1)

section

variable {cfg : ReleaseMirrorConfig} {version : String} {download : Nat → Option Bytes}

/-- An installer that arrives. -/
theorem mirrorAsset_stages {asset : Json} {answer : Option Bytes} {dir dir' : InstallerDir}
    (h : mirrorAsset cfg version asset answer dir = .ok (some dir')) :
    ∃ name url bytes, wantedAsset asset = .ok (some (name, url)) ∧ answer = some bytes ∧ canStage cfg dir = true ∧
      dir' = { dir with files := replaceFile { name, bytes, origin := version } dir.files } := by
  unfold mirrorAsset at h
  obtain ⟨wanted, hwanted, h⟩ := bind_eq_ok.1 h
  cases wanted with
  | none => cases h
  | some asset =>
    obtain ⟨name, url⟩ := asset
    dsimp only at h
    split at h
    · rename_i hstage
      obtain ⟨bytes, hbytes, hdir⟩ := Option.map_eq_some_iff.1 (Except.ok.inj h)
      exact ⟨name, url, bytes, hwanted, hbytes, hstage, hdir.symm⟩
    · cases h

theorem mirrorAsset_error {asset : Json} {e : JsonException} (h : wantedAsset asset = .error e)
    (answer : Option Bytes) (dir : InstallerDir) : mirrorAsset cfg version asset answer dir = .error e := by
  unfold mirrorAsset
  rw [h]
  rfl

/-- An asset that is not wanted, or does not arrive, changes nothing. -/
theorem mirrorAsset_none {asset : Json} {wanted : Option (String × String)} (h : wantedAsset asset = .ok wanted)
    {answer : Option Bytes} (hnone : wanted = none ∨ answer = none) (dir : InstallerDir) :
    mirrorAsset cfg version asset answer dir = .ok none := by
  unfold mirrorAsset
  rw [h]
  rcases hnone with rfl | rfl
  · rfl
  · cases wanted with
    | none => rfl
    | some asset =>
      show (if canStage cfg dir then _ else _) = _
      split <;> rfl

theorem mirrorAsset_some {asset : Json} {name url : String} (h : wantedAsset asset = .ok (some (name, url)))
    {dir : InstallerDir} (hstage : canStage cfg dir = true) (bytes : Bytes) :
    mirrorAsset cfg version asset (some bytes) dir =
      .ok (some { dir with files := replaceFile { name, bytes, origin := version } dir.files }) := by
  unfold mirrorAsset
  rw [h]
  exact if_pos hstage

/-- **What the loop does**, when there is a directory. -/
theorem mirrorLoop_spec (assets : List Json) : ∀ (i : Nat) (dir : InstallerDir) (downloaded : Nat),
    canStage cfg dir = true →
      let r := mirrorLoop cfg version download assets i dir downloaded
      r.1.versionTxt = dir.versionTxt ∧ canStage cfg r.1 = true ∧ (r.2.isOk = true ↔ Completes assets) ∧
        ∀ w, (∀ f ∈ r.1.files, f.origin = w) ↔
          (arrivals download assets i ≠ [] → version = w) ∧
            ∀ f ∈ dir.files, f.name ∉ arrivals download assets i → f.origin = w := by
  induction assets with
  | nil =>
    intro i dir downloaded hstage
    simp [mirrorLoop, arrivals, Completes, hstage, Except.isOk, Except.toBool]
  | cons asset assets ih =>
    intro i dir downloaded hstage
    unfold mirrorLoop arrivals
    cases hwanted : wantedAsset asset with
    | error e =>
      rw [mirrorAsset_error hwanted]
      simp [hwanted, Completes, hstage, Except.isOk, Except.toBool]
    | ok wanted =>
      have hcompletes : Completes (asset :: assets) ↔ Completes assets := by
        simp [Completes, hwanted, Except.isOk, Except.toBool]
      cases wanted with
      | none =>
        rw [mirrorAsset_none hwanted (.inl rfl), hcompletes]
        exact ih (i + 1) dir downloaded hstage
      | some wanted =>
        obtain ⟨name, url⟩ := wanted
        cases hanswer : download i with
        | none =>
          rw [mirrorAsset_none hwanted (.inr rfl), hcompletes]
          exact ih (i + 1) dir downloaded hstage
        | some bytes =>
          rw [mirrorAsset_some hwanted hstage, hcompletes]
          obtain ⟨htext, hstage', hok, hfiles⟩ :=
            ih (i + 1) { dir with files := replaceFile { name, bytes, origin := version } dir.files } (downloaded + 1)
              hstage
          refine ⟨htext, hstage', hok, fun w => ?_⟩
          dsimp only at hfiles ⊢
          rw [hfiles w, forall_replaceFile]
          simp only [List.mem_cons, not_or, and_imp]
          constructor
          · rintro ⟨hlater, hfirst, hrest⟩
            refine ⟨fun _ => ?_, fun f hf hne hnot => hrest f hf hne hnot⟩
            by_cases hname : name ∈ arrivals download assets (i + 1)
            · exact hlater (List.ne_nil_of_mem hname)
            · exact hfirst hname
          · rintro ⟨hversion, hrest⟩
            have hw := hversion (List.cons_ne_nil _ _)
            exact ⟨fun _ => hw, fun _ => hw, fun f hf hne hnot => hrest f hf hne hnot⟩

end

/-! ## Runs -/

/-- The version that `version.txt` names after a run that mirrors a release. -/
def versionAfter (cfg : ReleaseMirrorConfig) (dir : InstallerDir) (a : SyncAnswers) (version : String)
    (assets : List Json) : String :=
  if Completes assets then (writeVersion cfg version a.versionWritten dir).version else dir.version

/-- The run leaves `version.txt` naming its release if an installer arrives, and what it has named before if an
installer stays. -/
def Keeps (lib : JsonLib) (cfg : ReleaseMirrorConfig) (dir : InstallerDir) (a : SyncAnswers) : Prop :=
  canStage cfg dir = true → ∀ version assets, releaseOf lib a.body = .ok (some (version, assets)) →
    let names := arrivals a.download assets 0
    (names ≠ [] → versionAfter cfg dir a version assets = version) ∧
      ((∃ f ∈ dir.files, f.name ∉ names) → versionAfter cfg dir a version assets = dir.version)

section

variable {lib : JsonLib} {cfg : ReleaseMirrorConfig} {dir : InstallerDir} {a : SyncAnswers}

theorem syncOnce_none (h : ∀ r, releaseOf lib a.body ≠ .ok (some r)) : (syncOnce lib cfg dir a).1 = dir := by
  unfold syncOnce
  split
  · rfl
  · rfl
  · rename_i hrelease
    exact absurd hrelease (h _)

theorem mirrorLoop_unstaged {version : String} {download : Nat → Option Bytes} (hstage : canStage cfg dir = false)
    (assets : List Json) (i downloaded : Nat) :
    (mirrorLoop cfg version download assets i dir downloaded).1 = dir := by
  induction assets generalizing i with
  | nil => rfl
  | cons asset assets ih =>
    unfold mirrorLoop
    split
    · rfl
    · exact ih (i + 1)
    · rename_i dir' hmirror
      obtain ⟨-, -, -, -, -, hstaged, -⟩ := mirrorAsset_stages hmirror
      rw [hstage] at hstaged
      cases hstaged

/-- Without a directory nothing changes. -/
theorem syncOnce_unstaged (hstage : canStage cfg dir = false) : (syncOnce lib cfg dir a).1 = dir := by
  unfold syncOnce
  split
  · rfl
  · rfl
  · rename_i version assets _
    have hloop := @mirrorLoop_unstaged cfg dir version a.download hstage assets 0 0
    split
    · rename_i hthrown
      rwa [hthrown] at hloop
    · rename_i hdone
      rw [hdone] at hloop
      obtain rfl := hloop
      unfold writeVersion
      split
      · exact if_neg (by rw [hstage]; decide)
      · rfl

theorem syncOnce_some {version : String} {assets : List Json} (h : releaseOf lib a.body = .ok (some (version, assets)))
    (hstage : canStage cfg dir = true) :
    let names := arrivals a.download assets 0
    let dir' := (syncOnce lib cfg dir a).1
    dir'.version = versionAfter cfg dir a version assets ∧
      ∀ w, (∀ f ∈ dir'.files, f.origin = w) ↔
        (names ≠ [] → version = w) ∧ ∀ f ∈ dir.files, f.name ∉ names → f.origin = w := by
  obtain ⟨htext, hstage', hok, hfiles⟩ := @mirrorLoop_spec cfg version a.download assets 0 dir 0 hstage
  unfold syncOnce versionAfter
  rw [h]
  dsimp only
  generalize mirrorLoop cfg version a.download assets 0 dir 0 = r at htext hstage' hok hfiles ⊢
  obtain ⟨dir', result⟩ := r
  cases result with
  | error e =>
    have hthrown : ¬Completes assets := fun hc => nomatch hok.2 hc
    refine ⟨?_, hfiles⟩
    rw [if_neg hthrown]
    exact congrArg namedVersion htext
  | ok downloaded =>
    rw [if_pos (hok.1 rfl)]
    unfold writeVersion
    cases a.versionWritten with
    | none => exact ⟨congrArg namedVersion htext, hfiles⟩
    | some n =>
      dsimp only
      rw [if_pos hstage, if_pos hstage']
      exact ⟨rfl, hfiles⟩

/-- **A run keeps the version right exactly under `Keeps`.** -/
theorem advertised_step (hdir : Advertised dir) : Advertised (syncOnce lib cfg dir a).1 ↔ Keeps lib cfg dir a := by
  cases hstage : canStage cfg dir with
  | false =>
    rw [syncOnce_unstaged hstage]
    exact iff_of_true hdir fun h => by rw [hstage] at h; cases h
  | true =>
    by_cases hrelease : ∃ r, releaseOf lib a.body = .ok (some r)
    · obtain ⟨⟨version, assets⟩, hrelease⟩ := hrelease
      obtain ⟨hversion, hfiles⟩ := @syncOnce_some lib cfg dir a version assets hrelease hstage
      have hstays : ∀ w, (∀ f ∈ dir.files, f.name ∉ arrivals a.download assets 0 → f.origin = w) ↔
          ((∃ f ∈ dir.files, f.name ∉ arrivals a.download assets 0) → w = dir.version) := by
        intro w
        constructor
        · rintro h ⟨f, hf, hname⟩
          rw [← h f hf hname, hdir f hf]
        · intro h f hf hname
          rw [hdir f hf, h ⟨f, hf, hname⟩]
      unfold Advertised
      rw [hversion, hfiles, hstays]
      constructor
      · rintro ⟨hcome, hstay⟩ - version' assets' hrelease'
        cases hrelease.symm.trans hrelease'
        exact ⟨fun hnames => (hcome hnames).symm, hstay⟩
      · intro h
        obtain ⟨hcome, hstay⟩ := h hstage version assets hrelease
        exact ⟨fun hnames => (hcome hnames).symm, hstay⟩
    · rw [syncOnce_none fun r hr => hrelease ⟨r, hr⟩]
      exact iff_of_true hdir fun _ version assets h => absurd ⟨_, h⟩ hrelease

end

/-- **`version.txt` names the release of every staged installer throughout exactly the sequences of runs that keep it
right.** -/
theorem advertised_iff (lib : JsonLib) (cfg : ReleaseMirrorConfig) (dir : InstallerDir) (runs : List SyncAnswers) :
    Always (syncStep lib cfg) Advertised dir runs ↔
      Advertised dir ∧ Guarded (syncStep lib cfg) (Keeps lib cfg) dir runs := by
  have hiff : Advertised dir →
      (Always (syncStep lib cfg) Advertised dir runs ↔ Guarded (syncStep lib cfg) (Keeps lib cfg) dir runs) := by
    intro hdir
    have hstep : ∀ d a d', True → Advertised d → syncStep lib cfg d a = some d' →
        (Advertised d' ↔ Keeps lib cfg d a) := by
      rintro d a d' - hd hstep
      cases hstep
      exact advertised_step hd
    exact always_iff_guarded (fun _ _ _ _ _ => trivial) hstep trivial hdir
  exact ⟨fun h => ⟨h.head, (hiff h.head).1 h⟩, fun h => (hiff h.1).2 h.2⟩

def linuxAsset (arch : String) : Json :=
  Json.null
    |>.set "name" (.string ("pudimnetmon-agent-install-linux-" ++ arch ++ ".run"))
    |>.set "browser_download_url" (.string ("https://github.com/" ++ arch))

def releaseDoc : Json :=
  Json.null |>.set "tag_name" (.string "v2.0") |>.set "assets" (.array [linuxAsset "amd64", linuxAsset "arm64"])

/-- The second Linux installer of release 2.0 does not arrive. -/
def failedDownload : SyncAnswers where
  body := some ("\x7b\"assets\":[\x7b\"browser_download_url\":\"https://github.com/amd64\"," ++
    "\"name\":\"pudimnetmon-agent-install-linux-amd64.run\"\x7d," ++
    "\x7b\"browser_download_url\":\"https://github.com/arm64\"," ++
    "\"name\":\"pudimnetmon-agent-install-linux-arm64.run\"\x7d],\"tag_name\":\"v2.0\"\x7d")
  download i := if i = 0 then some [2] else none
  versionWritten := some 4

/-- Both Linux installers of release 1.0. -/
def stagedRelease : InstallerDir where
  files := [{ name := "pudimnetmon-agent-install-linux-amd64.run", bytes := [1], origin := "1.0" },
            { name := "pudimnetmon-agent-install-linux-arm64.run", bytes := [1], origin := "1.0" }]
  versionTxt := some ['1', '.', '0', '\n']

/-- An installer of release 1.0 is staged under the version 2.0. -/
theorem failed_download_misnames : Advertised stagedRelease ∧
    ¬Always (syncStep { parse := fun _ => .ok releaseDoc, dump := fun _ => .ok "" }
      { owner := "owner", repo := "repo", installerDir := "installers" }) Advertised stagedRelease
      [failedDownload] := by
  decide +kernel

end PudimNetMon.Installers
