import Mathlib.Data.List.Pairwise
import PudimNetMon.Installers.InstallerDist
import PudimNetMon.Lib.KeyedTable
import PudimNetMon.Lib.Separated

/-!
# Staged agent binaries (`agent_dist.cpp`)

`Scan` lists the binaries of a directory with their digests, the manifest states what it has found, and a download is
served by the id in its URL. What the HTTP library reads as the platform of a URL is an argument.

- `id_eq_iff`: two file names have one id if one is the other with `.exe`;
- `digestsServed_iff`: the directories whose manifest states what is served.
-/

namespace PudimNetMon.Installers

structure AgentPlatform where
  id : String
  os : String
  arch : String
  archLabel : String
  filename : String
  sha256 : String := ""
  sizeBytes : Nat := 0
  deriving DecidableEq

def kKnownOs : List String := ["linux", "windows", "darwin", "freebsd"]

/-- `ParseAgentFilename` -/
def parseAgentFilename (name : String) : Option AgentPlatform :=
  if !"pudim-agent-".toList.isPrefixOf name.toList then none
  else
    let rest := dropSuffix ".exe".toList (name.toList.drop "pudim-agent-".length)
    match cutLast '-' rest with
    | none => none
    | some (os, arch) =>
      if os.isEmpty || arch.isEmpty then none
      else
        let os := String.ofList os
        let arch := String.ofList arch
        if kKnownOs.contains os then
          some { id := os ++ "-" ++ arch, os, arch, archLabel := archLabel arch, filename := name }
        else none

/-- An entry of the directory; it may be no regular file, and it may be unreadable. -/
structure DirEntry where
  name : String
  isRegular : Bool := true
  bytes : Option Bytes
  deriving DecidableEq

/-- The entries in the order in which they are listed. -/
structure AgentDir where
  entries : KeyedTable DirEntry.name
  versionTxt : Option (List Char) := none

structure AgentDist where
  version : String := ""
  platforms : List AgentPlatform := []

section

variable (sha256 : Bytes → String) (dir : AgentDir)

/-- The platform of an entry that `Scan` takes. -/
def platformOf (e : DirEntry) : Option AgentPlatform :=
  if e.isRegular then
    match parseAgentFilename e.name, e.bytes with
    | some plat, some bytes => some { plat with sha256 := sha256 bytes, sizeBytes := bytes.length }
    | _, _ => none
  else none

/-- `Scan` of a directory. -/
def scanAgents : AgentDist where
  version := namedVersion dir.versionTxt
  platforms := dir.entries.rows.filterMap (platformOf sha256)

end

namespace AgentDist

variable (d : AgentDist)

/-- `Find` -/
def find (platform : String) : Option AgentPlatform := d.platforms.find? fun p => p.id = platform

/-- `LoadBinary` -/
def loadBinary (dir : AgentDir) (platform : String) : Option Bytes :=
  match d.find platform with
  | none => none
  | some p => (dir.entries.rows.find? fun e => e.name = p.filename).bind DirEntry.bytes

def downloadUrl (platform : String) : String := "/api/agent/download?platform=" ++ platform

def manifestItem (p : AgentPlatform) : Json :=
  Json.null
    |>.set "id" (.string p.id)
    |>.set "os" (.string p.os)
    |>.set "arch" (.string p.archLabel)
    |>.set "filename" (.string p.filename)
    |>.set "size_bytes" (.int p.sizeBytes)
    |>.set "sha256" (.string p.sha256)
    |>.set "download_url" (.string (downloadUrl p.id))

/-- `ManifestJson` -/
def manifest : Json :=
  Json.null |>.set "version" (.string d.version) |>.set "platforms" (.array (d.platforms.map manifestItem))

end AgentDist

/-- What the download handler answers. -/
inductive AgentDownload
  /-- 404 -/
  | notStaged
  /-- 500 -/
  | notRead
  | served (filename : String) (bytes : Bytes)
  deriving DecidableEq

/-- The handler of `/api/agent/download`. `param` is `get_param_value("platform")` of the request for a URL. -/
def agentDownload (param : String → String) (d : AgentDist) (dir : AgentDir) (url : String) : AgentDownload :=
  match d.find (param url) with
  | none => .notStaged
  | some p =>
    match d.loadBinary dir (param url) with
    | none => .notRead
    | some bytes => .served p.filename bytes

/-- The items of a manifest. -/
def manifestItems (manifest : Json) : List Json :=
  match manifest.find? "platforms" with
  | some (.array items) => items
  | _ => []

/-- After a scan the ids of the manifest are distinct, and every item states the digest and the size of what is served
under its URL. -/
def DigestsServed (sha256 : Bytes → String) (param : String → String) (dir : AgentDir) : Prop :=
  let d := scanAgents sha256 dir
  ((manifestItems d.manifest).map fun item => item.find? "id").Nodup ∧
    ∀ item ∈ manifestItems d.manifest, ∃ url filename bytes, item.find? "download_url" = some (.string url) ∧
      agentDownload param d dir url = .served filename bytes ∧ item.find? "sha256" = some (.string (sha256 bytes)) ∧
      item.find? "size_bytes" = some (.int bytes.length)

/-! ## Names -/

/-- What is left of a name. -/
def agentStem (name : String) : List Char := dropSuffix ".exe".toList (name.toList.drop "pudim-agent-".length)

theorem parseAgentFilename_eq_some {name : String} {p : AgentPlatform} (h : parseAgentFilename name = some p) :
    "pudim-agent-".toList <+: name.toList ∧ p.id.toList = agentStem name ∧ p.filename = name := by
  unfold parseAgentFilename at h
  split at h
  · cases h
  rename_i hprefix
  dsimp only at h
  split at h
  · cases h
  rename_i os arch hcut
  split at h
  · cases h
  split at h
  · cases h
    refine ⟨List.isPrefixOf_iff_prefix.1 (by simpa using hprefix), ?_, rfl⟩
    rw [agentStem, append_of_cutLast hcut]
    simp
  · cases h

theorem dropSuffix_eq (suffix s : List Char) :
    (¬ suffix <:+ s ∧ dropSuffix suffix s = s) ∨ s = dropSuffix suffix s ++ suffix := by
  unfold dropSuffix
  split
  · rename_i h
    right
    obtain ⟨t, rfl⟩ := List.isSuffixOf_iff_suffix.1 h
    rw [List.length_append, Nat.add_sub_cancel, List.take_left]
  · rename_i h
    exact .inl ⟨fun hs => h (List.isSuffixOf_iff_suffix.2 hs), rfl⟩

theorem dropSuffix_of_not {suffix s : List Char} (h : ¬ suffix <:+ s) : dropSuffix suffix s = s := by
  rcases dropSuffix_eq suffix s with ⟨-, heq⟩ | heq
  · exact heq
  · exact absurd ⟨_, heq.symm⟩ h

/-- Without their suffixes two texts are equal if they were, or if one was the other with the suffix. -/
theorem dropSuffix_inj_iff {suffix s t : List Char} (hne : s ≠ t) : dropSuffix suffix s = dropSuffix suffix t ↔
    (t = s ++ suffix ∧ ¬ suffix <:+ s) ∨ (s = t ++ suffix ∧ ¬ suffix <:+ t) := by
  constructor
  · intro h
    rcases dropSuffix_eq suffix s with ⟨hs, hs'⟩ | hs <;> rcases dropSuffix_eq suffix t with ⟨ht, ht'⟩ | ht
    · exact absurd (hs'.symm.trans (h.trans ht')) hne
    · exact .inl ⟨by rw [ht, ← h, hs'], hs⟩
    · exact .inr ⟨by rw [hs, h, ht'], ht⟩
    · exact absurd (by rw [hs, ht, h]) hne
  · rintro (⟨rfl, hs⟩ | ⟨rfl, ht⟩)
    · rw [dropSuffix_append, dropSuffix_of_not hs]
    · rw [dropSuffix_append, dropSuffix_of_not ht]

/-- A name, and the same name with `.exe`. -/
def Twin (name twin : String) : Prop := twin = name ++ ".exe" ∧ ¬ ".exe".toList <:+ name.toList

theorem twin_iff {n m : String} :
    Twin n m ↔ m.toList = n.toList ++ ".exe".toList ∧ ¬ ".exe".toList <:+ n.toList := by
  rw [Twin, ← String.toList_inj, String.toList_append]

/-- **Names with one id.** -/
theorem id_eq_iff {n m : String} {p q : AgentPlatform} (hp : parseAgentFilename n = some p)
    (hq : parseAgentFilename m = some q) (hne : n ≠ m) : p.id = q.id ↔ Twin n m ∨ Twin m n := by
  obtain ⟨⟨s, hs⟩, hpid, -⟩ := parseAgentFilename_eq_some hp
  obtain ⟨⟨t, ht⟩, hqid, -⟩ := parseAgentFilename_eq_some hq
  have hstem {name : String} {rest : List Char} (h : "pudim-agent-".toList ++ rest = name.toList) :
      agentStem name = dropSuffix ".exe".toList rest := by
    rw [agentStem, ← h]
    rfl
  have hsuffix (rest : List Char) : ".exe".toList <:+ "pudim-agent-".toList ++ rest ↔ ".exe".toList <:+ rest := by
    refine ⟨?_, fun h => h.trans (List.suffix_append _ _)⟩
    rintro ⟨z, hz⟩
    rcases List.append_eq_append_iff.1 hz with ⟨x, hpre, hexe⟩ | ⟨x, -, hrest⟩
    · cases x with
      | nil => exact ⟨[], hexe⟩
      | cons c x =>
        -- the suffix would begin in the prefix
        have hc : c = '.' := (List.cons.inj hexe).1.symm
        have hmem : c ∈ "pudim-agent-".toList := hpre ▸ List.mem_append_right z List.mem_cons_self
        exact absurd (hc ▸ hmem) (by decide)
    · exact ⟨x, hrest.symm⟩
  have hrest : s ≠ t := by
    rintro rfl
    exact hne (String.toList_inj.1 (hs.symm.trans ht))
  rw [← String.toList_inj, hpid, hqid, hstem hs, hstem ht, dropSuffix_inj_iff hrest, twin_iff, twin_iff, ← hs, ← ht,
    hsuffix, hsuffix, List.append_assoc, List.append_assoc, List.append_cancel_left_eq, List.append_cancel_left_eq]

/-! ## What a scan finds -/

/-- An entry that a scan takes. -/
def Staged (e : DirEntry) : Prop :=
  e.isRegular = true ∧ (parseAgentFilename e.name).isSome = true ∧ e.bytes.isSome = true

instance (e : DirEntry) : Decidable (Staged e) := inferInstanceAs (Decidable (_ ∧ _ ∧ _))

variable {sha256 : Bytes → String} {param : String → String} {dir : AgentDir}

theorem platformOf_eq_some {e : DirEntry} {p : AgentPlatform} : platformOf sha256 e = some p ↔
    e.isRegular = true ∧ ∃ plat bytes, parseAgentFilename e.name = some plat ∧ e.bytes = some bytes ∧
      p = { plat with sha256 := sha256 bytes, sizeBytes := bytes.length } := by
  unfold platformOf
  cases e.isRegular with
  | false => simp
  | true =>
    cases parseAgentFilename e.name with
    | none => simp
    | some plat => cases e.bytes <;> simp [eq_comm]

theorem staged_iff {e : DirEntry} : Staged e ↔ ∃ p, platformOf sha256 e = some p := by
  simp only [Staged, platformOf_eq_some, Option.isSome_iff_exists]
  constructor
  · rintro ⟨hregular, ⟨plat, hplat⟩, bytes, hbytes⟩
    exact ⟨_, hregular, plat, bytes, hplat, hbytes, rfl⟩
  · rintro ⟨_, hregular, plat, bytes, hplat, hbytes, -⟩
    exact ⟨hregular, ⟨plat, hplat⟩, bytes, hbytes⟩

theorem mem_platforms {p : AgentPlatform} :
    p ∈ (scanAgents sha256 dir).platforms ↔ ∃ e ∈ dir.entries.rows, platformOf sha256 e = some p :=
  List.mem_filterMap

/-- No staged file has the name of another with `.exe`. -/
def NoTwins (dir : AgentDir) : Prop :=
  ∀ e ∈ dir.entries.rows, ∀ f ∈ dir.entries.rows, Staged e → Staged f → ¬ Twin e.name f.name

/-- The platforms of two entries have other ids. -/
def DistinctIds (sha256 : Bytes → String) (e f : DirEntry) : Prop :=
  ∀ p, platformOf sha256 e = some p → ∀ q, platformOf sha256 f = some q → p.id ≠ q.id

instance : Std.Symm (DistinctIds sha256) where
  symm _ _ h p hp q hq heq := h q hq p hp heq.symm

theorem distinctIds_iff {e f : DirEntry} (hne : e.name ≠ f.name) : DistinctIds sha256 e f ↔
    (Staged e → Staged f → ¬ Twin e.name f.name ∧ ¬ Twin f.name e.name) := by
  have hid {p q : AgentPlatform} (hp : platformOf sha256 e = some p) (hq : platformOf sha256 f = some q) :
      p.id = q.id ↔ Twin e.name f.name ∨ Twin f.name e.name := by
    obtain ⟨-, plat, _, hplat, -, rfl⟩ := platformOf_eq_some.1 hp
    obtain ⟨-, plat', _, hplat', -, rfl⟩ := platformOf_eq_some.1 hq
    have hiff := id_eq_iff hplat hplat' hne
    exact hiff
  constructor
  · intro h hse hsf
    obtain ⟨p, hp⟩ : ∃ p, platformOf sha256 e = some p := staged_iff.1 hse
    obtain ⟨q, hq⟩ : ∃ q, platformOf sha256 f = some q := staged_iff.1 hsf
    rw [← not_or, ← hid hp hq]
    exact h p hp q hq
  · intro h p hp q hq
    rw [ne_eq, hid hp hq, not_or]
    exact h (staged_iff.2 ⟨p, hp⟩) (staged_iff.2 ⟨q, hq⟩)

theorem ids_nodup_iff : ((scanAgents sha256 dir).platforms.map AgentPlatform.id).Nodup ↔ NoTwins dir := by
  have hpairwise : ((scanAgents sha256 dir).platforms.map AgentPlatform.id).Nodup ↔
      dir.entries.rows.Pairwise (DistinctIds sha256) := by
    unfold List.Nodup scanAgents
    rw [List.pairwise_map, List.pairwise_filterMap]
    rfl
  rw [hpairwise]
  constructor
  · intro h e he f hf hse hsf htwin
    have hne : e.name ≠ f.name := by
      intro heq
      have hlength := congrArg List.length (twin_iff.1 htwin).1
      rw [heq, List.length_append] at hlength
      simp at hlength
    have hdistinct := h.forall he hf fun heq => hne (heq ▸ rfl)
    exact ((distinctIds_iff hne).1 hdistinct hse hsf).1 htwin
  · intro h
    refine (dir.entries.nodup.of_map _).pairwise_of_forall_ne fun e he f hf hne => ?_
    have hname : e.name ≠ f.name := fun hname => hne (dir.entries.eq_of_key he hf hname)
    exact (distinctIds_iff hname).2 fun hse hsf => ⟨h e he f hf hse hsf, h f hf e he hsf hse⟩

/-! ## Downloads -/

/-- A platform that is found is served with its digest and its size. -/
theorem agentDownload_of_find {url : String} {q : AgentPlatform}
    (h : (scanAgents sha256 dir).find (param url) = some q) :
    ∃ bytes, agentDownload param (scanAgents sha256 dir) dir url = .served q.filename bytes ∧
      q.sha256 = sha256 bytes ∧ q.sizeBytes = bytes.length := by
  obtain ⟨e, he, hq⟩ := mem_platforms.1 (List.mem_of_find?_eq_some h)
  obtain ⟨-, plat, bytes, hplat, hbytes, rfl⟩ := platformOf_eq_some.1 hq
  have hname : plat.filename = e.name := (parseAgentFilename_eq_some hplat).2.2
  have hfile : dir.entries.rows.find? (fun e => e.name = plat.filename) = some e :=
    dir.entries.find?_eq_some_iff.2 ⟨he, hname.symm⟩
  refine ⟨bytes, ?_, rfl, rfl⟩
  unfold agentDownload AgentDist.loadBinary
  rw [h]
  dsimp only
  rw [hfile, Option.bind_some, hbytes]

/-- The URL of each staged file names a platform with the digest and the size of the file: the file's own, unless the
HTTP library reads another id in it. -/
def UrlsName (sha256 : Bytes → String) (param : String → String) (dir : AgentDir) : Prop :=
  ∀ e ∈ dir.entries.rows, ∀ p, platformOf sha256 e = some p → ∃ f ∈ dir.entries.rows, ∃ q,
    platformOf sha256 f = some q ∧ q.id = param (AgentDist.downloadUrl p.id) ∧ q.sha256 = p.sha256 ∧
      q.sizeBytes = p.sizeBytes

theorem manifestItems_manifest (d : AgentDist) : manifestItems d.manifest = d.platforms.map AgentDist.manifestItem := by
  simp [manifestItems, AgentDist.manifest]

theorem served_item_iff {d : AgentDist} {p : AgentPlatform} :
    (∃ url filename bytes, (AgentDist.manifestItem p).find? "download_url" = some (.string url) ∧
      agentDownload param d dir url = .served filename bytes ∧
      (AgentDist.manifestItem p).find? "sha256" = some (.string (sha256 bytes)) ∧
      (AgentDist.manifestItem p).find? "size_bytes" = some (.int bytes.length)) ↔
    ∃ filename bytes, agentDownload param d dir (AgentDist.downloadUrl p.id) = .served filename bytes ∧
      p.sha256 = sha256 bytes ∧ p.sizeBytes = bytes.length := by
  simp [AgentDist.manifestItem]

/-- **Digests of what is served.** After a scan the manifest has distinct ids and states digest and size of what is
served exactly if no staged file is another one with `.exe`, and each URL names its platform. -/
theorem digestsServed_iff (sha256 : Bytes → String) (param : String → String) (dir : AgentDir) :
    DigestsServed sha256 param dir ↔ NoTwins dir ∧ UrlsName sha256 param dir := by
  have hids : ((manifestItems (scanAgents sha256 dir).manifest).map fun item => item.find? "id").Nodup ↔
      NoTwins dir := by
    have hmap : (manifestItems (scanAgents sha256 dir).manifest).map (fun item => item.find? "id") =
        ((scanAgents sha256 dir).platforms.map AgentPlatform.id).map fun id => some (.string id) := by
      rw [manifestItems_manifest, List.map_map, List.map_map]
      refine List.map_congr_left fun p _ => ?_
      simp [AgentDist.manifestItem]
    rw [hmap, List.nodup_map_iff fun a b h => by simpa using h, ids_nodup_iff]
  unfold DigestsServed
  dsimp only
  rw [hids]
  refine and_congr_right fun htwins => ?_
  have hnodup : ((scanAgents sha256 dir).platforms.map AgentPlatform.id).Nodup := ids_nodup_iff.2 htwins
  have hfind {id : String} {q : AgentPlatform} :
      (scanAgents sha256 dir).find id = some q ↔ q ∈ (scanAgents sha256 dir).platforms ∧ q.id = id :=
    KeyedTable.find?_eq_some_iff (⟨_, hnodup⟩ : KeyedTable AgentPlatform.id)
  rw [manifestItems_manifest]
  simp only [List.forall_mem_map, served_item_iff]
  constructor
  · intro h e he p hp
    obtain ⟨filename, bytes, hserved, hsha, hsize⟩ := h p (mem_platforms.2 ⟨e, he, hp⟩)
    cases hq : (scanAgents sha256 dir).find (param (AgentDist.downloadUrl p.id)) with
    | none =>
      rw [agentDownload, hq] at hserved
      cases hserved
    | some q =>
      obtain ⟨bytes', hserved', hsha', hsize'⟩ := agentDownload_of_find hq
      rw [hserved'] at hserved
      cases hserved
      obtain ⟨hmem, hid⟩ := hfind.1 hq
      obtain ⟨f, hf, hq⟩ := mem_platforms.1 hmem
      exact ⟨f, hf, q, hq, hid, hsha'.trans hsha.symm, hsize'.trans hsize.symm⟩
  · intro h p hmem
    obtain ⟨e, he, hp⟩ := mem_platforms.1 hmem
    obtain ⟨f, hf, q, hq, hid, hsha, hsize⟩ := h e he p hp
    obtain ⟨bytes, hserved, hsha', hsize'⟩ :=
      agentDownload_of_find (hfind.2 ⟨mem_platforms.2 ⟨f, hf, hq⟩, hid⟩)
    exact ⟨q.filename, bytes, hserved, hsha.symm.trans hsha', hsize.symm.trans hsize'⟩

/-- A binary under its name and with `.exe`. -/
def twinDir : AgentDir where
  entries := ⟨[{ name := "pudim-agent-linux-amd64", bytes := some [127] },
    { name := "pudim-agent-linux-amd64.exe", bytes := some [77, 90] }], by decide⟩

/-- The digests of the two binaries. -/
def twinSha256 (bytes : Bytes) : String :=
  if bytes = [127] then "620bfdaa346b088fb49998d92f19a7eaf6bfc2fb0aee015753966da1028cb731"
  else "9b8db510ef42b8ed54a3712636fda55a4f8cfcd5493e20b74ab00cd4f3979f2d"

/-- The text behind `platform=`. -/
def plainParam (url : String) : String := String.ofList ((url.toList.dropWhile (· ≠ '=')).drop 1)

/-- **One id, two digests.** The manifest has the id twice, and what is served has the first digest only. -/
theorem twin_digests :
    (scanAgents twinSha256 twinDir).platforms.map (fun p => (p.id, p.sha256)) =
        [("linux-amd64", "620bfdaa346b088fb49998d92f19a7eaf6bfc2fb0aee015753966da1028cb731"),
          ("linux-amd64", "9b8db510ef42b8ed54a3712636fda55a4f8cfcd5493e20b74ab00cd4f3979f2d")] ∧
      agentDownload plainParam (scanAgents twinSha256 twinDir) twinDir (AgentDist.downloadUrl "linux-amd64") =
        .served "pudim-agent-linux-amd64" [127] ∧
      ¬ DigestsServed twinSha256 plainParam twinDir := by
  refine ⟨by decide +kernel, by decide +kernel, fun h => ?_⟩
  have hids := h.1
  rw [manifestItems_manifest] at hids
  exact absurd hids (by decide +kernel)

end PudimNetMon.Installers
