import Mathlib.Data.List.Nodup
import PudimNetMon.Lib.Json
import PudimNetMon.Lib.Search

/-!
# Staged installers (`installer_dist.cpp`)

`Scan` lists the installers of a directory with their digests, one for each platform; the manifest states what it has
found, `Load` reads the file of a platform as it is then.
-/

namespace PudimNetMon.Installers

/-- The bytes of a file. -/
abbrev Bytes := List UInt8

/-- An installer in the directory. -/
structure StagedFile where
  name : String
  bytes : Bytes
  /-- The version of the release that it was downloaded from. -/
  origin : String
  deriving DecidableEq

structure InstallerDir where
  isDirectory : Bool := true
  files : List StagedFile := []
  versionTxt : Option (List Char) := none
  deriving DecidableEq

/-- A file under its name; one that was there is gone. -/
def replaceFile (f : StagedFile) (files : List StagedFile) : List StagedFile :=
  files.filter (fun g => g.name ≠ f.name) ++ [f]

theorem forall_replaceFile {p : StagedFile → Prop} {f : StagedFile} {files : List StagedFile} :
    (∀ g ∈ replaceFile f files, p g) ↔ p f ∧ ∀ g ∈ files, g.name ≠ f.name → p g := by
  simp only [replaceFile, List.mem_append, List.mem_filter, List.mem_singleton, decide_eq_true_eq]
  constructor
  · exact fun h => ⟨h f (.inr rfl), fun g hg hne => h g (.inl ⟨hg, hne⟩)⟩
  · rintro ⟨hf, hrest⟩ g (⟨hg, hne⟩ | rfl)
    · exact hrest g hg hne
    · exact hf

structure InstallerArtifact where
  id : String
  os : String
  arch : String
  archLabel : String
  kind : String
  filename : String
  extension : String
  sha256 : String := ""
  sizeBytes : Nat := 0
  deriving DecidableEq

def archLabel (arch : String) : String :=
  if arch = "amd64" then "x86_64" else if arch = "arm64" then "aarch64" else arch

/-- What is behind the first occurrence of a marker. -/
def behind (marker : List Char) : List Char → Option (List Char)
  | [] => if marker = [] then some [] else none
  | c :: cs => if marker.isPrefixOf (c :: cs) then some ((c :: cs).drop marker.length) else behind marker cs

theorem behind_eq_find (marker l : List Char) :
    behind marker l = (Search.find marker l).map fun p => p.2.drop marker.length := by
  induction l with
  | nil => cases marker <;> rfl
  | cons c cs ih =>
    rw [behind, Search.find]
    split
    · rfl
    · rw [ih, Option.map_map]
      rfl

/-- The marker is found where it is put exactly if no occurrence begins before it. -/
theorem behind_eq_some_iff {marker stem rest : List Char} (hne : marker ≠ []) :
    behind marker (stem ++ (marker ++ rest)) = some rest ↔ ¬ marker <:+: stem ++ marker.dropLast := by
  rw [behind_eq_find, Option.map_eq_some_iff]
  constructor
  · rintro ⟨⟨front, found⟩, hfind, hdrop⟩
    obtain ⟨b, rfl⟩ := Search.exists_of_find hfind
    rw [List.drop_left] at hdrop
    subst hdrop
    obtain ⟨heq, hno⟩ := (Search.find_eq_some_iff hne).1 hfind
    -- the rest is as long as the one that was put there, so it begins at the same place
    rwa [List.append_cancel_right heq]
  · intro hno
    exact ⟨(stem, marker ++ rest), (Search.find_eq_some_iff hne).2 ⟨rfl, hno⟩, List.drop_left⟩

/-- The marker is found where it is put, if no occurrence begins before. -/
theorem behind_append {marker stem : List Char} (hne : marker ≠ [])
    (hstem : behind marker (stem ++ marker.dropLast) = none) (rest : List Char) :
    behind marker (stem ++ (marker ++ rest)) = some rest := by
  rw [behind_eq_find, Option.map_eq_none_iff, Search.find_eq_none_iff] at hstem
  exact (behind_eq_some_iff hne).2 hstem

/-- A text without a suffix, if it has it. -/
def dropSuffix (suffix s : List Char) : List Char :=
  if suffix.isSuffixOf s then s.take (s.length - suffix.length) else s

theorem dropSuffix_append (s suffix : List Char) : dropSuffix suffix (s ++ suffix) = s := by
  unfold dropSuffix
  rw [if_pos (List.isSuffixOf_iff_suffix.2 (List.suffix_append s suffix)), List.length_append, Nat.add_sub_cancel,
    List.take_left]

/-- `ParseInstallerFilename` -/
def parseInstallerFilename (name : String) : Option InstallerArtifact :=
  let chars := name.toList
  if "PudimNetMon-Agent-Setup".toList.isPrefixOf chars && ".exe".toList.isSuffixOf chars then
    some { id := "windows-amd64", os := "windows", arch := "amd64", archLabel := "x86_64", kind := "setup"
           filename := name, extension := ".exe" }
  else if !"pudimnetmon-agent-".toList.isPrefixOf chars then none
  else
    match behind "-linux-".toList chars with
    | none => none
    | some rest =>
      if ".run".toList.isSuffixOf chars then
        let arch := rest.take (rest.length - ".run".toList.length)
        if arch.isEmpty || arch.contains '-' then none
        else
          let arch := String.ofList arch
          some { id := "linux-" ++ arch, os := "linux", arch, archLabel := archLabel arch, kind := "run"
                 filename := name, extension := ".run" }
      else none

/-- `std::isspace` -/
def isSpace (c : Char) : Bool := c = ' ' || (9 ≤ c.toNat && c.toNat ≤ 13)

/-- `Trim` -/
def trim (s : List Char) : List Char := ((s.dropWhile isSpace).reverse.dropWhile isSpace).reverse

/-- The version that a text in `version.txt` names. -/
def namedVersion (text : Option (List Char)) : String :=
  let v := trim (text.getD [])
  if v.isEmpty then "0.1.0" else String.ofList v

def InstallerDir.version (dir : InstallerDir) : String := namedVersion dir.versionTxt

def validConfigToken (token : String) : Bool :=
  let size := token.utf8ByteSize
  if size = 0 || size > 256 then false
  else token.toList.all fun c => c.isAlphanum || c = '-' || c = '_'

/-- `FindUnlocked` -/
def findArtifact (artifacts : List InstallerArtifact) (platform : String) : Option InstallerArtifact :=
  artifacts.find? fun a => a.id = platform

structure InstallerDist where
  version : String := ""
  artifacts : List InstallerArtifact := []

section

variable (sha256 : Bytes → String)

/-- The artifact of a file. -/
def artifactOf (f : StagedFile) : Option InstallerArtifact :=
  (parseInstallerFilename f.name).map fun a => { a with sha256 := sha256 f.bytes, sizeBytes := f.bytes.length }

/-- The loop of `Scan` over the files that are read, in the order of the directory. -/
def scanFiles : List InstallerArtifact → List StagedFile → List InstallerArtifact
  | artifacts, [] => artifacts
  | artifacts, f :: fs =>
    match artifactOf sha256 f with
    | none => scanFiles artifacts fs
    | some a => if (findArtifact artifacts a.id).isSome then scanFiles artifacts fs else scanFiles (artifacts ++ [a]) fs

/-- `Scan` -/
def scan (dir : InstallerDir) (listing : List StagedFile) : InstallerDist :=
  if dir.isDirectory then { version := dir.version, artifacts := scanFiles sha256 [] listing }
  else { version := "0.1.0", artifacts := [] }

end

namespace InstallerDist

def find (d : InstallerDist) (platform : String) : Option InstallerArtifact := findArtifact d.artifacts platform

/-- `Load`: the bytes that the platform's file has now. -/
def load (d : InstallerDist) (dir : InstallerDir) (platform : String) : Option Bytes :=
  (d.find platform).bind fun a => (dir.files.find? fun f => f.name = a.filename).map StagedFile.bytes

/-- `DownloadName` -/
def downloadName (d : InstallerDist) (platform config : String) : String :=
  match d.find platform with
  | none => ""
  | some a =>
    if validConfigToken config then
      let stem := a.filename.toList.take (a.filename.toList.length - a.extension.toList.length)
      String.ofList stem ++ "-cfg-" ++ config ++ a.extension
    else a.filename

/-- The stem of an installer's file name. -/
def stem (a : InstallerArtifact) : List Char :=
  a.filename.toList.take (a.filename.toList.length - a.extension.toList.length)

theorem toList_downloadName {d : InstallerDist} {platform config : String} {a : InstallerArtifact}
    (hfind : d.find platform = some a) (hvalid : validConfigToken config = true) :
    (d.downloadName platform config).toList =
      stem a ++ ("-cfg-".toList ++ config.toList) ++ a.extension.toList := by
  unfold downloadName
  rw [hfind]
  dsimp only
  rw [if_pos hvalid, String.toList_append, String.toList_append, String.toList_append, String.toList_ofList,
    ← List.append_assoc]
  rfl

def manifestItem (a : InstallerArtifact) : Json :=
  Json.null
    |>.set "id" (.string a.id)
    |>.set "os" (.string a.os)
    |>.set "arch" (.string a.archLabel)
    |>.set "kind" (.string a.kind)
    |>.set "filename" (.string a.filename)
    |>.set "size_bytes" (.int a.sizeBytes)
    |>.set "sha256" (.string a.sha256)
    |>.set "download_url" (.string ("/api/installers/download?platform=" ++ a.id))

/-- `ManifestJson` -/
def manifest (d : InstallerDist) : Json :=
  Json.null |>.set "version" (.string d.version) |>.set "installers" (.array (d.artifacts.map manifestItem))

end InstallerDist

/-! ## What a scan finds -/

/-- The artifact of a name keeps the name. -/
theorem parseInstallerFilename_filename {name : String} {a : InstallerArtifact}
    (h : parseInstallerFilename name = some a) : a.filename = name := by
  unfold parseInstallerFilename at h
  dsimp only at h
  split at h
  · cases h
    rfl
  split at h
  · cases h
  split at h
  · cases h
  split at h
  · split at h
    · cases h
    · cases h
      rfl
  · cases h

/-- The artifact states these bytes. -/
def InstallerArtifact.Matches (sha256 : Bytes → String) (a : InstallerArtifact) (bytes : Bytes) : Prop :=
  a.sha256 = sha256 bytes ∧ a.sizeBytes = bytes.length

section

variable {sha256 : Bytes → String} {a b : InstallerArtifact} {f : StagedFile}

theorem artifactOf_filename (h : artifactOf sha256 f = some a) : a.filename = f.name := by
  obtain ⟨b, hb, rfl⟩ := Option.map_eq_some_iff.1 h
  have hname := parseInstallerFilename_filename hb
  exact hname

theorem artifactOf_matches (h : artifactOf sha256 f = some a) : a.Matches sha256 f.bytes := by
  obtain ⟨b, -, rfl⟩ := Option.map_eq_some_iff.1 h
  exact ⟨rfl, rfl⟩

/-- A scan lists artifacts of the files it reads, one for each platform. -/
theorem scanFiles_spec (fs : List StagedFile) : ∀ artifacts : List InstallerArtifact,
    (artifacts.map InstallerArtifact.id).Nodup →
      ((scanFiles sha256 artifacts fs).map InstallerArtifact.id).Nodup ∧
        ∀ a ∈ scanFiles sha256 artifacts fs, a ∈ artifacts ∨ ∃ f ∈ fs, artifactOf sha256 f = some a := by
  induction fs with
  | nil => exact fun artifacts hids => ⟨hids, fun a ha => .inl ha⟩
  | cons f fs ih =>
    intro artifacts hids
    have hskip : ((scanFiles sha256 artifacts fs).map InstallerArtifact.id).Nodup ∧
        ∀ a ∈ scanFiles sha256 artifacts fs, a ∈ artifacts ∨ ∃ g ∈ f :: fs, artifactOf sha256 g = some a := by
      obtain ⟨hnodup, hfrom⟩ := ih artifacts hids
      exact ⟨hnodup, fun a ha => (hfrom a ha).imp_right fun ⟨g, hg, ha⟩ => ⟨g, List.mem_cons_of_mem f hg, ha⟩⟩
    unfold scanFiles
    cases hf : artifactOf sha256 f with
    | none => exact hskip
    | some b =>
      dsimp only
      split
      · exact hskip
      · rename_i hnew
        have hids' : ((artifacts ++ [b]).map InstallerArtifact.id).Nodup := by
          rw [List.map_append, List.nodup_append]
          refine ⟨hids, List.nodup_singleton _, fun id hid id' hid' heq => hnew ?_⟩
          obtain ⟨a, ha, rfl⟩ := List.mem_map.1 hid
          rw [List.map_singleton, List.mem_singleton] at hid'
          exact List.find?_isSome.2 ⟨a, ha, decide_eq_true (heq.trans hid')⟩
        obtain ⟨hnodup, hfrom⟩ := ih (artifacts ++ [b]) hids'
        refine ⟨hnodup, fun a ha => ?_⟩
        rcases hfrom a ha with hmem | ⟨g, hg, ha⟩
        · rcases List.mem_append.1 hmem with hmem | hmem
          · exact .inl hmem
          · rw [List.mem_singleton] at hmem
            exact .inr ⟨f, List.mem_cons_self, hmem ▸ hf⟩
        · exact .inr ⟨g, List.mem_cons_of_mem f hg, ha⟩

/-- What a scan of a directory lists. -/
theorem scan_spec (dir : InstallerDir) (listing : List StagedFile) :
    ((scan sha256 dir listing).artifacts.map InstallerArtifact.id).Nodup ∧
      ∀ a ∈ (scan sha256 dir listing).artifacts, ∃ f ∈ listing, artifactOf sha256 f = some a := by
  unfold scan
  split
  · obtain ⟨hnodup, hfrom⟩ := @scanFiles_spec sha256 listing [] List.nodup_nil
    exact ⟨hnodup, fun a ha => (hfrom a ha).resolve_left List.not_mem_nil⟩
  · exact ⟨List.nodup_nil, nofun⟩

/-- The manifest has one item for the platform, and it states these bytes. -/
def States (sha256 : Bytes → String) (manifest : Json) (platform : String) (bytes : Bytes) : Prop :=
  ∃ items, manifest.find? "installers" = some (.array items) ∧
    (∃ item ∈ items, item.find? "id" = some (.string platform)) ∧
    ∀ item ∈ items, item.find? "id" = some (.string platform) →
      item.find? "sha256" = some (.string (sha256 bytes)) ∧ item.find? "size_bytes" = some (.int bytes.length)

/-- The manifest states bytes that every artifact of their platform matches. -/
theorem states_of_matches {d : InstallerDist} {platform : String} {bytes : Bytes} (ha : d.find platform = some a)
    (h : ∀ a ∈ d.artifacts, a.id = platform → a.Matches sha256 bytes) :
    States sha256 d.manifest platform bytes := by
  refine ⟨d.artifacts.map InstallerDist.manifestItem, by simp [InstallerDist.manifest], ?_, ?_⟩
  · have hid : a.id = platform := by simpa using List.find?_some ha
    refine ⟨_, List.mem_map_of_mem (List.mem_of_find?_eq_some ha), ?_⟩
    simp [InstallerDist.manifestItem, hid]
  · intro item hitem hid
    obtain ⟨b, hb, rfl⟩ := List.mem_map.1 hitem
    obtain ⟨hsha, hsize⟩ := h b hb (by simpa [InstallerDist.manifestItem] using hid)
    simp [InstallerDist.manifestItem, hsha, hsize]

end

end PudimNetMon.Installers
