import PudimNetMon.Installers.RunWrapper
import PudimNetMon.Installers.SetupProgram
import PudimNetMon.Lib.KeyedTable

/-!
# The names of downloads

The collector puts a token into the name of an installer (`DownloadName`), the installers take it out again, and the
dashboard shows the name that it expects (`decoratedInstallerFilename`). The token comes out where the stem neither has
the marker nor ends in all of it but the last dash (`download_splits_iff`); the dashboard's name is the collector's
where the query string in the token has at most 192 characters (`shown_iff`).
-/

namespace PudimNetMon.Installers

open Js (Numbers)
open InstallerDist (stem)

/-! ## The rule of the installers -/

/-- What is behind the first `-cfg-` of a file name, up to the extension. -/
def tokenIn (extension name : List Char) : Option (List Char) := behind "-cfg-".toList (dropSuffix extension name)

/-- A text without the first occurrence of a piece. -/
def without (piece text : List Char) : List Char :=
  match Search.find piece text with
  | some (front, rest) => front ++ rest.drop piece.length
  | none => text

/-- The token is read back from the name, which is the file's without it. -/
structure Splits (extension file token name : List Char) : Prop where
  tokenIn_name : tokenIn extension name = some token
  without_token : without ("-cfg-".toList ++ token) name = file

theorem without_append {piece front rest : List Char} (hne : piece ≠ []) (h : ¬ piece <:+: front ++ piece.dropLast) :
    without piece (front ++ (piece ++ rest)) = front ++ rest := by
  unfold without
  rw [(Search.find_eq_some_iff hne).2 ⟨rfl, h⟩]
  dsimp only
  rw [List.drop_left]

/-! ## Staged files -/

theorem parseInstallerFilename_extension {name : String} {a : InstallerArtifact}
    (h : parseInstallerFilename name = some a) :
    (a.extension = ".exe" ∨ a.extension = ".run") ∧ a.extension.toList <:+ name.toList := by
  unfold parseInstallerFilename at h
  dsimp only at h
  split at h
  · rename_i hsetup
    cases h
    exact ⟨.inl rfl, List.isSuffixOf_iff_suffix.1 (Bool.and_eq_true_iff.1 hsetup).2⟩
  split at h
  · cases h
  split at h
  · cases h
  split at h
  · rename_i hrun
    split at h
    · cases h
    · cases h
      exact ⟨.inr rfl, List.isSuffixOf_iff_suffix.1 hrun⟩
  · cases h

section

variable {sha256 : Bytes → String} {f : StagedFile} {a : InstallerArtifact}

theorem artifactOf_extension (h : artifactOf sha256 f = some a) :
    (a.extension = ".exe" ∨ a.extension = ".run") ∧ a.extension.toList <:+ f.name.toList := by
  obtain ⟨b, hb, rfl⟩ := Option.map_eq_some_iff.1 h
  exact (parseInstallerFilename_extension hb :)

theorem stem_append_extension (h : artifactOf sha256 f = some a) :
    stem a ++ a.extension.toList = f.name.toList := by
  obtain ⟨s, hs⟩ := (artifactOf_extension h).2
  unfold stem
  rw [artifactOf_filename h, ← hs, List.length_append, Nat.add_sub_cancel, List.take_left]

/-! ## The token of a download -/

theorem not_infix_marker_iff (s : List Char) :
    ¬ "-cfg-".toList <:+: s ++ "-cfg-".toList.dropLast ↔ ¬ "-cfg-".toList <:+: s ∧ ¬ "-cfg".toList <:+ s := by
  constructor
  · intro h
    refine ⟨fun hinside => h (hinside.trans (List.prefix_append _ _).isInfix), ?_⟩
    rintro ⟨t, rfl⟩
    refine h ⟨t, "cfg".toList, ?_⟩
    rw [List.append_assoc, List.append_assoc]
    rfl
  · rintro ⟨hinside, hsuffix⟩ h
    rcases List.infix_append_iff_ne_nil.1 h with h | h | ⟨x, y, hx, hy, hxy, hxs, hys⟩
    · exact hinside h
    · exact absurd h.length_le (by decide)
    · -- across the two, all of the marker but its last dash is in the first
      have hcut : ∀ n < 5, 0 < n → ("-cfg-".toList.drop n).isPrefixOf "-cfg".toList = true → n = 4 := by decide
      have hlength : x.length + y.length = 5 := by
        rw [← List.length_append, ← hxy]
        rfl
      have hypos := List.length_pos_iff.2 hy
      have hydrop : y = "-cfg-".toList.drop x.length := by rw [hxy, List.drop_left]
      have hxlength := hcut x.length (by omega) (List.length_pos_iff.2 hx)
        (List.isPrefixOf_iff_prefix.2 (hydrop ▸ hys))
      have hxtake : x = "-cfg-".toList.take x.length := by rw [hxy, List.take_left]
      rw [hxlength] at hxtake
      rw [hxtake] at hxs
      exact hsuffix hxs

variable {d : InstallerDist} {platform token : String}

/-- **The token is taken out of the name of its download**, and leaves the name of the file, exactly where the marker is
neither in the stem nor begins in it. -/
theorem download_splits_iff (hstaged : artifactOf sha256 f = some a) (hfind : d.find platform = some a)
    (hvalid : validConfigToken token = true) :
    Splits a.extension.toList f.name.toList token.toList (d.downloadName platform token).toList ↔
      ¬ "-cfg-".toList <:+: stem a ∧ ¬ "-cfg".toList <:+ stem a := by
  have htoken : tokenIn a.extension.toList (d.downloadName platform token).toList = some token.toList ↔
      ¬ "-cfg-".toList <:+: stem a ++ "-cfg-".toList.dropLast := by
    unfold tokenIn
    rw [InstallerDist.toList_downloadName hfind hvalid, dropSuffix_append]
    exact behind_eq_some_iff (by decide)
  rw [← not_infix_marker_iff, ← htoken]
  constructor
  · exact Splits.tokenIn_name
  · intro h
    refine ⟨h, ?_⟩
    have hno : ¬ ("-cfg-".toList ++ token.toList) <:+: stem a ++ ("-cfg-".toList ++ token.toList).dropLast :=
      Search.not_infix_longer (by decide) (htoken.1 h)
    rw [InstallerDist.toList_downloadName hfind hvalid, List.append_assoc, without_append (by simp) hno,
      stem_append_extension hstaged]

/-- A setup program and a token, with the name of its download. -/
theorem download_splits_iff_staged :
    Splits ".exe".toList "PudimNetMon-Agent-Setup-1.2.exe".toList "Y29sbA".toList
        (InstallerDist.downloadName
          (scan (fun _ => "") {} [{ name := "PudimNetMon-Agent-Setup-1.2.exe", bytes := [], origin := "1.2" }])
          "windows-amd64" "Y29sbA").toList ↔
      ¬ "-cfg-".toList <:+: "PudimNetMon-Agent-Setup-1.2".toList ∧
        ¬ "-cfg".toList <:+ "PudimNetMon-Agent-Setup-1.2".toList :=
  have hstaged : artifactOf (fun _ => "") { name := "PudimNetMon-Agent-Setup-1.2.exe", bytes := [], origin := "1.2" } =
      some { id := "windows-amd64", os := "windows", arch := "amd64", archLabel := "x86_64", kind := "setup"
             filename := "PudimNetMon-Agent-Setup-1.2.exe", extension := ".exe" } := rfl
  download_splits_iff hstaged rfl (by decide)

/-- A version that has the marker: the token is read with the end of the version before it. -/
theorem marked_version_kept : ¬ ∀ (f : StagedFile) (a : InstallerArtifact) (d : InstallerDist)
    (platform token : String),
    artifactOf (fun _ => "") f = some a → d.find platform = some a → validConfigToken token = true →
      Splits a.extension.toList f.name.toList token.toList (d.downloadName platform token).toList := by
  intro h
  have hsplits := h { name := "PudimNetMon-Agent-Setup-cfg-beta.exe", bytes := [], origin := "" } _
    (scan (fun _ => "") {} [{ name := "PudimNetMon-Agent-Setup-cfg-beta.exe", bytes := [], origin := "" }])
    "windows-amd64" "Y29sbA" rfl rfl (by decide)
  exact absurd hsplits.tokenIn_name (by decide)

/-! ## The name that the dashboard shows -/

/-- `decoratedInstallerFilename` -/
def decoratedInstallerFilename (filename token : String) : String :=
  match [".tar.gz", ".run", ".exe", ".sh"].find? fun ext => ext.toList.isSuffixOf filename.toList with
  | some ext =>
    String.ofList (filename.toList.take (filename.toList.length - ext.toList.length)) ++ "-cfg-" ++ token ++ ext
  | none => filename ++ "-cfg-" ++ token

/-- The settings of a deploy card: the collector is the host of the page, a node that is empty is omitted. -/
def cardConfig (host nodeId : String) : InstallConfig :=
  { collector := host ++ ":50051", node := if nodeId = "" then none else some nodeId }

/-- The length of the query string in a token. -/
def queryLength (numbers : Numbers) (config : InstallConfig) : Nat :=
  10 + FormUrl.writtenLength config.collector.toList +
    (config.sent.node.elim 0 fun node => 6 + FormUrl.writtenLength node.toList) +
    (config.sent.interval.elim 0 fun d => 10 + FormUrl.writtenLength (numbers.toText d).toList)

theorem length_serialize_configParams (numbers : Numbers) (config : InstallConfig) :
    (FormUrl.serialize (configParams numbers config)).length = queryLength numbers config := by
  have hcollector : FormUrl.writtenLength "collector".toList = 9 := by decide
  have hnode : FormUrl.writtenLength "node".toList = 4 := by decide
  have hinterval : FormUrl.writtenLength "interval".toList = 8 := by decide
  rw [configParams_eq, queryLength]
  cases config.sent.node <;> cases config.sent.interval <;>
    simp only [Option.map_none, Option.map_some, Option.toList_none, Option.toList_some, List.nil_append,
      List.append_nil, List.singleton_append, FormUrl.length_serialize_singleton, FormUrl.length_serialize_cons_cons,
      FormUrl.length_pair, hcollector, hnode, hinterval, Option.elim_none, Option.elim_some] <;> omega

theorem length_le_queryLength {config : InstallConfig} {node : String} (h : config.sent.node = some node)
    (numbers : Numbers) : node.length ≤ queryLength numbers config := by
  have hnode : node.toList.length ≤ FormUrl.writtenLength node.toList :=
    Nat.le_trans (Utf8.length_le_length_encode node.toList) (Nat.le_add_right _ _)
  rw [String.length_toList] at hnode
  unfold queryLength
  rw [h]
  simp only [Option.elim_some]
  omega

/-- Four characters of a token are three of the query string. -/
theorem validConfigToken_iff (numbers : Numbers) (config : InstallConfig) :
    validConfigToken (encodeInstallConfig numbers config) = true ↔ queryLength numbers config ≤ 192 := by
  rw [validConfigToken_token, ← String.length_toList, toList_token, List.length_map, Base64.length_sextets_eq,
    length_serialize_configParams]
  omega

theorem decoratedInstallerFilename_eq (hstaged : artifactOf sha256 f = some a) (token : String) :
    (decoratedInstallerFilename a.filename token).toList =
      stem a ++ ("-cfg-".toList ++ token.toList) ++ a.extension.toList := by
  obtain ⟨hcases, hsuffix⟩ := artifactOf_extension hstaged
  rw [← artifactOf_filename hstaged] at hsuffix
  have hother : ∀ ext : String, ¬ ext.toList <:+ a.extension.toList → ¬ a.extension.toList <:+ ext.toList →
      ext.toList.isSuffixOf a.filename.toList = false := by
    intro ext hshort hlong
    rw [Bool.eq_false_iff]
    intro h
    rcases List.suffix_or_suffix_of_suffix (List.isSuffixOf_iff_suffix.1 h) hsuffix with h | h
    · exact hshort h
    · exact hlong h
  have hfind : ([".tar.gz", ".run", ".exe", ".sh"].find? fun ext => ext.toList.isSuffixOf a.filename.toList) =
      some a.extension := by
    have hself := List.isSuffixOf_iff_suffix.2 hsuffix
    rcases hcases with hext | hext
    · rw [hext] at hother hself ⊢
      simp only [List.find?_cons, hother ".tar.gz" (by decide) (by decide),
        hother ".run" (by decide) (by decide), hself]
    · rw [hext] at hother hself ⊢
      simp only [List.find?_cons, hother ".tar.gz" (by decide) (by decide), hself]
  unfold decoratedInstallerFilename
  rw [hfind]
  dsimp only
  rw [String.toList_append, String.toList_append, String.toList_append, String.toList_ofList, ← List.append_assoc]
  rfl

/-- The platform of a listed artifact is found. -/
theorem find_of_mem {dir : InstallerDir} {listing : List StagedFile} (ha : a ∈ (scan sha256 dir listing).artifacts) :
    (scan sha256 dir listing).find a.id = some a := by
  have hids : ((scan sha256 dir listing).artifacts.map InstallerArtifact.id).Nodup := (scan_spec dir listing).1
  have hfind := (KeyedTable.mk _ hids).find?_eq_some_iff.2 ⟨ha, rfl⟩
  exact hfind

/-- A token that the collector does not accept is not in the name. -/
theorem shown_iff_valid {dir : InstallerDir} {listing : List StagedFile}
    (ha : a ∈ (scan sha256 dir listing).artifacts) (token : String) :
    decoratedInstallerFilename a.filename token = (scan sha256 dir listing).downloadName a.id token ↔
      validConfigToken token = true := by
  obtain ⟨f, -, hstaged⟩ := (scan_spec dir listing).2 a ha
  constructor
  · intro h
    by_contra hvalid
    have hplain : (scan sha256 dir listing).downloadName a.id token = a.filename := by
      unfold InstallerDist.downloadName
      rw [find_of_mem ha]
      dsimp only
      rw [if_neg hvalid]
    have hlength := congrArg (fun s => s.toList.length) (h.trans hplain)
    rw [decoratedInstallerFilename_eq hstaged, artifactOf_filename hstaged, ← stem_append_extension hstaged] at hlength
    simp only [List.length_append] at hlength
    have hmarker : "-cfg-".toList.length = 5 := by decide
    omega
  · intro hvalid
    rw [← String.toList_inj, decoratedInstallerFilename_eq hstaged,
      InstallerDist.toList_downloadName (find_of_mem ha) hvalid]

/-- **The dashboard shows the name of the download** up to 192 characters of the query string in the token. -/
theorem shown_iff (numbers : Numbers) (config : InstallConfig) {dir : InstallerDir} {listing : List StagedFile}
    (ha : a ∈ (scan sha256 dir listing).artifacts) :
    decoratedInstallerFilename a.filename (encodeInstallConfig numbers config) =
        (scan sha256 dir listing).downloadName a.id (encodeInstallConfig numbers config) ↔
      queryLength numbers config ≤ 192 := by
  rw [shown_iff_valid ha, validConfigToken_iff]

theorem shown_iff_web01 :
    decoratedInstallerFilename "PudimNetMon-Agent-Setup-1.2.exe"
        (encodeInstallConfig .exact (cardConfig "collector.lan" "web-01")) =
      InstallerDist.downloadName
        (scan (fun _ => "") {} [{ name := "PudimNetMon-Agent-Setup-1.2.exe", bytes := [], origin := "1.2" }])
        "windows-amd64" (encodeInstallConfig .exact (cardConfig "collector.lan" "web-01")) ↔
      queryLength .exact (cardConfig "collector.lan" "web-01") ≤ 192 :=
  have hlisted : { id := "windows-amd64", os := "windows", arch := "amd64", archLabel := "x86_64", kind := "setup"
                   filename := "PudimNetMon-Agent-Setup-1.2.exe", extension := ".exe" : InstallerArtifact } ∈
      (scan (fun _ => "") {}
        [{ name := "PudimNetMon-Agent-Setup-1.2.exe", bytes := [], origin := "1.2" }]).artifacts := List.mem_cons_self
  shown_iff .exact (cardConfig "collector.lan" "web-01") hlisted

/-- The card takes a node of any length, and with a long one the download has its plain name. -/
theorem long_node_plain : ¬ ∀ (host nodeId : String) (dir : InstallerDir) (listing : List StagedFile),
    ∀ a ∈ (scan (fun _ => "") dir listing).artifacts,
      decoratedInstallerFilename a.filename (encodeInstallConfig .exact (cardConfig host nodeId)) =
        (scan (fun _ => "") dir listing).downloadName a.id (encodeInstallConfig .exact (cardConfig host nodeId)) := by
  intro h
  have hshown := h "collector.lan" (String.ofList (List.replicate 200 'n')) {}
    [{ name := "PudimNetMon-Agent-Setup-1.2.exe", bytes := [], origin := "1.2" }] _ List.mem_cons_self
  rw [shown_iff_valid List.mem_cons_self, validConfigToken_iff] at hshown
  have hnode : (cardConfig "collector.lan" (String.ofList (List.replicate 200 'n'))).sent.node =
      some (String.ofList (List.replicate 200 'n')) := by decide +kernel
  have hlength := length_le_queryLength hnode .exact
  rw [String.length_ofList, List.length_replicate] at hlength
  exact absurd (Nat.le_trans hlength hshown) (by decide)

end

end PudimNetMon.Installers
