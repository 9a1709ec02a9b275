import PudimNetMon.Installers.ReleaseMirror

/-!
# Errors of the release mirror

`SyncOnce` catches what the parser throws, but not what reading a document of another shape throws; and it writes
`version.txt` where no installer has arrived, too. A run is contained exactly where the document has the shape that is
read and, if nothing arrives, the version is not written or was there already (`contained_iff`).
-/

namespace PudimNetMon.Installers

/-- The run returns, and it changes nothing if it returns false. -/
structure Contained (lib : JsonLib) (cfg : ReleaseMirrorConfig) (dir : InstallerDir) (a : SyncAnswers) : Prop where
  returns : ∃ mirrored, (syncOnce lib cfg dir a).2 = .ok mirrored
  unchanged : (syncOnce lib cfg dir a).2 = .ok false → (syncOnce lib cfg dir a).1 = dir

/-- An object, with a string under the key or nothing. -/
def HasText (j : Json) (key : String) : Prop := j.isObject = true ∧ j.MemberIs Json.IsString key

/-- The shape of an asset; the address is read of a wanted one only. -/
structure AssetShape (asset : Json) : Prop where
  name : HasText asset "name"
  url : ∀ name ∈ stableAssetNames, asset.find? "name" = some (.string name) → HasText asset "browser_download_url"

/-- The assets of a document, none if it has no such member. -/
def assetsIn (j : Json) : List Json := elements ((j.find? "assets").getD (.array []))

/-- The shape of a release document. -/
structure ReleaseShape (j : Json) : Prop where
  tag : HasText j "tag_name"
  assets : ∀ asset ∈ assetsIn j, AssetShape asset

/-- The run reads a document without an error and, if nothing arrives in the directory, leaves `version.txt`. -/
structure Harmless (cfg : ReleaseMirrorConfig) (dir : InstallerDir) (a : SyncAnswers) (j : Json) : Prop where
  shape : ReleaseShape j
  version : canStage cfg dir = true → arrivals a.download (assetsIn j) 0 = [] →
    ∀ n version, a.versionWritten = some n → versionOf j = .ok version →
      dir.versionTxt = some ((version.toList ++ ['\n']).take n)

/-! ## Shapes -/

theorem hasText_iff {j : Json} {key : String} :
    HasText j key ↔ ∃ text, j.valueOf Json.getString key "" = .ok text := by
  rw [Json.valueOf_returns_iff]
  exact and_congr_right fun _ => forall₂_congr fun _ _ => Json.getString_returns_iff.symm

theorem versionOf_returns_iff {j : Json} : (∃ version, versionOf j = .ok version) ↔ HasText j "tag_name" := by
  rw [hasText_iff]
  constructor
  · rintro ⟨version, h⟩
    obtain ⟨tag, htag, -⟩ := bind_eq_ok.1 h
    exact ⟨tag, htag⟩
  · rintro ⟨tag, htag⟩
    exact ⟨_, bind_eq_ok.2 ⟨tag, htag, rfl⟩⟩

theorem assetsOf_eq {j : Json} (hobject : j.isObject = true) :
    assetsOf j = .ok (assetsIn j) := by
  unfold assetsOf assetsIn Json.valueOf
  rw [if_pos hobject]
  cases j.find? "assets" <;> rfl

theorem wantedAsset_eq {asset : Json} {name : String} (hname : asset.valueOf Json.getString "name" "" = .ok name) :
    wantedAsset asset =
      if name ∈ stableAssetNames then
        (asset.valueOf Json.getString "browser_download_url" "").map fun url =>
          if url.isEmpty then none else some (name, url)
      else .ok none := by
  have hempty : "" ∉ stableAssetNames := by decide
  unfold wantedAsset
  rw [hname]
  show (if (name.isEmpty || !stableAssetNames.contains name) = true then _ else _) = _
  by_cases hstable : name ∈ stableAssetNames
  · have hne : name.isEmpty = false := by
      rw [Bool.eq_false_iff]
      intro h
      rw [String.isEmpty_iff] at h
      exact hempty (h ▸ hstable)
    rw [if_neg (by simp [hne, hstable]), if_pos hstable]
    cases asset.valueOf Json.getString "browser_download_url" "" <;> rfl
  · rw [if_pos (by simp [hstable]), if_neg hstable]
    rfl

/-- An asset is read without an exception exactly in this shape. -/
theorem wantedAsset_isOk_iff {asset : Json} : (wantedAsset asset).isOk = true ↔ AssetShape asset := by
  cases hname : asset.valueOf Json.getString "name" "" with
  | error e =>
    have hthrown : wantedAsset asset = .error e := by
      unfold wantedAsset
      rw [hname]
      rfl
    rw [hthrown]
    constructor
    · rintro ⟨⟩
    · intro h
      obtain ⟨name, hread⟩ := hasText_iff.1 h.name
      rw [hname] at hread
      cases hread
  | ok name =>
    have hread := Json.valueOf_eq_ok_iff.1 hname
    rw [wantedAsset_eq hname]
    split
    · rename_i hstable
      have hurl : ((asset.valueOf Json.getString "browser_download_url" "").map fun url =>
          if url.isEmpty then none else some (name, url)).isOk = true ↔ HasText asset "browser_download_url" := by
        rw [hasText_iff]
        cases asset.valueOf Json.getString "browser_download_url" "" <;>
          simp [Except.map, Except.isOk, Except.toBool]
      rw [hurl]
      constructor
      · exact fun h => ⟨hasText_iff.2 ⟨name, hname⟩, fun _ _ _ => h⟩
      · intro h
        obtain ⟨-, ⟨-, rfl⟩ | ⟨w, hfound, hget⟩⟩ := hread
        · exact absurd hstable (by decide)
        · obtain rfl := Json.getString_eq_ok.1 hget
          exact h.url name hstable hfound
    · rename_i hother
      refine iff_of_true rfl ⟨hasText_iff.2 ⟨name, hname⟩, fun stable hstable hfound => ?_⟩
      -- a stable name under the key is the name that is read
      obtain ⟨-, ⟨hnone, -⟩ | ⟨w, hsome, hget⟩⟩ := hread
      · rw [hnone] at hfound
        cases hfound
      · obtain rfl := Json.getString_eq_ok.1 hget
        cases hsome.symm.trans hfound
        exact absurd hstable hother

theorem completes_iff {assets : List Json} : Completes assets ↔ ∀ asset ∈ assets, AssetShape asset :=
  forall₂_congr fun _ _ => wantedAsset_isOk_iff

/-! ## The loop -/

section

variable {cfg : ReleaseMirrorConfig} {version : String} {download : Nat → Option Bytes}

theorem mirrorAsset_unstaged {asset : Json} {wanted : Option (String × String)} (h : wantedAsset asset = .ok wanted)
    {dir : InstallerDir} (hstage : canStage cfg dir = false) (answer : Option Bytes) :
    mirrorAsset cfg version asset answer dir = .ok none := by
  unfold mirrorAsset
  rw [h]
  cases wanted with
  | none => rfl
  | some asset => exact if_neg (by rw [hstage]; decide)

theorem mirrorAsset_returns {asset : Json} {wanted : Option (String × String)} (h : wantedAsset asset = .ok wanted)
    (answer : Option Bytes) (dir : InstallerDir) :
    ∃ staged, mirrorAsset cfg version asset answer dir = .ok staged := by
  cases hstage : canStage cfg dir with
  | false => exact ⟨none, mirrorAsset_unstaged h hstage answer⟩
  | true =>
    cases wanted with
    | none => exact ⟨none, mirrorAsset_none h (.inl rfl) dir⟩
    | some asset =>
      cases answer with
      | none => exact ⟨none, mirrorAsset_none h (.inr rfl) dir⟩
      | some bytes => exact ⟨_, mirrorAsset_some h hstage bytes⟩

/-- The loop throws at an asset of another shape only. -/
theorem mirrorLoop_returns_iff (assets : List Json) : ∀ (i : Nat) (dir : InstallerDir) (downloaded : Nat),
    (∃ n, (mirrorLoop cfg version download assets i dir downloaded).2 = .ok n) ↔ Completes assets := by
  induction assets with
  | nil => exact fun i dir downloaded => iff_of_true ⟨downloaded, rfl⟩ (List.forall_mem_nil _)
  | cons asset assets ih =>
    intro i dir downloaded
    unfold mirrorLoop
    cases hwanted : wantedAsset asset with
    | error e =>
      rw [mirrorAsset_error hwanted]
      constructor
      · rintro ⟨n, ⟨⟩⟩
      · intro h
        have hok := h asset List.mem_cons_self
        rw [hwanted] at hok
        cases hok
    | ok wanted =>
      have hcompletes : Completes (asset :: assets) ↔ Completes assets := by
        simp [Completes, hwanted, Except.isOk, Except.toBool]
      rw [hcompletes]
      obtain ⟨staged, hmirror⟩ := @mirrorAsset_returns cfg version asset wanted hwanted (download i) dir
      rw [hmirror]
      cases staged <;> exact ih _ _ _

/-- Nothing is counted exactly if nothing arrives, and then the directory is as it was. -/
theorem mirrorLoop_counts (assets : List Json) : ∀ (i : Nat) (dir dir' : InstallerDir) (downloaded n : Nat),
    mirrorLoop cfg version download assets i dir downloaded = (dir', .ok n) →
      downloaded ≤ n ∧ (n = downloaded → dir' = dir) ∧
        (n = downloaded ↔ (canStage cfg dir = true → arrivals download assets i = [])) := by
  induction assets with
  | nil =>
    intro i dir dir' downloaded n h
    cases h
    exact ⟨Nat.le_refl _, fun _ => rfl, iff_of_true rfl fun _ => rfl⟩
  | cons asset assets ih =>
    intro i dir dir' downloaded n h
    unfold mirrorLoop at h
    unfold arrivals
    cases hwanted : wantedAsset asset with
    | error e =>
      rw [mirrorAsset_error hwanted] at h
      cases h
    | ok wanted =>
      cases hstage : canStage cfg dir with
      | false =>
        rw [mirrorAsset_unstaged hwanted hstage] at h
        obtain ⟨hle, hsame, hcount⟩ := ih (i + 1) dir dir' downloaded n h
        rw [hstage] at hcount
        have hvacuous {p : Prop} : false = true → p := fun h => absurd h Bool.false_ne_true
        exact ⟨hle, hsame, iff_of_true (hcount.2 hvacuous) hvacuous⟩
      | true =>
        cases wanted with
        | none =>
          rw [mirrorAsset_none hwanted (.inl rfl)] at h
          have hrest := ih (i + 1) dir dir' downloaded n h
          rwa [hstage] at hrest
        | some wanted =>
          obtain ⟨name, url⟩ := wanted
          cases hanswer : download i with
          | none =>
            rw [mirrorAsset_none hwanted (.inr hanswer)] at h
            have hrest := ih (i + 1) dir dir' downloaded n h
            rwa [hstage] at hrest
          | some bytes =>
            rw [hanswer, mirrorAsset_some hwanted hstage] at h
            obtain ⟨hle, -, -⟩ := ih (i + 1) _ dir' (downloaded + 1) n h
            exact ⟨by omega, fun _ => by omega,
              iff_of_false (by omega) fun h => absurd (h rfl) (List.cons_ne_nil _ _)⟩

end

/-! ## Runs -/

section

variable {lib : JsonLib} {cfg : ReleaseMirrorConfig} {dir : InstallerDir} {a : SyncAnswers}

theorem writeVersion_eq_iff {version : String} :
    writeVersion cfg version a.versionWritten dir = dir ↔
      (canStage cfg dir = true → ∀ n, a.versionWritten = some n →
        dir.versionTxt = some ((version.toList ++ ['\n']).take n)) := by
  unfold writeVersion
  cases a.versionWritten with
  | none => simp
  | some n =>
    dsimp only
    split
    · rename_i hstage
      obtain ⟨isDirectory, files, versionTxt⟩ := dir
      simp [hstage, eq_comm]
    · rename_i hstage
      simp [hstage]

theorem releaseOf_of_shape {text : String} {j : Json} (hbody : a.body = some text) (hparse : lib.parse text = .ok j)
    {version : String} (hversion : versionOf j = .ok version) :
    releaseOf lib a.body = .ok (some (version, assetsIn j)) := by
  have hobject := (versionOf_returns_iff.1 ⟨version, hversion⟩).1
  unfold releaseOf
  rw [hbody]
  dsimp only
  rw [hparse]
  dsimp only
  rw [hversion, assetsOf_eq hobject]
  rfl

theorem syncOnce_of_error {version : String} {assets : List Json} {dir' : InstallerDir} {e : JsonException}
    (hrelease : releaseOf lib a.body = .ok (some (version, assets)))
    (hloop : mirrorLoop cfg version a.download assets 0 dir 0 = (dir', .error e)) :
    syncOnce lib cfg dir a = (dir', .error e) := by
  unfold syncOnce
  rw [hrelease]
  dsimp only
  rw [hloop]

theorem syncOnce_of_ok {version : String} {assets : List Json} {dir' : InstallerDir} {downloaded : Nat}
    (hrelease : releaseOf lib a.body = .ok (some (version, assets)))
    (hloop : mirrorLoop cfg version a.download assets 0 dir 0 = (dir', .ok downloaded)) :
    syncOnce lib cfg dir a =
      (writeVersion cfg version a.versionWritten dir', .ok (decide (downloaded > 0))) := by
  unfold syncOnce
  rw [hrelease]
  dsimp only
  rw [hloop]

theorem syncOnce_of_tag {text : String} {j : Json} (hbody : a.body = some text) (hparse : lib.parse text = .ok j)
    {e : JsonException} (hversion : versionOf j = .error e) : syncOnce lib cfg dir a = (dir, .error e) := by
  unfold syncOnce releaseOf
  rw [hbody]
  dsimp only
  rw [hparse]
  dsimp only
  rw [hversion]
  rfl

/-- A run over a document. -/
theorem contained_document_iff {text : String} {j : Json} (hbody : a.body = some text)
    (hparse : lib.parse text = .ok j) : Contained lib cfg dir a ↔ Harmless cfg dir a j := by
  cases hversion : versionOf j with
  | error e =>
    have hsync := @syncOnce_of_tag lib cfg dir a text j hbody hparse e hversion
    constructor
    · intro h
      obtain ⟨mirrored, hreturns⟩ := h.returns
      rw [hsync] at hreturns
      cases hreturns
    · intro h
      obtain ⟨version, hread⟩ := versionOf_returns_iff.2 h.shape.tag
      rw [hversion] at hread
      cases hread
  | ok version =>
    have htag := versionOf_returns_iff.1 ⟨version, hversion⟩
    have hrelease := releaseOf_of_shape hbody hparse hversion
    have hloop := @mirrorLoop_returns_iff cfg version a.download (assetsIn j) 0 dir 0
    rw [completes_iff] at hloop
    cases hresult : mirrorLoop cfg version a.download (assetsIn j) 0 dir 0 with
    | mk dir' result =>
      rw [hresult] at hloop
      cases result with
      | error e =>
        have hsync := syncOnce_of_error hrelease hresult
        constructor
        · intro h
          obtain ⟨mirrored, hreturns⟩ := h.returns
          rw [hsync] at hreturns
          cases hreturns
        · intro h
          obtain ⟨n, hreturns⟩ := hloop.2 h.shape.assets
          cases hreturns
      | ok downloaded =>
        have hsync := syncOnce_of_ok hrelease hresult
        have hshape : ReleaseShape j := ⟨htag, hloop.1 ⟨downloaded, rfl⟩⟩
        obtain ⟨-, hsame, hcount⟩ := mirrorLoop_counts _ 0 dir dir' 0 downloaded hresult
        have hversion' : ∀ version', versionOf j = .ok version' → version' = version := fun version' h =>
          Except.ok.inj (h.symm.trans hversion)
        have hfalse : (syncOnce lib cfg dir a).2 = .ok false ↔ downloaded = 0 := by
          rw [hsync]
          simp
        constructor
        · intro h
          refine ⟨hshape, fun hstage hnone n version' hwritten hread => ?_⟩
          obtain rfl := hversion' version' hread
          have hzero : downloaded = 0 := hcount.2 fun _ => hnone
          have hkept := h.unchanged (hfalse.2 hzero)
          rw [hsync, hsame hzero] at hkept
          exact writeVersion_eq_iff.1 hkept hstage n hwritten
        · intro h
          refine ⟨⟨_, congrArg Prod.snd hsync⟩, fun hreturned => ?_⟩
          have hzero := hfalse.1 hreturned
          rw [hsync, hsame hzero]
          exact writeVersion_eq_iff.2 fun hstage n hwritten =>
            h.version hstage (hcount.1 hzero hstage) n version hwritten hversion

/-- **A run is contained exactly where the document that it reads is harmless**: of the shape that is read and, if
nothing arrives, with the version that is there. -/
theorem contained_iff (lib : JsonLib) (cfg : ReleaseMirrorConfig) (dir : InstallerDir) (a : SyncAnswers) :
    Contained lib cfg dir a ↔ ∀ text j, a.body = some text → lib.parse text = .ok j → Harmless cfg dir a j := by
  have hquiet : (∀ text j, a.body = some text → ¬ lib.parse text = .ok j) →
      syncOnce lib cfg dir a = (dir, .ok false) := by
    intro h
    unfold syncOnce releaseOf
    cases hbody : a.body with
    | none => rfl
    | some text =>
      dsimp only
      cases hparse : lib.parse text with
      | error e => rfl
      | ok j => exact absurd hparse (h text j hbody)
  by_cases hdocument : ∃ text j, a.body = some text ∧ lib.parse text = .ok j
  · obtain ⟨text, j, hbody, hparse⟩ := hdocument
    rw [contained_document_iff hbody hparse]
    constructor
    · intro h text' j' hbody' hparse'
      obtain rfl := Option.some.inj (hbody.symm.trans hbody')
      obtain rfl := Except.ok.inj (hparse.symm.trans hparse')
      exact h
    · exact fun h => h text j hbody hparse
  · have hsync := hquiet fun text j hbody hparse => hdocument ⟨text, j, hbody, hparse⟩
    refine iff_of_true ⟨⟨false, congrArg Prod.snd hsync⟩, fun _ => congrArg Prod.fst hsync⟩ ?_
    exact fun text j hbody hparse => absurd ⟨text, j, hbody, hparse⟩ hdocument

end

/-- The parser on an empty array and an empty object. -/
def emptyLib : JsonLib where
  parse text :=
    if text = "[]" then .ok (.array [])
    else if text = "\x7b\x7d" then .ok (.object [])
    else .error (.parseError "")
  dump _ := .ok ""

def emptyAnswers (body : String) : SyncAnswers where
  body := some body
  download _ := none
  versionWritten := some 6

/-- An array is thrown at; an empty object brings no installer, and its version replaces the one that is staged. -/
theorem empty_not_contained :
    ¬ Contained emptyLib { owner := "owner", repo := "repo", installerDir := "installers" } stagedRelease
        (emptyAnswers "[]") ∧
      ¬ Contained emptyLib { owner := "owner", repo := "repo", installerDir := "installers" } stagedRelease
        (emptyAnswers "\x7b\x7d") := by
  constructor
  · intro h
    obtain ⟨mirrored, hreturns⟩ := h.returns
    cases mirrored <;> exact absurd hreturns (by decide +kernel)
  · intro h
    exact absurd (h.unchanged (by decide +kernel)) (by decide +kernel)

end PudimNetMon.Installers
