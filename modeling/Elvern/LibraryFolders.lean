/-
The discovery of the library folders (`library_folder_classifier.py`).

* `FileSystem` — what a scan sees of the disk, links included;
* `parseFolderSuffixes`, `classifyFolderRole` — what the name and the entries of a folder say;
* `walkLibraryFolder` — the recursion with its error exits, on fuel;
* `discoverLibraryFolders` — the walk from every reference location, with as much fuel as there
  are folders;
* `discoverLibraryFolders_isSome` — which is always enough;
* `discovery_readable` — what is found is in folders that could be listed.
-/
import Mathlib.Data.List.Basic
import Mathlib.Data.List.Sort
import Mathlib.Data.Rat.Defs
import Mathlib.Tactic.Common
import Elvern.PyText
import Elvern.Traversals

namespace MediaScan

/-- The components of an absolute path. -/
abbrev Path := List String

/-- `path_is_same_or_inside`, and `relative_to` without an error, on resolved paths. -/
def Path.inside (candidate parent : Path) : Bool := parent.isPrefixOf candidate

/-- What `stat` says. -/
structure FileStat where
  regular : Bool
  dev : ℕ
  ino : ℕ
  size : ℕ
  mtime : ℚ
  mtimeNs : ℤ
  ctimeNs : ℤ
  deriving DecidableEq

/-- What `_bounded_local_content_hash` digests of a file. -/
structure ContentSample where
  size : ℕ
  first : List UInt8
  last : List UInt8
  deriving DecidableEq

/-- The disk during a scan. `iterdir`, `isDir` and `stat` are `none` where they raise `OSError`;
`folders` lists the resolved paths of all folders. -/
structure FileSystem where
  resolve : Path → Path
  exist : Path → Bool
  isDir : Path → Option Bool
  isFile : Path → Bool
  iterdir : Path → Option (List String)
  stat : Path → Option FileStat
  sample : Path → Option ContentSample
  folders : List Path
  resolve_mem_folders : ∀ p, isDir p = some true → resolve p ∈ folders

/-- The settings of a scan, and the text rules it is given. -/
structure Config where
  uni : PyText.Unicode
  allowedVideoExtensions : List String
  posterReferencePath : Path
  restricted : Path → Bool
  folderKey : Path → String
  pathText : Path → String

inductive Category
  | movies
  | tv
  | anime
  | cartoon
  deriving DecidableEq

inductive Role
  | list
  | single
  | category
  | smartSingle
  | legacy
  deriving DecidableEq

inductive Warning
  | locationUnavailable (path : Path)
  | directoryLoopSkipped (path : Path)
  | restrictedPathSkipped (path : Path)
  | folderUnreadable (path : Path)
  | explicitSingleHasMultipleVideos (path : Path) (count : ℕ)
  deriving DecidableEq

def folderCategorySuffix : String → Option Category
  | "M" => some .movies
  | "TV" => some .tv
  | "AN" => some .anime
  | "C" => some .cartoon
  | _ => none

def recognizedFolderSuffixes : List String := ["M", "TV", "AN", "C", "L", "S", "X"]

def sidecarHelperExtensions : List String :=
  [".ass", ".chapters", ".gif", ".idx", ".jpeg", ".jpg", ".json", ".nfo", ".png", ".smi", ".srt",
    ".ssa", ".sub", ".sup", ".txt", ".vtt", ".webp", ".xml"]

structure ParsedFolderSuffixes where
  displayName : String
  recognizedSuffix : Option String
  deriving DecidableEq

namespace ParsedFolderSuffixes

def excluded (parsed : ParsedFolderSuffixes) : Bool := parsed.recognizedSuffix = some "X"

def explicitCategory (parsed : ParsedFolderSuffixes) : Option Category :=
  parsed.recognizedSuffix.bind folderCategorySuffix

def explicitRole (parsed : ParsedFolderSuffixes) : Option Role :=
  match parsed.recognizedSuffix with
  | some "L" => some .list
  | some "S" => some .single
  | _ => none

end ParsedFolderSuffixes

/-- What the folders above hand down. -/
structure Inherited where
  category : Option Category
  categoryPath : Option Path
  categoryDisplayName : Option String
  seriesFolderKey : Option String
  seriesFolderName : Option String
  deriving DecidableEq

def Inherited.none : Inherited := ⟨.none, .none, .none, .none, .none⟩

/-- The folder of a file. -/
structure FolderScanMetadata where
  folderPath : Path
  folderDisplayName : String
  role : Role
  inherited : Inherited
  deriving DecidableEq

structure DiscoveredMediaFile where
  path : Path
  metadata : FolderScanMetadata
  deriving DecidableEq

structure LibraryFolderDiscovery where
  files : List DiscoveredMediaFile
  warnings : List Warning
  visitedFolders : List Path
  deriving DecidableEq

def LibraryFolderDiscovery.empty : LibraryFolderDiscovery := ⟨[], [], []⟩

def LibraryFolderDiscovery.warn (d : LibraryFolderDiscovery) (warning : Warning) :
    LibraryFolderDiscovery :=
  { d with warnings := d.warnings ++ [warning] }

section Walk

variable (fs : FileSystem) (config : Config)

/-- The match of `\s*-([A-Z]{1,3})\s*$`: the token, and what stands before the match. -/
def trailingSuffixToken (name : String) : Option (String × String) :=
  let rest := name.toList.reverse.dropWhile config.uni.isSpace
  let token := rest.takeWhile fun c => decide ('A' ≤ c ∧ c ≤ 'Z')
  match rest.dropWhile fun c => decide ('A' ≤ c ∧ c ≤ 'Z') with
  | '-' :: before =>
    if 1 ≤ token.length ∧ token.length ≤ 3 then
      some (String.ofList token.reverse,
        String.ofList (before.dropWhile config.uni.isSpace).reverse)
    else none
  | _ => none

/-- `parse_folder_suffixes`. -/
def parseFolderSuffixes (folderName : String) : ParsedFolderSuffixes :=
  let workingName := PyText.rstrip config.uni folderName
  let strip := PyText.strip config.uni
  let (displayName, recognizedSuffix) :=
    match trailingSuffixToken config workingName with
    | none => (strip workingName, none)
    | some (token, before) =>
      if token ∈ recognizedFolderSuffixes then (strip before, some token)
      else (strip workingName, none)
  { displayName :=
      PyText.orElse displayName (PyText.orElse (strip folderName) "Untitled folder")
    recognizedSuffix := recognizedSuffix }

def isVideoFile (path : Path) : Bool :=
  fs.isFile path &&
    decide (PyText.lower config.uni (PyText.pathSuffix (path.getLast?.getD "")) ∈
      config.allowedVideoExtensions)

def isSidecarOrHelperFile (path : Path) : Bool :=
  let name := path.getLast?.getD ""
  fs.isFile path && (PyText.startsWith "." name ||
    decide (PyText.lower config.uni (PyText.pathSuffix name) ∈ sidecarHelperExtensions))

/-- `_classify_folder_role`, with the warning it may add. -/
def classifyFolderRole (parsed : ParsedFolderSuffixes) (entries : List Path) (folderPath : Path) :
    Role × List Warning :=
  let videoEntries := entries.filter (isVideoFile fs config)
  let warnings :=
    if parsed.explicitRole = some .single ∧ 1 < videoEntries.length then
      [.explicitSingleHasMultipleVideos folderPath videoEntries.length]
    else []
  let role :=
    match parsed.explicitRole with
    | some role => role
    | none =>
      if parsed.explicitCategory.isSome then .category
      else if videoEntries.length = 1 ∧
          entries.all (fun e => isVideoFile fs config e || isSidecarOrHelperFile fs config e) then
        .smartSingle
      else .legacy
  (role, warnings)

/-- The entries of a folder in the order of their names in lower case. -/
def sortedEntries (folder : Path) (names : List String) : List Path :=
  (names.insertionSort fun a b => PyText.lower config.uni a ≤ PyText.lower config.uni b).map
    fun name => folder ++ [name]

/-- What a folder makes of what it inherits. -/
def folderMetadata (parsed : ParsedFolderSuffixes) (role : Role) (folder : Path)
    (inherited : Inherited) : FolderScanMetadata :=
  { folderPath := folder
    folderDisplayName := parsed.displayName
    role := role
    inherited :=
      { category := parsed.explicitCategory.or inherited.category
        categoryPath :=
          if parsed.explicitCategory.isSome then some folder else inherited.categoryPath
        categoryDisplayName :=
          if parsed.explicitCategory.isSome then some parsed.displayName
          else inherited.categoryDisplayName
        seriesFolderKey :=
          if role = .list then some (config.folderKey folder) else inherited.seriesFolderKey
        seriesFolderName :=
          if role = .list then some parsed.displayName else inherited.seriesFolderName } }

/-- `_walk_library_folder`; `none` when the fuel has run out. -/
def walkLibraryFolder : ℕ → Path → Inherited → LibraryFolderDiscovery →
    Option LibraryFolderDiscovery
  | 0, _, _, _ => none
  | fuel + 1, folderPath, inherited, d =>
    let resolved := fs.resolve folderPath
    if resolved ∈ d.visitedFolders then some (d.warn (.directoryLoopSkipped resolved))
    else if config.restricted resolved then some (d.warn (.restrictedPathSkipped resolved))
    else
      let d := { d with visitedFolders := resolved :: d.visitedFolders }
      let parsed := parseFolderSuffixes config (resolved.getLast?.getD "")
      if Path.inside resolved config.posterReferencePath then some d
      else if parsed.excluded then some d
      else
        match fs.iterdir resolved with
        | none => some (d.warn (.folderUnreadable resolved))
        | some names =>
          let entries := sortedEntries config resolved names
          let (role, warnings) := classifyFolderRole fs config parsed entries resolved
          let metadata := folderMetadata config parsed role resolved inherited
          let files := (entries.filter (isVideoFile fs config)).map fun entry =>
            ⟨fs.resolve entry, metadata⟩
          let d := { d with files := d.files ++ files, warnings := d.warnings ++ warnings }
          (entries.filter fun entry => (fs.isDir entry).getD false).foldlM
            (fun d entry => walkLibraryFolder fuel entry metadata.inherited d) d

/-- One reference location. -/
def discoverRoot (fuel : ℕ) (d : LibraryFolderDiscovery) (root : Path) :
    Option LibraryFolderDiscovery :=
  if fs.exist root ∧ fs.isDir root = some true then
    walkLibraryFolder fs config fuel root .none d
  else some (d.warn (.locationUnavailable root))

/-- `discover_library_folders`. -/
def discoverLibraryFolders (referenceRoots : List Path) : Option LibraryFolderDiscovery :=
  (referenceRoots.map fs.resolve).eraseDups.foldlM
    (discoverRoot fs config (fs.folders.length + 1)) .empty

end Walk

/-! ### The fuel is enough -/

variable {fs : FileSystem} {config : Config}

/-- The folders that have not been visited. -/
def unvisited (fs : FileSystem) (d : LibraryFolderDiscovery) : List Path :=
  fs.folders.filter (· ∉ d.visitedFolders)

theorem unvisited_length_le {d d' : LibraryFolderDiscovery}
    (h : d.visitedFolders ⊆ d'.visitedFolders) :
    (unvisited fs d').length ≤ (unvisited fs d).length := by
  refine (List.monotone_filter_right _ fun p hp => ?_).length_le
  rw [decide_eq_true_eq] at hp ⊢
  exact fun hmem => hp (h hmem)

theorem unvisited_length_lt {d : LibraryFolderDiscovery} {p : Path} (hp : p ∈ fs.folders)
    (hnew : p ∉ d.visitedFolders) :
    (unvisited fs { d with visitedFolders := p :: d.visitedFolders }).length <
      (unvisited fs d).length := by
  refine lt_of_le_of_ne (unvisited_length_le fun q hq => List.mem_cons_of_mem p hq) fun heq => ?_
  have hsub : (unvisited fs { d with visitedFolders := p :: d.visitedFolders }).Sublist
      (unvisited fs d) :=
    List.monotone_filter_right _ fun q hq => by
      rw [decide_eq_true_eq] at hq ⊢
      exact fun hmem => hq (List.mem_cons_of_mem p hmem)
  have hmem : p ∈ unvisited fs d := by
    rw [unvisited, List.mem_filter, decide_eq_true_eq]
    exact ⟨hp, hnew⟩
  rw [← hsub.eq_of_length heq, unvisited, List.mem_filter, decide_eq_true_eq] at hmem
  exact hmem.2 (List.mem_cons_self ..)

/-- A fold of steps that succeed and only visit more. -/
theorem foldlM_visits {α : Type} {f : LibraryFolderDiscovery → α → Option LibraryFolderDiscovery}
    {bound : ℕ} {v : List Path} : ∀ {xs : List α} {d : LibraryFolderDiscovery},
      (∀ x ∈ xs, ∀ d, (unvisited fs d).length < bound →
        ∃ d', f d x = some d' ∧ d.visitedFolders ⊆ d'.visitedFolders) →
      (unvisited fs d).length < bound → v ⊆ d.visitedFolders →
      ∃ d', xs.foldlM f d = some d' ∧ v ⊆ d'.visitedFolders := by
  intro xs
  induction xs with
  | nil => exact fun _ _ hv => ⟨_, rfl, hv⟩
  | cons x xs ih =>
    intro d hf hd hv
    obtain ⟨d₁, h₁, hsub₁⟩ := hf x (List.mem_cons_self ..) d hd
    obtain ⟨d₂, h₂, hsub₂⟩ := ih (fun y hy => hf y (List.mem_cons_of_mem x hy))
      (lt_of_le_of_lt (unvisited_length_le hsub₁) hd) (List.Subset.trans hv hsub₁)
    refine ⟨d₂, ?_, hsub₂⟩
    rw [List.foldlM_cons, h₁]
    exact h₂

/-- Each level of the recursion visits a folder that was not visited before. -/
theorem walkLibraryFolder_total : ∀ {fuel : ℕ} {folder : Path} {inherited : Inherited}
    {d : LibraryFolderDiscovery}, fs.isDir folder = some true →
      (unvisited fs d).length < fuel →
      ∃ d', walkLibraryFolder fs config fuel folder inherited d = some d' ∧
        d.visitedFolders ⊆ d'.visitedFolders := by
  intro fuel
  induction fuel with
  | zero =>
    intro folder inherited d _ hfuel
    exact absurd hfuel (Nat.not_lt_zero _)
  | succ fuel ih =>
    intro folder inherited d hdir hfuel
    rw [walkLibraryFolder]
    simp only
    split_ifs with hvisited hrestricted hposter hexcluded
    · exact ⟨_, rfl, List.Subset.refl _⟩
    · exact ⟨_, rfl, List.Subset.refl _⟩
    · exact ⟨_, rfl, List.subset_cons_self ..⟩
    · exact ⟨_, rfl, List.subset_cons_self ..⟩
    · split
      · exact ⟨_, rfl, List.subset_cons_self ..⟩
      · next names hnames =>
        -- the children have the fuel of the folders left
        have hlt := unvisited_length_lt (fs.resolve_mem_folders folder hdir) hvisited
        refine foldlM_visits (fun entry hentry d hd => ?_)
          (lt_of_lt_of_le hlt (Nat.le_of_lt_succ hfuel)) (List.subset_cons_self ..)
        have hisdir := (List.mem_filter.1 hentry).2
        rw [Option.getD_eq_iff] at hisdir
        rcases hisdir with hisdir | ⟨-, hfalse⟩
        · exact ih hisdir hd
        · cases hfalse

/-- The discovery always comes to an end. -/
theorem discoverLibraryFolders_isSome (referenceRoots : List Path) :
    ∃ d, discoverLibraryFolders fs config referenceRoots = some d := by
  have hbound : ∀ d : LibraryFolderDiscovery, (unvisited fs d).length < fs.folders.length + 1 :=
    fun d => Nat.lt_succ_of_le (List.length_filter_le ..)
  have hroots : ∀ root ∈ (referenceRoots.map fs.resolve).eraseDups, ∀ d,
      (unvisited fs d).length < fs.folders.length + 1 →
        ∃ d', discoverRoot fs config (fs.folders.length + 1) d root = some d' ∧
          d.visitedFolders ⊆ d'.visitedFolders := by
    intro root _ d hd
    rw [discoverRoot]
    split_ifs with hroot
    · exact walkLibraryFolder_total hroot.2 hd
    · exact ⟨_, rfl, List.Subset.refl _⟩
  obtain ⟨d, hd, -⟩ := foldlM_visits hroots (hbound .empty) (List.Subset.refl _)
  exact ⟨d, hd⟩

/-! ### What could be listed -/

/-- Discovered files are in folders that could be listed, and the warnings name those that could
not. -/
structure Readable (fs : FileSystem) (config : Config) (d : LibraryFolderDiscovery) : Prop where
  files : ∀ f ∈ d.files, fs.iterdir f.metadata.folderPath ≠ none ∧
    ∃ name, isVideoFile fs config (f.metadata.folderPath ++ [name]) = true ∧
      f.path = fs.resolve (f.metadata.folderPath ++ [name])
  warnings : ∀ p, .folderUnreadable p ∈ d.warnings → fs.iterdir p = none

theorem Readable.warn {d : LibraryFolderDiscovery} (h : Readable fs config d) {warning : Warning}
    (hwarning : ∀ p, warning = .folderUnreadable p → fs.iterdir p = none) :
    Readable fs config (d.warn warning) where
  files := h.files
  warnings p hp := by
    rcases List.mem_append.1 hp with hp | hp
    · exact h.warnings p hp
    · exact hwarning p (List.mem_singleton.1 hp).symm

/-- The warnings about the role of a folder are of another kind. -/
theorem classifyFolderRole_warnings {parsed : ParsedFolderSuffixes} {entries : List Path}
    {folder p : Path} :
    .folderUnreadable p ∉ (classifyFolderRole fs config parsed entries folder).2 := by
  rw [classifyFolderRole]
  simp only
  split_ifs <;> simp

/-- The recursion keeps to what it could list. -/
theorem walk_readable : ∀ {fuel : ℕ} {folder : Path} {inherited : Inherited}
    {d d' : LibraryFolderDiscovery}, Readable fs config d →
      walkLibraryFolder fs config fuel folder inherited d = some d' → Readable fs config d' := by
  intro fuel
  induction fuel with
  | zero =>
    intro folder inherited d d' _ h
    cases h
  | succ fuel ih =>
    intro folder inherited d d' hd h
    rw [walkLibraryFolder] at h
    simp only at h
    split_ifs at h
    · cases h
      exact hd.warn fun p hp => by cases hp
    · cases h
      exact hd.warn fun p hp => by cases hp
    · cases h
      exact ⟨hd.files, hd.warnings⟩
    · cases h
      exact ⟨hd.files, hd.warnings⟩
    · split at h
      · next hnone =>
        cases h
        have hvisited : Readable fs config
            { d with visitedFolders := fs.resolve folder :: d.visitedFolders } :=
          ⟨hd.files, hd.warnings⟩
        refine hvisited.warn fun p hp => ?_
        cases hp
        exact hnone
      · next names hnames =>
        refine Traversal.foldlM_keeps (fun entry _ b b' hb hstep => ih hb hstep) ?_ h
        refine ⟨fun f hf => ?_, fun p hp => ?_⟩
        · -- the files of this folder are among its entries
          rcases List.mem_append.1 hf with hf | hf
          · exact hd.files f hf
          · obtain ⟨entry, hentry, rfl⟩ := List.mem_map.1 hf
            obtain ⟨hsorted, hvideo⟩ := List.mem_filter.1 hentry
            obtain ⟨name, -, rfl⟩ := List.mem_map.1 hsorted
            exact ⟨by simp [folderMetadata, hnames], name, hvideo, rfl⟩
        · rcases List.mem_append.1 hp with hp | hp
          · exact hd.warnings p hp
          · exact absurd hp classifyFolderRole_warnings

/-- So does the discovery. -/
theorem discovery_readable {referenceRoots : List Path} {d : LibraryFolderDiscovery}
    (h : discoverLibraryFolders fs config referenceRoots = some d) : Readable fs config d := by
  refine Traversal.foldlM_keeps (fun root _ b b' hb hstep => ?_) ⟨fun f hf => ?_, fun p hp => ?_⟩ h
  · rw [discoverRoot] at hstep
    split_ifs at hstep
    · exact walk_readable hb hstep
    · cases hstep
      exact hb.warn fun p hp => by cases hp
  · cases hf
  · cases hp

end MediaScan
