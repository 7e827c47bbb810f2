/-
Links in the library folders (`library_folder_classifier.py`).

A folder is checked where its link leads to, whatever the name by which the walk comes to
it; a video file is recorded where its link leads to, and is not checked there.

* `walk_visit`, `discovery_visitAll` -- the walk is a traversal of the folders that can be
  opened, with one list of visited folders;
* `discovery_files` -- the files are the video entries of the open folders;
* `LinksHarmless` -- where the links to video files lead, and the films of folders below
  an excluded one;
* `discovery_safe_iff` -- the files are distinct and none is in a forbidden place exactly
  where the links are harmless;
* `linkedFilm_restricted` -- a link to a film in a restricted folder.
-/
import Elvern.LibraryFolders
import Elvern.Traversals

open Traversal

namespace MediaScan

/-! ### Open folders -/

section OpenFolders

variable (fs : FileSystem) (config : Config)

/-- The names of a folder that the walk opens: it is not restricted, not in the poster
folder, does not carry the suffix that excludes it, and can be listed. -/
def openNames (folder : Path) : Option (List String) :=
  if config.restricted folder then none
  else if Path.inside folder config.posterReferencePath then none
  else if (parseFolderSuffixes config (folder.getLast?.getD "")).excluded then none
  else fs.iterdir folder

/-- The entries of a folder that the walk opens, in the order in which it takes them. -/
def openEntries (folder : Path) : List Path :=
  match openNames fs config folder with
  | none => []
  | some names => sortedEntries config folder names

/-- The entries that are folders, or links to folders. -/
def folderEntries (folder : Path) : List Path :=
  (openEntries fs config folder).filter fun entry => (fs.isDir entry).getD false

/-- The entries that are video files, or links to video files. -/
def videoEntries (folder : Path) : List Path :=
  (openEntries fs config folder).filter (isVideoFile fs config)

/-- Where the folders among the entries are. -/
def subfolders (folder : Path) : List Path := (folderEntries fs config folder).map fs.resolve

/-- Where the walk begins. -/
def walkedRoots (referenceRoots : List Path) : List Path :=
  (((referenceRoots.map fs.resolve).eraseDups).filter fun root =>
    decide (fs.exist root = true ∧ fs.isDir root = some true)).map fs.resolve

end OpenFolders

variable {fs : FileSystem} {config : Config} {fuel : ℕ} {d d' : LibraryFolderDiscovery}

/-- The files are the video entries of the visited folders, in the order of the visits. -/
def FilesOf (fs : FileSystem) (config : Config) (d : LibraryFolderDiscovery) : Prop :=
  d.files.map DiscoveredMediaFile.path =
    (d.visitedFolders.reverse.flatMap (videoEntries fs config)).map fs.resolve

/-! ### One folder -/

/-- The walk from a folder: it was visited before, it is restricted, or it is visited, its
videos are recorded and its folders are walked. -/
theorem walkLibraryFolder_cases {folder : Path} {inherited : Inherited}
    (h : walkLibraryFolder fs config (fuel + 1) folder inherited d = some d') :
    (fs.resolve folder ∈ d.visitedFolders ∧
        d' = d.warn (.directoryLoopSkipped (fs.resolve folder))) ∨
      (fs.resolve folder ∉ d.visitedFolders ∧ config.restricted (fs.resolve folder) = true ∧
        d' = d.warn (.restrictedPathSkipped (fs.resolve folder))) ∨
      (fs.resolve folder ∉ d.visitedFolders ∧ config.restricted (fs.resolve folder) = false ∧
        ∃ d₁ : LibraryFolderDiscovery, ∃ inherited' : Inherited,
          d₁.visitedFolders = fs.resolve folder :: d.visitedFolders ∧
          d₁.files.map DiscoveredMediaFile.path = d.files.map DiscoveredMediaFile.path ++
            (videoEntries fs config (fs.resolve folder)).map fs.resolve ∧
          (folderEntries fs config (fs.resolve folder)).foldlM
            (fun d entry => walkLibraryFolder fs config fuel entry inherited' d) d₁ = some d') := by
  rw [walkLibraryFolder] at h
  simp only at h
  -- a folder that is visited and not opened has no entries
  have hclosed : ∀ d₁ : LibraryFolderDiscovery, openNames fs config (fs.resolve folder) = none →
      d₁.visitedFolders = fs.resolve folder :: d.visitedFolders → d₁.files = d.files →
      ∃ d₂ : LibraryFolderDiscovery, ∃ inherited' : Inherited,
        d₂.visitedFolders = fs.resolve folder :: d.visitedFolders ∧
        d₂.files.map DiscoveredMediaFile.path = d.files.map DiscoveredMediaFile.path ++
          (videoEntries fs config (fs.resolve folder)).map fs.resolve ∧
        (folderEntries fs config (fs.resolve folder)).foldlM
          (fun d entry => walkLibraryFolder fs config fuel entry inherited' d) d₂ = some d₁ := by
    intro d₁ hnone hvisited hfiles
    rw [videoEntries, folderEntries, openEntries, hnone]
    exact ⟨d₁, inherited, hvisited, by rw [hfiles]; simp, rfl⟩
  split_ifs at h with hvisited hrestricted hposter hexcluded
  · cases h
    exact Or.inl ⟨hvisited, rfl⟩
  · cases h
    exact Or.inr (Or.inl ⟨hvisited, hrestricted, rfl⟩)
  · cases h
    exact Or.inr (Or.inr ⟨hvisited, Bool.eq_false_iff.2 hrestricted, hclosed _
      (by rw [openNames, if_neg hrestricted, if_pos hposter]) rfl rfl⟩)
  · cases h
    exact Or.inr (Or.inr ⟨hvisited, Bool.eq_false_iff.2 hrestricted, hclosed _
      (by rw [openNames, if_neg hrestricted, if_neg hposter, if_pos hexcluded]) rfl rfl⟩)
  · have hopen : openNames fs config (fs.resolve folder) = fs.iterdir (fs.resolve folder) := by
      rw [openNames, if_neg hrestricted, if_neg hposter, if_neg hexcluded]
    split at h
    · next hnone =>
      cases h
      exact Or.inr (Or.inr ⟨hvisited, Bool.eq_false_iff.2 hrestricted,
        hclosed _ (hopen.trans hnone) rfl rfl⟩)
    · next names hnames =>
      refine Or.inr (Or.inr ⟨hvisited, Bool.eq_false_iff.2 hrestricted, ?_⟩)
      rw [videoEntries, folderEntries, openEntries, hopen, hnames]
      refine ⟨_, _, ?_, ?_, h⟩
      · rfl
      · simp only [List.map_append, List.map_map]
        rfl

/-! ### The walk is a traversal -/

/-- The folders that a walk visits are those of a traversal. -/
theorem walk_visit {folder : Path} {inherited : Inherited}
    (h : walkLibraryFolder fs config fuel folder inherited d = some d') :
    visit (subfolders fs config) config.restricted fuel d.visitedFolders (fs.resolve folder) =
      some d'.visitedFolders := by
  -- both go by the fuel, and fold over the same folders
  induction fuel generalizing folder inherited d d' with
  | zero => cases h
  | succ fuel ih =>
    rw [visit]
    rcases walkLibraryFolder_cases h with ⟨hvisited, rfl⟩ | ⟨hnew, hrestricted, rfl⟩ |
      ⟨hnew, hrestricted, d₁, inherited', hvisited, -, hfold⟩
    · rw [if_pos hvisited]
      rfl
    · rw [if_neg hnew, if_pos hrestricted]
      rfl
    · rw [if_neg hnew, if_neg (by rw [hrestricted]; exact Bool.false_ne_true), ← hvisited]
      exact foldlM_map_state (fun entry _ b b' hstep => ih hstep) hfold

theorem walk_files {folder : Path} {inherited : Inherited} (hd : FilesOf fs config d)
    (h : walkLibraryFolder fs config fuel folder inherited d = some d') : FilesOf fs config d' := by
  induction fuel generalizing folder inherited d d' with
  | zero => cases h
  | succ fuel ih =>
    rcases walkLibraryFolder_cases h with ⟨-, rfl⟩ | ⟨-, -, rfl⟩ |
      ⟨-, -, d₁, inherited', hvisited, hfiles, hfold⟩
    · exact hd
    · exact hd
    · -- the videos of this folder are recorded before its folders are walked
      refine foldlM_keeps (fun entry _ b b' hb hstep => ih hb hstep) ?_ hfold
      rw [FilesOf, hfiles, hvisited, hd, List.reverse_cons, List.flatMap_append, List.map_append,
        List.flatMap_singleton]

theorem foldlM_discoverRoot {roots : List Path} :
    ∀ {d d' : LibraryFolderDiscovery}, roots.foldlM (discoverRoot fs config fuel) d = some d' →
      ((roots.filter fun root => decide (fs.exist root = true ∧ fs.isDir root = some true)).map
        fs.resolve).foldlM (visit (subfolders fs config) config.restricted fuel)
        d.visitedFolders = some d'.visitedFolders := by
  induction roots with
  | nil =>
    intro d d' h
    cases h
    rfl
  | cons root roots ih =>
    intro d d' h
    rw [List.foldlM_cons] at h
    obtain ⟨d₁, hfirst, hrest⟩ := Option.bind_eq_some_iff.1 h
    rw [discoverRoot] at hfirst
    split_ifs at hfirst with hroot
    · rw [List.filter_cons_of_pos (by exact decide_eq_true hroot), List.map_cons,
        List.foldlM_cons, walk_visit hfirst]
      exact ih hrest
    · cases hfirst
      rw [List.filter_cons_of_neg (by rw [decide_eq_true_eq]; exact hroot)]
      exact @ih (d.warn _) d' hrest

/-- The discovery visits the folders of the traversal from its roots. -/
theorem discovery_visitAll {referenceRoots : List Path}
    (h : discoverLibraryFolders fs config referenceRoots = some d) :
    visitAll (subfolders fs config) config.restricted (fs.folders.length + 1)
      (walkedRoots fs referenceRoots) = some d.visitedFolders :=
  foldlM_discoverRoot h

theorem discovery_files {referenceRoots : List Path}
    (h : discoverLibraryFolders fs config referenceRoots = some d) : FilesOf fs config d := by
  refine foldlM_keeps (fun root _ b b' hb hstep => ?_) (show FilesOf fs config .empty from rfl) h
  rw [discoverRoot] at hstep
  split_ifs at hstep
  · exact walk_files hb hstep
  · cases hstep
    exact hb

/-! ### Forbidden places -/

/-- The folder is above the path. -/
def Path.below (p folder : Path) : Prop := folder <+: p ∧ folder ≠ p

/-- The folder carries the suffix that excludes it. -/
def excludedName (config : Config) (folder : Path) : Bool :=
  (parseFolderSuffixes config (folder.getLast?.getD "")).excluded

section Places

variable (fs : FileSystem) (config : Config) (referenceRoots : List Path)

/-- The path is in a folder, at or below a root, whose name excludes it. -/
def BelowExcluded (p : Path) : Prop :=
  ∃ folder, p.below folder ∧ excludedName config folder = true ∧
    ∃ root ∈ referenceRoots, fs.resolve root <+: folder

/-- The path is in a restricted folder, in the poster folder or in an excluded one. -/
def Forbidden (p : Path) : Prop :=
  (∃ folder, p.below folder ∧ config.restricted folder = true) ∨
    p.below config.posterReferencePath ∨ BelowExcluded fs config referenceRoots p

/-- The folders to which a walk has to come. -/
def Walked (folder : Path) : Prop :=
  Reached (subfolders fs config) config.restricted (· ∈ walkedRoots fs referenceRoots) folder

/-- A video entry of a folder that is walked and opened. -/
def VideoAt (entry : Path) : Prop :=
  ∃ folder, Walked fs config referenceRoots folder ∧ entry ∈ videoEntries fs config folder

/-- Links to video files lead to places that are not forbidden, and to no video that another
entry leads to as well; and films that are no links are not below an excluded folder. -/
structure LinksHarmless : Prop where
  links : ∀ entry, VideoAt fs config referenceRoots entry → fs.resolve entry ≠ entry →
    ¬Forbidden fs config referenceRoots (fs.resolve entry) ∧
      ∀ other, VideoAt fs config referenceRoots other → fs.resolve other = fs.resolve entry →
        other = entry
  films : ∀ entry, VideoAt fs config referenceRoots entry → fs.resolve entry = entry →
    ¬BelowExcluded fs config referenceRoots entry

end Places

/-- What a file system promises: `resolve` gives a path without links, and the entries of a
folder have different names. -/
structure Lawful (fs : FileSystem) : Prop where
  resolved : ∀ p, fs.resolve (fs.resolve p) = fs.resolve p
  distinct : ∀ folder names, fs.iterdir folder = some names → names.Nodup

/-! ### The entries of open folders -/

section Entries

variable {referenceRoots : List Path} {folder entry : Path}

theorem openNames_eq_some {names : List String} (h : openNames fs config folder = some names) :
    config.restricted folder = false ∧ Path.inside folder config.posterReferencePath = false ∧
      excludedName config folder = false ∧ fs.iterdir folder = some names := by
  rw [openNames] at h
  split_ifs at h with hrestricted hposter hexcluded
  exact ⟨Bool.eq_false_iff.2 hrestricted, Bool.eq_false_iff.2 hposter,
    Bool.eq_false_iff.2 hexcluded, h⟩

/-- An entry of a folder that is opened. -/
theorem mem_openEntries : entry ∈ openEntries fs config folder ↔
    ∃ names, openNames fs config folder = some names ∧ ∃ name ∈ names,
        entry = folder ++ [name] := by
  rw [openEntries]
  cases openNames fs config folder with
  | none => exact iff_of_false List.not_mem_nil fun ⟨_, h, _⟩ => absurd h nofun
  | some names =>
    show entry ∈ sortedEntries config folder names ↔ _
    rw [sortedEntries, List.mem_map]
    constructor
    · rintro ⟨name, hname, rfl⟩
      exact ⟨names, rfl, name, (List.perm_insertionSort _ names).mem_iff.1 hname, rfl⟩
    · rintro ⟨_, heq, name, hname, rfl⟩
      cases heq
      exact ⟨name, (List.perm_insertionSort _ _).mem_iff.2 hname, rfl⟩

/-- What is in a folder and above it, for an entry of it. -/
theorem Path.below_append_singleton {name : String} {above : Path} :
    Path.below (folder ++ [name]) above ↔ above <+: folder := by
  constructor
  · rintro ⟨hinside, hne⟩
    exact (List.prefix_concat_iff.1 hinside).resolve_left hne
  · intro h
    refine ⟨h.trans (List.prefix_append _ _), ?_⟩
    rintro rfl
    have hlength := h.length_le
    rw [List.length_append, List.length_singleton] at hlength
    omega

theorem nodup_openEntries (hlawful : Lawful fs) : (openEntries fs config folder).Nodup := by
  rw [openEntries]
  cases hnames : openNames fs config folder with
  | none => exact List.nodup_nil
  | some names =>
    have hnodup := hlawful.distinct folder names (openNames_eq_some hnames).2.2.2
    refine List.Nodup.map (fun a b hab => ?_) ((List.perm_insertionSort _ names).nodup_iff.2 hnodup)
    exact List.singleton_inj.1 (List.append_cancel_left hab)

/-- The entries of all visited folders are different paths. -/
theorem nodup_videoEntries (hlawful : Lawful fs) {folders : List Path} (h : folders.Nodup) :
    (folders.flatMap (videoEntries fs config)).Nodup := by
  refine List.nodup_flatMap.2 ⟨fun folder _ => (nodup_openEntries hlawful).filter _, ?_⟩
  refine h.imp fun {folder other} hne => ?_
  intro entry hentry hother
  obtain ⟨_, -, name, -, rfl⟩ := mem_openEntries.1 (List.mem_filter.1 hentry).1
  obtain ⟨_, -, name', -, heq⟩ := mem_openEntries.1 (List.mem_filter.1 hother).1
  exact hne (List.append_inj_left' heq rfl)

end Entries

/-! ### When the files are safe -/

section Safety

variable {referenceRoots : List Path}

/-- What the discovery has visited, and where its files come from. -/
theorem discovery_spec (hlawful : Lawful fs)
    (h : discoverLibraryFolders fs config referenceRoots = some d) :
    d.visitedFolders.Nodup ∧ (∀ folder ∈ d.visitedFolders, fs.resolve folder = folder) ∧
      ∃ entries : List Path, entries.Nodup ∧
        (∀ entry, entry ∈ entries ↔ VideoAt fs config referenceRoots entry) ∧
        d.files.map DiscoveredMediaFile.path = entries.map fs.resolve := by
  have hvisit := discovery_visitAll h
  have hnodup := (visitAll_sound hvisit).nodup
  refine ⟨hnodup, fun folder hfolder => ?_,
    d.visitedFolders.reverse.flatMap (videoEntries fs config),
    nodup_videoEntries hlawful (List.nodup_reverse.2 hnodup), fun entry => ?_, discovery_files h⟩
  · -- a folder that is reached is where a root or an entry leads
    cases ((mem_visitAll_iff hvisit).1 hfolder).1 with
    | root hroot =>
      obtain ⟨root, -, rfl⟩ := List.mem_map.1 hroot
      exact hlawful.resolved root
    | next _ _ hsub =>
      obtain ⟨entry, -, rfl⟩ := List.mem_map.1 hsub
      exact hlawful.resolved entry
  · rw [List.mem_flatMap]
    constructor
    · rintro ⟨folder, hfolder, hentry⟩
      exact ⟨folder, ((mem_visitAll_iff hvisit).1 (List.mem_reverse.1 hfolder)).1, hentry⟩
    · rintro ⟨folder, hwalked, hentry⟩
      obtain ⟨names, hnames, -⟩ := mem_openEntries.1 (List.mem_filter.1 hentry).1
      exact ⟨folder, List.mem_reverse.2 ((mem_visitAll_iff hvisit).2
        ⟨hwalked, (openNames_eq_some hnames).1⟩), hentry⟩

/-- A film that is no link is not below a restricted folder, nor below the poster folder. -/
theorem not_forbidden_of_film
    (hclosed : ∀ folder sub : Path, folder <+: sub → config.restricted folder = true →
      config.restricted sub = true) {entry : Path} (hentry : VideoAt fs config referenceRoots entry)
    (hexcluded : ¬BelowExcluded fs config referenceRoots entry) :
    ¬Forbidden fs config referenceRoots entry := by
  obtain ⟨folder, -, hmem⟩ := hentry
  obtain ⟨names, hnames, name, -, rfl⟩ := mem_openEntries.1 (List.mem_filter.1 hmem).1
  obtain ⟨hrestricted, hposter, -, -⟩ := openNames_eq_some hnames
  -- what is above the film is its folder or above it, and the folder was checked
  rintro (⟨above, habove, htrue⟩ | habove | hbelow)
  · rw [hclosed above folder (Path.below_append_singleton.1 habove) htrue] at hrestricted
    exact absurd hrestricted nofun
  · rw [Path.inside, List.isPrefixOf_iff_prefix.2 (Path.below_append_singleton.1 habove)] at hposter
    exact absurd hposter nofun
  · exact hexcluded hbelow

/-- The recorded places are distinct and none is forbidden exactly where the links are
harmless. -/
theorem links_harmless_iff
    (hclosed : ∀ folder sub : Path, folder <+: sub → config.restricted folder = true →
      config.restricted sub = true) {entries : List Path} (hnodup : entries.Nodup)
    (hentries : ∀ entry, entry ∈ entries ↔ VideoAt fs config referenceRoots entry) :
    (entries.map fs.resolve).Nodup ∧
        (∀ p ∈ entries.map fs.resolve, ¬Forbidden fs config referenceRoots p) ↔
      LinksHarmless fs config referenceRoots := by
  rw [List.nodup_map_iff_inj_on hnodup]
  constructor
  · rintro ⟨hinj, hsafe⟩
    have hentry : ∀ entry, VideoAt fs config referenceRoots entry →
        ¬Forbidden fs config referenceRoots (fs.resolve entry) := fun entry hentry =>
      hsafe _ (List.mem_map_of_mem ((hentries entry).2 hentry))
    refine ⟨fun entry hvideo _ => ⟨hentry entry hvideo, fun other hother heq => ?_⟩,
      fun entry hvideo hplain hbelow => ?_⟩
    · exact hinj other ((hentries other).2 hother) entry ((hentries entry).2 hvideo) heq
    · exact hentry entry hvideo (Or.inr (Or.inr (hplain.symm ▸ hbelow)))
  · intro h
    refine ⟨fun entry hentry other hother heq => ?_, fun p hp => ?_⟩
    · have hvideo := (hentries entry).1 hentry
      have hvideo' := (hentries other).1 hother
      -- two entries that are no links are equal, and a link is the only one to its place
      by_cases hlink : fs.resolve entry = entry
      · by_cases hlink' : fs.resolve other = other
        · rw [← hlink, heq, hlink']
        · exact (h.links other hvideo' hlink').2 entry hvideo heq
      · exact ((h.links entry hvideo hlink).2 other hvideo' heq.symm).symm
    · obtain ⟨entry, hentry, rfl⟩ := List.mem_map.1 hp
      have hvideo := (hentries entry).1 hentry
      by_cases hlink : fs.resolve entry = entry
      · rw [hlink]
        exact not_forbidden_of_film hclosed hvideo (h.films entry hvideo hlink)
      · exact (h.links entry hvideo hlink).1

/-- A folder that is opened below an excluded one has been reached through a link to a
folder below that one. -/
theorem exists_link_of_belowExcluded (hlawful : Lawful fs)
    (hroots : ∀ root ∈ referenceRoots, ∀ folder, (fs.resolve root).below folder →
      excludedName config folder = false) {folder excluded : Path}
    (hwalked : Walked fs config referenceRoots folder) (hbelow : folder.below excluded)
    (hname : excludedName config excluded = true) :
    ∃ parent entry, Walked fs config referenceRoots parent ∧
      entry ∈ folderEntries fs config parent ∧ fs.resolve entry ≠ entry ∧
      (fs.resolve entry).below excluded ∧ fs.resolve entry <+: folder := by
  -- back along the way on which the folder is reached, to the last link
  induction hwalked with
  | root hroot =>
    obtain ⟨root, hmem, rfl⟩ := List.mem_map.1 hroot
    obtain ⟨reference, hreference, rfl⟩ := List.mem_map.1 (List.mem_eraseDups.1
      (List.mem_filter.1 hmem).1)
    rw [hlawful.resolved] at hbelow
    rw [hroots reference hreference excluded hbelow] at hname
    exact absurd hname nofun
  | @next parent folder hparent hopen hsub ih =>
    obtain ⟨entry, hentry, rfl⟩ := List.mem_map.1 hsub
    by_cases hlink : fs.resolve entry = entry
    · -- no link: the folder is in its parent, which is not excluded itself
      obtain ⟨names, hnames, name, -, rfl⟩ := mem_openEntries.1 (List.mem_filter.1 hentry).1
      rw [hlink] at hbelow ⊢
      have hinside := Path.below_append_singleton.1 hbelow
      have hne : excluded ≠ parent := by
        rintro rfl
        rw [(openNames_eq_some hnames).2.2.1] at hname
        exact absurd hname nofun
      obtain ⟨p, e, hp, he, hlink', hbelow', hinside'⟩ := ih ⟨hinside, hne⟩
      exact ⟨p, e, hp, he, hlink', hbelow', hinside'.trans (List.prefix_append _ _)⟩
    · exact ⟨parent, entry, hparent, hentry, hlink, hbelow, List.prefix_refl _⟩

end Safety

/-- **Library discovery visits everything once, and nothing forbidden where the links are
harmless.**  In a lawful file system, with a checker that is closed under subdirectories,
the discovery ends, and walks each real folder at most once.  Its files are distinct, and
none is inside a restricted folder, the poster folder or an excluded folder at or below a
root, exactly where the links to video files are harmless and no film is in a folder below an
excluded one; and where no root is inside an excluded folder, such a film is in a folder to
which a link to a folder has led. -/
theorem discovery_safe_iff (fs : FileSystem) (config : Config) (referenceRoots : List Path)
    (hlawful : Lawful fs)
    (hclosed : ∀ folder sub : Path, folder <+: sub → config.restricted folder = true →
      config.restricted sub = true) :
    ∃ d, discoverLibraryFolders fs config referenceRoots = some d ∧
      d.visitedFolders.Nodup ∧ (∀ folder ∈ d.visitedFolders, fs.resolve folder = folder) ∧
      ((d.files.map DiscoveredMediaFile.path).Nodup ∧
          (∀ p ∈ d.files.map DiscoveredMediaFile.path, ¬Forbidden fs config referenceRoots p) ↔
        LinksHarmless fs config referenceRoots) ∧
      ((∀ root ∈ referenceRoots, ∀ folder, (fs.resolve root).below folder →
          excludedName config folder = false) →
        ∀ folder, Walked fs config referenceRoots folder →
          ∀ excluded, folder.below excluded → excludedName config excluded = true →
            ∃ parent entry, Walked fs config referenceRoots parent ∧
              entry ∈ folderEntries fs config parent ∧ fs.resolve entry ≠ entry ∧
              (fs.resolve entry).below excluded ∧ fs.resolve entry <+: folder) := by
  obtain ⟨d, hd⟩ := @discoverLibraryFolders_isSome fs config referenceRoots
  obtain ⟨hnodup, hresolved, entries, hdistinct, hentries, hfiles⟩ := discovery_spec hlawful hd
  refine ⟨d, hd, hnodup, hresolved, ?_, fun hroots folder hwalked excluded hbelow hname =>
    exists_link_of_belowExcluded hlawful hroots hwalked hbelow hname⟩
  rw [hfiles]
  exact links_harmless_iff hclosed hdistinct hentries

/-- A library with one entry, a link to a film in another folder. -/
def linkedFilm : FileSystem where
  resolve p := if p = ["library", "film.mkv"] then ["private", "film.mkv"] else p
  exist _ := true
  isDir p := some (decide (p = ["library"] ∨ p = ["private"]))
  isFile p := decide (p = ["library", "film.mkv"] ∨ p = ["private", "film.mkv"])
  iterdir p := if p = ["library"] ∨ p = ["private"] then some ["film.mkv"] else none
  stat _ := none
  sample _ := none
  folders := [["library"], ["private"]]
  resolve_mem_folders p hp := by
    rcases of_decide_eq_true (Option.some.inj hp) with rfl | rfl
    · decide
    · decide

/-- The other folder is restricted, with all that is in it. -/
def privateRestricted : Config where
  uni := ⟨fun c => c = ' ', fun _ => false, fun c => [c]⟩
  allowedVideoExtensions := [".mkv"]
  posterReferencePath := ["posters"]
  restricted p := ["private"].isPrefixOf p
  folderKey _ := "key"
  pathText _ := ""

theorem linkedFilm_lawful : Lawful linkedFilm where
  resolved p := by
    by_cases h : p = ["library", "film.mkv"]
    · subst h
      decide
    · simp only [linkedFilm, if_neg h]
  distinct folder names h := by
    simp only [linkedFilm] at h
    split_ifs at h
    cases h
    exact List.nodup_singleton _

theorem privateRestricted_closed (folder sub : Path) (h : folder <+: sub)
    (hrestricted : privateRestricted.restricted folder = true) :
    privateRestricted.restricted sub = true :=
  List.isPrefixOf_iff_prefix.2 ((List.isPrefixOf_iff_prefix.1 hrestricted).trans h)

/-- The link is followed when the film is recorded: a file of the restricted folder. -/
theorem linkedFilm_restricted :
    (discoverLibraryFolders linkedFilm privateRestricted [["library"]]).map
        (fun d => d.files.map DiscoveredMediaFile.path) = some [["private", "film.mkv"]] ∧
      Forbidden linkedFilm privateRestricted [["library"]] ["private", "film.mkv"] := by
  refine ⟨by decide +kernel, Or.inl ⟨["private"], ⟨?_, ?_⟩, ?_⟩⟩
  · decide
  · decide
  · decide

/-- The links of that library are not harmless. -/
theorem discovery_safe_iff_linkedFilm :
    ¬LinksHarmless linkedFilm privateRestricted [["library"]] := by
  obtain ⟨d, hd, -, -, hiff, -⟩ := discovery_safe_iff linkedFilm privateRestricted [["library"]]
    linkedFilm_lawful privateRestricted_closed
  have hfiles : (discoverLibraryFolders linkedFilm privateRestricted [["library"]]).map
      (fun d => d.files.map DiscoveredMediaFile.path) = some [["private", "film.mkv"]] := by
    decide +kernel
  rw [hd, Option.map_some, Option.some.injEq] at hfiles
  intro hharmless
  refine (hiff.2 hharmless).2 ["private", "film.mkv"] ?_
    (Or.inl ⟨["private"], ⟨by decide, by decide⟩, by decide⟩)
  rw [hfiles]
  exact List.mem_singleton_self _

end MediaScan
