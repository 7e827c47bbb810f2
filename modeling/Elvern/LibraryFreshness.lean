/-
The freshness snapshot of the local library (`media_scan.py`) and the question it answers
(`scan_service.py`).

* `TopLevel` — what the outside can change: the reference locations, their identities and
  their entries;
* `buildLocalLibraryFreshnessSnapshot` — the snapshot of it, with the digest and the order of
  the names as parameters;
* `shouldEnqueueLocalLibraryScan` — whether a scan is needed, given the snapshot just built
  and the stored one;
* `Snapshot.fits` — the fields the question compares;
* `same_of_fits` — two ready snapshots that fit are of the same top level.
-/
import Mathlib.Data.List.Basic
import Mathlib.Data.Int.Notation
import Mathlib.Data.List.Forall2
import Mathlib.Tactic.Common

namespace LibraryScans

/-- What an entry is; the size of a file counts, that of a folder does not. -/
inductive EntryKind
  | dir
  | file (size : ℕ)
  | other
  deriving DecidableEq

/-- What `stat` says about an entry. -/
structure EntryStat where
  kind : EntryKind
  mtimeNs : ℤ
  deriving DecidableEq

/-- A name in a root, with its `stat`; `none` where that raises `OSError`. -/
structure Entry where
  name : String
  stat : Option EntryStat
  deriving DecidableEq

/-- What is at a reference location: nothing that is a folder, a folder that cannot be read, or
its identity and its entries in the order of `iterdir`. -/
inductive RootView
  | missing
  | unreadable
  | folder (dev ino : ℕ) (entries : List Entry)
  deriving DecidableEq

/-- A resolved reference location. -/
structure Root where
  path : String
  view : RootView
  deriving DecidableEq

/-- The top level: the shared local library path and the reference locations. -/
structure TopLevel where
  sharedPath : String
  roots : List Root
  deriving DecidableEq

/-- One record of the fingerprint. -/
structure FingerprintEntry where
  rootIndex : ℕ
  root : String
  name : String
  kind : String
  mtimeNs : ℤ
  size : ℕ
  deriving DecidableEq

def EntryKind.text : EntryKind → String
  | .dir => "dir"
  | .file _ => "file"
  | .other => "other"

def EntryKind.size : EntryKind → ℕ
  | .file size => size
  | _ => 0

inductive SnapshotState
  | unknown
  | missing
  | error
  | ready
  deriving DecidableEq

/-- A snapshot, as it is stored. -/
structure Snapshot (δ : Type) where
  version : ℕ
  mediaRoot : String
  mediaRoots : List String
  state : SnapshotState
  rootIdentity : Option (ℕ × ℕ)
  rootIdentities : List (ℕ × ℕ)
  topLevelCount : ℕ
  topLevelFingerprint : Option δ
  topLevelFingerprints : List δ
  deriving DecidableEq

def localLibraryFreshnessSnapshotVersion : ℕ := 1

section Build

variable {δ : Type} (lower : String → String) (digest : List FingerprintEntry → δ)

/-- The records of one root; `none` if the `stat` of an entry raises. -/
def rootEntries (index : ℕ) (root : String) (entries : List Entry) :
    Option (List FingerprintEntry) :=
  (entries.mergeSort fun a b => decide (lower a.name ≤ lower b.name)).mapM fun entry =>
    entry.stat.map fun stat =>
      ⟨index, root, entry.name, stat.kind.text, stat.mtimeNs, stat.kind.size⟩

/-- What the loop over the roots has gathered. -/
structure Gathered (δ : Type) where
  rootIdentities : List (ℕ × ℕ)
  entries : List FingerprintEntry
  fingerprints : List δ

/-- The loop over the roots, or the state it returns with. -/
def gatherRoots : ℕ → List Root → Except SnapshotState (Gathered δ)
  | _, [] => .ok ⟨[], [], []⟩
  | index, root :: rest =>
    match root.view with
    | .missing => .error .missing
    | .unreadable => .error .error
    | .folder dev ino entries =>
      match rootEntries lower index root.path entries with
      | none => .error .error
      | some encoded =>
        match gatherRoots (index + 1) rest with
        | .error state => .error state
        | .ok rest => .ok ⟨(dev, ino) :: rest.rootIdentities, encoded ++ rest.entries,
            digest encoded :: rest.fingerprints⟩

/-- `build_local_library_freshness_snapshot`. -/
def buildLocalLibraryFreshnessSnapshot (top : TopLevel) : Snapshot δ :=
  let mediaRoots := top.roots.map (·.path)
  let snapshot : Snapshot δ :=
    { version := localLibraryFreshnessSnapshotVersion
      mediaRoot := mediaRoots.head?.getD top.sharedPath
      mediaRoots := mediaRoots
      state := .unknown
      rootIdentity := none
      rootIdentities := []
      topLevelCount := 0
      topLevelFingerprint := none
      topLevelFingerprints := [] }
  if top.roots = [] then { snapshot with state := .missing }
  else
    match gatherRoots lower digest 0 top.roots with
    | .error state => { snapshot with state := state }
    | .ok gathered =>
      { snapshot with
        state := .ready
        rootIdentity := gathered.rootIdentities.head?
        rootIdentities := gathered.rootIdentities
        topLevelCount := gathered.entries.length
        topLevelFingerprint := some (digest gathered.entries)
        topLevelFingerprints := gathered.fingerprints }

end Build

section Question

variable {δ : Type} [DecidableEq δ]

/-- `_should_enqueue_local_library_scan`: whether to scan, and the message; `current` is `none`
where the building of the snapshot raised. -/
def shouldEnqueueLocalLibraryScan (current previous : Option (Snapshot δ)) : Bool × String :=
  match current with
  | none => (true, "Startup scan allowed: local library freshness check failed.")
  | some current =>
    match previous with
    | none => (true, "Startup scan allowed: no prior local library freshness snapshot.")
    | some previous =>
      if previous.version ≠ current.version then
        (true, "Startup scan allowed: local library freshness snapshot format changed.")
      else if previous.state ≠ .ready then
        (true, "Startup scan allowed: prior local library freshness state is unknown.")
      else if current.state ≠ .ready then
        (true, "Startup scan allowed: current local library freshness state is unknown.")
      else if previous.mediaRoot ≠ current.mediaRoot ∨ previous.mediaRoots ≠ current.mediaRoots ∨
          previous.rootIdentity ≠ current.rootIdentity ∨
          previous.rootIdentities ≠ current.rootIdentities then
        (true, "Startup scan allowed: media root identity changed.")
      else if previous.topLevelCount ≠ current.topLevelCount ∨
          previous.topLevelFingerprint ≠ current.topLevelFingerprint ∨
          previous.topLevelFingerprints ≠ current.topLevelFingerprints then
        (true, "Startup scan allowed: top-level library state changed.")
      else
        (false, "Startup scan skipped: local library top-level state matches the last " ++
          "successful scan.")

/-- Two ready snapshots that agree in all that is compared. -/
structure Snapshot.Fits (previous current : Snapshot δ) : Prop where
  version : previous.version = current.version
  previousReady : previous.state = .ready
  currentReady : current.state = .ready
  mediaRoot : previous.mediaRoot = current.mediaRoot
  mediaRoots : previous.mediaRoots = current.mediaRoots
  rootIdentity : previous.rootIdentity = current.rootIdentity
  rootIdentities : previous.rootIdentities = current.rootIdentities
  topLevelCount : previous.topLevelCount = current.topLevelCount
  topLevelFingerprint : previous.topLevelFingerprint = current.topLevelFingerprint
  topLevelFingerprints : previous.topLevelFingerprints = current.topLevelFingerprints

/-- A scan is skipped exactly where the stored snapshot fits the one just built. -/
theorem shouldEnqueueLocalLibraryScan_eq_false {current previous : Option (Snapshot δ)} :
    (shouldEnqueueLocalLibraryScan current previous).1 = false ↔
      ∃ c p, current = some c ∧ previous = some p ∧ p.Fits c := by
  cases current with
  | none =>
    refine ⟨(fun h => by cases h), ?_⟩
    rintro ⟨c, p, hc, -⟩
    cases hc
  | some c =>
    cases previous with
    | none =>
      refine ⟨(fun h => by cases h), ?_⟩
      rintro ⟨c, p, -, hp, -⟩
      cases hp
    | some p =>
      rw [shouldEnqueueLocalLibraryScan]
      constructor
      · intro h
        refine ⟨c, p, rfl, rfl, ?_⟩
        split_ifs at h with h₁ h₂ h₃ h₄ h₅
        simp only [not_or, not_not] at h₁ h₂ h₃ h₄ h₅
        exact ⟨h₁, h₂, h₃, h₄.1, h₄.2.1, h₄.2.2.1, h₄.2.2.2, h₅.1, h₅.2.1, h₅.2.2⟩
      · rintro ⟨c', p', hc, hp, h⟩
        cases hc
        cases hp
        simp [h.version, h.previousReady, h.currentReady, h.mediaRoot, h.mediaRoots,
          h.rootIdentity, h.rootIdentities, h.topLevelCount, h.topLevelFingerprint,
          h.topLevelFingerprints]

omit [DecidableEq δ] in
theorem Snapshot.Fits.symm {p c : Snapshot δ} (h : p.Fits c) : c.Fits p :=
  ⟨h.version.symm, h.currentReady, h.previousReady, h.mediaRoot.symm, h.mediaRoots.symm,
    h.rootIdentity.symm, h.rootIdentities.symm, h.topLevelCount.symm,
    h.topLevelFingerprint.symm, h.topLevelFingerprints.symm⟩

omit [DecidableEq δ] in
theorem Snapshot.Fits.trans {p c q : Snapshot δ} (h : p.Fits c) (h' : c.Fits q) : p.Fits q :=
  ⟨h.version.trans h'.version, h.previousReady, h'.currentReady, h.mediaRoot.trans h'.mediaRoot,
    h.mediaRoots.trans h'.mediaRoots, h.rootIdentity.trans h'.rootIdentity,
    h.rootIdentities.trans h'.rootIdentities, h.topLevelCount.trans h'.topLevelCount,
    h.topLevelFingerprint.trans h'.topLevelFingerprint,
    h.topLevelFingerprints.trans h'.topLevelFingerprints⟩

end Question

/-! ### What a fingerprint determines -/

/-- The same thing at a location: the identity, and the entries in any order. -/
def RootView.Same : RootView → RootView → Prop
  | .folder dev ino entries, .folder dev' ino' entries' =>
    dev = dev' ∧ ino = ino' ∧ entries.Perm entries'
  | a, b => a = b

/-- The same top level: the same locations, with the same things at them. -/
def TopLevel.Same (s t : TopLevel) : Prop :=
  List.Forall₂ (fun a b => a.path = b.path ∧ a.view.Same b.view) s.roots t.roots

variable {δ : Type} {lower : String → String} {digest : List FingerprintEntry → δ}

/-- Kind and size of a record say what the entry is. -/
theorem EntryKind.eq_of_text_size {a b : EntryKind} (htext : a.text = b.text)
    (hsize : a.size = b.size) : a = b := by
  cases a <;> cases b <;> simp_all [EntryKind.text, EntryKind.size]

/-- The records of a listing determine it. -/
theorem eq_of_mapM_entry {index : ℕ} {root : String} :
    ∀ {es es' : List Entry} {rs : List FingerprintEntry},
      es.mapM (fun entry => entry.stat.map fun stat => (⟨index, root, entry.name, stat.kind.text,
        stat.mtimeNs, stat.kind.size⟩ : FingerprintEntry)) = some rs →
      es'.mapM (fun entry => entry.stat.map fun stat => (⟨index, root, entry.name, stat.kind.text,
        stat.mtimeNs, stat.kind.size⟩ : FingerprintEntry)) = some rs →
      es = es' := by
  intro es
  induction es with
  | nil =>
    intro es' rs h h'
    cases h
    cases es' with
    | nil => rfl
    | cons e rest =>
      rw [List.mapM_cons, Option.bind_eq_bind, Option.bind_eq_some_iff] at h'
      obtain ⟨r, -, h'⟩ := h'
      rw [Option.bind_eq_bind, Option.bind_eq_some_iff] at h'
      obtain ⟨rs, -, h'⟩ := h'
      cases h'
  | cons e rest ih =>
    intro es' rs h h'
    rw [List.mapM_cons, Option.bind_eq_bind, Option.bind_eq_some_iff] at h
    obtain ⟨r, hr, h⟩ := h
    rw [Option.bind_eq_bind, Option.bind_eq_some_iff] at h
    obtain ⟨rs', hrs, h⟩ := h
    cases h
    cases es' with
    | nil => cases h'
    | cons e' rest' =>
      rw [List.mapM_cons, Option.bind_eq_bind, Option.bind_eq_some_iff] at h'
      obtain ⟨r', hr', h'⟩ := h'
      rw [Option.bind_eq_bind, Option.bind_eq_some_iff] at h'
      obtain ⟨rs'', hrs', h'⟩ := h'
      cases h'
      have hrest : rest = rest' := ih hrs hrs'
      rw [Option.map_eq_some_iff] at hr hr'
      obtain ⟨s, hs, hr⟩ := hr
      obtain ⟨s', hs', hr'⟩ := hr'
      subst hr
      simp only [FingerprintEntry.mk.injEq, true_and] at hr'
      obtain ⟨hname, htext, hmtime, hsize⟩ := hr'
      have hstat : s' = s := by
        rcases s with ⟨kind, mtime⟩
        rcases s' with ⟨kind', mtime'⟩
        have hkind : kind' = kind := EntryKind.eq_of_text_size htext hsize
        have hm : mtime' = mtime := hmtime
        rw [hkind, hm]
      rcases e with ⟨name, stat⟩
      rcases e' with ⟨name', stat'⟩
      have hn : name' = name := hname
      have hst : stat = stat' := hs.trans ((congrArg some hstat).symm.trans hs'.symm)
      rw [hrest, hn, hst]

/-- Records that agree come from the same entries, listed in any order. -/
theorem perm_of_rootEntries {index : ℕ} {root : String} {es es' : List Entry}
    {rs : List FingerprintEntry} (h : rootEntries lower index root es = some rs)
    (h' : rootEntries lower index root es' = some rs) : es.Perm es' := by
  have hsorted := eq_of_mapM_entry h h'
  have hperm := (List.mergeSort_perm es fun a b => decide (lower a.name ≤ lower b.name)).symm
  rw [hsorted] at hperm
  exact hperm.trans (List.mergeSort_perm ..)

/-- Roots that are gathered with the same identities and fingerprints are the same. -/
theorem same_of_gatherRoots (hdigest : Function.Injective digest) :
    ∀ {rs rs' : List Root} {index : ℕ} {g g' : Gathered δ},
      gatherRoots lower digest index rs = .ok g → gatherRoots lower digest index rs' = .ok g' →
      rs.map (·.path) = rs'.map (·.path) → g.rootIdentities = g'.rootIdentities →
      g.fingerprints = g'.fingerprints →
      List.Forall₂ (fun a b => a.path = b.path ∧ a.view.Same b.view) rs rs' := by
  intro rs
  induction rs with
  | nil =>
    intro rs' index g g' _ _ hpaths _ _
    cases rs' with
    | nil => exact .nil
    | cons => cases hpaths
  | cons r rest ih =>
    intro rs' index g g' h h' hpaths hids hprints
    cases rs' with
    | nil => cases hpaths
    | cons r' rest' =>
      rw [List.map_cons, List.map_cons, List.cons.injEq] at hpaths
      rcases r with ⟨path, view⟩
      rcases r' with ⟨path', view'⟩
      obtain ⟨hpath, hpaths⟩ := hpaths
      change path = path' at hpath
      subst hpath
      rw [gatherRoots] at h h'
      cases view with
      | missing => cases h
      | unreadable => cases h
      | folder dev ino entries =>
        cases view' with
        | missing => cases h'
        | unreadable => cases h'
        | folder dev' ino' entries' =>
          simp only at h h'
          split at h
          · cases h
          · next encoded hencoded =>
            split at h'
            · cases h'
            · next encoded' hencoded' =>
              split at h
              · cases h
              · next tail htail =>
                split at h'
                · cases h'
                · next tail' htail' =>
                  cases h
                  cases h'
                  simp only [List.cons.injEq, Prod.mk.injEq] at hids hprints
                  have heq : encoded = encoded' := hdigest hprints.1
                  subst heq
                  have hperm := perm_of_rootEntries hencoded hencoded'
                  exact .cons ⟨rfl, hids.1.1, hids.1.2, hperm⟩
                    (ih htail htail' hpaths hids.2 hprints.2)

/-- The loop returns early with a state other than ready. -/
theorem gatherRoots_error_ne : ∀ {rs : List Root} {index : ℕ} {state : SnapshotState},
    gatherRoots lower digest index rs = .error state → state ≠ .ready := by
  intro rs
  induction rs with
  | nil =>
    intro index state h
    cases h
  | cons r rest ih =>
    intro index state h
    rw [gatherRoots] at h
    split at h
    · cases h
      decide
    · cases h
      decide
    · split at h
      · cases h
        decide
      · split at h
        · next hrest =>
          cases h
          exact ih hrest
        · cases h

/-- A ready snapshot has gathered its roots. -/
theorem gather_of_ready {top : TopLevel}
    (h : (buildLocalLibraryFreshnessSnapshot lower digest top).state = .ready) :
    ∃ g, gatherRoots lower digest 0 top.roots = .ok g ∧
      (buildLocalLibraryFreshnessSnapshot lower digest top).rootIdentities = g.rootIdentities ∧
      (buildLocalLibraryFreshnessSnapshot lower digest top).topLevelFingerprints =
        g.fingerprints := by
  rw [buildLocalLibraryFreshnessSnapshot] at h ⊢
  simp only at h ⊢
  split_ifs at h ⊢ with hnil
  split at h
  · next s hs => exact absurd h (gatherRoots_error_ne hs)
  · next g hg =>
    exact ⟨g, hg, rfl, rfl⟩

theorem mediaRoots_build (top : TopLevel) :
    (buildLocalLibraryFreshnessSnapshot lower digest top).mediaRoots = top.roots.map (·.path) := by
  rw [buildLocalLibraryFreshnessSnapshot]
  simp only
  split_ifs
  · rfl
  · split <;> rfl

/-- Snapshots that fit are of the same top level. -/
theorem same_of_fits [DecidableEq δ] (hdigest : Function.Injective digest) {s t : TopLevel}
    (h : (buildLocalLibraryFreshnessSnapshot lower digest s).Fits
      (buildLocalLibraryFreshnessSnapshot lower digest t)) : s.Same t := by
  obtain ⟨g, hg, hids, hprints⟩ := gather_of_ready h.previousReady
  obtain ⟨g', hg', hids', hprints'⟩ := gather_of_ready h.currentReady
  have hpaths : s.roots.map (·.path) = t.roots.map (·.path) :=
    (mediaRoots_build s).symm.trans (h.mediaRoots.trans (mediaRoots_build t))
  exact same_of_gatherRoots hdigest hg hg' hpaths
    (hids.symm.trans (h.rootIdentities.trans hids'))
    (hprints.symm.trans (h.topLevelFingerprints.trans hprints'))

end LibraryScans
