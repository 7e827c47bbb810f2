/-
The published files of an epoch over all runs (`mobile_playback_route2_epoch_publication.py`).

* `Sound` — names are those of segments, every write of the transcoder is in one place, and the
  frontier is backed by files;
* `Later` — files are still there, and the frontier has not gone back;
* `step_later` — both over every operation, whoever makes it and whatever fails;
* `publication_frontier` — what a rebuild finds, and what every later state keeps.
-/
import Mathlib.Order.Bounds.Basic
import Mathlib.Tactic.Linarith
import Elvern.EpochPublication

open Runs

namespace EpochPublication

/-! ### Directories -/

section FileDir

variable {dir : FileDir} {name : String} {file : MediaFile} {entry : String × MediaFile}

theorem mem_put : entry ∈ dir.put name file ↔ (entry ∈ dir ∧ entry.1 ≠ name) ∨ entry =
    (name, file) := by
  rw [FileDir.put, List.mem_append, List.mem_filter, List.mem_singleton, decide_eq_true_eq]

theorem mem_remove : entry ∈ dir.remove name ↔ entry ∈ dir ∧ entry.1 ≠ name := by
  rw [FileDir.remove, List.mem_filter, decide_eq_true_eq]

theorem mem_of_lookup (h : dir.lookup name = some file) : (name, file) ∈ dir := by
  obtain ⟨before, after, rfl, -⟩ := List.lookup_eq_some_iff.1 h
  exact List.mem_append_right _ List.mem_cons_self

theorem not_mem_of_lookup (h : dir.lookup name = none) : name ∉ dir.map Prod.fst := by
  intro hmem
  obtain ⟨entry, hentry, rfl⟩ := List.mem_map.1 hmem
  have hne := List.lookup_eq_none_iff.1 h entry hentry
  simp at hne

/-- A file with a new name is added at the end. -/
theorem put_fresh (h : name ∉ dir.map Prod.fst) : dir.put name file = dir ++ [(name, file)] := by
  have hall : dir.filter (·.1 ≠ name) = dir := by
    refine List.filter_eq_self.2 fun entry hentry => decide_eq_true ?_
    rintro rfl
    exact h (List.mem_map_of_mem hentry)
  rw [FileDir.put, hall]

end FileDir

/-! ### The invariant -/

/-- Where a file may be. -/
inductive Place
  | staged (name : String)
  | init
  | segment (name : String)

namespace Locked

/-- What a call of the inner functions comes back to. -/
def Resumes : Locked → Prop
  | .idle => True
  | .listing => True
  | .loop _ => True
  | _ => False

end Locked

namespace State

variable (s : State)

/-- The file is there. -/
def Holds : Place → MediaFile → Prop
  | .staged name, file => (name, file) ∈ s.staging
  | .init, file => s.publishedInit = some file
  | .segment name, file => (name, file) ∈ s.published

/-- The init file and the segments up to the number are published. -/
def Ready (n : ℕ) : Prop :=
  s.publishedInit ≠ none ∧ ∀ i ≤ n, segmentDestination i ∈ s.published.map Prod.fst

/-- The sizes of the published files together. -/
def publishedSize : ℕ :=
  (s.publishedInit.elim 0 fun file => file.bytes.length) +
    (s.published.map fun entry => entry.2.bytes.length).sum

/-- What the next operation of the lock holder relies on. -/
def Prepared : Prop :=
  match s.locked with
  | .init _ next => next.Resumes
  | .segment _ _ next => next.Resumes
  | .moveInit _ next => next.Resumes ∧ s.publishedInit = none
  | .moveSegment index _ next =>
    next.Resumes ∧ segmentDestination index ∉ s.published.map Prod.fst
  | .rebuild next => next.Resumes
  | .rebuildSegments next =>
    next.Resumes ∧ s.epoch.initPublished = s.publishedInit.isSome ∧
      s.epoch.publishedInitBytes = s.publishedInit.elim 0 fun file => file.bytes.length
  | .report next => next.Resumes
  | _ => True

end State

structure Sound (s : State) : Prop where
  names : ∀ entry ∈ s.published, ∃ n, entry.1 = segmentDestination n
  nodup : (s.published.map Prod.fst).Nodup
  once : ∀ p p' f f', s.Holds p f → s.Holds p' f' → f.writing = f'.writing → p = p'
  written : ∀ p f, s.Holds p f → f.writing < s.writes
  backed : ∀ n, s.epoch.contiguousPublishedThroughSegment = some n → s.Ready n
  prepared : s.Prepared

/-- The published files are still there, and the frontier has not gone back. -/
structure Later (s s' : State) : Prop where
  init : ∀ file, s.publishedInit = some file → s'.publishedInit = some file
  segments : ∀ entry ∈ s.published, entry ∈ s'.published
  frontier : ∀ n, s.epoch.contiguousPublishedThroughSegment = some n →
    ∃ m ≥ n, s'.epoch.contiguousPublishedThroughSegment = some m

theorem Later.refl (s : State) : Later s s :=
  ⟨fun _ h => h, fun _ h => h, fun n h => ⟨n, le_refl n, h⟩⟩

theorem Later.trans {s s' s'' : State} (h : Later s s') (h' : Later s' s'') : Later s s'' where
  init file hfile := h'.init file (h.init file hfile)
  segments entry hentry := h'.segments entry (h.segments entry hentry)
  frontier n hn := by
    obtain ⟨m, hm, hfrontier⟩ := h.frontier n hn
    obtain ⟨m', hm', hfrontier'⟩ := h'.frontier m hfrontier
    exact ⟨m', hm.trans hm', hfrontier'⟩

section Rebuild

variable {s : State}

/-- A listing shows the published segments and their sizes. -/
theorem listed_eq {dir : FileDir} (h : ∀ entry ∈ dir, ∃ n, entry.1 = segmentDestination n) :
    ∃ indexes : List ℕ, dir.map Prod.fst = indexes.map segmentDestination ∧
      (listedSegments dir).map Prod.fst = indexes.map (Nat.cast : ℕ → ℤ) ∧
      (listedSegments dir).map Prod.snd = dir.map fun entry => entry.2.bytes.length := by
  induction dir with
  | nil => exact ⟨[], rfl, rfl, rfl⟩
  | cons entry dir ih =>
    obtain ⟨n, hn⟩ := h entry List.mem_cons_self
    obtain ⟨indexes, hnames, hindexes, hsizes⟩ := ih fun e he => h e (List.mem_cons_of_mem _ he)
    have hentry : ((segmentToken entry.1).bind fun token =>
        (int token).map fun index => (index, entry.2.bytes.length)) = some ((n : ℤ),
            entry.2.bytes.length) := by
      -- the name of a segment is read back as its index
      rw [hn]
      have hindex := destination_index n
      cases htoken : segmentToken (segmentDestination n) with
      | none =>
        rw [htoken] at hindex
        cases hindex
      | some token =>
        rw [htoken, Option.bind_some] at hindex
        rw [Option.bind_some, hindex]
        rfl
    have hcons : listedSegments (entry :: dir) =
        ((n : ℤ), entry.2.bytes.length) :: listedSegments dir :=
      List.filterMap_cons_some hentry
    refine ⟨n :: indexes, ?_, ?_, ?_⟩
    · rw [List.map_cons, List.map_cons, hnames, hn]
    · rw [hcons, List.map_cons, List.map_cons, hindexes]
    · rw [hcons, List.map_cons, List.map_cons, hsizes]

/-- Sizes of different segments are all kept. -/
theorem putBytes_fold {entries sizes : List (ℤ × ℕ)} (h : ((sizes ++ entries).map Prod.fst).Nodup) :
    entries.foldl (fun sizes entry => putBytes sizes entry.1 entry.2) sizes = sizes ++ entries := by
  induction entries generalizing sizes with
  | nil => rw [List.foldl_nil, List.append_nil]
  | cons entry entries ih =>
    have hput : putBytes sizes entry.1 entry.2 = sizes ++ [entry] := by
      have hall : sizes.filter (·.1 ≠ entry.1) = sizes := by
        refine List.filter_eq_self.2 fun other hother => decide_eq_true fun heq => ?_
        rw [List.map_append, List.nodup_append] at h
        exact h.2.2 other.1 (List.mem_map_of_mem hother) entry.1
          (List.mem_map_of_mem List.mem_cons_self) heq
      rw [putBytes, hall]
    rw [List.foldl_cons, hput, ih]
    · rw [List.append_assoc, List.singleton_append]
    · rwa [List.append_assoc, List.singleton_append]

/-- **A rebuild** adds up the published files. -/
theorem rebuilt_total (h : Sound s)
    (hbytes : s.epoch.publishedInitBytes = s.publishedInit.elim 0 fun file => file.bytes.length) :
    s.rebuildSegments.publishedTotalBytes = s.publishedSize := by
  obtain ⟨indexes, hnames, hindexes, hsizes⟩ := listed_eq h.names
  -- different names have different indexes, so that no size replaces another
  have hnodup : ((listedSegments s.published).map Prod.fst).Nodup := by
    have hnames' := h.nodup
    rw [hnames] at hnames'
    rw [hindexes]
    exact (List.Nodup.of_map _ hnames').map fun _ _ heq => Int.ofNat.inj heq
  have hfold : (listedSegments s.published).foldl (fun sizes entry =>
    putBytes sizes entry.1 entry.2) [] =
      listedSegments s.published := putBytes_fold hnodup
  show s.epoch.publishedInitBytes + (((listedSegments s.published).foldl
    (fun sizes entry => putBytes sizes entry.1 entry.2) []).map Prod.snd).sum = s.publishedSize
  rw [hfold, hsizes, hbytes, State.publishedSize]

/-- The listing has the index of each published name. -/
theorem mem_listed (h : Sound s) (i : ℕ) :
    (i : ℤ) ∈ ((listedSegments s.published).map Prod.fst).dedup ↔
      segmentDestination i ∈ s.published.map Prod.fst := by
  obtain ⟨indexes, hnames, hindexes, -⟩ := listed_eq h.names
  have hcast : Function.Injective (Nat.cast : ℕ → ℤ) := fun _ _ heq => Int.ofNat.inj heq
  rw [List.mem_dedup, hindexes, hnames, List.mem_map_of_injective segmentDestination_injective,
    List.mem_map_of_injective hcast]

/-- The frontier of a rebuild, where `init_published` says what there is. -/
theorem rebuilt_eq (hinit : s.epoch.initPublished = s.publishedInit.isSome) :
    s.rebuildSegments.contiguousPublishedThroughSegment =
      if s.publishedInit.isSome then
        contiguousSegmentFrontier ((listedSegments s.published).map Prod.fst).dedup else none := by
  rw [← hinit]
  rfl

/-- There is no frontier without the init file or the first segment. -/
theorem rebuilt_none (h : Sound s) (hinit : s.epoch.initPublished = s.publishedInit.isSome) :
    s.rebuildSegments.contiguousPublishedThroughSegment = none ↔ ¬ s.Ready 0 := by
  have hzero := mem_listed h 0
  rw [rebuilt_eq hinit]
  cases hpublished : s.publishedInit with
  | none =>
    rw [Option.isSome_none, if_neg Bool.false_ne_true]
    exact iff_of_true rfl fun hready => hready.1 hpublished
  | some file =>
    rw [Option.isSome_some, if_pos rfl, contiguousSegmentFrontier_none]
    refine not_congr ?_
    rw [Int.natCast_zero] at hzero
    rw [hzero]
    constructor
    · intro hmem
      refine ⟨by rw [hpublished]; exact Option.some_ne_none file, fun i hi => ?_⟩
      rw [Nat.le_zero.1 hi]
      exact hmem
    · intro hready
      exact hready.2 0 (le_refl 0)

/-- **A rebuild** finds the last segment before the first gap. -/
theorem rebuilt_frontier (h : Sound s)
    (hinit : s.epoch.initPublished = s.publishedInit.isSome) (n : ℕ) :
    s.rebuildSegments.contiguousPublishedThroughSegment = some n ↔
        IsGreatest {m | s.Ready m} n := by
  have hmem := mem_listed h
  rw [rebuilt_eq hinit]
  cases hpublished : s.publishedInit with
  | none =>
    rw [Option.isSome_none, if_neg Bool.false_ne_true]
    refine iff_of_false (Option.some_ne_none n).symm ?_
    rintro ⟨⟨hready, -⟩, -⟩
    exact hready hpublished
  | some file =>
    rw [Option.isSome_some, if_pos rfl, contiguousSegmentFrontier_spec]
    have hready : ∀ m, s.Ready m ↔ ∀ i : ℕ, i ≤ m → (i : ℤ) ∈
        ((listedSegments s.published).map Prod.fst).dedup := by
      intro m
      simp only [State.Ready, hpublished, ne_eq, reduceCtorEq, not_false_eq_true, true_and, hmem]
    constructor
    · rintro ⟨hall, hend⟩
      refine ⟨(hready n).2 hall, fun m hm => ?_⟩
      by_contra hlt
      exact hend ((hready m).1 hm (n + 1) (by omega))
    · rintro ⟨hn, hgreatest⟩
      refine ⟨(hready n).1 hn, fun hnext => ?_⟩
      have hmore : s.Ready (n + 1) := by
        rw [hready]
        intro i hi
        rcases Nat.le_succ_iff.1 hi with hi | rfl
        · exact (hready n).1 hn i hi
        · exact hnext
      exact absurd (hgreatest hmore) (by omega)

end Rebuild

/-! ### Operations -/

section Step

variable {s s' : State}

/-- What the lock holder has not touched. -/
theorem Sound.of_same (h : Sound s) (hstaging : s'.staging = s.staging)
    (hinit : s'.publishedInit = s.publishedInit) (hpublished : s'.published = s.published)
    (hwrites : s'.writes = s.writes)
    (hfrontier : ∀ n, s'.epoch.contiguousPublishedThroughSegment = some n → s'.Ready n)
    (hprepared : s'.Prepared) : Sound s' := by
  have hholds : ∀ p f, s'.Holds p f ↔ s.Holds p f := by
    intro p f
    cases p with
    | staged name => rw [State.Holds, State.Holds, hstaging]
    | init => rw [State.Holds, State.Holds, hinit]
    | segment name => rw [State.Holds, State.Holds, hpublished]
  constructor
  · rw [hpublished]
    exact h.names
  · rw [hpublished]
    exact h.nodup
  · intro p p' f f' hp hp'
    exact h.once p p' f f' ((hholds p f).1 hp) ((hholds p' f').1 hp')
  · intro p f hp
    rw [hwrites]
    exact h.written p f ((hholds p f).1 hp)
  · exact hfrontier
  · exact hprepared

/-- The lock holder goes on to another place. -/
theorem Sound.goto (h : Sound s) {locked : Locked}
    (hprepared : State.Prepared { s with locked := locked }) :
    Sound { s with locked := locked } ∧ Later s { s with locked := locked } :=
  ⟨h.of_same rfl rfl rfl rfl h.backed hprepared, fun _ hf => hf, fun _ he => he,
    fun n hn => ⟨n, le_refl n, hn⟩⟩

theorem Resumes.prepared {locked : Locked} (h : locked.Resumes) :
    State.Prepared { s with locked := locked } := by
  cases locked <;> trivial

/-- A staged file is moved to a place where there is none. -/
theorem Sound.move (h : Sound s) {staged : String} {file : MediaFile}
    (hfile : s.staging.lookup staged = some file) {p : Place}
    (hholds : ∀ q f, s'.Holds q f → (s.Holds q f ∧ q ≠ .staged staged) ∨ q = p ∧ f = file)
    (hwrites : s'.writes = s.writes) :
    (∀ q q' f f', s'.Holds q f → s'.Holds q' f' → f.writing = f'.writing → q = q') ∧
      ∀ q f, s'.Holds q f → f.writing < s'.writes := by
  have hstaged : s.Holds (.staged staged) file := mem_of_lookup hfile
  constructor
  -- a write that is in the new place and elsewhere was in the staging directory and elsewhere
  · intro q q' f f' hq hq' heq
    rcases hholds q f hq with ⟨hq, hne⟩ | ⟨rfl, rfl⟩
    · rcases hholds q' f' hq' with ⟨hq', -⟩ | ⟨rfl, rfl⟩
      · exact h.once q q' f f' hq hq' heq
      · exact absurd (h.once q _ f f' hq hstaged heq) hne
    · rcases hholds q' f' hq' with ⟨hq', hne⟩ | ⟨rfl, -⟩
      · exact absurd (h.once q' _ f' f hq' hstaged heq.symm) hne
      · rfl
  · intro q f hq
    rw [hwrites]
    rcases hholds q f hq with ⟨hq, -⟩ | ⟨-, rfl⟩
    · exact h.written q f hq
    · exact h.written _ _ hstaged

/-- More published files. -/
theorem Ready.mono {n : ℕ} (h : s.Ready n) (hinit : ∀ file, s.publishedInit = some file →
    s'.publishedInit = some file) (hsegments : ∀ entry ∈ s.published, entry ∈ s'.published) :
    s'.Ready n := by
  refine ⟨fun hnone => ?_, fun i hi => ?_⟩
  · obtain ⟨file, hfile⟩ := Option.ne_none_iff_exists'.1 h.1
    rw [hinit file hfile] at hnone
    cases hnone
  · obtain ⟨entry, hentry, hname⟩ := List.mem_map.1 (h.2 i hi)
    exact List.mem_map.2 ⟨entry, hsegments entry hentry, hname⟩

theorem Sound.moveInit (h : Sound s) {staged : String} {next : Locked} {file : MediaFile}
    (hfile : s.staging.lookup staged = some file) (hnext : next.Resumes)
    (hnone : s.publishedInit = none) (hs' : s' = { s with
      staging := s.staging.remove staged
      publishedInit := some file
      locked := .rebuild next }) : Sound s' ∧ Later s s' := by
  have hinit : ∀ f, s.publishedInit = some f → s'.publishedInit = some f := by
    intro f hf
    rw [hnone] at hf
    cases hf
  have hsegments : ∀ entry ∈ s.published, entry ∈ s'.published := by
    rw [hs']
    exact fun _ he => he
  have hholds : ∀ q f, s'.Holds q f → (s.Holds q f ∧ q ≠ .staged staged) ∨
      q = .init ∧ f = file := by
    rw [hs']
    intro q f hq
    cases q with
    | staged name =>
      obtain ⟨hmem, hne⟩ := mem_remove.1 hq
      exact Or.inl ⟨hmem, fun heq => hne (Place.staged.inj heq)⟩
    | init => exact Or.inr ⟨rfl, (Option.some_inj.1 hq).symm⟩
    | segment name => exact Or.inl ⟨hq, Place.noConfusion⟩
  have hwrites : s'.writes = s.writes := by rw [hs']
  obtain ⟨honce, hwritten⟩ := h.move hfile hholds hwrites
  have hfrontier : s'.epoch = s.epoch := by rw [hs']
  refine ⟨⟨?_, ?_, honce, hwritten, ?_, ?_⟩, hinit, hsegments, ?_⟩
  · rw [hs']
    exact h.names
  · rw [hs']
    exact h.nodup
  · intro n hn
    rw [hfrontier] at hn
    exact Ready.mono (h.backed n hn) hinit hsegments
  · rw [hs']
    exact hnext
  · intro n hn
    rw [hfrontier]
    exact ⟨n, le_refl n, hn⟩

theorem Sound.moveSegment (h : Sound s) {index : ℕ} {staged : String} {next : Locked}
    {file : MediaFile} (hfile : s.staging.lookup staged = some file) (hnext : next.Resumes)
    (hfree : segmentDestination index ∉ s.published.map Prod.fst)
    (hs' : s' = { s with
      staging := s.staging.remove staged
      published := s.published.put (segmentDestination index) file
      locked := .rebuild next }) : Sound s' ∧ Later s s' := by
  have hput : s'.published = s.published ++ [(segmentDestination index, file)] := by
    rw [hs']
    exact put_fresh hfree
  have hinit : ∀ f, s.publishedInit = some f → s'.publishedInit = some f := by
    rw [hs']
    exact fun _ hf => hf
  have hsegments : ∀ entry ∈ s.published, entry ∈ s'.published := by
    rw [hput]
    exact fun entry he => List.mem_append_left _ he
  have hholds : ∀ q f, s'.Holds q f → (s.Holds q f ∧ q ≠ .staged staged) ∨
      q = .segment (segmentDestination index) ∧ f = file := by
    intro q f hq
    cases q with
    | staged name =>
      rw [hs'] at hq
      obtain ⟨hmem, hne⟩ := mem_remove.1 hq
      exact Or.inl ⟨hmem, fun heq => hne (Place.staged.inj heq)⟩
    | init =>
      rw [hs'] at hq
      exact Or.inl ⟨hq, Place.noConfusion⟩
    | segment name =>
      rw [State.Holds, hput] at hq
      rcases List.mem_append.1 hq with hmem | hmem
      · exact Or.inl ⟨hmem, Place.noConfusion⟩
      · cases List.mem_singleton.1 hmem
        exact Or.inr ⟨rfl, rfl⟩
  have hwrites : s'.writes = s.writes := by rw [hs']
  obtain ⟨honce, hwritten⟩ := h.move hfile hholds hwrites
  have hfrontier : s'.epoch = s.epoch := by rw [hs']
  refine ⟨⟨?_, ?_, honce, hwritten, ?_, ?_⟩, hinit, hsegments, ?_⟩
  · rw [hput]
    intro entry hentry
    rcases List.mem_append.1 hentry with hmem | hmem
    · exact h.names entry hmem
    · cases List.mem_singleton.1 hmem
      exact ⟨index, rfl⟩
  · rw [hput, List.map_append]
    refine List.nodup_append.2 ⟨h.nodup, List.nodup_singleton _, ?_⟩
    intro name hname other hother
    rw [List.mem_singleton.1 hother]
    rintro rfl
    exact hfree hname
  · intro n hn
    rw [hfrontier] at hn
    exact Ready.mono (h.backed n hn) hinit hsegments
  · rw [hs']
    exact hnext
  · intro n hn
    rw [hfrontier]
    exact ⟨n, le_refl n, hn⟩

/-- **The lock holder's next operation.** -/
theorem Sound.proceed (h : Sound s) :
    Sound (s.proceed s.locked) ∧ Later s (s.proceed s.locked) := by
  have hprepared := h.prepared
  rw [State.Prepared] at hprepared
  cases hlocked : s.locked with
  | idle => exact ⟨h, .refl s⟩
  | outputs =>
    rw [State.proceed]
    split_ifs
    · exact h.goto trivial
    · exact h.goto trivial
  | listing =>
    rw [State.proceed]
    exact h.goto trivial
  | loop children =>
    cases children with
    | nil =>
      rw [State.proceed]
      exact h.goto trivial
    | cons child rest =>
      rw [State.proceed]
      split
      · exact h.goto trivial
      · split_ifs
        · exact h.goto trivial
        · exact h.goto trivial
  | init staged next =>
    rw [hlocked] at hprepared
    rw [State.proceed]
    split_ifs with hmissing hnone
    · exact h.goto trivial
    · exact h.goto ⟨hprepared, Option.isNone_iff_eq_none.1 hnone⟩
    · exact h.goto hprepared
  | moveInit staged next =>
    rw [hlocked] at hprepared
    rw [State.proceed]
    cases hfile : s.staging.lookup staged with
    | none => exact h.goto trivial
    | some file => exact h.moveInit hfile hprepared.1 hprepared.2 rfl
  | segment index staged next =>
    rw [hlocked] at hprepared
    rw [State.proceed]
    split_ifs with hmissing hnone
    · exact h.goto trivial
    · exact h.goto ⟨hprepared, not_mem_of_lookup (Option.isNone_iff_eq_none.1 hnone)⟩
    · exact h.goto hprepared
  | moveSegment index staged next =>
    rw [hlocked] at hprepared
    rw [State.proceed]
    cases hfile : s.staging.lookup staged with
    | none => exact h.goto trivial
    | some file => exact h.moveSegment hfile hprepared.1 hprepared.2 rfl
  | rebuild next =>
    rw [hlocked] at hprepared
    rw [State.proceed]
    exact ⟨h.of_same rfl rfl rfl rfl h.backed ⟨hprepared, rfl, rfl⟩, fun _ hf => hf, fun _ he => he,
      fun n hn => ⟨n, le_refl n, hn⟩⟩
  | rebuildSegments next =>
    rw [hlocked] at hprepared
    obtain ⟨hnext, hinit, -⟩ := hprepared
    rw [State.proceed]
    refine ⟨h.of_same rfl rfl rfl rfl (fun n hn => ?_) hnext, fun _ hf => hf, fun _ he => he,
      fun n hn => ?_⟩
    · exact ((rebuilt_frontier h hinit n).1 hn).1
    · -- the files behind the frontier are still there
      have hready := h.backed n hn
      cases hrebuilt : s.rebuildSegments.contiguousPublishedThroughSegment with
      | none =>
        refine absurd ⟨hready.1, fun i hi => ?_⟩ ((rebuilt_none h hinit).1 hrebuilt)
        exact hready.2 i (hi.trans (Nat.zero_le n))
      | some m => exact ⟨m, ((rebuilt_frontier h hinit m).1 hrebuilt).2 hready, rfl⟩
  | report next =>
    rw [hlocked] at hprepared
    rw [State.proceed]
    exact h.goto (Resumes.prepared hprepared)

/-- **The transcoder** adds a file or overwrites one. -/
theorem Sound.transcode (h : Sound s) (name : String) (bytes : Bytes) :
    Sound { s with staging := s.staging.put name ⟨s.writes, bytes⟩, writes := s.writes + 1 } := by
  have hholds : ∀ q f, State.Holds
      { s with staging := s.staging.put name ⟨s.writes, bytes⟩, writes := s.writes + 1 } q f →
      s.Holds q f ∨ q = .staged name ∧ f = ⟨s.writes, bytes⟩ := by
    intro q f hq
    cases q with
    | staged other =>
      rcases mem_put.1 hq with ⟨hmem, -⟩ | heq
      · exact Or.inl hmem
      · cases heq
        exact Or.inr ⟨rfl, rfl⟩
    | init => exact Or.inl hq
    | segment other => exact Or.inl hq
  refine ⟨h.names, h.nodup, ?_, ?_, h.backed, h.prepared⟩
  · intro q q' f f' hq hq' heq
    -- the number of the write is a new one
    rcases hholds q f hq with hq | ⟨rfl, rfl⟩
    · rcases hholds q' f' hq' with hq' | ⟨-, rfl⟩
      · exact h.once q q' f f' hq hq' heq
      · exact absurd heq (Nat.ne_of_lt (h.written q f hq))
    · rcases hholds q' f' hq' with hq' | ⟨rfl, -⟩
      · exact absurd heq.symm (Nat.ne_of_lt (h.written q' f' hq'))
      · rfl
  · intro q f hq
    rcases hholds q f hq with hq | ⟨-, rfl⟩
    · exact Nat.lt_succ_of_lt (h.written q f hq)
    · exact Nat.lt_succ_self _

theorem Sound.discard (h : Sound s) (name : String) :
    Sound { s with staging := s.staging.remove name } := by
  have hholds : ∀ q f, State.Holds { s with staging := s.staging.remove name } q f →
      s.Holds q f := by
    intro q f hq
    cases q with
    | staged other => exact (mem_remove.1 hq).1
    | init => exact hq
    | segment other => exact hq
  exact ⟨h.names, h.nodup,
    fun q q' f f' hq hq' => h.once q q' f f' (hholds q f hq) (hholds q' f' hq'),
    fun q f hq => h.written q f (hholds q f hq), h.backed, h.prepared⟩

theorem enter_cases {entry : Locked} (hstep : s.enter entry = some s') :
    s' = { s with locked := entry } := by
  rw [State.enter] at hstep
  split at hstep
  · cases hstep
    rfl
  · cases hstep

/-- **Every operation** keeps the invariant and the published files. -/
theorem step_later (h : Sound s) {action : Action} (hstep : s.step action = some s') :
    Sound s' ∧ Later s s' := by
  cases action with
  | transcode name bytes =>
    cases hstep
    exact ⟨h.transcode name bytes, fun _ hf => hf, fun _ he => he, fun n hn => ⟨n, le_refl n, hn⟩⟩
  | discard name =>
    cases hstep
    exact ⟨h.discard name, fun _ hf => hf, fun _ he => he, fun n hn => ⟨n, le_refl n, hn⟩⟩
  | publishOutputs =>
    rw [enter_cases hstep]
    exact h.goto trivial
  | publishInit staged =>
    rw [enter_cases hstep]
    exact h.goto trivial
  | publishSegment index staged =>
    rw [enter_cases hstep]
    exact h.goto trivial
  | rebuild =>
    rw [enter_cases hstep]
    exact h.goto trivial
  | proceed =>
    cases hstep
    exact h.proceed
  | abort =>
    cases hstep
    exact h.goto trivial

theorem sound_fresh : Sound .fresh := by
  have hnothing : ∀ p f, ¬ State.Holds .fresh p f := by
    rintro (name | - | name) f hf
    · cases hf
    · cases hf
    · cases hf
  refine ⟨fun entry he => absurd he List.not_mem_nil, List.nodup_nil, ?_, ?_, ?_, trivial⟩
  · intro p p' f f' hp
    exact absurd hp (hnothing p f)
  · intro p f hp
    exact absurd hp (hnothing p f)
  · intro n hn
    cases hn

theorem reach_later (h : Sound s) (hs : Reach State.step (fun _ _ => True) s s') :
    Sound s' ∧ Later s s' := by
  refine Reach.invariant (P := fun s' => Sound s' ∧ Later s s') ⟨h, .refl s⟩ ?_ hs
  intro t action t' _ ht _ hstep
  obtain ⟨hsound, hlater⟩ := step_later ht.1 hstep
  exact ⟨hsound, ht.2.trans hlater⟩

/-- What a rebuild has just set. -/
structure Rebuilt (s : State) : Prop where
  frontier : ∀ n, s.epoch.contiguousPublishedThroughSegment = some n ↔ IsGreatest {m | s.Ready m} n
  none : s.epoch.contiguousPublishedThroughSegment = none ↔ ¬ s.Ready 0
  total : s.epoch.publishedTotalBytes = s.publishedSize

theorem Sound.rebuilt (h : Sound s) {next : Locked} (hlocked : s.locked = .rebuildSegments next) :
    Rebuilt (s.proceed s.locked) := by
  have hprepared := h.prepared
  rw [State.Prepared, hlocked] at hprepared
  obtain ⟨-, hinit, hbytes⟩ := hprepared
  rw [hlocked, State.proceed]
  exact ⟨rebuilt_frontier h hinit, rebuilt_none h hinit, rebuilt_total h hbytes⟩

end Step

/-- In every run on an epoch, with the transcoder at work and operations that fail at any place: a
rebuild leaves the frontier at the greatest segment up to which all is published with the init file,
and the total at the sizes of the published files; the published files have the names of different
segments, no write of the transcoder is in two places, and no later state has lost a published file
or its bytes, or a frontier that has gone back. -/
theorem publication_frontier (s : State) (hs : Reach State.step (fun _ _ => True) .fresh s) :
    (∀ next, s.locked = .rebuildSegments next → Rebuilt (s.proceed s.locked)) ∧
    ((s.published.map Prod.fst).Nodup ∧ ∀ entry ∈ s.published, ∃! n,
      entry.1 = segmentDestination n) ∧
    (∀ p p' file file', s.Holds p file → s.Holds p' file' → file.writing = file'.writing → p = p') ∧
    ∀ s', Reach State.step (fun _ _ => True) s s' →
      (∀ file, s.publishedInit = some file → s'.publishedInit = some file) ∧
      (∀ entry ∈ s.published, entry ∈ s'.published) ∧
      ∀ n, s.epoch.contiguousPublishedThroughSegment = some n →
        ∃ m ≥ n, s'.epoch.contiguousPublishedThroughSegment = some m := by
  obtain ⟨hsound, -⟩ := reach_later sound_fresh hs
  refine ⟨fun next hnext => hsound.rebuilt hnext,
    ⟨hsound.nodup, fun entry hentry => ?_⟩, hsound.once,
    fun s' hs' => ?_⟩
  · obtain ⟨n, hn⟩ := hsound.names entry hentry
    refine ⟨n, hn, fun m hm => ?_⟩
    rw [hn] at hm
    exact (segmentDestination_injective hm).symm
  · obtain ⟨-, hlater⟩ := reach_later hsound hs'
    exact ⟨hlater.init, hlater.segments, hlater.frontier⟩

/-- The init file and the first segment come, and are published by one call. -/
def firstPublication : List Action :=
  [.transcode "init.mp4" [1], .transcode "segment_000000.m4s" [2, 3], .publishOutputs] ++
    List.replicate 14 .proceed

theorem publication_frontier_first :
    ∃ s, runFrom State.step .fresh firstPublication = some s ∧
      s.epoch.contiguousPublishedThroughSegment = some 0 ∧ s.epoch.publishedTotalBytes = 3 ∧
      (s.published.map Prod.fst).Nodup := by
  have hrun : ((runFrom State.step .fresh firstPublication).any fun s =>
      decide (s.epoch.contiguousPublishedThroughSegment = some 0 ∧
        s.epoch.publishedTotalBytes = 3)) =
        true := by
    decide +kernel
  obtain ⟨s, hs, hset⟩ := (Option.any_eq_true _ _).1 hrun
  obtain ⟨hfrontier, htotal⟩ := of_decide_eq_true hset
  exact ⟨s, hs, hfrontier, htotal, (publication_frontier s (reach_of_runFrom hs)).2.1.1⟩

end EpochPublication
