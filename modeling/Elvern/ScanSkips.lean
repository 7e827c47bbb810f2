/-
When a skipped scan misses nothing (`scan_service.py`).

* `World` — the outside, the stored snapshot, the scan that holds the job lock and the check
  that holds the probe lock;
* `World.step` — changes outside, scans and checks in any order, one step of one of them at a
  time;
* `Steady` — the snapshot that will stand for a scan describes what its discovery saw;
* `skip_matches_scan` — in runs of steady steps a skipped scan has nothing to find;
* `change_is_missed` — a change between discovery and snapshot is not picked up.
-/
import Elvern.LibraryFreshness
import Elvern.Runs

open Runs

namespace LibraryScans

def localLibraryFreshnessProbeCooldownSeconds : ℕ := 300

/-- Where the holder of the job lock stands. A top level that a phase carries is the one that
the discovery of this scan worked on, or that the check has read. -/
inductive Job (δ : Type)
  | idle
  | checking
  | read (current : Option (Snapshot δ)) (seen : TopLevel)
  | queued
  | discovered (top : TopLevel)
  | scanned (top : TopLevel)
  | built (top : TopLevel) (snapshot : Snapshot δ)
  | finishing
  deriving DecidableEq

/-- Where the holder of the probe lock stands. -/
inductive Probe (δ : Type)
  | idle
  | checking (now : ℕ)
  | read (now : ℕ) (current : Option (Snapshot δ)) (seen : TopLevel)
  | enqueueing
  deriving DecidableEq

/-- The service and its surroundings; `scanned` is what the discovery of the last successful
scan worked on, `checkedAt` is 0 before the first check. -/
structure World (δ : Type) where
  top : TopLevel
  stored : Option (Snapshot δ)
  checkedAt : ℕ
  running : Bool
  job : Job δ
  probe : Probe δ
  scanned : Option TopLevel
  deriving DecidableEq

/-- Nothing is stored and nothing runs. -/
def World.fresh {δ : Type} (top : TopLevel) : World δ := ⟨top, none, 0, false, .idle, .idle, none⟩

/-- The steps; a flag says whether the building or the storing succeeds. -/
inductive Action
  | change (top : TopLevel)
  | enqueueScan (startup : Bool)
  | startupBuild (ok : Bool)
  | startupLoad
  | discover
  | fail
  | succeed
  | build (ok : Bool)
  | store (ok : Bool)
  | finish
  | refresh (now : ℕ)
  | refreshBuild (ok : Bool)
  | refreshLoad
  | refreshEnqueue
  deriving DecidableEq

section Steps

variable {δ : Type} (lower : String → String) (digest : List FingerprintEntry → δ)

/-- The snapshot of what is outside now, unless the building raises. -/
def World.snapshot (w : World δ) (ok : Bool) : Option (Snapshot δ) :=
  if ok then some (buildLocalLibraryFreshnessSnapshot lower digest w.top) else none

/-- The scan thread starts. -/
def World.startScan (w : World δ) : World δ := { w with job := .queued, running := true }

/-- The scan thread reports and will release the job lock. -/
def World.endScan (w : World δ) : World δ := { w with job := .finishing, running := false }

/-- One step. -/
def World.step [DecidableEq δ] (w : World δ) : Action → Option (World δ)
  | .change top => some { w with top := top }
  | .enqueueScan startup =>
    match w.job with
    | .idle => some (if startup then { w with job := .checking } else w.startScan)
    | _ => some w
  | .startupBuild ok =>
    match w.job with
    | .checking => some { w with job := .read (w.snapshot lower digest ok) w.top }
    | _ => none
  | .startupLoad =>
    match w.job with
    | .read current _ =>
      some (if (shouldEnqueueLocalLibraryScan current w.stored).1 then w.startScan
        else { w with job := .idle, running := false })
    | _ => none
  | .discover =>
    match w.job with
    | .queued => some { w with job := .discovered w.top }
    | _ => none
  | .fail =>
    match w.job with
    | .queued => some w.endScan
    | .discovered _ => some w.endScan
    | _ => none
  | .succeed =>
    match w.job with
    | .discovered top => some { w with job := .scanned top, scanned := some top }
    | _ => none
  | .build ok =>
    match w.job with
    | .scanned top =>
      some (if ok then
          { w with job := .built top (buildLocalLibraryFreshnessSnapshot lower digest w.top) }
        else w.endScan)
    | _ => none
  | .store ok =>
    match w.job with
    | .built _ snapshot =>
      some (if ok then { w with stored := some snapshot, job := .finishing, running := false }
        else w.endScan)
    | _ => none
  | .finish =>
    match w.job with
    | .finishing => some { w with job := .idle }
    | _ => none
  | .refresh now =>
    match w.probe with
    | .idle =>
      if w.running then some w
      else if 0 < w.checkedAt ∧ now < w.checkedAt + localLibraryFreshnessProbeCooldownSeconds then
        some w
      else some { w with probe := .checking now }
    | _ => some w
  | .refreshBuild ok =>
    match w.probe with
    | .checking now => some { w with probe := .read now (w.snapshot lower digest ok) w.top }
    | _ => none
  | .refreshLoad =>
    match w.probe with
    | .read now current _ =>
      some { w with
        checkedAt := now
        probe :=
          if (shouldEnqueueLocalLibraryScan current w.stored).1 then .enqueueing else .idle }
    | _ => none
  | .refreshEnqueue =>
    match w.probe with
    | .enqueueing =>
      match w.job with
      | .idle => some { w.startScan with probe := .idle }
      | _ => some { w with probe := .idle }
    | _ => none

/-- What a step answers: the top level that was read, and whether a scan is needed. -/
def World.answer [DecidableEq δ] (w : World δ) : Action → Option (TopLevel × Bool)
  | .startupLoad =>
    match w.job with
    | .read current seen => some (seen, (shouldEnqueueLocalLibraryScan current w.stored).1)
    | _ => none
  | .refreshLoad =>
    match w.probe with
    | .read _ current seen => some (seen, (shouldEnqueueLocalLibraryScan current w.stored).1)
    | _ => none
  | _ => none

/-- A ready snapshot fits the top level. -/
def Describes (snapshot : Option (Snapshot δ)) (top : TopLevel) : Prop :=
  ∀ s, snapshot = some s → s.state = .ready →
    s.Fits (buildLocalLibraryFreshnessSnapshot lower digest top)

/-- The snapshot of a successful scan is built where the outside is as its discovery saw it;
where none is built or stored, the stored one describes what the discovery saw; and so it does
where a check answers before the snapshot of the scan is stored. -/
def Steady (w : World δ) (a : Action) : Prop :=
  match w.job with
  | .scanned top =>
    match a with
    | .build ok =>
      Describes lower digest (if ok then w.snapshot lower digest true else w.stored) top
    | .refreshLoad => Describes lower digest w.stored top
    | _ => True
  | .built top _ =>
    match a with
    | .store false => Describes lower digest w.stored top
    | .refreshLoad => Describes lower digest w.stored top
    | _ => True
  | _ => True

/-! ### The invariant -/

/-- What is stored, or will be, describes what the discovery saw. -/
def StoredOk (w : World δ) : Prop :=
  match w.job with
  | .scanned top => w.scanned = some top
  | .built top snapshot => w.scanned = some top ∧ Describes lower digest (some snapshot) top
  | _ => ∀ s, w.stored = some s → s.state = .ready →
      ∃ top, w.scanned = some top ∧ Describes lower digest w.stored top

/-- A check holds the snapshot of what it has read. -/
structure Sound (w : World δ) : Prop where
  stored : StoredOk lower digest w
  job : ∀ c seen, w.job = .read (some c) seen →
    c = buildLocalLibraryFreshnessSnapshot lower digest seen
  probe : ∀ now c seen, w.probe = .read now (some c) seen →
    c = buildLocalLibraryFreshnessSnapshot lower digest seen

end Steps

variable {δ : Type} {lower : String → String} {digest : List FingerprintEntry → δ}
  {w w' : World δ} {a : Action}

theorem Sound.fresh (top : TopLevel) : Sound lower digest (.fresh top) where
  stored _ h := by cases h
  job _ _ h := by cases h
  probe _ _ _ h := by cases h

/-- Only the snapshot, the scan and the job count for what is stored. -/
theorem StoredOk.congr (h : StoredOk lower digest w) (hjob : w'.job = w.job)
    (hstored : w'.stored = w.stored) (hscanned : w'.scanned = w.scanned) :
    StoredOk lower digest w' := by
  rw [StoredOk, hjob, hstored, hscanned]
  exact h

/-- Outside the window between a successful scan and its snapshot, the job does not matter. -/
theorem StoredOk.of_rest
    (h : ∀ s, w.stored = some s → s.state = .ready →
      ∃ top, w.scanned = some top ∧ Describes lower digest w.stored top)
    (hscanned : ∀ top, w.job ≠ .scanned top) (hbuilt : ∀ top s, w.job ≠ .built top s) :
    StoredOk lower digest w := by
  rw [StoredOk]
  split
  · next top hjob => exact absurd hjob (hscanned top)
  · next top s hjob => exact absurd hjob (hbuilt top s)
  · exact h

theorem StoredOk.rest (h : StoredOk lower digest w) (hscanned : ∀ top, w.job ≠ .scanned top)
    (hbuilt : ∀ top s, w.job ≠ .built top s) :
    ∀ s, w.stored = some s → s.state = .ready →
      ∃ top, w.scanned = some top ∧ Describes lower digest w.stored top := by
  rw [StoredOk] at h
  split at h
  · next top hjob => exact absurd hjob (hscanned top)
  · next top s hjob => exact absurd hjob (hbuilt top s)
  · exact h

/-- A built snapshot is one of what is outside. -/
theorem eq_build_of_snapshot {ok : Bool} {c : Snapshot δ}
    (h : w.snapshot lower digest ok = some c) :
    c = buildLocalLibraryFreshnessSnapshot lower digest w.top := by
  rw [World.snapshot] at h
  split at h
  · cases h
    rfl
  · cases h

/-- Steps that move only the check keep what is sound. -/
theorem Sound.setProbe (h : Sound lower digest w) (probe : Probe δ) (checkedAt : ℕ)
    (hprobe : ∀ now c seen, probe = .read now (some c) seen →
      c = buildLocalLibraryFreshnessSnapshot lower digest seen) :
    Sound lower digest { w with probe := probe, checkedAt := checkedAt } where
  stored := h.stored.congr rfl rfl rfl
  job := h.job
  probe := hprobe

/-- A job that is not in the window moves to another such phase. -/
theorem Sound.setJob (h : Sound lower digest w) (job : Job δ) (running : Bool)
    (hscanned : ∀ top, w.job ≠ .scanned top) (hbuilt : ∀ top s, w.job ≠ .built top s)
    (hscanned' : ∀ top, job ≠ .scanned top) (hbuilt' : ∀ top s, job ≠ .built top s)
    (hjob : ∀ c seen, job = .read (some c) seen →
      c = buildLocalLibraryFreshnessSnapshot lower digest seen) :
    Sound lower digest { w with job := job, running := running } where
  stored := .of_rest (w := { w with job := job, running := running })
    (h.stored.rest hscanned hbuilt) hscanned' hbuilt'
  job := hjob
  probe := h.probe

variable [DecidableEq δ]

/-- One step keeps what is sound, if it is steady. -/
theorem Sound.step (h : Sound lower digest w) (hok : Steady lower digest w a)
    (hst : w.step lower digest a = some w') : Sound lower digest w' := by
  cases a with
  | change top =>
    -- the files change, and nothing of what is recorded about them
    cases hst
    exact ⟨h.stored.congr rfl rfl rfl, h.job, h.probe⟩
  | enqueueScan startup =>
    rw [World.step] at hst
    split at hst
    · next hjob =>
      cases hst
      have hs : ∀ top, w.job ≠ .scanned top := by simp [hjob]
      have hb : ∀ top s, w.job ≠ .built top s := by simp [hjob]
      cases startup
      · exact h.setJob .queued true hs hb (by simp) (by simp) (by simp)
      · exact h.setJob .checking w.running hs hb (by simp) (by simp) (by simp)
    · cases hst
      exact h
  | startupBuild ok =>
    rw [World.step] at hst
    split at hst
    · next hjob =>
      cases hst
      -- what the start has read is a snapshot of the files at this moment
      refine h.setJob _ w.running (by simp [hjob]) (by simp [hjob]) (by simp) (by simp) ?_
      intro c seen heq
      rw [Job.read.injEq] at heq
      obtain ⟨hc, rfl⟩ := heq
      exact eq_build_of_snapshot hc
    · cases hst
  | startupLoad =>
    rw [World.step] at hst
    split at hst
    · next hjob =>
      cases hst
      have hs : ∀ top, w.job ≠ .scanned top := by simp [hjob]
      have hb : ∀ top s, w.job ≠ .built top s := by simp [hjob]
      split
      · exact h.setJob .queued true hs hb (by simp) (by simp) (by simp)
      · exact h.setJob .idle false hs hb (by simp) (by simp) (by simp)
    · cases hst
  | discover =>
    rw [World.step] at hst
    split at hst
    · next hjob =>
      cases hst
      exact h.setJob _ w.running (by simp [hjob]) (by simp [hjob]) (by simp) (by simp) (by simp)
    · cases hst
  | fail =>
    rw [World.step] at hst
    split at hst
    · next hjob =>
      cases hst
      exact h.setJob .finishing false (by simp [hjob]) (by simp [hjob]) (by simp) (by simp)
        (by simp)
    · next top hjob =>
      cases hst
      exact h.setJob .finishing false (by simp [hjob]) (by simp [hjob]) (by simp) (by simp)
        (by simp)
    · cases hst
  | succeed =>
    rw [World.step] at hst
    split at hst
    · next top hjob =>
      cases hst
      exact ⟨rfl, (fun _ _ heq => by cases heq), h.probe⟩
    · cases hst
  | build ok =>
    rw [World.step] at hst
    split at hst
    · next top hjob =>
      cases hst
      have hscanned : w.scanned = some top := by
        have hstored := h.stored
        rw [StoredOk, hjob] at hstored
        exact hstored
      rw [Steady, hjob] at hok
      cases ok
      · -- nothing is built: the stored snapshot has to do
        exact ⟨fun s hs hready => ⟨top, hscanned, hok⟩, (fun _ _ heq => by cases heq), h.probe⟩
      · exact ⟨⟨hscanned, hok⟩, (fun _ _ heq => by cases heq), h.probe⟩
    · cases hst
  | store ok =>
    rw [World.step] at hst
    split at hst
    · next top snapshot hjob =>
      cases hst
      have hstored := h.stored
      rw [StoredOk, hjob] at hstored
      obtain ⟨hscanned, hdescribes⟩ := hstored
      rw [Steady, hjob] at hok
      -- where the store fails, the snapshot before it has to do
      cases ok
      · exact ⟨fun s hs hready => ⟨top, hscanned, hok⟩, (fun _ _ heq => by cases heq), h.probe⟩
      · exact ⟨fun s hs hready => ⟨top, hscanned, hdescribes⟩,
          (fun _ _ heq => by cases heq), h.probe⟩
    · cases hst
  | finish =>
    rw [World.step] at hst
    split at hst
    · next hjob =>
      cases hst
      exact h.setJob .idle w.running (by simp [hjob]) (by simp [hjob]) (by simp) (by simp)
        (by simp)
    · cases hst
  | refresh now =>
    rw [World.step] at hst
    split at hst
    · split_ifs at hst
      · cases hst
        exact h
      · cases hst
        exact h
      · cases hst
        exact h.setProbe _ w.checkedAt (fun _ _ _ heq => by cases heq)
    · cases hst
      exact h
  | refreshBuild ok =>
    rw [World.step] at hst
    split at hst
    · cases hst
      refine h.setProbe _ w.checkedAt ?_
      intro now c seen heq
      rw [Probe.read.injEq] at heq
      obtain ⟨-, hc, rfl⟩ := heq
      exact eq_build_of_snapshot hc
    · cases hst
  | refreshLoad =>
    rw [World.step] at hst
    split at hst
    · cases hst
      refine h.setProbe _ _ ?_
      intro now c seen heq
      split at heq <;> cases heq
    · cases hst
  | refreshEnqueue =>
    rw [World.step] at hst
    split at hst
    · split at hst
      · next hjob =>
        cases hst
        have hqueued := h.setJob .queued true (by simp [hjob]) (by simp [hjob]) (by simp)
          (by simp) (by simp)
        exact hqueued.setProbe .idle w.checkedAt (fun _ _ _ heq => by cases heq)
      · cases hst
        exact h.setProbe .idle w.checkedAt (fun _ _ _ heq => by cases heq)
    · cases hst

/-- A sound state that skips a scan has its snapshot from the last successful scan. -/
theorem Sound.skip (h : Sound lower digest w) (hdigest : Function.Injective digest)
    (hok : Steady lower digest w a) {seen : TopLevel} (hanswer : w.answer a = some (seen, false)) :
    ∃ top, w.scanned = some top ∧ seen.Same top := by
  -- both checks compare a snapshot of `seen` with the stored one
  have key : ∀ c : Option (Snapshot δ),
      (shouldEnqueueLocalLibraryScan c w.stored).1 = false →
      (∀ s, c = some s → s = buildLocalLibraryFreshnessSnapshot lower digest seen) →
      (∀ s, w.stored = some s → s.state = .ready →
        ∃ top, w.scanned = some top ∧ Describes lower digest w.stored top) →
      ∃ top, w.scanned = some top ∧ seen.Same top := by
    intro c hskip hc hstored
    obtain ⟨s, p, rfl, hp, hfits⟩ := shouldEnqueueLocalLibraryScan_eq_false.1 hskip
    obtain ⟨top, hscanned, hdescribes⟩ := hstored p hp hfits.previousReady
    have hs := hc s rfl
    subst hs
    have hpt := hdescribes p hp hfits.previousReady
    exact ⟨top, hscanned, same_of_fits hdigest (hfits.symm.trans hpt)⟩
  cases a with
  | startupLoad =>
    rw [World.answer] at hanswer
    split at hanswer
    · next current seen' hjob =>
      simp only [Option.some.injEq, Prod.mk.injEq] at hanswer
      obtain ⟨rfl, hskip⟩ := hanswer
      refine key current hskip ?_ (h.stored.rest (by simp [hjob]) (by simp [hjob]))
      rintro s rfl
      exact h.job s seen' hjob
    · cases hanswer
  | refreshLoad =>
    rw [World.answer] at hanswer
    split at hanswer
    · next now current seen' hprobe =>
      simp only [Option.some.injEq, Prod.mk.injEq] at hanswer
      obtain ⟨rfl, hskip⟩ := hanswer
      refine key current hskip ?_ ?_
      · rintro s rfl
        exact h.probe now s seen' hprobe
      · -- in the window, the check answers only from a snapshot that describes the scan
        have hstored := h.stored
        rw [StoredOk] at hstored
        rw [Steady] at hok
        split at hstored
        · next top hjob =>
          rw [hjob] at hok
          exact fun _ _ _ => ⟨top, hstored, hok⟩
        · next top s hjob =>
          rw [hjob] at hok
          exact fun _ _ _ => ⟨top, hstored.1, hok⟩
        · exact hstored
    · cases hanswer
  | _ => cases hanswer

/-- In a run of steady steps, a check that answers that the scan can be skipped has read the top
level that the discovery of the last successful scan worked on. -/
theorem skip_matches_scan (hdigest : Function.Injective digest) {top₀ : TopLevel}
    (hr : Reach (World.step lower digest) (Steady lower digest) (.fresh top₀) w)
    (hok : Steady lower digest w a) {seen : TopLevel} (hanswer : w.answer a = some (seen, false)) :
    ∃ top, w.scanned = some top ∧ seen.Same top := by
  have hsound : Sound lower digest w :=
    hr.invariant (Sound.fresh top₀) fun _ _ _ _ hs hok hst => hs.step hok hst
  exact hsound.skip hdigest hok hanswer

omit [DecidableEq δ] in
/-- A ready snapshot describes its own top level. -/
theorem describes_self {top : TopLevel} :
    Describes lower digest (some (buildLocalLibraryFreshnessSnapshot lower digest top)) top := by
  intro s hs hready
  cases hs
  exact ⟨rfl, hready, hready, rfl, rfl, rfl, rfl, rfl, rfl, rfl⟩

/-- A scan, then the startup check up to its answer; the outside becomes `t` after the
discovery. -/
def scanThenCheck (t : TopLevel) : List Action :=
  [.enqueueScan false, .discover, .change t, .succeed, .build true, .store true, .finish,
    .enqueueScan true, .startupBuild true]

/-- Where it leads: the snapshot of `t` stands for the scan of `s`. -/
def World.afterChange (lower : String → String) (digest : List FingerprintEntry → δ)
    (s t : TopLevel) : World δ :=
  let snapshot := buildLocalLibraryFreshnessSnapshot lower digest t
  ⟨t, some snapshot, 0, false, .read (some snapshot) t, .idle, some s⟩

theorem runFrom_scanThenCheck (s t : TopLevel) :
    runFrom (World.step lower digest) (.fresh s) (scanThenCheck t) =
      some (.afterChange lower digest s t) := rfl

/-- A change between the discovery and the snapshot of a scan is not picked up: the next check
answers that nothing has changed. -/
theorem change_is_missed {s t : TopLevel}
    (hready : (buildLocalLibraryFreshnessSnapshot lower digest t).state = .ready) :
    Reach (World.step lower digest) (fun _ _ => True) (.fresh s)
        (.afterChange lower digest s t) ∧
      (World.afterChange lower digest s t).answer .startupLoad = some (t, false) := by
  refine ⟨reach_of_runFrom (runFrom_scanThenCheck s t), ?_⟩
  have hself : Describes lower digest (some (buildLocalLibraryFreshnessSnapshot lower digest t))
      t :=
    describes_self
  have hskip := shouldEnqueueLocalLibraryScan_eq_false.2 ⟨_, _, rfl, rfl, hself _ rfl hready⟩
  exact congrArg (fun b => some (t, b)) hskip

/-- One empty reference location, and the same location with a film in it. -/
def emptyTop : TopLevel := ⟨"/media", [⟨"/media", .folder 1 2 []⟩]⟩

def filmTop : TopLevel :=
  ⟨"/media", [⟨"/media", .folder 1 2 [⟨"Heat.mkv", some ⟨.file 7, 5⟩⟩]⟩]⟩

/-- A film that arrives while a scan is at work stays out of the library. -/
theorem skip_misses_film :
    ¬ ∀ (δ : Type) [DecidableEq δ] (lower : String → String) (digest : List FingerprintEntry → δ),
      Function.Injective digest → ∀ (top₀ : TopLevel) (w : World δ) (a : Action) (seen : TopLevel),
        Reach (World.step lower digest) (fun _ _ => True) (.fresh top₀) w →
        w.answer a = some (seen, false) → ∃ top, w.scanned = some top ∧ seen.Same top := by
  intro h
  have hready : (buildLocalLibraryFreshnessSnapshot id (fun es => es) filmTop).state = .ready := by
    decide +kernel
  obtain ⟨hr, hanswer⟩ := change_is_missed (s := emptyTop) hready
  obtain ⟨top, hscanned, hsame⟩ :=
    h _ id (fun es => es) (fun _ _ heq => heq) emptyTop _ _ _ hr hanswer
  cases hscanned
  -- a listing with an entry is no permutation of an empty one
  cases hsame with
  | cons hroot _ => exact absurd hroot.2.2.2.length_eq (by decide)

/-- A scan that nothing disturbs, and the check after it. -/
theorem skip_matches_scan_emptyTop :
    ∃ top, (World.afterChange id (fun es => es) emptyTop emptyTop).scanned = some top ∧
      emptyTop.Same top := by
  have hstart : Reach (World.step id (fun es : List FingerprintEntry => es))
      (Steady id fun es => es) (.fresh emptyTop) (.fresh emptyTop) := .start
  have hdiscovered := (hstart.next (a := .enqueueScan false) (by trivial) rfl).next
    (a := .discover) (by trivial) rfl
  have hscanned := hdiscovered.next (a := .succeed) (by trivial) rfl
  have hstored := ((hscanned.next (a := .build true) (by exact describes_self) rfl).next
    (a := .store true) (by trivial) rfl).next (a := .finish) (by trivial) rfl
  have hread := (hstored.next (a := .enqueueScan true) (by trivial) rfl).next
    (a := .startupBuild true) (by trivial) rfl
  exact skip_matches_scan (fun _ _ heq => heq) hread (a := .startupLoad) trivial
    (by decide +kernel)

end LibraryScans
