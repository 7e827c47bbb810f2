/-
The publication of an epoch's files (`mobile_playback_route2_epoch_publication.py`,
`mobile_playback_route2_epoch_artifacts.py`).

The transcoder puts files into the staging directory, each whole and under its name at once
(`temp_file`); whoever holds the lock moves them to the published directory one at a time, and reads
the published directory again after each. The lock holder goes on by single operations on files, so
that the transcoder may come between any two of them and any of them may fail.

* `Locked` — where the holder of the lock is;
* `rebuildInit`, `rebuildSegments` — what is set from a listing of the published directory;
* `step` — an operation of the lock holder, or of the transcoder;
* `contiguousSegmentFrontier_spec` — the frontier is the last segment before the first gap.
-/
import Mathlib.Algebra.Order.Ring.Int
import Mathlib.Data.List.Nodup
import Mathlib.Data.Finset.Card
import Mathlib.Tactic.Common
import Elvern.Runs

open Runs

namespace EpochPublication

/-! ### Names -/

abbrev Bytes := List UInt8

/-- The digits after the first of `int(…)`, with single underscores between them. -/
def moreDigits : ℕ → List Char → Option ℕ
  | value, [] => some value
  | value, '_' :: c :: rest =>
    if c.isDigit then moreDigits (10 * value + (c.toNat - '0'.toNat)) rest else none
  | value, c :: rest =>
    if c.isDigit then moreDigits (10 * value + (c.toNat - '0'.toNat)) rest else none

def unsignedInt : List Char → Option ℕ
  | [] => none
  | c :: rest => if c.isDigit then moreDigits (c.toNat - '0'.toNat) rest else none

/-- `int(token)`, where every digit is a decimal one -/
def int (token : String) : Option ℤ :=
  let blank := Char.isWhitespace
  match ((token.toList.dropWhile blank).reverse.dropWhile blank).reverse with
  | '-' :: rest => (unsignedInt rest).map fun n : ℕ => -(n : ℤ)
  | '+' :: rest => (unsignedInt rest).map fun n : ℕ => (n : ℤ)
  | cs => (unsignedInt cs).map fun n : ℕ => (n : ℤ)

/-- `child.stem.removeprefix("segment_")` of a name that the pattern `segment_*.m4s` has -/
def segmentToken (name : String) : Option String :=
  if "segment_".toList.isPrefixOf name.toList ∧ ".m4s".toList.isSuffixOf name.toList ∧
      12 ≤ name.length then
    some (String.ofList ((name.toList.drop 8).take (name.length - 12)))
  else none

/-- `_route2_segment_destination` -/
def segmentDestination (index : ℕ) : String :=
  let digits := Nat.toDigits 10 index
  "segment_" ++ String.ofList (List.replicate (6 - digits.length) '0' ++ digits) ++ ".m4s"

/-! ### The epoch -/

/-- A file, with the number of the write that made it. -/
structure MediaFile where
  writing : ℕ
  bytes : Bytes
  deriving DecidableEq

abbrev FileDir := List (String × MediaFile)

/-- A file takes the place of what has its name. -/
def FileDir.put (dir : FileDir) (name : String) (file : MediaFile) : FileDir :=
  dir.filter (·.1 ≠ name) ++ [(name, file)]

def FileDir.remove (dir : FileDir) (name : String) : FileDir := dir.filter (·.1 ≠ name)

/-- What the epoch keeps of its published files. -/
structure PlaybackEpoch where
  initPublished : Bool
  publishedInitBytes : ℕ
  publishedSegments : List ℤ
  publishedSegmentBytes : List (ℤ × ℕ)
  publishedTotalBytes : ℕ
  contiguousPublishedThroughSegment : Option ℕ

def PlaybackEpoch.fresh : PlaybackEpoch := ⟨false, 0, [], [], 0, none⟩

/-- `published_segment_bytes[index] = size` -/
def putBytes (sizes : List (ℤ × ℕ)) (index : ℤ) (size : ℕ) : List (ℤ × ℕ) :=
  sizes.filter (·.1 ≠ index) ++ [(index, size)]

/-- The segments that a listing of the published directory shows, with their sizes. -/
def listedSegments (dir : FileDir) : List (ℤ × ℕ) :=
  dir.filterMap fun entry => (segmentToken entry.1).bind fun token =>
    (int token).map fun index => (index, entry.2.bytes.length)

/-- The loop of `_contiguous_segment_frontier`; there are no more rounds than segments. -/
def frontierFrom (segments : List ℤ) : ℕ → ℕ → ℕ
  | 0, frontier => frontier
  | rounds + 1, frontier =>
    if (frontier : ℤ) + 1 ∈ segments then frontierFrom segments rounds (frontier + 1) else frontier

/-- `_contiguous_segment_frontier` -/
def contiguousSegmentFrontier (segments : List ℤ) : Option ℕ :=
  if 0 ∉ segments then none else some (frontierFrom segments segments.length 0)

/-! ### The lock holder -/

/-- Where the holder of the lock is: nobody has it, or the operation that comes next. -/
inductive Locked
  | idle
  /-- `_publish_route2_epoch_outputs_locked`, before its look at `init.mp4` -/
  | outputs
  /-- before its listing of the staging directory -/
  | listing
  /-- in its loop -/
  | loop (children : List String)
  /-- `_route2_publish_init_locked` -/
  | init (staged : String) (next : Locked)
  | moveInit (staged : String) (next : Locked)
  /-- `_route2_publish_segment_locked` -/
  | segment (index : ℤ) (staged : String) (next : Locked)
  | moveSegment (index : ℕ) (staged : String) (next : Locked)
  /-- `_rebuild_route2_published_frontier_locked`: the init file, and then the segments -/
  | rebuild (next : Locked)
  | rebuildSegments (next : Locked)
  /-- before `frontier.json` and `epoch.json` are written -/
  | report (next : Locked)

structure State where
  staging : FileDir
  publishedInit : Option MediaFile
  published : FileDir
  epoch : PlaybackEpoch
  locked : Locked
  /-- the number of the next write of the transcoder -/
  writes : ℕ

/-- An epoch whose workspace has just been made. -/
def State.fresh : State := ⟨[], none, [], .fresh, .idle, 0⟩

inductive Action
  /-- the transcoder adds a file to the staging directory, or overwrites one -/
  | transcode (name : String) (bytes : Bytes)
  /-- a file of the staging directory is removed for another worker -/
  | discard (name : String)
  | publishOutputs
  | publishInit (staged : String)
  | publishSegment (index : ℤ) (staged : String)
  | rebuild
  /-- the next operation of the lock holder -/
  | proceed
  /-- it fails, and the lock is released -/
  | abort

namespace State

variable (s : State)

/-- The first half of `_rebuild_route2_published_frontier_locked`. -/
def rebuildInit : PlaybackEpoch :=
  { s.epoch with
    initPublished := s.publishedInit.isSome
    publishedInitBytes := s.publishedInit.elim 0 fun file => file.bytes.length }

/-- The second half. -/
def rebuildSegments : PlaybackEpoch :=
  let listed := listedSegments s.published
  let sizes := listed.foldl (fun sizes entry => putBytes sizes entry.1 entry.2) []
  let segments := (listed.map Prod.fst).dedup
  { s.epoch with
    publishedSegments := segments
    publishedSegmentBytes := sizes
    publishedTotalBytes := s.epoch.publishedInitBytes + (sizes.map Prod.snd).sum
    contiguousPublishedThroughSegment :=
      if s.epoch.initPublished then contiguousSegmentFrontier segments else none }

/-- The next operation of the lock holder. -/
def proceed : Locked → State
  | .idle => s
  | .outputs =>
    if (s.staging.lookup "init.mp4").isSome ∧ s.epoch.initPublished = false then
      { s with locked := .init "init.mp4" .listing }
    else { s with locked := .listing }
  | .listing =>
    let children := (s.staging.map Prod.fst).filter fun name => (segmentToken name).isSome
    { s with locked := .loop (children.mergeSort fun a b => decide (a ≤ b)) }
  | .loop [] => { s with locked := .idle }
  | .loop (child :: rest) =>
    match (segmentToken child).bind int with
    | none => { s with locked := .loop rest }
    | some index =>
      if index ∈ s.epoch.publishedSegments then { s with locked := .loop rest }
      else { s with locked := .segment index child (.loop rest) }
  | .init staged next =>
    -- FileNotFoundError
    if (s.staging.lookup staged).isNone then { s with locked := .idle }
    else if s.publishedInit.isNone then { s with locked := .moveInit staged next }
    else { s with locked := .rebuild next }
  | .moveInit staged next =>
    match s.staging.lookup staged with
    | none => { s with locked := .idle }
    | some file =>
      { s with
        staging := s.staging.remove staged
        publishedInit := some file
        locked := .rebuild next }
  | .segment index staged next =>
    -- ValueError, FileNotFoundError
    if index < 0 ∨ (s.staging.lookup staged).isNone then { s with locked := .idle }
    else if (s.published.lookup (segmentDestination index.toNat)).isNone then
      { s with locked := .moveSegment index.toNat staged next }
    else { s with locked := .rebuild next }
  | .moveSegment index staged next =>
    match s.staging.lookup staged with
    | none => { s with locked := .idle }
    | some file =>
      { s with
        staging := s.staging.remove staged
        published := s.published.put (segmentDestination index) file
        locked := .rebuild next }
  | .rebuild next => { s with epoch := s.rebuildInit, locked := .rebuildSegments next }
  | .rebuildSegments next => { s with epoch := s.rebuildSegments, locked := .report next }
  | .report next => { s with locked := next }

/-- A call takes the lock where nobody has it. -/
def enter (entry : Locked) : Option State :=
  match s.locked with
  | .idle => some { s with locked := entry }
  | _ => none

def step (s : State) : Action → Option State
  | .transcode name bytes =>
    some { s with staging := s.staging.put name ⟨s.writes, bytes⟩, writes := s.writes + 1 }
  | .discard name => some { s with staging := s.staging.remove name }
  | .publishOutputs => s.enter .outputs
  | .publishInit staged => s.enter (.init staged .idle)
  | .publishSegment index staged => s.enter (.segment index staged .idle)
  | .rebuild => s.enter (.rebuild .idle)
  | .proceed => some (s.proceed s.locked)
  | .abort => some { s with locked := .idle }

end State

/-! ### What the names say -/

theorem moreDigits_eq {cs : List Char} (h : ∀ c ∈ cs, c.isDigit = true) (value : ℕ) :
    moreDigits value cs = some (Nat.ofDigitChars 10 cs value) := by
  induction cs generalizing value with
  | nil => rfl
  | cons c rest ih =>
    have hc : c.isDigit = true := h c List.mem_cons_self
    have hrest : ∀ d ∈ rest, d.isDigit = true := fun d hd => h d (List.mem_cons_of_mem _ hd)
    have hunderscore : c ≠ '_' := by
      rintro rfl
      exact absurd hc (by decide)
    rw [moreDigits]
    · rw [if_pos hc, ih hrest]
      rfl
    · rintro d rest rfl -
      exact hunderscore rfl

/-- Decimal digits are read as the number that they are. -/
theorem int_digits {cs : List Char} (hne : cs ≠ []) (h : ∀ c ∈ cs, c.isDigit = true) :
    int (String.ofList cs) = some (Nat.ofDigitChars 10 cs 0 : ℤ) := by
  have hblank : ∀ c : Char, c.isDigit = true → c.isWhitespace = false := by
    intro c hc
    rw [Bool.eq_false_iff]
    intro hwhite
    simp only [Char.isWhitespace, Bool.or_eq_true, decide_eq_true_eq] at hwhite
    rcases hwhite with ((rfl | rfl) | rfl) | rfl <;> exact absurd hc (by decide)
  have hdrop : ∀ ds : List Char, (∀ c ∈ ds, c.isDigit = true) →
      ds.dropWhile Char.isWhitespace = ds := by
    intro ds hds
    cases ds with
    | nil => rfl
    | cons d ds =>
      rw [List.dropWhile_cons, hblank d (hds d List.mem_cons_self), if_neg Bool.false_ne_true]
  have hreverse : ∀ c ∈ cs.reverse, c.isDigit = true := fun c hc => h c (List.mem_reverse.1 hc)
  rw [int, String.toList_ofList, hdrop cs h, hdrop _ hreverse, List.reverse_reverse]
  cases cs with
  | nil => exact absurd rfl hne
  | cons c rest =>
    have hc : c.isDigit = true := h c List.mem_cons_self
    have hunsigned : unsignedInt (c :: rest) = some (Nat.ofDigitChars 10 (c :: rest) 0) := by
      rw [unsignedInt, if_pos hc, moreDigits_eq fun d hd => h d (List.mem_cons_of_mem _ hd)]
      simp [Nat.ofDigitChars]
    split
    · next heq =>
      cases heq
      exact absurd hc (by decide)
    · next heq =>
      cases heq
      exact absurd hc (by decide)
    · rw [hunsigned]
      rfl

theorem destination_index (index : ℕ) : (segmentToken (segmentDestination index)).bind int =
    some (index : ℤ) := by
  have hdigit : ∀ c ∈ List.replicate (6 - (Nat.toDigits 10 index).length)
    '0' ++ Nat.toDigits 10 index,
      c.isDigit = true := by
    intro c hc
    rcases List.mem_append.1 hc with hc | hc
    · rw [List.eq_of_mem_replicate hc]
      rfl
    · exact Nat.isDigit_of_mem_toDigits (by decide) (by decide) hc
  have hvalue : Nat.ofDigitChars 10
      (List.replicate (6 - (Nat.toDigits 10 index).length) '0' ++ Nat.toDigits 10 index) 0 =
          index := by
    rw [Nat.ofDigitChars_append, Nat.ofDigitChars_replicate_zero, Nat.mul_zero,
      Nat.ofDigitChars_ten_toDigits]
  have hne : List.replicate (6 - (Nat.toDigits 10 index).length) '0' ++
      Nat.toDigits 10 index ≠ [] := by
    intro hnil
    have hdigits := (List.append_eq_nil_iff.1 hnil).2
    exact Nat.toDigits_ne_nil hdigits
  have htoken : segmentToken (segmentDestination index) = some (String.ofList
      (List.replicate (6 - (Nat.toDigits 10 index).length) '0' ++ Nat.toDigits 10 index)) := by
    rw [segmentToken, segmentDestination]
    generalize List.replicate (6 - (Nat.toDigits 10 index).length) '0' ++ Nat.toDigits 10 index = ds
    have hlist : ("segment_" ++ String.ofList ds ++ ".m4s").toList =
        "segment_".toList ++ ds ++ ".m4s".toList := by
      simp only [String.toList_append, String.toList_ofList]
    have hlength : ("segment_" ++ String.ofList ds ++ ".m4s").length = 12 + ds.length := by
      rw [← String.length_toList, hlist, List.length_append, List.length_append]
      have h8 : "segment_".toList.length = 8 := by decide
      have h4 : ".m4s".toList.length = 4 := by decide
      omega
    have hstarts : "segment_".toList.isPrefixOf ("segment_" ++ String.ofList ds ++ ".m4s").toList =
        true := by
      rw [List.isPrefixOf_iff_prefix, hlist, List.append_assoc]
      exact List.prefix_append _ _
    have hsuffix : ".m4s".toList.isSuffixOf ("segment_" ++ String.ofList ds ++ ".m4s").toList =
        true := by
      rw [List.isSuffixOf_iff_suffix, hlist]
      exact List.suffix_append _ _
    rw [if_pos ⟨hstarts, hsuffix, by omega⟩, hlength, hlist, List.append_assoc,
      List.drop_left' (by decide), List.take_left' (by omega)]
  rw [htoken, Option.bind_some, int_digits hne hdigit, hvalue]

theorem segmentDestination_injective : Function.Injective segmentDestination := by
  intro a b h
  have hindex := destination_index a
  rw [h, destination_index b, Option.some_inj] at hindex
  exact (Int.ofNat.inj hindex).symm

/-! ### The frontier -/

theorem frontierFrom_spec {segments : List ℤ} : ∀ (rounds : ℕ) {frontier : ℕ},
    (∀ i : ℕ, i ≤ frontier → (i : ℤ) ∈ segments) →
    (∀ i : ℕ, i ≤ frontierFrom segments rounds frontier → (i : ℤ) ∈ segments) ∧
      ((frontierFrom segments rounds frontier : ℤ) + 1 ∉ segments ∨
        frontierFrom segments rounds frontier = frontier + rounds) := by
  intro rounds
  induction rounds with
  | zero =>
    intro frontier h
    exact ⟨h, Or.inr rfl⟩
  | succ rounds ih =>
    intro frontier h
    rw [frontierFrom]
    split_ifs with hnext
    · have hmore : ∀ i ≤ frontier + 1, (i : ℤ) ∈ segments := by
        intro i hi
        rcases Nat.le_succ_iff.1 hi with hi | rfl
        · exact h i hi
        · exact hnext
      obtain ⟨hall, hend⟩ := ih hmore
      refine ⟨hall, hend.imp id fun heq => ?_⟩
      omega
    · exact ⟨h, Or.inl hnext⟩

/-- **The frontier** is the last segment before the first gap. -/
theorem contiguousSegmentFrontier_spec {segments : List ℤ} {n : ℕ} :
    contiguousSegmentFrontier segments = some n ↔
      (∀ i : ℕ, i ≤ n → (i : ℤ) ∈ segments) ∧ (n : ℤ) + 1 ∉ segments := by
  have hgap : ∀ m : ℕ, (∀ i : ℕ, i ≤ m → (i : ℤ) ∈ segments) → m < segments.length := by
    intro m hm
    -- the segments up to it are as many different ones
    have hsub : (List.range (m + 1)).map (Nat.cast : ℕ → ℤ) ⊆ segments := by
      intro i hi
      obtain ⟨j, hj, rfl⟩ := List.mem_map.1 hi
      exact hm j (Nat.lt_succ_iff.1 (List.mem_range.1 hj))
    have hnodup : ((List.range (m + 1)).map (Nat.cast : ℕ → ℤ)).Nodup :=
      List.nodup_range.map fun _ _ h => Int.ofNat.inj h
    have hle := (List.subperm_of_subset hnodup hsub).length_le
    rwa [List.length_map, List.length_range] at hle
  have hspec : 0 ∈ segments → (∀ i : ℕ, i ≤ frontierFrom segments segments.length 0 →
    (i : ℤ) ∈ segments) ∧
      (frontierFrom segments segments.length 0 : ℤ) + 1 ∉ segments := by
    intro hzero
    have hstart : ∀ i : ℕ, i ≤ 0 → (i : ℤ) ∈ segments := by
      intro i hi
      rw [Nat.le_zero.1 hi]
      exact hzero
    obtain ⟨hall, hend⟩ := frontierFrom_spec segments.length hstart
    refine ⟨hall, hend.resolve_right fun heq => ?_⟩
    have hlt := hgap _ hall
    omega
  rw [contiguousSegmentFrontier]
  constructor
  · intro h
    by_cases hzero : (0 : ℤ) ∈ segments
    · rw [if_neg (not_not.2 hzero)] at h
      cases h
      exact hspec hzero
    · rw [if_pos hzero] at h
      cases h
  · rintro ⟨hall, hend⟩
    have hzero : (0 : ℤ) ∈ segments := hall 0 (Nat.zero_le n)
    obtain ⟨hall', hend'⟩ := hspec hzero
    rw [if_neg (not_not.2 hzero), Option.some_inj]
    rcases lt_trichotomy (frontierFrom segments segments.length 0) n with hlt | heq | hlt
    · exact absurd (hall _ hlt) hend'
    · exact heq
    · exact absurd (hall' _ hlt) hend

theorem contiguousSegmentFrontier_none {segments : List ℤ} :
    contiguousSegmentFrontier segments = none ↔ 0 ∉ segments := by
  rw [contiguousSegmentFrontier]
  by_cases hzero : (0 : ℤ) ∈ segments
  · rw [if_neg (not_not.2 hzero)]
    exact iff_of_false (Option.some_ne_none _) (not_not.2 hzero)
  · rw [if_pos hzero]
    exact iff_of_true rfl hzero

end EpochPublication
