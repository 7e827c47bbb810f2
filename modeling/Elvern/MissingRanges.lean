/-
What is missing from a source of the diagnostic catalog (`playback_diagnostics/catalog.py`).

* `CheckedCatalog.missingSourceRanges` — the sweep over the events and gaps of a source;
* `missing_source_ranges` — it lists the maximal intervals of what is neither recorded nor in a gap,
  and agrees with the watermark;
* `checked_of_reach` — the constraints of the gaps hold after every run of calls.
-/
import Elvern.CatalogTables
import Elvern.Sweeps

open Runs Sweeps

namespace Diagnostics

/-- The `CHECK` constraints of `diagnostic_source_gaps`. -/
def Tables.Checked (t : Tables) : Prop :=
  ∀ g ∈ t.gaps, 1 ≤ g.gap.startSequence ∧ g.gap.startSequence ≤ g.gap.endSequence

/-- The tables under their constraints, with the column `final_source_sequence`. -/
structure CheckedCatalog where
  tables : Tables
  finalSourceSequence : String → Option ℕ
  checked : tables.Checked

/-- The order of Python's tuples. -/
def tupleLe (a b : ℕ × ℕ) : Bool := a.1 < b.1 || (a.1 = b.1 && a.2 ≤ b.2)

namespace CheckedCatalog

variable (c : CheckedCatalog) (sourceId : String)

/-- `int(source["final_source_sequence"] or source["max_seen_sequence"] or 0)` -/
def upper (source : SourceRow) : ℕ :=
  match c.finalSourceSequence source.sourceId with
  | some (final + 1) => final + 1
  | _ => source.maxSeenSequence

/-- Each event as an interval of its own, and the gaps, clipped. -/
def intervals (upper : ℕ) : List (ℕ × ℕ) :=
  ((c.tables.events.filter fun r => decide (r.sourceId = sourceId ∧ r.sourceSequence ≤ upper)).map
    fun r => (r.sourceSequence, r.sourceSequence)) ++
  ((c.tables.gaps.filter fun g => decide (g.sourceId = sourceId ∧ g.gap.startSequence ≤ upper)).map
    fun g => (g.gap.startSequence, min upper g.gap.endSequence))

/-- `missing_source_ranges` -/
def missingSourceRanges : List (ℕ × ℕ) :=
  match c.tables.source sourceId with
  | none => []
  | some source =>
    let upper := c.upper source
    uncovered upper 1 ((c.intervals sourceId upper).mergeSort tupleLe)

/-- What is neither recorded nor in a gap, up to the last sequence of the source. -/
def missing (source : SourceRow) : Set ℕ :=
  {n | 1 ≤ n ∧ n ≤ c.upper source ∧ (c.tables.view source.sourceId).recorded n = false ∧
    (c.tables.view source.sourceId).declared n = false}

variable {c sourceId} {upper n : ℕ} {i : ℕ × ℕ}

theorem mem_intervals : i ∈ c.intervals sourceId upper ↔
    (∃ r ∈ c.tables.events, (r.sourceId = sourceId ∧ r.sourceSequence ≤ upper) ∧
      (r.sourceSequence, r.sourceSequence) = i) ∨
    ∃ g ∈ c.tables.gaps, (g.sourceId = sourceId ∧ g.gap.startSequence ≤ upper) ∧
      (g.gap.startSequence, min upper g.gap.endSequence) = i := by
  simp only [intervals, List.mem_append, List.mem_map, List.mem_filter,
    decide_eq_true_eq, and_assoc]

/-- Up to the upper end the intervals cover what is known of the source. -/
theorem covered_iff (hn : n ≤ upper) :
    (∃ i ∈ c.intervals sourceId upper, n ∈ Set.Icc i.1 i.2) ↔
      (c.tables.view sourceId).Known n := by
  rw [Catalog.Known, view_recorded, view_declared]
  constructor
  · rintro ⟨i, hi, hfirst, hlast⟩
    rcases mem_intervals.1 hi with ⟨r, hr, ⟨hsource, -⟩, rfl⟩ | ⟨g, hg, ⟨hsource, -⟩, rfl⟩
    · exact Or.inl ⟨r, hr, hsource, le_antisymm hfirst hlast⟩
    · exact Or.inr ⟨g, hg, hsource, hfirst, hlast.trans (min_le_right _ _)⟩
  · rintro (⟨r, hr, hsource, rfl⟩ | ⟨g, hg, hsource, hfirst, hlast⟩)
    · exact ⟨_, mem_intervals.2 (Or.inl ⟨r, hr, ⟨hsource, hn⟩, rfl⟩), le_rfl, le_rfl⟩
    · refine ⟨_, mem_intervals.2 (Or.inr ⟨g, hg, ⟨hsource, hfirst.trans hn⟩, rfl⟩), hfirst, ?_⟩
      exact le_min hn hlast

theorem mem_missing {source : SourceRow} : n ∈ c.missing source ↔
    1 ≤ n ∧ n ≤ c.upper source ∧ ¬ (c.tables.view source.sourceId).Known n := by
  simp [missing, Catalog.Known]

/-- No interval is empty, and each begins within the upper end. -/
theorem interval_spec (hi : i ∈ c.intervals sourceId upper) : i.1 ≤ i.2 ∧ i.1 ≤ upper := by
  rcases mem_intervals.1 hi with ⟨r, hr, ⟨-, hle⟩, rfl⟩ | ⟨g, hg, ⟨-, hle⟩, rfl⟩
  · exact ⟨le_rfl, hle⟩
  · exact ⟨le_min hle (c.checked g hg).2, hle⟩

/-- The intervals are swept in the order of their first sequences. -/
theorem sorted_intervals (l : List (ℕ × ℕ)) :
    (l.mergeSort tupleLe).Pairwise fun i j => i.1 ≤ j.1 := by
  have htrans : ∀ a b d : ℕ × ℕ, tupleLe a b = true → tupleLe b d = true → tupleLe a d = true := by
    intro a b d
    simp only [tupleLe, Bool.or_eq_true, Bool.and_eq_true, decide_eq_true_eq]
    omega
  have htotal : ∀ a b : ℕ × ℕ, (tupleLe a b || tupleLe b a) = true := by
    intro a b
    simp only [tupleLe, Bool.or_eq_true, Bool.and_eq_true, decide_eq_true_eq]
    omega
  refine (List.pairwise_mergeSort htrans htotal l).imp ?_
  intro a b hab
  simp only [tupleLe, Bool.or_eq_true, Bool.and_eq_true, decide_eq_true_eq] at hab
  omega

section Ranges

variable {source : SourceRow} (hsource : c.tables.source sourceId = some source)

include hsource

theorem missingSourceRanges_eq : c.missingSourceRanges sourceId =
    uncovered (c.upper source) 1 ((c.intervals sourceId (c.upper source)).mergeSort tupleLe) := by
  rw [missingSourceRanges, hsource]

theorem separated_missing : Separated (c.missingSourceRanges sourceId) := by
  rw [missingSourceRanges_eq hsource]
  refine separated_uncovered fun i hi => ?_
  exact (interval_spec (List.mem_mergeSort.1 hi)).1

/-- The ranges cover what is missing. -/
theorem union_missing : union (c.missingSourceRanges sourceId) = c.missing source := by
  obtain ⟨-, rfl⟩ := source_spec hsource
  rw [missingSourceRanges_eq hsource]
  ext n
  rw [mem_union_uncovered (sorted_intervals _) fun i hi =>
    (interval_spec (List.mem_mergeSort.1 hi)).2, mem_missing]
  refine and_congr_right fun _ => and_congr_right fun hn => ?_
  rw [← covered_iff hn]
  simp only [List.mem_mergeSort, not_exists, not_and]

/-- Nothing is missing up to the watermark, and behind it the next sequence. -/
theorem missing_of_marked (hmarked : (c.tables.view source.sourceId).Marked source.ackWatermark) :
    (c.missingSourceRanges sourceId = [] ↔ c.upper source ≤ source.ackWatermark) ∧
      ∀ first ∈ (c.missingSourceRanges sourceId).head?, first.1 = source.ackWatermark + 1 := by
  have hunion := union_missing hsource
  have hseparated := separated_missing hsource
  have hbehind : ∀ n ∈ c.missing source, source.ackWatermark + 1 ≤ n := by
    intro n hn
    obtain ⟨hpos, -, hunknown⟩ := mem_missing.1 hn
    by_contra hlt
    exact hunknown (hmarked.knownTo n hpos (by omega))
  have hnext : source.ackWatermark < c.upper source → source.ackWatermark + 1 ∈ c.missing source :=
    fun hlt => mem_missing.2 ⟨by omega, hlt, hmarked.next⟩
  cases hranges : c.missingSourceRanges sourceId with
  | nil =>
    refine ⟨⟨fun _ => ?_, fun _ => rfl⟩, fun first hfirst => nomatch hfirst⟩
    by_contra hlt
    have hmem := hnext (not_le.1 hlt)
    rw [← hunion, hranges] at hmem
    obtain ⟨r, hr, -⟩ := hmem
    cases hr
  | cons first rest =>
    rw [hranges] at hunion hseparated
    have hleast := hseparated.head_isLeast
    rw [hunion] at hleast
    have hupper := (mem_missing.1 hleast.1).2.1
    have hfirst := hbehind _ hleast.1
    constructor
    · refine ⟨fun hnil => absurd hnil (List.cons_ne_nil _ _), fun hle => ?_⟩
      omega
    · intro r hr
      cases hr
      -- the sequence behind the watermark is missing, and the first range begins with the least
      exact le_antisymm (hleast.2 (hnext (by omega))) hfirst

end Ranges

end CheckedCatalog

/-- The missing ranges of a source are the maximal intervals of what is neither recorded nor in a
gap, in ascending order and with no two that touch. With the watermark where it belongs there is
none if and only if the watermark has come to the upper end, and otherwise the first begins behind
it. -/
theorem missing_source_ranges (c : CheckedCatalog) (sourceId : String) (source : SourceRow)
    (hsource : c.tables.source sourceId = some source) :
    (∀ n, (∃ r ∈ c.missingSourceRanges sourceId, r.1 ≤ n ∧ n ≤ r.2) ↔ n ∈ c.missing source) ∧
    (∀ r, r ∈ c.missingSourceRanges sourceId ↔ IsRun (c.missing source) r) ∧
    (c.missingSourceRanges sourceId).Pairwise (fun r r' => r.2 + 1 < r'.1) ∧
    (IsGreatest {w | ∀ n, 1 ≤ n → n ≤ w → (c.tables.view sourceId).recorded n = true ∨
        (c.tables.view sourceId).declared n = true} source.ackWatermark →
      (c.missingSourceRanges sourceId = [] ↔ c.upper source ≤ source.ackWatermark) ∧
      ∀ first ∈ (c.missingSourceRanges sourceId).head?, first.1 = source.ackWatermark + 1) := by
  have hunion := CheckedCatalog.union_missing hsource
  have hseparated := CheckedCatalog.separated_missing hsource
  refine ⟨fun n => ?_, fun r => ?_, hseparated.apart, fun hgreatest => ?_⟩
  · rw [← hunion]
    exact Iff.rfl
  · rw [← hunion]
    exact hseparated.mem_iff_isRun
  · obtain ⟨-, rfl⟩ := source_spec hsource
    refine CheckedCatalog.missing_of_marked hsource ⟨hgreatest.1, fun hnext => ?_⟩
    have hle := hgreatest.2 (show source.ackWatermark + 1 ∈ _ from fun n hn hn' => ?_)
    · omega
    · rcases Nat.lt_or_eq_of_le hn' with hlt | rfl
      · exact hgreatest.1 n hn (by omega)
      · exact hnext

/-- A source with two gaps that overlap, and events on both sides. -/
def twoGaps : CheckedCatalog where
  tables := ⟨["playback"], [⟨"client", "playback", 1, 9, 0, 0⟩],
    [⟨"started", "playback", "client", 1⟩, ⟨"paused", "playback", "client", 8⟩],
    [⟨"client", ⟨3, 5, "dropped"⟩, "client"⟩, ⟨"client", ⟨4, 6, "dropped"⟩, "client"⟩], []⟩
  finalSourceSequence _ := some 10
  checked g hg := by
    rcases List.mem_cons.1 hg with rfl | hg
    · decide
    · rw [List.mem_singleton.1 hg]
      decide

theorem missing_source_ranges_twoGaps :
    (∀ r, r ∈ twoGaps.missingSourceRanges "client" ↔
      IsRun (twoGaps.missing ⟨"client", "playback", 1, 9, 0, 0⟩) r) ∧
    (twoGaps.missingSourceRanges "client" = [] ↔ twoGaps.upper ⟨"client", "playback", 1, 9,
        0, 0⟩ ≤ 1) := by
  have hranges := missing_source_ranges twoGaps "client" ⟨"client", "playback", 1, 9, 0, 0⟩ rfl
  refine ⟨hranges.2.1, (hranges.2.2.2 ⟨fun n hn hn' => ?_, fun w hw => ?_⟩).1⟩
  · have hone : n = 1 := le_antisymm hn' hn
    rw [hone]
    decide
  · by_contra hlt
    exact absurd (hw 2 (by decide) (not_le.1 hlt)) (by decide)

section Reached

variable {t t' : Tables}

theorem Tables.Checked.declareGap (h : t.Checked) {gap : DeclareGap} {watermark : ℕ}
    (hok : t.declareGap gap = .ok (t', watermark)) : t'.Checked := by
  rw [Tables.declareGap] at hok
  split_ifs at hok with hrange
  dsimp only at hok
  cases hsource : t.source gap.sourceId with
  | none =>
    rw [hsource] at hok
    cases hok
  | some row =>
    simp only [hsource] at hok
    split_ifs at hok with hoverlap hconflict hknown
    · cases hok
      exact h
    · cases hok
      intro g hg
      rcases List.mem_append.1 hg with hg | hg
      · exact h g hg
      · rw [List.mem_singleton.1 hg]
        show 1 ≤ gap.startSequence.toNat ∧ gap.startSequence.toNat ≤ gap.endSequence.toNat
        omega

/-- Events come and go without the gaps. -/
theorem recordEvent_gaps {args : RecordEvents} {s s' : Recording} {event : CatalogEvent}
    (h : recordEvent args s event = .ok s') : s'.tables.gaps = s.tables.gaps := by
  rw [recordEvent] at h
  dsimp only at h
  split at h
  · cases h
    rfl
  · cases h
  · split_ifs at h <;> cases h <;> rfl

theorem recordEvents_gaps {args : RecordEvents} {counts : ℕ × ℕ × ℕ}
    (h : t.recordEvents args = .ok (t', counts)) : t'.gaps = t.gaps := by
  obtain ⟨row, s, noted, -, hloop, hnoted, rfl⟩ := recordEvents_ok h
  have hrounds : ∀ (events : List CatalogEvent) (s₀ : Recording),
      events.foldlM (recordEvent args) s₀ = .ok s → s.tables.gaps = s₀.tables.gaps := by
    intro events
    induction events with
    | nil =>
      intro s₀ h
      cases h
      rfl
    | cons event events ih =>
      intro s₀ h
      rw [List.foldlM_cons] at h
      cases hround : recordEvent args s₀ event with
      | error error =>
        rw [hround] at h
        cases h
      | ok s₁ =>
        rw [hround] at h
        exact (ih s₁ h).trans (recordEvent_gaps hround)
  show noted.gaps = t.gaps
  rw [(noteChunk_spec hnoted).2.2.1, hrounds _ _ hloop]

/-- **One call** keeps the constraints. -/
theorem Tables.Checked.call (h : t.Checked) (call : CatalogCall) : (t.call call).1.Checked := by
  cases call with
  | registerSource session sourceId =>
    rw [Tables.call, Tables.registerSource]
    split_ifs <;> exact h
  | recordEvents args =>
    rw [Tables.call]
    cases hok : t.recordEvents args with
    | error error => exact h
    | ok result =>
      intro g hg
      have hgaps : result.1.gaps = t.gaps := recordEvents_gaps hok
      exact h g (hgaps ▸ hg)
  | declareGap args =>
    rw [Tables.call]
    cases hok : t.declareGap args with
    | error error => exact h
    | ok result => exact h.declareGap hok

/-- The constraints hold after every run of calls: `declare_source_gap` itself refuses what they
exclude. -/
theorem checked_of_reach {sessions : List String}
    (h : Reach Tables.step (fun _ _ => True) (.fresh sessions) t) : t.Checked := by
  refine Reach.invariant (fun g hg => absurd hg List.not_mem_nil) (fun s c s' _ hs _ hstep => ?_) h
  cases hstep
  exact hs.call c

/-- After every run of calls, and whatever the final sequence of a source has been set to, nothing
is missing if and only if the watermark has come to the upper end. -/
theorem missing_of_reach {sessions : List String}
    (h : Reach Tables.step (fun _ _ => True) (.fresh sessions) t) (final : String → Option ℕ)
    {sourceId : String} {source : SourceRow} (hsource : t.source sourceId = some source) :
    (CheckedCatalog.mk t final (checked_of_reach h)).missingSourceRanges sourceId = [] ↔
      (CheckedCatalog.mk t final (checked_of_reach h)).upper source ≤ source.ackWatermark := by
  have hright : Right t := by
    refine Reach.invariant (fresh_right sessions) (fun s c s' _ hs _ hstep => ?_) h
    cases hstep
    exact (hs.call c).1
  have hmarked := hright.marked source (source_spec hsource).1
  exact (CheckedCatalog.missing_of_marked (c := ⟨t, final, checked_of_reach h⟩) hsource hmarked).1

end Reached

end Diagnostics
