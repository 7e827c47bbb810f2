/-
The catalog of diagnostic events on the server (`playback_diagnostics/catalog.py`),
as far as it concerns one source.

* `Catalog.ingest`, `Catalog.declareSourceGap` — a batch and a gap, all or nothing;
* `Catalog.advance` — the watermark moves over what is recorded or declared, to the end
  (`Catalog.advance_ended`);
* `Catalog.Covered` — up to the watermark every sequence is recorded or declared.
-/
import Mathlib.Data.List.MinMax
import Mathlib.Tactic.Common

namespace Diagnostics

/-- A row of `diagnostic_source_gaps`. -/
structure SourceGap where
  startSequence : ℕ
  endSequence : ℕ
  reasonCode : String
  deriving DecidableEq

/-- The gap covers the sequence. -/
def SourceGap.covers (g : SourceGap) (n : ℕ) : Bool := g.startSequence ≤ n && n ≤ g.endSequence

/-- The rows of a source: its events with their sequences, its gaps and its watermark. -/
structure Catalog where
  events : List (String × ℕ)
  gaps : List SourceGap
  ackWatermark : ℕ
  deriving DecidableEq

/-- What a source is registered with. -/
def Catalog.empty : Catalog := ⟨[], [], 0⟩

namespace Catalog

variable (c : Catalog)

/-- An event has been recorded under the sequence. -/
def recorded (n : ℕ) : Bool := c.events.any (·.2 = n)

/-- A gap covers the sequence. -/
def declared (n : ℕ) : Bool := c.gaps.any (·.covers n)

/-- One round of `_advance_watermark_in_connection`; `none` where it returns. -/
def advanceOnce (watermark : ℕ) : Option ℕ :=
  if c.recorded (watermark + 1) then some (watermark + 1)
  else
    ((c.gaps.filter (·.covers (watermark + 1))).map SourceGap.endSequence).max?.map (max watermark)

/-- `_advance_watermark_in_connection`, in at most `fuel` rounds. -/
def advance : ℕ → ℕ → ℕ
  | 0, watermark => watermark
  | fuel + 1, watermark =>
    match c.advanceOnce watermark with
    | none => watermark
    | some next => advance fuel next

/-- The last sequence that is recorded or declared. -/
def bound : ℕ := (c.events.map Prod.snd ++ c.gaps.map SourceGap.endSequence).foldr max 0

/-- The watermark is advanced, in as many rounds as it needs. -/
def advanced : Catalog := { c with ackWatermark := c.advance c.bound c.ackWatermark }

inductive Classification where
  | new
  | duplicate
  | conflict
  deriving DecidableEq

/-- `classify_event_batch`, of one event. -/
def classify (event : String × ℕ) : Classification :=
  if c.declared event.2 then .conflict
  else if event ∈ c.events then .duplicate
  else if c.events.any (fun r => r.1 = event.1 || r.2 = event.2) then .conflict
  else .new

/-- `record_events`, of one event: a row that meets a key is a duplicate. -/
def recordEvent (event : String × ℕ) : Catalog :=
  if c.events.any (fun r => r.1 = event.1 || r.2 = event.2) then c
  else { c with events := c.events ++ [event] : Catalog }.advanced

/-- A batch is written; `none` where an event conflicts. -/
def ingest (events : List (String × ℕ)) : Option Catalog :=
  if events.any (c.classify · = .conflict) then none else some (events.foldl recordEvent c)

/-- `declare_source_gap`; `none` where it raises. -/
def declareSourceGap (gap : SourceGap) : Option Catalog :=
  if gap.startSequence < 1 ∨ gap.endSequence < gap.startSequence then none
  else if c.events.any (fun r => gap.covers r.2) then none
  else if c.gaps.any (fun g =>
      !(g.endSequence < gap.startSequence || gap.endSequence < g.startSequence) &&
        decide (g.reasonCode ≠ gap.reasonCode)) then none
  else
    let gaps :=
      if c.gaps.any (fun g => g.startSequence = gap.startSequence && g.endSequence =
        gap.endSequence)
      then c.gaps else c.gaps ++ [gap]
    some { c with gaps := gaps : Catalog }.advanced

/-! ### The watermark -/

/-- Every sequence up to the watermark is recorded or declared. -/
def Covered (c : Catalog) : Prop :=
  ∀ n, 1 ≤ n → n ≤ c.ackWatermark → c.recorded n = true ∨ c.declared n = true

/-- What one catalog has, the other has, and its watermark is not below. -/
structure Extends (c c' : Catalog) : Prop where
  events : ∀ r ∈ c.events, r ∈ c'.events
  gaps : ∀ g ∈ c.gaps, g ∈ c'.gaps
  watermark : c.ackWatermark ≤ c'.ackWatermark

theorem Extends.refl : Extends c c := ⟨fun _ h => h, fun _ h => h, le_rfl⟩

variable {c} {c' c'' : Catalog}

theorem Extends.trans (h : Extends c c') (h' : Extends c' c'') : Extends c c'' :=
  ⟨fun r hr => h'.events r (h.events r hr), fun g hg => h'.gaps g (h.gaps g hg),
    h.watermark.trans h'.watermark⟩

theorem recorded_iff {n : ℕ} : c.recorded n = true ↔ ∃ eventId, (eventId, n) ∈ c.events := by
  rw [recorded, List.any_eq_true]
  constructor
  · rintro ⟨⟨eventId, k⟩, hr, hk⟩
    exact ⟨eventId, (of_decide_eq_true hk : k = n) ▸ hr⟩
  · rintro ⟨eventId, hr⟩
    exact ⟨_, hr, decide_eq_true rfl⟩

theorem covers_iff {g : SourceGap} {n : ℕ} :
    g.covers n = true ↔ g.startSequence ≤ n ∧ n ≤ g.endSequence := by
  rw [SourceGap.covers, Bool.and_eq_true, decide_eq_true_eq, decide_eq_true_eq]

/-- A round goes up, over sequences that are recorded or declared, and stays within the bound. -/
theorem advanceOnce_some {w w' : ℕ} (h : c.advanceOnce w = some w') :
    w < w' ∧ w' ≤ c.bound ∧
      ∀ n, w < n → n ≤ w' → c.recorded n = true ∨ c.declared n = true := by
  have hle : ∀ {l : List ℕ} {x : ℕ}, x ∈ l → x ≤ l.foldr max 0 := by
    intro l x hx
    induction l with
    | nil => cases hx
    | cons y l ih =>
      rcases List.mem_cons.1 hx with rfl | hx
      · exact le_max_left _ _
      · exact (ih hx).trans (le_max_right _ _)
  unfold advanceOnce at h
  split at h
  · next hrec =>
    cases h
    obtain ⟨eventId, hmem⟩ := recorded_iff.1 hrec
    refine ⟨Nat.lt_succ_self w, hle (List.mem_append_left _ (List.mem_map_of_mem hmem)), ?_⟩
    intro n hwn hnw
    have hn : n = w + 1 := by omega
    exact Or.inl (hn ▸ hrec)
  · obtain ⟨last, hlast, rfl⟩ := Option.map_eq_some_iff.1 h
    obtain ⟨g, hg, rfl⟩ := List.mem_map.1 (List.max?_mem hlast)
    obtain ⟨hg, hcov⟩ := List.mem_filter.1 hg
    have hcovers := covers_iff.1 hcov
    rw [max_eq_right (by omega)]
    refine ⟨by omega, hle (List.mem_append_right _ (List.mem_map_of_mem hg)), ?_⟩
    intro n hwn hnw
    exact Or.inr (List.any_eq_true.2 ⟨g, hg, covers_iff.2 ⟨by omega, hnw⟩⟩)

/-- The rounds go up, over sequences that are recorded or declared. -/
theorem advance_covered (fuel w : ℕ) :
    w ≤ c.advance fuel w ∧
      ∀ n, w < n → n ≤ c.advance fuel w → c.recorded n = true ∨ c.declared n = true := by
  induction fuel generalizing w with
  | zero => exact ⟨le_rfl, fun n hn hn' => absurd hn' (not_le.2 hn)⟩
  | succ fuel ih =>
    rw [advance]
    split
    · exact ⟨le_rfl, fun n hn hn' => absurd hn' (not_le.2 hn)⟩
    · next w' hw' =>
      obtain ⟨hlt, -, hone⟩ := advanceOnce_some hw'
      obtain ⟨hle, hrest⟩ := ih w'
      refine ⟨(le_of_lt hlt).trans hle, fun n hn hn' => ?_⟩
      by_cases hnw : n ≤ w'
      · exact hone n hn hnw
      · exact hrest n (not_le.1 hnw) hn'

/-- The rounds come to an end. -/
theorem advance_ended {fuel w : ℕ} (hfuel : c.bound ≤ w + fuel) :
    c.advanceOnce (c.advance fuel w) = none := by
  induction fuel generalizing w with
  | zero =>
    rw [advance]
    cases h : c.advanceOnce w with
    | none => rfl
    | some w' =>
      obtain ⟨hlt, hle, -⟩ := advanceOnce_some h
      omega
  | succ fuel ih =>
    rw [advance]
    cases h : c.advanceOnce w with
    | none => exact h
    | some w' =>
      obtain ⟨hlt, -, -⟩ := advanceOnce_some h
      exact ih (by omega)

theorem Covered.advanced (h : Covered c) : Covered c.advanced := by
  intro n hn hn'
  by_cases hnw : n ≤ c.ackWatermark
  · exact h n hn hnw
  · have hkept := (advance_covered (c := c) c.bound c.ackWatermark).2 n (not_le.1 hnw) hn'
    exact hkept

/-- What has been recorded or declared stays so. -/
theorem Extends.kept (h : Extends c c') {n : ℕ} (hn : c.recorded n = true ∨ c.declared n = true) :
    c'.recorded n = true ∨ c'.declared n = true := by
  rcases hn with hn | hn
  · obtain ⟨eventId, hr⟩ := recorded_iff.1 hn
    exact Or.inl (recorded_iff.2 ⟨eventId, h.events _ hr⟩)
  · obtain ⟨g, hg, hcov⟩ := List.any_eq_true.1 hn
    exact Or.inr (List.any_eq_true.2 ⟨g, h.gaps g hg, hcov⟩)

/-- More rows, and then the watermark. -/
theorem Covered.extend (h : Covered c) {events : List (String × ℕ)} {gaps : List SourceGap}
    (hevents : ∀ r ∈ c.events, r ∈ events) (hgaps : ∀ g ∈ c.gaps, g ∈ gaps) :
    Covered (Catalog.advanced ⟨events, gaps, c.ackWatermark⟩) ∧
      Extends c (Catalog.advanced ⟨events, gaps, c.ackWatermark⟩) := by
  have hext : Extends c ⟨events, gaps, c.ackWatermark⟩ := ⟨hevents, hgaps, le_rfl⟩
  have hcov : Covered ⟨events, gaps, c.ackWatermark⟩ := fun n hn hn' => hext.kept (h n hn hn')
  exact ⟨hcov.advanced, hevents, hgaps, (advance_covered _ _).1⟩

theorem Covered.recordEvent (h : Covered c) (event : String × ℕ) :
    Covered (c.recordEvent event) ∧ Extends c (c.recordEvent event) ∧
      ∀ r ∈ (c.recordEvent event).events, r ∈ c.events ∨ r = event := by
  rw [Catalog.recordEvent]
  split
  · exact ⟨h, .refl c, fun r hr => Or.inl hr⟩
  · obtain ⟨hcov, hext⟩ := h.extend (fun r hr => List.mem_append_left [event] hr)
      fun g hg => hg
    refine ⟨hcov, hext, fun r hr => ?_⟩
    rcases List.mem_append.1 hr with hr | hr
    · exact Or.inl hr
    · exact Or.inr (List.mem_singleton.1 hr)

/-- A batch that is written keeps the catalog covered, and records nothing but its events. -/
theorem Covered.ingest (h : Covered c) {events : List (String × ℕ)}
    (hc : c.ingest events = some c') :
    Covered c' ∧ Extends c c' ∧ ∀ r ∈ c'.events, r ∈ c.events ∨ r ∈ events := by
  rw [Catalog.ingest] at hc
  split at hc
  · cases hc
  · cases hc
    clear * - h
    induction events generalizing c with
    | nil => exact ⟨h, .refl c, fun r hr => Or.inl hr⟩
    | cons event events ih =>
      obtain ⟨hcov, hext, hmem⟩ := h.recordEvent event
      obtain ⟨hcov', hext', hmem'⟩ := ih hcov
      refine ⟨hcov', hext.trans hext', fun r hr => ?_⟩
      rcases hmem' r hr with hr | hr
      · rcases hmem r hr with hr | rfl
        · exact Or.inl hr
        · exact Or.inr (List.mem_cons_self ..)
      · exact Or.inr (List.mem_cons_of_mem _ hr)

/-- A gap that is declared keeps the catalog covered, and is one of its gaps. -/
theorem Covered.declareSourceGap (h : Covered c) {gap : SourceGap}
    (hc : c.declareSourceGap gap = some c') :
    Covered c' ∧ Extends c c' ∧ c'.events = c.events ∧ gap.startSequence ≤ gap.endSequence ∧
      ∃ g ∈ c'.gaps, g.startSequence = gap.startSequence ∧ g.endSequence = gap.endSequence := by
  rw [Catalog.declareSourceGap] at hc
  split at hc
  · cases hc
  next hrange =>
    split at hc
    · cases hc
    split at hc
    · cases hc
    dsimp only at hc
    split at hc
    next hdup =>
      cases hc
      obtain ⟨hcov, hext⟩ := h.extend (fun r hr => hr) fun g hg => hg
      obtain ⟨g, hg, heq⟩ := List.any_eq_true.1 hdup
      rw [Bool.and_eq_true, decide_eq_true_eq, decide_eq_true_eq] at heq
      exact ⟨hcov, hext, rfl, by omega, g, hg, heq⟩
    next =>
      cases hc
      obtain ⟨hcov, hext⟩ := h.extend (fun r hr => hr) fun g hg => List.mem_append_left [gap] hg
      exact ⟨hcov, hext, rfl, by omega, gap, List.mem_append_right _ (List.mem_singleton_self _),
        rfl, rfl⟩

end Catalog

end Diagnostics
