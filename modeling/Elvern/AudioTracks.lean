/-
The audio tracks of a session over its runs.

* `Tuned` — the active epoch plays the active track, only the replacement of a switch is pending,
  and otherwise the selected track is the active one;
* `Healthy` — no switch is about to fail while the default track is active;
* `audio_tracks` — `Tuned` holds in every run in which no in-range seek meets a switch, and no
  switch is superseded or fails while the default track is active;
* `tracks_drift` — what happens elsewhere.
-/
import Elvern.EpochBookkeeping

open Heaps Relation

namespace EpochSwitches

open Playback

/-- How the tracks of a session belong together. -/
structure Tuned (p : Playback) : Prop where
  linked : Linked p
  active : ∀ a e, p.activeEpochId = some a → p.epochs.get a = some e →
    e.audioStreamIndex = p.activeAudioStreamIndex
  pending : ∀ k, p.pendingAudioStreamIndex = some k →
    ∃ r e, p.Switches r e ∧ e.audioStreamIndex = some k
  switching : ∀ r e, p.Switches r e →
    e.audioStreamIndex = p.pendingAudioStreamIndex ∧ p.pendingAudioStreamIndex ≠ none
  plain : ∀ r e, p.Replaces r e → e.replacementReason ≠ some .audioTrackSwitch →
    e.audioStreamIndex = p.activeAudioStreamIndex
  selected : p.pendingAudioStreamIndex = none →
    p.selectedAudioStreamIndex = p.activeAudioStreamIndex
  candidate : p.candidateState ≠ .committing

/-- While the default track is active, the replacement of a switch has not failed, and if it has
ended its time is over. -/
def Healthy (g : Gates) (p : Playback) : Prop :=
  p.activeAudioStreamIndex = none → ∀ r e, p.Switches r e →
    e.state ≠ .failed ∧ (e.state = .ended → g.candidateExpired = true)

section Moves

variable {g : Gates} {ok : Fault → Prop} {p p' : Playback}

/-- Where no switch has a replacement, nothing can fail. -/
theorem healthy_of_none (h : p.replacementEpochId = none) : Healthy g p := by
  intro _ r e hs
  have hnone := hs.1.1.symm.trans h
  cases hnone

theorem Tuned.no_pending (h : Tuned p) (hno : ∀ r e, ¬ p.Switches r e) :
    p.pendingAudioStreamIndex = none := by
  rw [Option.eq_none_iff_forall_ne_some]
  intro k hk
  obtain ⟨r, e, hs, -⟩ := h.pending k hk
  exact hno r e hs

theorem Tuned.cancel (h : Tuned p) (failed : Bool) : Tuned (p.cancelCandidate failed) := by
  obtain ⟨hactive, hreplacement, -, -, hpending, htrack, hselected, -⟩ :=
    Linked.cancel_ids p failed
  have hnone : ∀ r e, ¬ (p.cancelCandidate failed).Replaces r e := by
    intro r e hr
    have hno := hr.1.symm.trans hreplacement
    cases hno
  have hm : Move quietGates (fun _ => True) p (p.cancelCandidate failed) := .cancel failed
    (Or.inr trivial)
  refine ⟨h.linked.move hm, fun a e ha he => ?_, fun k hk => ?_, fun r e hs => ?_,
    fun r e hr => absurd hr (hnone r e), fun _ => ?_, ?_⟩
  · rw [h.linked.cancel_get] at he
    split at he
    · cases he
    · rw [htrack]
      exact h.active a e (hactive ▸ ha) he
  · rw [hpending] at hk
    cases hk
  · exact absurd hs.1 (hnone r e)
  · rw [hselected, htrack]
  · rw [cancelCandidate]
    exact fun hc => by cases hc

/-- An epoch that is not current goes. -/
theorem Tuned.expire {i : ℕ} (h : Tuned p) (hi : p.current i = false) : Tuned (p.discard i) := by
  have hm : Move quietGates (fun _ => True) p (p.discard i) := .expire i hi
  have hlinked := h.linked.move hm
  obtain ⟨-, hactive, hpending, hswitching, hplain, hselected, hcandidate⟩ := h
  clear hm
  rw [current, Bool.or_eq_false_iff, decide_eq_false_iff_not, decide_eq_false_iff_not] at hi
  refine ⟨hlinked, ?_, ?_, ?_, ?_, ?_, ?_⟩
  all_goals clear hlinked
  all_goals simp only [Playback.discard, Switches, Replaces, get_pop] at *
  all_goals grind

/-- The replacement of a switch is given up, and the active track is selected again. -/
theorem Tuned.giveUp {r : ℕ} {e : Epoch} (h : Tuned p) (hs : p.Switches r e)
    (htrack : p.activeAudioStreamIndex ≠ none)
    (hlinked : Linked (p.setSwitchFailed.discard r)) : Tuned (p.setSwitchFailed.discard r) := by
  obtain ⟨hl, hactive, hpending, hswitching, hplain, hselected, hcandidate⟩ := h
  have hsome : p.activeAudioStreamIndex.isSome = true := Option.isSome_iff_ne_none.2 htrack
  have hnone : (p.setSwitchFailed.discard r).replacementEpochId = none :=
    discard_replacement hs.1.1
  refine ⟨hlinked, fun a e' ha he' => ?_, (fun k hk => by cases hk), fun r' e' hs' => ?_,
    fun r' e' hr' => ?_, fun _ => if_pos hsome, (fun hc => by cases hc)⟩
  · rw [Playback.discard, get_pop] at he'
    split at he'
    · cases he'
    · exact hactive a e' ha he'
  · have hno := hs'.1.1.symm.trans hnone
    cases hno
  · have hno := hr'.1.symm.trans hnone
    cases hno

/-- Only the ids, the reasons and the tracks of the epochs matter. -/
theorem Tuned.congr (h : Tuned p) (hlinked : Linked p')
    (hactive : p'.activeEpochId = p.activeEpochId)
    (hreplacement : p'.replacementEpochId = p.replacementEpochId)
    (htrack : p'.activeAudioStreamIndex = p.activeAudioStreamIndex)
    (hpending : p'.pendingAudioStreamIndex = p.pendingAudioStreamIndex)
    (hselected : p'.selectedAudioStreamIndex = p.selectedAudioStreamIndex)
    (hcandidate : p'.candidateState ≠ .committing)
    (hsame : ∀ i, (p'.epochs.get i).map (fun e => (e.replacementReason, e.audioStreamIndex)) =
      (p.epochs.get i).map fun e => (e.replacementReason, e.audioStreamIndex)) : Tuned p' := by
  have hback : ∀ i e', p'.epochs.get i = some e' → ∃ e, p.epochs.get i = some e ∧
      e.replacementReason = e'.replacementReason ∧ e.audioStreamIndex = e'.audioStreamIndex := by
    intro i e' he'
    have hi := hsame i
    rw [he', Option.map_some] at hi
    obtain ⟨e, he, heq⟩ := Option.map_eq_some_iff.1 hi.symm
    exact ⟨e, he, congrArg Prod.fst heq, congrArg Prod.snd heq⟩
  have hforth : ∀ i e, p.epochs.get i = some e → ∃ e', p'.epochs.get i = some e' ∧
      e'.replacementReason = e.replacementReason ∧ e'.audioStreamIndex = e.audioStreamIndex := by
    intro i e he
    have hi := hsame i
    rw [he, Option.map_some] at hi
    obtain ⟨e', he', heq⟩ := Option.map_eq_some_iff.1 hi
    exact ⟨e', he', congrArg Prod.fst heq, congrArg Prod.snd heq⟩
  refine ⟨hlinked, fun a e' ha he' => ?_, fun k hk => ?_, fun r e' hs => ?_,
    fun r e' hr hplain => ?_,
    fun hno => ?_, hcandidate⟩
  · obtain ⟨e, he, -, hindex⟩ := hback a e' he'
    rw [← hindex, htrack]
    exact h.active a e (hactive ▸ ha) he
  · obtain ⟨r, e, hs, hindex⟩ := h.pending k (hpending ▸ hk)
    obtain ⟨e', he', hreason, hindex'⟩ := hforth r e hs.1.2
    exact ⟨r, e', ⟨⟨hreplacement.trans hs.1.1, he'⟩, hreason.trans hs.2⟩, hindex'.trans hindex⟩
  · obtain ⟨e, he, hreason, hindex⟩ := hback r e' hs.1.2
    rw [hpending, ← hindex]
    exact h.switching r e ⟨⟨hreplacement ▸ hs.1.1, he⟩, hreason.trans hs.2⟩
  · obtain ⟨e, he, hreason, hindex⟩ := hback r e' hr.2
    rw [htrack, ← hindex]
    exact h.plain r e ⟨hreplacement ▸ hr.1, he⟩ (hreason ▸ hplain)
  · rw [hselected, htrack]
    exact h.selected (hpending ▸ hno)

/-- A change of an epoch that leaves its reason and its track. -/
theorem map_modify (h : Heap Epoch) (i j : ℕ) (f : Epoch → Epoch)
    (hf : ∀ e, ((f e).replacementReason, (f e).audioStreamIndex) =
      (e.replacementReason, e.audioStreamIndex)) :
    ((h.modify i f).get j).map (fun e => (e.replacementReason, e.audioStreamIndex)) =
      (h.get j).map fun e => (e.replacementReason, e.audioStreamIndex) := by
  rw [get_modify]
  split
  · rw [Option.map_map]
    exact congrArg (fun f => (h.get j).map f) (funext hf)
  · rfl

/-- A move without a lost switch and without one that fails on the default track. -/
theorem Tuned.move (h : Tuned p) (hhealthy : Healthy g p) (hlost : ¬ ok .lost)
    (hdefault : ¬ ok .defaultTrack) (hm : Move g ok p p') : Tuned p' := by
  have hlinked := h.linked.move hm
  have hcancel := h.cancel
  have hexpire : ∀ {i}, p.current i = false → Tuned (p.discard i) := h.expire
  have hgiveUp := @Tuned.giveUp p
  have hnopending := h.no_pending
  have htuned := h
  obtain ⟨a, ha, hsome⟩ := h.linked.active
  obtain ⟨hl, hactive, hpending, hswitching, hplain, hselected, hcandidate⟩ := h
  cases hm with
  | state i s hi hs =>
    exact htuned.congr hlinked rfl rfl rfl rfl rfl hcandidate fun j =>
      map_modify _ _ _ _ fun _ => rfl
  | drain b hb =>
    exact htuned.congr hlinked rfl rfl rfl rfl rfl hcandidate fun j =>
      map_modify _ _ _ _ fun _ => rfl
  | expire i hi => exact hexpire hi
  | giveUp r e hr hreason =>
    clear htuned hgiveUp hcancel hexpire hnopending
    refine ⟨hlinked, ?_, ?_, ?_, ?_, ?_, ?_⟩
    all_goals clear hlinked
    all_goals have hne := (hl.replacement r hr.1).1
    all_goals clear hl
    all_goals simp only [Playback.discard, Switches, Replaces, get_pop] at *
    all_goals grind
  | lose r e hr hok => exact absurd hok hlost
  | fail r e hr hdead =>
    -- without a pending track the replacement is healthy, and nothing fails
    refine hgiveUp htuned hr (fun hnone => ?_) hlinked
    obtain ⟨hfailed, hended⟩ := hhealthy hnone r e hr
    rcases hdead with hdead | ⟨hdead, hlive⟩
    · exact hfailed hdead
    · exact hlive ⟨hended hdead, hcandidate⟩
  | supersede r e hr hok => exact hgiveUp htuned hr (hok.resolve_right hdefault) hlinked
  | cancel failed hok => exact hcancel failed
  | add reason count hnone hreason =>
    have hfree := get_next p.epochs
    have hnopend : p.pendingAudioStreamIndex = none := hnopending fun r e hs => by
      have hno := hs.1.1.symm.trans hnone
      cases hno
    have hsel := hselected hnopend
    clear htuned hgiveUp hcancel hexpire hnopending
    refine ⟨hlinked, ?_, ?_, ?_, ?_, ?_, ?_⟩
    all_goals clear hlinked hl
    all_goals simp only [addReplacement, buildEpoch, Switches, Replaces, get_alloc] at *
    all_goals grind
  | prepare k count hnone =>
    have hfree := get_next p.epochs
    clear htuned hgiveUp hcancel hexpire hnopending
    refine ⟨hlinked, ?_, ?_, ?_, ?_, ?_, ?_⟩
    all_goals clear hlinked hl
    all_goals simp only [prepared, buildEpoch, Switches, Replaces, get_alloc] at *
    all_goals grind
  | refuse hnone =>
    have hno : ∀ r e, ¬ p.Replaces r e := fun r e hr => by
      have hno := hr.1.symm.trans hnone
      cases hno
    exact ⟨hlinked, hactive, (fun k hk => by cases hk), fun r e hs => absurd hs.1 (hno r e),
      fun r e hr => absurd hr (hno r e), fun _ => rfl, hcandidate⟩
  | invalid hno hp =>
    have hsel := hselected hp
    refine ⟨hlinked, hactive, (fun k hk => by cases hk), fun r e hs => absurd hs (hno r e), hplain,
      fun _ => ?_, (fun hc => by cases hc)⟩
    show (if p.activeAudioStreamIndex.isSome then p.activeAudioStreamIndex
      else p.selectedAudioStreamIndex) = p.activeAudioStreamIndex
    split
    · rfl
    · exact hsel
  | keep k hno hk =>
    exact ⟨hlinked, hactive, hpending, hswitching, hplain, fun _ => hk.symm, hcandidate⟩
  | promote r e hr hok =>
    have hne : a ≠ r := fun har => (hl.replacement r hr.1).1 (har ▸ ha)
    rw [promote_eq ha hne] at hlinked ⊢
    have hkept : ∀ {n e'}, ((p.markDraining a n).epochs.get r) = some e' → e' = e := by
      intro n e' he'
      obtain ⟨v, hv, rfl⟩ := get_modify_some he'
      rw [if_neg (Ne.symm hne)]
      exact Option.some.inj (hv.symm.trans hr.2)
    -- a switch makes the pending track the active one; with any other reason nothing is pending
    by_cases haudio : e.replacementReason = some .audioTrackSwitch
    · simp only [if_pos haudio] at hlinked ⊢
      refine ⟨hlinked, fun b e' hb he' => ?_, (fun k hk => by cases hk),
        (fun r' e' hs => by cases hs.1.1), (fun r' e' hs => by cases hs.1), fun _ => rfl,
        (fun hc => by cases hc)⟩
      cases Option.some.inj hb
      rw [hkept he']
    · simp only [if_neg haudio] at hlinked ⊢
      have hnone : p.pendingAudioStreamIndex = none := hnopending fun r' e' hs => by
        cases Option.some.inj (hr.1.symm.trans hs.1.1)
        rw [Option.some.inj (hr.2.symm.trans hs.1.2)] at haudio
        exact haudio hs.2
      refine ⟨hlinked, fun b e' hb he' => ?_, fun k hk => ?_, (fun r' e' hs => by cases hs.1.1),
        (fun r' e' hs => by cases hs.1), hselected, hcandidate⟩
      · cases Option.some.inj hb
        rw [hkept he']
        exact hplain r e hr haudio
      · have hsome := hnone.symm.trans hk
        cases hsome
  | promoteAdaptive r e hr hreason hok =>
    have hne : a ≠ r := fun har => (hl.replacement r hr.1).1 (har ▸ ha)
    rw [promoteAdaptive_eq ha hne] at hlinked ⊢
    have hnone : p.pendingAudioStreamIndex = none := hnopending fun r' e' hs => by
      cases Option.some.inj (hr.1.symm.trans hs.1.1)
      rw [Option.some.inj (hr.2.symm.trans hs.1.2)] at hreason
      exact hreason hs.2
    refine ⟨hlinked, fun b e' hb he' => ?_, fun k hk => ?_, (fun r' e' hs => by cases hs.1.1),
      (fun r' e' hs => by cases hs.1), hselected, hcandidate⟩
    · cases Option.some.inj hb
      obtain ⟨v, hv, rfl⟩ := get_modify_some he'
      obtain ⟨u, hu, rfl⟩ := get_modify_some hv
      rw [if_neg (Ne.symm hne), if_pos rfl]
      exact hplain r u ⟨hr.1, hu⟩ (Option.some.inj (hu.symm.trans hr.2) ▸ hreason)
    · have hsome := hnone.symm.trans hk
      cases hsome
  | ready r e hr =>
    have hsame : e.audioStreamIndex = p.pendingAudioStreamIndex := (hswitching r e hr).1
    exact htuned.congr hlinked rfl rfl rfl hsame rfl (fun hc => by cases hc)
      fun j => map_modify _ _ _ _ fun _ => rfl
  | wait r e hr =>
    exact ⟨hlinked, hactive, hpending, hswitching, hplain, hselected, (fun hc => by cases hc)⟩
  | first hzero => exact ⟨hlinked, hactive, hpending, hswitching, hplain, hselected, hcandidate⟩
  | finish hcommit => exact ⟨hlinked, hactive, hpending, hswitching, hplain, hselected, hcandidate⟩

/-- Moves keep what may fail from failing. -/
theorem Healthy.move (h : Healthy g p) (hl : Linked p) (hm : Move g ok p p') : Healthy g p' := by
  obtain ⟨a, ha, -⟩ := hl.active
  cases hm with
  | state i s hi hs =>
    intro hnone r e' hr
    obtain ⟨v, hv, rfl⟩ := get_modify_some hr.1.2
    split
    · exact ⟨hs.1, fun hended => absurd hended hs.2⟩
    · next hri =>
      rw [Switches, if_neg hri] at hr
      exact h hnone r v ⟨⟨hr.1.1, hv⟩, hr.2⟩
  | drain b hb =>
    intro hnone r e' hr
    obtain ⟨v, hv, rfl⟩ := get_modify_some hr.1.2
    split
    · exact ⟨(fun hc => by cases hc), (fun hc => by cases hc)⟩
    · next hrb =>
      rw [Switches, if_neg hrb] at hr
      exact h hnone r v ⟨⟨hr.1.1, hv⟩, hr.2⟩
  | expire i hi =>
    intro hnone r e' hr
    obtain ⟨⟨hid, hget⟩, hreason⟩ := hr
    rw [Playback.discard, get_pop] at hget
    split at hget
    · cases hget
    · rw [Playback.discard] at hid
      split at hid
      · cases hid
      · exact h hnone r e' ⟨⟨hid, hget⟩, hreason⟩
  | giveUp r e hr hreason => exact healthy_of_none (discard_replacement hr.1)
  | lose r e hr hok => exact healthy_of_none (discard_replacement hr.1.1)
  | fail r e hr hdead => exact healthy_of_none (discard_replacement hr.1.1)
  | supersede r e hr hok => exact healthy_of_none (discard_replacement hr.1.1)
  | cancel failed hok => exact healthy_of_none (Linked.cancel_ids p failed).2.1
  | add reason count hnone hreason =>
    intro _ r e' hr
    obtain ⟨⟨hid, hget⟩, hswitch⟩ := hr
    obtain rfl : p.epochs.next = r := Option.some.inj hid
    rw [addReplacement, get_alloc, if_pos rfl] at hget
    cases hget
    exact absurd (Option.some.inj hswitch) hreason
  | prepare k count hnone =>
    intro _ r e' hr
    obtain ⟨⟨hid, hget⟩, -⟩ := hr
    obtain rfl : p.epochs.next = r := Option.some.inj hid
    rw [prepared, get_alloc, if_pos rfl] at hget
    cases hget
    exact ⟨(fun hc => by cases hc), (fun hc => by cases hc)⟩
  | refuse hnone => exact h
  | invalid hno hp => exact h
  | keep k hno hk => exact h
  | promote r e hr hok =>
    have hne : a ≠ r := fun har => (hl.replacement r hr.1).1 (har ▸ ha)
    rw [promote_eq ha hne]
    exact healthy_of_none rfl
  | promoteAdaptive r e hr hreason hok =>
    have hne : a ≠ r := fun har => (hl.replacement r hr.1).1 (har ▸ ha)
    rw [promoteAdaptive_eq ha hne]
    exact healthy_of_none rfl
  | ready r e hr =>
    intro _ r' e' hr'
    obtain ⟨v, hv, rfl⟩ := get_modify_some hr'.1.2
    obtain rfl : r = r' := Option.some.inj (hr.1.1.symm.trans hr'.1.1)
    rw [if_pos rfl]
    exact ⟨(fun hc => by cases hc), (fun hc => by cases hc)⟩
  | wait r e hr => exact h
  | first hzero => exact h
  | finish hcommit => exact h

theorem Tuned.moves (h : Tuned p) (hhealthy : Healthy g p) (hlost : ¬ ok .lost)
    (hdefault : ¬ ok .defaultTrack) (hm : Moves g ok p p') : Tuned p' := by
  have hboth : Tuned p' ∧ Healthy g p' := by
    induction hm with
    | refl => exact ⟨h, hhealthy⟩
    | tail _ hlast ih => exact ⟨ih.1.move ih.2 hlost hdefault hlast, ih.2.move ih.1.linked hlast⟩
  exact hboth.1

end Moves

/-! ### Runs -/

/-- The operations after which a run keeps its tracks: an in-range seek meets no switch, one out of
the epoch none while the default track is active, and no refresh finds a switch that fails while the
default track is active. -/
def Attuned (p : Playback) : Operation → Prop
  | .seek _ inEpoch => (∀ r e, ¬ p.Switches r e) ∨
      inEpoch = false ∧ p.activeAudioStreamIndex ≠ none
  | .select g _ _ => Healthy g p
  | .commit g => Healthy g p
  | .cancel _ => True
  | .refresh g => Healthy g p
  | .downshift => True
  | .cleanup _ => True
  | .worker _ _ => True

/-- The faults that the tracks bear. -/
def Fault.Inaudible (fault : Fault) : Prop := fault = .refused ∨ fault = .orphan

section Runs

variable {cap : ℕ} {p : Playback}

theorem tuned_new (selected : Option ℕ) : Tuned (.new selected) where
  linked := .new selected
  active := by
    intro a e ha he
    obtain rfl : 0 = a := Option.some.inj ha
    cases he
    rfl
  pending := fun k hk => by cases hk
  switching := fun r e hs => by cases hs.1.1
  plain := fun r e hr => by cases hr.1
  selected := fun _ => rfl
  candidate := fun hc => by cases hc

/-- One operation. -/
theorem Tuned.run (h : Tuned p) {operation : Operation} (hattuned : Attuned p operation) :
    Tuned (p.run cap operation) := by
  have hlost : ¬ Fault.Inaudible .lost := by rintro (hc | hc) <;> cases hc
  have hdefault : ¬ Fault.Inaudible .defaultTrack := by rintro (hc | hc) <;> cases hc
  have hrefused : ∀ {g : Gates}, g.promotionGuard = true ∨ Fault.Inaudible .refused :=
    Or.inr (Or.inl rfl)
  cases operation with
  | seek g inEpoch =>
    have hhealthy : Healthy g p := by
      rcases hattuned with hno | ⟨-, htrack⟩
      · exact fun _ r e hs => absurd hs (hno r e)
      · exact fun hnone => absurd hnone htrack
    refine h.moves hhealthy hlost hdefault
      (seek_moves hrefused h.linked (fun hin => ?_) fun hout => ?_)
    · rcases hattuned with hno | ⟨hout, -⟩
      · exact Or.inl hno
      · rw [hin] at hout
        cases hout
    · rcases hattuned with hno | ⟨-, htrack⟩
      · exact Or.inl hno
      · exact Or.inr (Or.inl htrack)
  | select g k trusted =>
    exact h.moves hattuned hlost hdefault (select_moves hrefused h.linked k trusted)
  | commit g => exact h.moves hattuned hlost hdefault (commit_moves hrefused h.linked)
  | cancel g =>
    -- the cancelled switch cannot fail any more
    have hhealthy : Healthy g (p.cancelCandidate false) :=
      healthy_of_none (Linked.cancel_ids p false).2.1
    exact (h.cancel false).moves hhealthy hlost hdefault (refresh_moves hrefused)
  | refresh g => exact h.moves hattuned hlost hdefault (refresh_moves hrefused)
  | downshift =>
    by_cases hnone : p.replacementEpochId = none
    · exact h.moves (healthy_of_none hnone : Healthy quietGates p) hlost hdefault
        (createAdaptive_moves (by decide))
    · have hsome : p.replacementEpochId.isSome = true := Option.isSome_iff_ne_none.2 hnone
      rw [Playback.run, createAdaptive, if_pos hsome]
      exact h
  | cleanup g => exact cleanup_invariant h fun _ _ hq hi => hq.expire hi
  | worker i state =>
    simp only [Playback.run]
    split
    · exact h.congr (h.linked.setState i state) rfl rfl rfl rfl rfl h.candidate
        fun j => map_modify _ _ _ _ fun _ => rfl
    · exact h

/-- In a run of attuned operations from a fresh session: the active epoch plays the active track, a
pending track is that of the replacement, which is one for a switch, and where none is pending the
selected track is the active one. -/
theorem audio_tracks (cap : ℕ) (selected : Option ℕ) (p : Playback)
    (hrun : Runs.Reach (Playback.step cap) Attuned (.new selected) p) :
    (∃ a e, p.activeEpochId = some a ∧ p.epochs.get a = some e ∧
      e.audioStreamIndex = p.activeAudioStreamIndex) ∧
    (∀ k, p.pendingAudioStreamIndex = some k →
      ∃ r e, p.Switches r e ∧ e.audioStreamIndex = some k) ∧
    (p.pendingAudioStreamIndex = none →
      p.selectedAudioStreamIndex = p.activeAudioStreamIndex) := by
  have h : Tuned p := by
    refine Runs.Reach.invariant (P := Tuned) (tuned_new selected) ?_ hrun
    intro q operation q' _ hq hattuned hstep
    cases Option.some.inj hstep
    exact hq.run hattuned
  obtain ⟨a, ha, hsome⟩ := h.linked.active
  obtain ⟨e, he⟩ := Option.ne_none_iff_exists'.1 hsome
  exact ⟨⟨a, e, ha, he, h.active a e ha he⟩, h.pending, h.selected⟩

/-- A switch is prepared while the track 0 plays, and a seek out of the epoch gives it up. -/
theorem audio_tracks_seek : ∃ p : Playback,
    Runs.Reach (Playback.step 8) Attuned (.new (some 0)) p ∧ p.pendingAudioStreamIndex = none ∧
      p.selectedAudioStreamIndex = p.activeAudioStreamIndex := by
  have hselect : Runs.Reach (Playback.step 8) Attuned (.new (some 0)) _ :=
    .next (a := .select quietGates 1 true) .start (fun hnone => by cases hnone) rfl
  have hseek : Runs.Reach (Playback.step 8) Attuned (.new (some 0)) _ :=
    .next (a := .seek quietGates false) hselect (Or.inr ⟨rfl, fun hnone => by cases hnone⟩) rfl
  exact ⟨_, hseek, rfl, (audio_tracks 8 (some 0) _ hseek).2.2 rfl⟩

/-- An in-range seek leaves the track pending without a replacement; one out of the epoch leaves it
selected, and the new active epoch plays it. -/
theorem tracks_drift :
    (∃ p : Playback, Runs.Reach (Playback.step 8) (fun _ _ => True) (.new none) p ∧
      p.pendingAudioStreamIndex = some 1 ∧ p.replacementEpochId = none) ∧
    ∃ p : Playback, Runs.Reach (Playback.step 8) (fun _ _ => True) (.new none) p ∧
      ∃ a e, p.activeEpochId = some a ∧ p.epochs.get a = some e ∧
        e.audioStreamIndex = some 1 ∧ p.activeAudioStreamIndex = none := by
  have hselect : Runs.Reach (Playback.step 8) (fun _ _ => True) (.new none) _ :=
    .next (a := .select quietGates 1 true) .start trivial rfl
  have hwithin : Runs.Reach (Playback.step 8) (fun _ _ => True) (.new none) _ :=
    .next (a := .seek quietGates true) hselect trivial rfl
  have hout : Runs.Reach (Playback.step 8) (fun _ _ => True) (.new none) _ :=
    .next (a := .seek { quietGates with replacementReady := true } false) hselect trivial rfl
  exact ⟨⟨_, hwithin, rfl, rfl⟩, _, hout, _, _, rfl, rfl, rfl, rfl⟩

end Runs

end EpochSwitches
