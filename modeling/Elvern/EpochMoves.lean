/-
The operations of a session as moves of its epochs.

A `Move` changes the epoch map, the two epoch ids and the audio indexes in one
of the ways in which the source does; each operation is a sequence of moves
(`Elvern/EpochBookkeeping.lean`).  Some moves go wrong; they are in the relation only where `ok`
allows their fault.

* `Linked` — the active epoch exists, the replacement is another epoch, and the
  candidate of an audio switch is the replacement or gone;
* `Linked.move` — every move keeps it, whatever faults are allowed.
-/
import Mathlib.Logic.Relation
import Mathlib.Tactic.Common
import Elvern.EpochSwitches

open Heaps Relation
open Route2 (EpochState)

namespace EpochSwitches

/-- What can go wrong in a move. -/
inductive Fault where
  /-- The guard refuses the attach revision of a promotion. -/
  | refused
  /-- A cancelled audio switch drops the id of a replacement made for another reason. -/
  | orphan
  /-- The replacement of an audio switch is discarded and the switch stays pending. -/
  | lost
  /-- An audio switch fails while the default track is active. -/
  | defaultTrack
  deriving DecidableEq

namespace Playback

/-- The epoch `e` under the id `r` is the replacement. -/
def Replaces (p : Playback) (r : ℕ) (e : Epoch) : Prop :=
  p.replacementEpochId = some r ∧ p.epochs.get r = some e

/-- The replacement of an audio switch. -/
def Switches (p : Playback) (r : ℕ) (e : Epoch) : Prop :=
  p.Replaces r e ∧ e.replacementReason = some .audioTrackSwitch

/-- A new replacement for the track `k`, the candidate of a switch. -/
def prepared (p : Playback) (k count : ℕ) : Playback :=
  { p with
    epochs := p.epochs.alloc
      { p.buildEpoch (some .audioTrackSwitch) with audioStreamIndex := some k }
    replacementEpochId := some p.epochs.next
    replacementEpochCount := count
    selectedAudioStreamIndex := some k
    pendingAudioStreamIndex := some k
    audioSwitchState := .candidatePreparing
    candidateEpochId := some p.epochs.next
    candidateStreamIndex := some k
    candidateState := .preparing }

end Playback

open Playback

/-- The moves of an operation with the gates `g`. -/
inductive Move (g : Gates) (ok : Fault → Prop) (p : Playback) : Playback → Prop
  | state (i : ℕ) (s : EpochState) (h : p.current i = true) (hs : s ≠ .failed ∧ s ≠ .ended) :
      Move g ok p (p.setState i s)
  | drain (a : ℕ) (h : p.activeEpochId = some a) : Move g ok p (p.markDraining a 0)
  | expire (i : ℕ) (h : p.current i = false) : Move g ok p (p.discard i)
  | giveUp (r : ℕ) (e : Epoch) (h : p.Replaces r e)
      (hr : e.replacementReason ≠ some .audioTrackSwitch) : Move g ok p (p.discard r)
  | lose (r : ℕ) (e : Epoch) (h : p.Switches r e) (hok : ok .lost) : Move g ok p (p.discard r)
  | fail (r : ℕ) (e : Epoch) (h : p.Switches r e)
      (hdead : e.state = .failed ∨ (e.state = .ended ∧
        ¬ (g.candidateExpired = true ∧ p.candidateState ≠ .committing))) :
      Move g ok p (p.setSwitchFailed.discard r)
  | supersede (r : ℕ) (e : Epoch) (h : p.Switches r e)
      (hok : p.activeAudioStreamIndex ≠ none ∨ ok .defaultTrack) :
      Move g ok p (p.setSwitchFailed.discard r)
  | cancel (failed : Bool) (hok : (∀ r e, p.Replaces r e → p.Switches r e) ∨ ok .orphan) :
      Move g ok p (p.cancelCandidate failed)
  | add (reason : Reason) (count : ℕ) (h : p.replacementEpochId = none)
      (hr : reason ≠ .audioTrackSwitch) :
      Move g ok p { p.addReplacement reason with replacementEpochCount := count }
  | prepare (k count : ℕ) (h : p.replacementEpochId = none) : Move g ok p (p.prepared k count)
  | refuse (h : p.replacementEpochId = none) :
      Move g ok p
        { p with
          selectedAudioStreamIndex := p.activeAudioStreamIndex
          pendingAudioStreamIndex := none
          audioSwitchState := .failed }
  | invalid (h : ∀ r e, ¬ p.Switches r e) (hp : p.pendingAudioStreamIndex = none) :
      Move g ok p p.setSwitchFailed
  | keep (k : ℕ) (h : ∀ r e, ¬ p.Switches r e) (ha : p.activeAudioStreamIndex = some k) :
      Move g ok p { p with selectedAudioStreamIndex := some k, audioSwitchState := .active }
  | promote (r : ℕ) (e : Epoch) (h : p.Replaces r e)
      (hok : g.promotionGuard = true ∨ ok .refused) : Move g ok p (p.promote g r e)
  | promoteAdaptive (r : ℕ) (e : Epoch) (h : p.Replaces r e)
      (hr : e.replacementReason ≠ some .audioTrackSwitch)
      (hok : g.promotionGuard = true ∨ ok .refused) : Move g ok p (p.promoteAdaptive g r)
  | ready (r : ℕ) (e : Epoch) (h : p.Switches r e) : Move g ok p (p.readyCandidate r e)
  | wait (r : ℕ) (e : Epoch) (h : p.Switches r e) :
      Move g ok p { p with audioSwitchState := .candidatePreparing, candidateState := .preparing }
  | first (h : p.attachRevision = 0) : Move g ok p { p with attachRevision := 1 }
  | finish (h : p.audioSwitchState = .committing) :
      Move g ok p { p with audioSwitchState := .active }

/-- How the ids of a playback belong together. -/
structure Linked (p : Playback) : Prop where
  active : ∃ a, p.activeEpochId = some a ∧ p.epochs.get a ≠ none
  replacement : ∀ r, p.replacementEpochId = some r →
    p.activeEpochId ≠ some r ∧ p.epochs.get r ≠ none
  switching : ∀ r e, p.Switches r e → p.candidateEpochId = some r ∧
    (p.audioSwitchState = .candidatePreparing ∨ p.audioSwitchState = .candidateReady)
  candidate : ∀ i, p.candidateEpochId = some i → i < p.epochs.next ∧
    p.activeEpochId ≠ some i ∧ ∀ e, p.epochs.get i = some e → p.Switches i e
  committing : p.audioSwitchState = .committing →
    p.pendingAudioStreamIndex = none ∧ p.candidateEpochId = none

theorem get_modify {ν : Type} (h : Heap ν) (i j : ℕ) (f : ν → ν) :
    (h.modify i f).get j = if j = i then (h.get j).map f else h.get j := rfl

theorem get_pop {ν : Type} (h : Heap ν) (i j : ℕ) :
    (h.pop i).get j = if j = i then none else h.get j := rfl

theorem get_alloc {ν : Type} (h : Heap ν) (v : ν) (j : ℕ) :
    (h.alloc v).get j = if j = h.next then some v else h.get j := rfl

theorem next_alloc {ν : Type} (h : Heap ν) (v : ν) : (h.alloc v).next = h.next + 1 :=
  max_eq_right (Nat.le_succ _)

theorem get_next {ν : Type} (h : Heap ν) : h.get h.next = none := h.unused _ (Nat.le_refl _)

namespace Playback

variable {p : Playback} {g : Gates}

theorem replaces_of_match {r : ℕ} {e : Epoch} (hr : p.replacementEpochId = some r)
    (he : p.replacementEpoch = some e) : p.Replaces r e := by
  rw [replacementEpoch, hr] at he
  exact ⟨hr, he⟩

/-- The candidate that is found is the replacement of the switch. -/
theorem switches_of_candidateEpoch {i : ℕ} (h : p.candidateEpoch = some i) :
    ∃ e, p.Switches i e := by
  unfold candidateEpoch at h
  split at h
  · cases h
  split at h
  · cases h
  next e he =>
    split at h
    · cases h
    next hreason =>
      split at h
      · cases h
      next hrep =>
        cases h
        exact ⟨e, ⟨not_not.1 hrep, he⟩, not_not.1 hreason⟩

/-- A promotion away from another epoch. -/
theorem promote_eq {a r : ℕ} {e : Epoch} (ha : p.activeEpochId = some a) (hne : a ≠ r) :
    p.promote g r e =
      { (if e.replacementReason = some .audioTrackSwitch then
          { p.clearCandidate with
            activeAudioStreamIndex := e.audioStreamIndex
            selectedAudioStreamIndex := e.audioStreamIndex
            pendingAudioStreamIndex := none
            audioSwitchState := .committing }
        else p) with
        epochs := (p.markDraining a (p.attachRevision + 1)).epochs
        activeEpochId := some r
        replacementEpochId := none
        attachRevision := if g.promotionGuard then p.attachRevision + 1 else p.attachRevision
        switches := p.switches ++ [⟨p.attachRevision,
          if g.promotionGuard then p.attachRevision + 1 else p.attachRevision,
          (p.epochs.get a).map fun e =>
              max e.drainTargetAttachRevision (p.attachRevision + 1)⟩] } := by
  have hmax : max 1 (p.attachRevision + 1) = p.attachRevision + 1 :=
    max_eq_right (Nat.le_add_left ..)
  have hget : ((p.markDraining a (p.attachRevision + 1)).epochs.get a).map
      Epoch.drainTargetAttachRevision =
        (p.epochs.get a).map fun e => max e.drainTargetAttachRevision (p.attachRevision + 1) := by
    rw [markDraining, Heap.get_modify_self, Option.map_map]
    rfl
  rw [← hget, promote, ha]
  simp only [ne_eq, hne, not_false_eq_true, if_true, hmax]
  split_ifs <;> simp_all [issueAttachRevision, noteSwitch, clearCandidate, markDraining]

/-- A promotion of an adaptive replacement. -/
theorem promoteAdaptive_eq {a r : ℕ} (ha : p.activeEpochId = some a) (hne : a ≠ r) :
    p.promoteAdaptive g r =
      { p with
        epochs := ((p.setState r .attachReady).markDraining a
          (if g.promotionGuard then p.attachRevision + 1 else p.attachRevision)).epochs
        activeEpochId := some r
        replacementEpochId := none
        attachRevision := if g.promotionGuard then p.attachRevision + 1 else p.attachRevision
        switches := p.switches ++ [⟨p.attachRevision,
          if g.promotionGuard then p.attachRevision + 1 else p.attachRevision,
          (p.epochs.get a).map fun e => max e.drainTargetAttachRevision
            (if g.promotionGuard then p.attachRevision + 1 else p.attachRevision)⟩] } := by
  have hmax : max 1 (p.attachRevision + 1) = p.attachRevision + 1 :=
    max_eq_right (Nat.le_add_left ..)
  have hget : ∀ n, (((p.setState r .attachReady).markDraining a n).epochs.get a).map
      Epoch.drainTargetAttachRevision =
        (p.epochs.get a).map fun e => max e.drainTargetAttachRevision n := by
    intro n
    rw [markDraining, Heap.get_modify_self, setState, Heap.get_modify_ne hne, Option.map_map]
    rfl
  rw [← hget, promoteAdaptive, ha, if_neg (by simpa using hne)]
  simp only [hmax]
  cases g.promotionGuard <;>
    simp [issueAttachRevision, noteSwitch, markDraining, setState]

end Playback

namespace Linked

variable {p p' : Playback} {g : Gates} {ok : Fault → Prop}

theorem new (selected : Option ℕ) : Linked (.new selected) where
  active := ⟨0, rfl, Option.some_ne_none _⟩
  replacement _ h := by cases h
  switching _ _ h := by cases h.1.1
  candidate _ h := by cases h
  committing h := by cases h

/-- Only the ids and the reasons of the epochs matter. -/
theorem congr (h : Linked p) (hactive : p'.activeEpochId = p.activeEpochId)
    (hreplacement : p'.replacementEpochId = p.replacementEpochId)
    (hcandidate : p'.candidateEpochId = p.candidateEpochId)
    (hstate : p'.audioSwitchState = p.audioSwitchState)
    (hpending : p'.pendingAudioStreamIndex = p.pendingAudioStreamIndex)
    (hnext : p'.epochs.next = p.epochs.next)
    (hreason : ∀ i, (p'.epochs.get i).map Epoch.replacementReason =
      (p.epochs.get i).map Epoch.replacementReason) : Linked p' := by
  have hnone : ∀ i, p'.epochs.get i = none ↔ p.epochs.get i = none := by
    intro i
    rw [← Option.map_eq_none_iff (f := Epoch.replacementReason), hreason, Option.map_eq_none_iff]
  have hsome : ∀ i e', p'.epochs.get i = some e' → ∃ e, p.epochs.get i = some e ∧
      e.replacementReason = e'.replacementReason := by
    intro i e' he'
    have hi := hreason i
    rw [he', Option.map_some] at hi
    exact Option.map_eq_some_iff.1 hi.symm
  have hswitch : ∀ i e', p'.Switches i e' → ∃ e, p.Switches i e := by
    rintro i e' ⟨⟨hr, he'⟩, hreason'⟩
    obtain ⟨e, he, heq⟩ := hsome i e' he'
    exact ⟨e, ⟨hreplacement ▸ hr, he⟩, heq.trans hreason'⟩
  obtain ⟨a, ha, hget⟩ := h.active
  refine ⟨⟨a, hactive.trans ha, fun hn => hget ((hnone a).1 hn)⟩, fun r hr => ?_, fun r e' hr => ?_,
    fun i hi => ?_, fun hc => ?_⟩
  · obtain ⟨hne, hget⟩ := h.replacement r (hreplacement ▸ hr)
    exact ⟨hactive ▸ hne, fun hn => hget ((hnone r).1 hn)⟩
  · obtain ⟨e, hsw⟩ := hswitch r e' hr
    rw [hcandidate, hstate]
    exact h.switching r e hsw
  · obtain ⟨hlt, hne, hsw⟩ := h.candidate i (hcandidate ▸ hi)
    refine ⟨hnext ▸ hlt, hactive ▸ hne, fun e' he' => ?_⟩
    obtain ⟨e, he, heq⟩ := hsome i e' he'
    exact ⟨⟨hreplacement.trans (hsw e he).1.1, he'⟩, heq ▸ (hsw e he).2⟩
  · rw [hpending, hcandidate]
    exact h.committing (hstate ▸ hc)

theorem setState (h : Linked p) (i : ℕ) (s : EpochState) : Linked (p.setState i s) := by
  refine h.congr rfl rfl rfl rfl rfl rfl fun j => ?_
  rw [Playback.setState, get_modify]
  split
  · rw [Option.map_map]
    rfl
  · rfl

theorem markDraining (h : Linked p) (i n : ℕ) : Linked (p.markDraining i n) := by
  refine h.congr rfl rfl rfl rfl rfl rfl fun j => ?_
  rw [Playback.markDraining, get_modify]
  split
  · rw [Option.map_map]
    rfl
  · rfl

/-- The replacement takes over. -/
theorem takeOver {r : ℕ} {e : Epoch} (h : Linked p) (hr : p.Replaces r e)
    (hactive : p'.activeEpochId = some r) (hreplacement : p'.replacementEpochId = none)
    (hnext : p'.epochs.next = p.epochs.next)
    (hget : ∀ i, p'.epochs.get i = none ↔ p.epochs.get i = none)
    (hcandidate : p'.candidateEpochId = none ∨ (p'.candidateEpochId = p.candidateEpochId ∧
      e.replacementReason ≠ some .audioTrackSwitch))
    (hcommitting : p'.audioSwitchState = .committing →
      p'.pendingAudioStreamIndex = none ∧ p'.candidateEpochId = none) : Linked p' := by
  have hsome : p.epochs.get r ≠ none := by
    rw [hr.2]
    exact Option.some_ne_none _
  refine ⟨⟨r, hactive, fun hn => hsome ((hget r).1 hn)⟩, fun j hj => ?_, fun j e' hj => ?_,
    fun i hi => ?_, hcommitting⟩
  · rw [hreplacement] at hj
    cases hj
  · have hnone := hj.1.1.symm.trans hreplacement
    cases hnone
  · rcases hcandidate with hc | ⟨hc, hplain⟩
    · rw [hc] at hi
      cases hi
    · -- an old candidate is gone: the replacement is no candidate
      obtain ⟨hlt, hne, hsw⟩ := h.candidate i (hc ▸ hi)
      have hgone : p.epochs.get i = none := by
        by_contra hn
        obtain ⟨e', he'⟩ := Option.ne_none_iff_exists'.1 hn
        have hir : r = i := Option.some.inj (hr.1.symm.trans (hsw e' he').1.1)
        subst hir
        exact hplain (hsw e hr.2).2
      refine ⟨hnext ▸ hlt, fun hi' => ?_, fun e' he' => ?_⟩
      · rw [hactive] at hi'
        cases hi'
        exact hsome hgone
      · rw [(hget i).2 hgone] at he'
        cases he'

theorem setState_get_none {i j : ℕ} {s : EpochState} :
    (p.setState i s).epochs.get j = none ↔ p.epochs.get j = none := by
  rw [Playback.setState, get_modify]
  split
  · exact Option.map_eq_none_iff
  · exact Iff.rfl

theorem markDraining_get_none {i j n : ℕ} :
    (p.markDraining i n).epochs.get j = none ↔ p.epochs.get j = none := by
  rw [Playback.markDraining, get_modify]
  split
  · exact Option.map_eq_none_iff
  · exact Iff.rfl

/-- A cancelled switch: the candidate is discarded, whether it is the replacement or
gone already. -/
theorem cancel_get (h : Linked p) (failed : Bool) (j : ℕ) :
    (p.cancelCandidate failed).epochs.get j =
      if p.candidateEpochId = some j then none else p.epochs.get j := by
  unfold cancelCandidate
  cases hc : p.candidateEpoch with
  | some i =>
      have hi : p.candidateEpochId = some i := by
        obtain ⟨e, hsw⟩ := switches_of_candidateEpoch hc
        exact (h.switching i e hsw).1
      simp [hi, Playback.discard, clearCandidate, get_pop, eq_comm]
  | none =>
      cases hi : p.candidateEpochId with
      | some i => simp [Playback.discard, clearCandidate, get_pop, eq_comm]
      | none => simp [clearCandidate]

/-- What else a cancelled switch leaves. -/
theorem cancel_ids (p : Playback) (failed : Bool) :
    (p.cancelCandidate failed).activeEpochId = p.activeEpochId ∧
      (p.cancelCandidate failed).replacementEpochId = none ∧
      (p.cancelCandidate failed).candidateEpochId = none ∧
      (p.cancelCandidate failed).audioSwitchState = (if failed then .failed else .active) ∧
      (p.cancelCandidate failed).pendingAudioStreamIndex = none ∧
      (p.cancelCandidate failed).activeAudioStreamIndex = p.activeAudioStreamIndex ∧
      (p.cancelCandidate failed).selectedAudioStreamIndex = p.activeAudioStreamIndex ∧
      (p.cancelCandidate failed).attachRevision = p.attachRevision ∧
      (p.cancelCandidate failed).switches = p.switches := by
  unfold cancelCandidate
  cases p.candidateEpoch with
  | some i => exact ⟨rfl, rfl, rfl, rfl, rfl, rfl, rfl, rfl, rfl⟩
  | none =>
      cases p.candidateEpochId with
      | some i => exact ⟨rfl, rfl, rfl, rfl, rfl, rfl, rfl, rfl, rfl⟩
      | none => exact ⟨rfl, rfl, rfl, rfl, rfl, rfl, rfl, rfl, rfl⟩

/-- Every move keeps the ids together. -/
theorem move (h : Linked p) (hm : Move g ok p p') : Linked p' := by
  obtain ⟨a, ha, he⟩ := h.active
  have hfresh := get_next p.epochs
  cases hm with
  | state i s hi hs => exact h.setState i s
  | drain b hb => exact h.markDraining b 0
  | expire i hi =>
    obtain ⟨-, hrep, hsw, hcand, hcom⟩ := h
    refine ⟨?_, ?_, ?_, ?_, ?_⟩
    all_goals simp only [Playback.discard, Playback.current, Switches, Replaces, get_pop] at *
    all_goals grind [Heap.pop]
  | giveUp r e hr hreason =>
    obtain ⟨-, hrep, hsw, hcand, hcom⟩ := h
    refine ⟨?_, ?_, ?_, ?_, ?_⟩
    all_goals simp only [Playback.discard, Switches, Replaces, get_pop] at *
    all_goals grind [Heap.pop]
  | lose r e hr hok =>
    obtain ⟨-, hrep, hsw, hcand, hcom⟩ := h
    refine ⟨?_, ?_, ?_, ?_, ?_⟩
    all_goals simp only [Playback.discard, Switches, Replaces, get_pop] at *
    all_goals grind [Heap.pop]
  | fail r e hr hdead =>
    obtain ⟨-, hrep, hsw, hcand, hcom⟩ := h
    refine ⟨?_, ?_, ?_, ?_, ?_⟩
    all_goals
      simp only [Playback.discard, setSwitchFailed, clearCandidate, Switches,
        Replaces, get_pop] at *
    all_goals grind [Heap.pop]
  | supersede r e hr hok =>
    obtain ⟨-, hrep, hsw, hcand, hcom⟩ := h
    refine ⟨?_, ?_, ?_, ?_, ?_⟩
    all_goals
      simp only [Playback.discard, setSwitchFailed, clearCandidate, Switches,
        Replaces, get_pop] at *
    all_goals grind [Heap.pop]
  | cancel failed hok =>
    obtain ⟨hactive, hreplacement, hcandidate, hstate, -⟩ := cancel_ids p failed
    refine ⟨⟨a, hactive.trans ha, ?_⟩, fun r hr => ?_, fun r e hr => ?_, fun i hi => ?_,
      fun hc => ?_⟩
    · -- the active epoch is not the candidate, and so it stays
      rw [h.cancel_get, if_neg fun hc => (h.candidate a hc).2.1 ha]
      exact he
    · rw [hreplacement] at hr
      cases hr
    · have hnone := hr.1.1.symm.trans hreplacement
      cases hnone
    · rw [hcandidate] at hi
      cases hi
    · rw [hstate] at hc
      cases failed <;> cases hc
  | add reason count hnone hreason =>
    obtain ⟨-, hrep, hsw, hcand, hcom⟩ := h
    refine ⟨?_, ?_, ?_, ?_, ?_⟩
    all_goals simp only [addReplacement, buildEpoch, Switches, Replaces, get_alloc, next_alloc] at *
    all_goals grind
  | prepare k count hnone =>
    obtain ⟨-, hrep, hsw, hcand, hcom⟩ := h
    refine ⟨?_, ?_, ?_, ?_, ?_⟩
    all_goals simp only [prepared, buildEpoch, Switches, Replaces, get_alloc, next_alloc] at *
    all_goals grind
  | refuse hnone =>
    obtain ⟨-, hrep, hsw, hcand, hcom⟩ := h
    refine ⟨?_, ?_, ?_, ?_, ?_⟩ <;> simp only [Switches, Replaces] at * <;> grind
  | invalid hno hp =>
    obtain ⟨-, hrep, hsw, hcand, hcom⟩ := h
    refine ⟨?_, ?_, ?_, ?_, ?_⟩
    all_goals simp only [setSwitchFailed, clearCandidate, Switches, Replaces] at *
    all_goals grind
  | keep k hno hk =>
    obtain ⟨-, hrep, hsw, hcand, hcom⟩ := h
    refine ⟨?_, ?_, ?_, ?_, ?_⟩ <;> simp only [Switches, Replaces] at * <;> grind
  | promote r e hr hok =>
    -- the replacement takes over from another epoch
    have hne : a ≠ r := fun har => (h.replacement r hr.1).1 (har ▸ ha)
    rw [promote_eq ha hne]
    refine h.takeOver hr rfl rfl ?_ (fun i => markDraining_get_none) ?_ ?_
    · split <;> rfl
    · split
      · exact Or.inl rfl
      · next hreason => exact Or.inr ⟨rfl, hreason⟩
    · split
      · exact fun _ => ⟨rfl, rfl⟩
      · exact h.committing
  | promoteAdaptive r e hr hreason hok =>
    have hne : a ≠ r := fun har => (h.replacement r hr.1).1 (har ▸ ha)
    rw [promoteAdaptive_eq ha hne]
    refine h.takeOver hr rfl rfl rfl (fun i => ?_) (Or.inr ⟨rfl, hreason⟩) h.committing
    exact markDraining_get_none.trans setState_get_none
  | ready r e hr =>
    have hs := h.setState r .attachReady
    obtain ⟨-, hrep, hsw, hcand, hcom⟩ := hs
    have hc : (p.setState r .attachReady).candidateEpochId = some r := (h.switching r e hr).1
    refine ⟨⟨a, ha, fun hn => he (setState_get_none.1 hn)⟩, hrep, fun r' e' hr' => ?_,
      fun i hi => hcand i (hc.trans hi), fun hno => by cases hno⟩
    exact ⟨hc.symm.trans (hsw r' e' hr').1, Or.inr rfl⟩
  | wait r e hr =>
    obtain ⟨-, hrep, hsw, hcand, hcom⟩ := h
    refine ⟨?_, ?_, ?_, ?_, ?_⟩ <;> simp only [Switches, Replaces] at * <;> grind
  | first hzero => exact h.congr rfl rfl rfl rfl rfl rfl fun _ => rfl
  | finish hcommit =>
    obtain ⟨-, hrep, hsw, hcand, hcom⟩ := h
    refine ⟨?_, ?_, ?_, ?_, ?_⟩ <;> simp only [Switches, Replaces] at * <;> grind

end Linked

/-! ### The operations -/

/-- A sequence of moves. -/
abbrev Moves (g : Gates) (ok : Fault → Prop) : Playback → Playback → Prop :=
  ReflTransGen (Move g ok)

theorem Linked.moves {g : Gates} {ok : Fault → Prop} {p p' : Playback} (h : Linked p)
    (hm : Moves g ok p p') : Linked p' := by
  induction hm with
  | refl => exact h
  | tail _ hlast ih => exact ih.move hlast

/-- What belongs to a prepared epoch belongs to it from its allocation. -/
theorem modify_alloc {ν : Type} (h : Heap ν) (v : ν) (f : ν → ν) :
    (h.alloc v).modify h.next f = h.alloc (f v) := by
  have hget : ((h.alloc v).modify h.next f).get = (h.alloc (f v)).get := by
    funext j
    rw [get_modify, get_alloc, get_alloc]
    split <;> simp [*]
  cases hh : h.alloc (f v) with
  | mk get next unused =>
    rw [hh] at hget
    have hnext : (h.alloc (f v)).next = next := by rw [hh]
    subst hget hnext
    rfl

section Phases

variable {g : Gates} {ok : Fault → Prop} {p : Playback} {r : ℕ} {e : Epoch} {cap : ℕ}

theorem current_active {a : ℕ} (h : p.activeEpochId = some a) : p.current a = true := by
  simp [current, h]

theorem current_replacement (h : p.replacementEpochId = some r) : p.current r = true := by
  simp [current, h]

theorem discard_replacement (h : p.replacementEpochId = some r) :
    (p.discard r).replacementEpochId = none := if_pos h

/-- A cleanup discards epochs that are not current, one after the other. -/
theorem cleanup_invariant {P : Playback → Prop} (h : P p)
    (hdiscard : ∀ q i, P q → q.current i = false → P (q.discard i)) : P (p.cleanup g) := by
  rw [cleanup]
  generalize List.range p.epochs.next = is
  induction is generalizing p with
  | nil => exact h
  | cons i is ih =>
      rw [List.foldl_cons]
      refine ih ?_
      split
      next hcond =>
        rw [Bool.and_eq_true, Bool.and_eq_true, Bool.not_eq_true'] at hcond
        exact hdiscard p i h hcond.1.2
      next => exact h

theorem cleanup_moves : Moves g ok p (p.cleanup g) :=
  cleanup_invariant .refl fun _ i hq hi => hq.tail (.expire i hi)

theorem add_moves {reason : Reason} (hreason : reason ≠ .audioTrackSwitch)
    (h : p.replacementEpochId = none) : Moves g ok p (p.createReplacement cap reason) := by
  have hsame : p.supersede reason = p := by rw [supersede, h]
  rw [createReplacement, hsame]
  dsimp only
  split
  · exact .refl
  · exact .single (.add reason _ h hreason)

theorem createAdaptive_moves {reason : Reason} (hreason : reason ≠ .audioTrackSwitch) :
    Moves g ok p (p.createAdaptive reason) := by
  rw [createAdaptive]
  split
  · exact .refl
  · next h =>
    have hnone : p.replacementEpochId = none := by simpa using h
    exact .single (.add reason p.replacementEpochCount hnone hreason)

theorem wait_moves (h : p.Replaces r e) : Moves g ok p (p.waitReplacement g r e) := by
  have hr := current_replacement h.1
  rw [waitReplacement]
  split
  · exact .single (.state r _ hr (by decide))
  · split
    · exact .refl
    · exact .single (.state r _ hr (by decide))

theorem settleFailedReplacement_moves : Moves g ok p (p.settleFailedReplacement g).1 := by
  unfold settleFailedReplacement
  split
  next r e hr he =>
    have hrep := replaces_of_match hr he
    split
    next hfailed =>
      split
      next hreason =>
        rw [failSwitch, if_neg (not_not.2 hreason)]
        exact .single (.fail r e ⟨hrep, hreason⟩ (Or.inl hfailed))
      next hreason => exact .single (.giveUp r e hrep (by rw [hreason]; decide))
      next hreason => exact .single (.giveUp r e hrep (by rw [hreason]; decide))
      next hreason _ _ => exact .single (.giveUp r e hrep hreason)
    next => exact .refl
  next => exact .refl

theorem settleFailedActive_moves : Moves g ok p (p.settleFailedActive g cap).1 := by
  unfold settleFailedActive
  split
  next a e ha he =>
    split
    next =>
      have hdrain : Moves g ok p (p.markDraining a 0) := .single (.drain a ha)
      dsimp only
      split
      · exact hdrain
      · split
        · next hcond =>
          rw [Bool.and_eq_true, decide_eq_true_eq] at hcond
          exact hdrain.trans (add_moves (by decide) hcond.1)
        · exact hdrain
    next => exact .refl
  next => exact .refl

theorem retryDraining_moves : Moves g ok p (p.retryDraining g cap).1 := by
  rw [retryDraining]
  split
  · next hcond =>
    rw [Bool.and_eq_true, Bool.and_eq_true, decide_eq_true_eq] at hcond
    split
    · exact .refl
    · exact add_moves (by decide) hcond.1.1
  · exact .refl

theorem startAdaptive_moves : Moves g ok p (p.startAdaptive g) := by
  have hfirst : Moves g ok p (if p.activePlays && g.resupplyStarts then
      p.createAdaptive .adaptiveResupplyBoost else p) := by
    split
    · exact createAdaptive_moves (by decide)
    · exact .refl
  rw [startAdaptive]
  generalize (if p.activePlays && g.resupplyStarts then
    p.createAdaptive .adaptiveResupplyBoost else p) = q at hfirst ⊢
  split
  · exact hfirst.trans (createAdaptive_moves (by decide))
  · exact hfirst

variable (hguard : g.promotionGuard = true ∨ ok .refused)
include hguard

theorem settleAdaptive_moves {reason : Reason} (hreason : reason ≠ .audioTrackSwitch) :
    Moves g ok p (p.settleAdaptive g reason) := by
  unfold settleAdaptive
  split
  next r e hr he =>
    have hrep := replaces_of_match hr he
    split
    next her =>
      have hplain : e.replacementReason ≠ some .audioTrackSwitch := by
        rw [her]
        exact fun hs => hreason (Option.some.inj hs)
      split
      · exact .single (.giveUp r e hrep hplain)
      · split
        · split
          · exact .single (.state r _ (current_replacement hr) (by decide))
          · exact .single (.promoteAdaptive r e hrep hplain hguard)
        · exact wait_moves hrep
    next => exact .refl
  next => exact .refl

theorem settleCandidate_moves (h : p.Switches r e) :
    Moves g ok p (p.settleCandidate g r e) := by
  rw [settleCandidate]
  split
  · refine .single (.cancel true (Or.inl fun r' e' h' => ?_))
    have hr : r = r' := Option.some.inj (h.1.1.symm.trans h'.1)
    subst hr
    have he : e = e' := Option.some.inj (h.1.2.symm.trans h'.2)
    subst he
    exact h
  · next hlive =>
    split
    · next hended =>
      rw [failSwitch, if_neg (not_not.2 h.2)]
      exact .single (.fail r e h (Or.inr ⟨hended, hlive⟩))
    · split
      · split
        · exact .single (.promote r e h.1 hguard)
        · exact .single (.ready r e h)
      · -- the epoch keeps its reason while it is waited for
        have hkept : ∃ e', (p.waitReplacement g r e).Switches r e' := by
          have hset : ∀ s, ∃ e', (p.setState r s).Switches r e' := by
            intro s
            refine ⟨{ e with state := s }, ⟨h.1.1, ?_⟩, h.2⟩
            rw [Playback.setState, Heap.get_modify_self, h.1.2]
            rfl
          rw [waitReplacement]
          split
          · exact hset _
          · split
            · exact ⟨e, h⟩
            · exact hset _
        obtain ⟨e', he'⟩ := hkept
        exact (wait_moves h.1).tail (.wait r e' he')

theorem settleReplacement_moves : Moves g ok p (p.settleReplacement g) := by
  unfold settleReplacement
  split
  next r e hr he =>
    have hrep := replaces_of_match hr he
    have hplain : Moves g ok p (p.settlePlain g r e) := by
      rw [settlePlain]
      split
      · exact .single (.promote r e hrep hguard)
      · exact wait_moves hrep
    split
    next => exact .refl
    next => exact .refl
    next hreason => exact settleCandidate_moves hguard ⟨hrep, hreason⟩
    next => exact hplain
  next => exact .refl

omit hguard

theorem ensureWorker_moves {i : Option ℕ} (h : ∀ j, i = some j → p.current j = true) :
    Moves g ok p (p.ensureWorker g i) := by
  unfold ensureWorker
  split
  next => exact .refl
  next j =>
    split
    next => exact .refl
    next => exact .single (.state j _ (h j rfl) (by decide))
    next => exact .single (.state j _ (h j rfl) (by decide))

theorem ensureWorkers_moves : Moves g ok p (p.ensureWorkers g) := by
  have hids : ∀ j, (p.ensureWorker g p.activeEpochId).current j = p.current j := by
    intro j
    unfold ensureWorker
    split
    · rfl
    · split <;> rfl
  refine (ensureWorker_moves fun j hj => current_active hj).trans
    (ensureWorker_moves fun j hj => ?_)
  rw [hids]
  exact current_replacement hj

theorem settleActive_moves : Moves g ok p (p.settleActive g) := by
  unfold settleActive
  split
  next a e ha he =>
    split
    · exact ensureWorkers_moves
    · dsimp only
      have hfirst : ∀ b : Bool, Moves g ok p
          (if b && p.attachRevision = 0 then p.issueAttachRevision 1 g.firstGuard else p) ∧
          (if b && p.attachRevision = 0 then p.issueAttachRevision 1 g.firstGuard
            else p).activeEpochId = some a := by
        intro b
        split
        · next hzero =>
          rw [Bool.and_eq_true, decide_eq_true_eq] at hzero
          rw [issueAttachRevision, if_neg (by omega)]
          split
          · exact ⟨.refl, ha⟩
          · exact ⟨.single (.first hzero.2), ha⟩
        · exact ⟨.refl, ha⟩
      obtain ⟨hissue, haissue⟩ := hfirst (g.activeReady && g.activeGuard)
      generalize (if (g.activeReady && g.activeGuard) && p.attachRevision = 0 then
        p.issueAttachRevision 1 g.firstGuard else p) = q at hissue haissue ⊢
      have hfinish : Moves g ok q (q.finishCommit g) ∧
          (q.finishCommit g).activeEpochId = some a := by
        rw [finishCommit]
        split
        · next hcommit => exact ⟨.single (.finish hcommit.1), haissue⟩
        · exact ⟨.refl, haissue⟩
      obtain ⟨hfin, hafin⟩ := hfinish
      generalize q.finishCommit g = q' at hfin hafin ⊢
      have hcurrent := current_active hafin
      refine (hissue.trans hfin).trans (ReflTransGen.trans ?_ ensureWorkers_moves)
      split
      · rw [settleReadyActive]
        split
        · cases g.clientCaughtUp with
          | true => exact .single (.state a _ hcurrent (by decide))
          | false => exact .single (.state a _ hcurrent (by decide))
        · exact .refl
      · rw [settleUnreadyActive]
        split
        · exact .single (.state a _ hcurrent (by decide))
        · split
          · exact .refl
          · exact .single (.state a _ hcurrent (by decide))
  next => exact .refl

include hguard

theorem refresh_moves : Moves g ok p (p.refresh g cap) := by
  rw [refresh]
  dsimp only
  have hclean : Moves g ok p (p.cleanup g) := cleanup_moves
  split
  · exact hclean
  · have h₁ : Moves g ok p _ := hclean.trans settleFailedReplacement_moves
    split
    · exact h₁
    · have h₂ : Moves g ok p (settleFailedActive _ g cap).1 := h₁.trans settleFailedActive_moves
      split
      · exact h₂
      · have h₃ : Moves g ok p (retryDraining _ g cap).1 := h₂.trans retryDraining_moves
        split
        · exact h₃
        · rw [settle]
          exact ((((h₃.trans startAdaptive_moves).trans
            (settleAdaptive_moves hguard (by decide))).trans
            (settleAdaptive_moves hguard (by decide))).trans
            (settleReplacement_moves hguard)).trans settleActive_moves

end Phases

end EpochSwitches
