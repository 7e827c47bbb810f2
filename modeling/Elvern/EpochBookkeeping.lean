/-
The bookkeeping of the epochs over the runs of a session.

* `run_cases` — every operation but a worker's is a sequence of moves;
* `Drained` — epochs that are neither active nor the replacement drain, and every change of the
  active epoch has issued the revision that the epoch left behind waits for;
* `epoch_bookkeeping` — it holds in every run in which no guard refuses a promotion and a cancelled
  switch has no replacement of another kind;
* `books_unkept` — what happens elsewhere.
-/
import Elvern.EpochMoves
import Elvern.Runs

open Heaps Relation
open Route2 (EpochState)

namespace EpochSwitches

open Playback

/-! ### The operations as moves -/

section Operations

variable {g : Gates} {ok : Fault → Prop} {p : Playback} {cap : ℕ}

/-- The replacement is given up. -/
theorem supersede_moves (h : Linked p) {reason : Reason}
    (hswitch : (∀ r e, p.Switches r e → reason ≠ .audioTrackSwitch) ∧
      ((∀ r e, ¬ p.Switches r e) ∨ p.activeAudioStreamIndex ≠ none ∨ ok .defaultTrack)) :
    Moves g ok p (p.supersede reason) ∧ (p.supersede reason).replacementEpochId = none := by
  unfold supersede
  split
  next hnone => exact ⟨.refl, hnone⟩
  next r hr =>
    split
    next hget => exact absurd hget (h.replacement r hr).2
    next e he =>
      by_cases haudio : e.replacementReason = some .audioTrackSwitch
      · have hs : p.Switches r e := ⟨⟨hr, he⟩, haudio⟩
        rw [if_pos ⟨haudio, hswitch.1 r e hs⟩, failSwitch, if_neg (not_not.2 haudio)]
        have hdefault := hswitch.2.resolve_left fun hno => hno r e hs
        exact ⟨.single (.supersede r e hs hdefault), discard_replacement hr⟩
      · rw [if_neg fun hboth => haudio hboth.1]
        exact ⟨.single (.giveUp r e ⟨hr, he⟩ haudio), discard_replacement hr⟩

/-- Another epoch becomes the replacement. -/
theorem createReplacement_moves (h : Linked p) {reason : Reason}
    (hreason : reason ≠ .audioTrackSwitch)
    (hdefault : (∀ r e, ¬ p.Switches r e) ∨ p.activeAudioStreamIndex ≠ none ∨ ok .defaultTrack) :
    Moves g ok p (p.createReplacement cap reason) := by
  obtain ⟨hmoves, hnone⟩ := supersede_moves (g := g) h ⟨fun _ _ _ => hreason, hdefault⟩
  rw [createReplacement]
  dsimp only
  split
  · exact hmoves
  · exact hmoves.tail (.add reason _ hnone hreason)

/-- Where no switch is in progress, no switch has a replacement and none is pending. -/
theorem not_inProgress (h : Linked p) (hno : p.switchInProgress g = false) :
    (∀ r e, ¬ p.Switches r e) ∧ p.pendingAudioStreamIndex = none := by
  constructor
  · intro r e hs
    obtain ⟨-, hstate⟩ := h.switching r e hs
    rcases hstate with hstate | hstate
    · simp [switchInProgress, hstate] at hno
    · simp [switchInProgress, hstate] at hno
  · unfold switchInProgress at hno
    split at hno
    next hstate => exact (h.committing hstate).1
    next => cases hno
    next => cases hno
    next => simp_all

theorem prepareSwitch_moves (h : Linked p) (k : ℕ) (hno : ∀ r e, ¬ p.Switches r e) :
    Moves g ok p (p.prepareSwitch cap k) := by
  obtain ⟨hmoves, hnone⟩ := @supersede_moves g ok p h .audioTrackSwitch
    ⟨fun r e hs => absurd hs (hno r e), Or.inl hno⟩
  rw [prepareSwitch, createReplacement]
  dsimp only
  split
  · exact hmoves.tail (.refuse hnone)
  · refine hmoves.tail ?_
    rw [addReplacement]
    dsimp only
    rw [modify_alloc]
    exact .prepare k _ hnone

variable (hguard : g.promotionGuard = true ∨ ok .refused)
include hguard

theorem seek_moves (h : Linked p) {inEpoch : Bool}
    (hlost : inEpoch = true → (∀ r e, ¬ p.Switches r e) ∨ ok .lost)
    (hdefault : inEpoch = false →
      (∀ r e, ¬ p.Switches r e) ∨ p.activeAudioStreamIndex ≠ none ∨ ok .defaultTrack) :
    Moves g ok p (p.seek g cap inEpoch) := by
  unfold seek
  split
  next => exact .refl
  next =>
    split
    · next hin =>
      refine ReflTransGen.trans ?_ (refresh_moves hguard)
      split
      next => exact .refl
      next r hr =>
        obtain ⟨e, he⟩ := Option.ne_none_iff_exists'.1 (h.replacement r hr).2
        by_cases haudio : e.replacementReason = some .audioTrackSwitch
        · have hs : p.Switches r e := ⟨⟨hr, he⟩, haudio⟩
          exact .single (.lose r e hs ((hlost hin).resolve_left fun hno => hno r e hs))
        · exact .single (.giveUp r e ⟨hr, he⟩ haudio)
    · next hout =>
      have hcreate : Moves g ok p (p.createReplacement cap .outOfRangeSeek) :=
        createReplacement_moves h (by decide) (hdefault (Bool.eq_false_iff.2 hout))
      exact hcreate.trans (refresh_moves hguard)

theorem select_moves (h : Linked p) (k : ℕ) (trusted : Bool) :
    Moves g ok p (p.select g cap k trusted) := by
  rw [select]
  split
  · exact refresh_moves hguard
  · next hprogress =>
    obtain ⟨hno, hpending⟩ := not_inProgress h (Bool.eq_false_iff.2 hprogress)
    split
    · exact (ReflTransGen.single (.invalid hno hpending)).trans (refresh_moves hguard)
    · split
      · next hkeep =>
        exact (ReflTransGen.single (.keep k hno hkeep.1)).trans (refresh_moves hguard)
      · exact (prepareSwitch_moves h k hno).trans (refresh_moves hguard)

theorem commit_moves (h : Linked p) : Moves g ok p (p.commit g cap) := by
  have hrefresh : Moves g ok p (p.refresh g cap) := refresh_moves hguard
  have hq := h.moves hrefresh
  rw [commit]
  generalize p.refresh g cap = q at hrefresh hq ⊢
  unfold commitCandidate
  split
  next => exact hrefresh
  next r hr =>
    obtain ⟨e, hs⟩ := switches_of_candidateEpoch hr
    split
    · exact hrefresh
    · split
      · exact hrefresh.tail (.wait r e hs)
      · rw [hs.1.2]
        dsimp only
        obtain ⟨a, ha, -⟩ := hq.active
        have hne : a ≠ r := fun har => (hq.replacement r hs.1.1).1 (har ▸ ha)
        -- the promotion of the candidate sets both states itself
        have hsame : ({ q with candidateState := .committing, audioSwitchState := .committing :
            Playback }).promote g r e = q.promote g r e := by
          rw [promote_eq ha hne, promote_eq (p := { q with
            candidateState := .committing, audioSwitchState := .committing }) ha hne,
            if_pos hs.2, if_pos hs.2]
          rfl
        rw [hsame]
        exact hrefresh.tail (.promote r e hs.1 hguard)

theorem cancel_moves (hreplacement : (∀ r e, p.Replaces r e → p.Switches r e) ∨ ok .orphan) :
    Moves g ok p (p.cancel g cap) :=
  (ReflTransGen.single (.cancel false hreplacement)).trans (refresh_moves hguard)

end Operations

/-! ### What moves keep -/

/-- Epochs that are neither active nor the replacement drain, no current epoch has been left behind,
and every change of the active epoch has issued the revision that the epoch left behind waits
for. -/
structure Drained (p : Playback) : Prop where
  linked : Linked p
  others : ∀ i e, p.epochs.get i = some e → p.activeEpochId ≠ some i →
    p.replacementEpochId ≠ some i → e.state = .draining
  fresh : ∀ i e, p.epochs.get i = some e →
    p.activeEpochId = some i ∨ p.replacementEpochId = some i → e.drainTargetAttachRevision = 0
  switches : ∀ s ∈ p.switches, s.after = s.before + 1 ∧ s.drainTarget = some s.after

/-- How a playback goes on: the attach revision does not fall, and changes of the active epoch are
noted. -/
structure Follows (p p' : Playback) : Prop where
  revision : p.attachRevision ≤ p'.attachRevision
  noted : ∃ new, p'.switches = p.switches ++ new ∧
    (new = [] → p'.activeEpochId = p.activeEpochId)

namespace Follows

variable {p p' p'' : Playback}

theorem of_eq (hrevision : p'.attachRevision = p.attachRevision)
    (hswitches : p'.switches = p.switches) (hactive : p'.activeEpochId = p.activeEpochId) :
    Follows p p' where
  revision := hrevision.ge
  noted := ⟨[], by rw [hswitches, List.append_nil], fun _ => hactive⟩

theorem trans (h : Follows p p') (h' : Follows p' p'') : Follows p p'' where
  revision := h.revision.trans h'.revision
  noted := by
    obtain ⟨new, hnew, hactive⟩ := h.noted
    obtain ⟨new', hnew', hactive'⟩ := h'.noted
    refine ⟨new ++ new', by rw [hnew', hnew, List.append_assoc], fun hnil => ?_⟩
    obtain ⟨hfirst, hsecond⟩ := List.append_eq_nil_iff.1 hnil
    exact (hactive' hsecond).trans (hactive hfirst)

end Follows

/-- What is found after a modification has been there before it. -/
theorem get_modify_some {ν : Type} {h : Heap ν} {i j : ℕ} {f : ν → ν} {w : ν}
    (hw : (h.modify i f).get j = some w) :
    ∃ v, h.get j = some v ∧ w = if j = i then f v else v := by
  rw [get_modify] at hw
  split at hw
  · next hj =>
    obtain ⟨v, hv, rfl⟩ := Option.map_eq_some_iff.1 hw
    exact ⟨v, hv, (if_pos hj).symm⟩
  · next hj => exact ⟨w, hw, (if_neg hj).symm⟩

section Moves

variable {g : Gates} {ok : Fault → Prop} {p p' : Playback}

theorem Linked.follows (h : Linked p) (hm : Move g ok p p') : Follows p p' := by
  obtain ⟨a, ha, -⟩ := h.active
  cases hm with
  | cancel failed hok =>
    obtain ⟨hactive, -, -, -, -, -, -, hrevision, hswitches⟩ := cancel_ids p failed
    exact .of_eq hrevision hswitches hactive
  | promote r e hr hok =>
    have hne : a ≠ r := fun har => (h.replacement r hr.1).1 (har ▸ ha)
    rw [promote_eq ha hne]
    refine ⟨?_, _, rfl, fun hnil => by cases hnil⟩
    show p.attachRevision ≤ if g.promotionGuard then p.attachRevision + 1 else p.attachRevision
    split
    · exact Nat.le_succ _
    · exact Nat.le_refl _
  | promoteAdaptive r e hr hreason hok =>
    have hne : a ≠ r := fun har => (h.replacement r hr.1).1 (har ▸ ha)
    rw [promoteAdaptive_eq ha hne]
    refine ⟨?_, _, rfl, fun hnil => by cases hnil⟩
    show p.attachRevision ≤ if g.promotionGuard then p.attachRevision + 1 else p.attachRevision
    split
    · exact Nat.le_succ _
    · exact Nat.le_refl _
  | first hzero =>
    refine ⟨?_, [], (List.append_nil _).symm, fun _ => rfl⟩
    show p.attachRevision ≤ 1
    omega
  | _ => exact .of_eq rfl rfl rfl

theorem Linked.follows_moves (h : Linked p) (hm : Moves g ok p p') : Follows p p' := by
  induction hm with
  | refl => exact .of_eq rfl rfl rfl
  | tail hmoves hlast ih => exact ih.trans ((h.moves hmoves).follows hlast)

/-- A move without a refused revision and an orphan. -/
theorem Drained.move (h : Drained p) (hrefused : ¬ ok .refused) (horphan : ¬ ok .orphan)
    (hm : Move g ok p p') : Drained p' := by
  have hlinked := h.linked.move hm
  obtain ⟨a, ha, hget⟩ := h.linked.active
  obtain ⟨hl, hothers, hfresh, hswitches⟩ := h
  -- the epoch that is left behind waits for the next revision
  have left_behind : ∀ {n : ℕ}, p.epochs.get a ≠ none →
      (p.epochs.get a).map (fun e => max e.drainTargetAttachRevision (n + 1)) = some (n + 1) := by
    intro n hsome
    obtain ⟨e, he⟩ := Option.ne_none_iff_exists'.1 hsome
    rw [he, Option.map_some, hfresh a e he (Or.inl ha), max_eq_right (Nat.zero_le _)]
  cases hm with
  | state i s hi hs =>
    rw [current, Bool.or_eq_true, decide_eq_true_eq, decide_eq_true_eq] at hi
    refine ⟨hlinked, fun j e hget hactive hreplacement => ?_,
      fun j e hget hcurrent => ?_, hswitches⟩
    · obtain ⟨v, hv, rfl⟩ := get_modify_some hget
      have hji : j ≠ i := by
        rintro rfl
        exact hi.elim hactive hreplacement
      rw [if_neg hji]
      exact hothers j v hv hactive hreplacement
    · obtain ⟨v, hv, rfl⟩ := get_modify_some hget
      split
      · exact hfresh j v hv hcurrent
      · exact hfresh j v hv hcurrent
  | drain b hb =>
    refine ⟨hlinked, fun j e hget hactive hreplacement => ?_,
      fun j e hget hcurrent => ?_, hswitches⟩
    · obtain ⟨v, hv, rfl⟩ := get_modify_some hget
      split
      · rfl
      · exact hothers j v hv hactive hreplacement
    · obtain ⟨v, hv, rfl⟩ := get_modify_some hget
      split
      · exact (max_eq_left (Nat.zero_le _)).trans (hfresh j v hv hcurrent)
      · exact hfresh j v hv hcurrent
  | expire i hi =>
    rw [current, Bool.or_eq_false_iff, decide_eq_false_iff_not, decide_eq_false_iff_not] at hi
    refine ⟨hlinked, ?_, ?_, hswitches⟩
    all_goals simp only [Playback.discard, get_pop] at *
    all_goals grind
  | giveUp r e hr hreason =>
    refine ⟨hlinked, ?_, ?_, hswitches⟩
    all_goals simp only [Playback.discard, Replaces, get_pop] at *
    all_goals grind
  | lose r e hr hok =>
    refine ⟨hlinked, ?_, ?_, hswitches⟩
    all_goals simp only [Playback.discard, Switches, Replaces, get_pop] at *
    all_goals grind
  | fail r e hr hdead =>
    refine ⟨hlinked, ?_, ?_, hswitches⟩
    all_goals
      simp only [Playback.discard, setSwitchFailed, clearCandidate, Switches,
        Replaces, get_pop] at *
    all_goals grind
  | supersede r e hr hok =>
    refine ⟨hlinked, ?_, ?_, hswitches⟩
    all_goals
      simp only [Playback.discard, setSwitchFailed, clearCandidate, Switches,
        Replaces, get_pop] at *
    all_goals grind
  | cancel failed hok =>
    obtain ⟨hactive, hreplacement, -, -, -, -, -, -, hsame⟩ := Linked.cancel_ids p failed
    -- the replacement is the candidate, which goes
    have hgone : ∀ r e, p.Replaces r e → p.candidateEpochId = some r := fun r e hr =>
      (hl.switching r e (hok.resolve_right horphan r e hr)).1
    refine ⟨hlinked, fun i e hget hnot _ => ?_, fun i e hget hcurrent => ?_, hsame ▸ hswitches⟩
    · rw [hactive] at hnot
      rw [hl.cancel_get] at hget
      split at hget
      · cases hget
      · next hcandidate =>
        exact hothers i e hget hnot fun hr => hcandidate (hgone i e ⟨hr, hget⟩)
    · rw [hl.cancel_get] at hget
      rw [hactive, hreplacement] at hcurrent
      split at hget
      · cases hget
      · exact hfresh i e hget (Or.inl (hcurrent.resolve_right fun hno => by cases hno))
  | add reason count hnone hreason =>
    refine ⟨hlinked, ?_, ?_, hswitches⟩
    all_goals simp only [addReplacement, buildEpoch, get_alloc] at *
    all_goals grind
  | prepare k count hnone =>
    refine ⟨hlinked, ?_, ?_, hswitches⟩
    all_goals simp only [prepared, buildEpoch, get_alloc] at *
    all_goals grind
  | refuse hnone => exact ⟨hlinked, hothers, hfresh, hswitches⟩
  | invalid hno hp => exact ⟨hlinked, hothers, hfresh, hswitches⟩
  | keep k hno hk => exact ⟨hlinked, hothers, hfresh, hswitches⟩
  | promote r e hr hok =>
    have hne : a ≠ r := fun har => (hl.replacement r hr.1).1 (har ▸ ha)
    have hguard := hok.resolve_right hrefused
    rw [promote_eq ha hne] at hlinked ⊢
    refine ⟨hlinked, fun j e' hget hnot _ => ?_, fun j e' hget hcurrent => ?_, fun s hs => ?_⟩
    · obtain ⟨v, hv, rfl⟩ := get_modify_some hget
      split
      · rfl
      · next hja =>
        exact hothers j v hv (fun h => hja (Option.some.inj (h.symm.trans ha)))
          fun h => hnot (h.symm.trans hr.1).symm
    · obtain ⟨v, hv, rfl⟩ := get_modify_some hget
      obtain rfl : r = j := Option.some.inj (hcurrent.resolve_right fun hno => by cases hno)
      rw [if_neg (Ne.symm hne)]
      exact hfresh r v hv (Or.inr hr.1)
    · rcases List.mem_append.1 hs with hs | hs
      · exact hswitches s hs
      · rw [List.mem_singleton.1 hs, hguard]
        exact ⟨rfl, left_behind hget⟩
  | promoteAdaptive r e hr hreason hok =>
    have hne : a ≠ r := fun har => (hl.replacement r hr.1).1 (har ▸ ha)
    have hguard := hok.resolve_right hrefused
    rw [promoteAdaptive_eq ha hne] at hlinked ⊢
    refine ⟨hlinked, fun j e' hget hnot _ => ?_, fun j e' hget hcurrent => ?_, fun s hs => ?_⟩
    · obtain ⟨v, hv, rfl⟩ := get_modify_some hget
      obtain ⟨u, hu, rfl⟩ := get_modify_some hv
      split
      · rfl
      · next hja =>
        have hjr : j ≠ r := fun h => hnot (congrArg some h.symm)
        rw [if_neg hjr]
        exact hothers j u hu (fun h => hja (Option.some.inj (h.symm.trans ha)))
          fun h => hnot (h.symm.trans hr.1).symm
    · obtain ⟨v, hv, rfl⟩ := get_modify_some hget
      obtain ⟨u, hu, rfl⟩ := get_modify_some hv
      obtain rfl : r = j := Option.some.inj (hcurrent.resolve_right fun hno => by cases hno)
      rw [if_neg (Ne.symm hne), if_pos rfl]
      exact hfresh r u hu (Or.inr hr.1)
    · rcases List.mem_append.1 hs with hs | hs
      · exact hswitches s hs
      · rw [List.mem_singleton.1 hs, hguard]
        exact ⟨rfl, left_behind hget⟩
  | ready r e hr =>
    refine ⟨hlinked, ?_, ?_, hswitches⟩
    all_goals simp only [readyCandidate, setState, get_modify, Switches, Replaces] at *
    all_goals grind
  | wait r e hr => exact ⟨hlinked, hothers, hfresh, hswitches⟩
  | first hzero => exact ⟨hlinked, hothers, hfresh, hswitches⟩
  | finish hcommit => exact ⟨hlinked, hothers, hfresh, hswitches⟩

end Moves

/-! ### Runs -/

/-- The operations after which a run keeps its books: no guard refuses the revision of a promotion,
and a cancelled switch finds no replacement of another kind. -/
def Orderly (p : Playback) : Operation → Prop
  | .seek g _ => g.promotionGuard = true
  | .select g _ _ => g.promotionGuard = true
  | .commit g => g.promotionGuard = true
  | .cancel g => g.promotionGuard = true ∧ ∀ r e, p.Replaces r e → p.Switches r e
  | .refresh g => g.promotionGuard = true
  | .downshift => True
  | .cleanup _ => True
  | .worker _ _ => True

/-- The transitions of a session. -/
def Playback.step (cap : ℕ) (p : Playback) (operation : Operation) : Option Playback :=
  some (p.run cap operation)

/-- The faults that the bookkeeping bears. -/
def Fault.Bearable (fault : Fault) : Prop := fault ≠ .refused ∧ fault ≠ .orphan

/-- A session with one epoch, which is active. -/
structure OneEpoch (p : Playback) : Prop where
  active : ∃ a e, p.activeEpochId = some a ∧ p.epochs.get a = some e ∧
    e.drainTargetAttachRevision = 0 ∧ ∀ i, i ≠ a → p.epochs.get i = none
  replacement : p.replacementEpochId = none
  candidate : p.candidateEpochId = none
  pending : p.pendingAudioStreamIndex = none
  switches : p.switches = []

theorem oneEpoch_new (selected : Option ℕ) : OneEpoch (.new selected) where
  active := ⟨0, _, rfl, rfl, rfl, fun _ hi => if_neg hi⟩
  replacement := rfl
  candidate := rfl
  pending := rfl
  switches := rfl

theorem OneEpoch.drained {p : Playback} (h : OneEpoch p) : Drained p := by
  obtain ⟨a, e, ha, he, htarget, honly⟩ := h.active
  have hactive : ∀ i e', p.epochs.get i = some e' → i = a := by
    intro i e' he'
    by_contra hne
    rw [honly i hne] at he'
    cases he'
  refine ⟨⟨⟨a, ha, ?_⟩, fun r hr => ?_, fun r e' hr => ?_, fun i hi => ?_, fun _ => ?_⟩,
    fun i e' he' hnot _ => ?_, fun i e' he' _ => ?_, fun s hs => ?_⟩
  · rw [he]
    exact Option.some_ne_none e
  · rw [h.replacement] at hr
    cases hr
  · have hnone := hr.1.1.symm.trans h.replacement
    cases hnone
  · rw [h.candidate] at hi
    cases hi
  · exact ⟨h.pending, h.candidate⟩
  · rw [hactive i e' he'] at hnot
    exact absurd ha hnot
  · rw [hactive i e' he', he] at he'
    rw [← Option.some.inj he']
    exact htarget
  · rw [h.switches] at hs
    cases hs

/-- Nothing is ready or due, and no guard refuses. -/
def quietGates : Gates where
  drainExpired _ := false
  replacementNonRetryable := false
  activeNonRetryable := false
  sessionNonRetryable := false
  failureRetryDue := false
  drainingRetryDue := false
  activeReady := false
  resupplyStarts := false
  downshiftStarts := false
  adaptiveAborts := false
  adaptiveReady := false
  downshiftDeferred := false
  candidateExpired := false
  replacementReady := false
  runwaySatisfied := false
  replacementWorks := false
  activeWorks := false
  promotionGuard := true
  activeGuard := true
  firstGuard := true
  clientCaughtUp := false
  workerFound _ := none

section Runs

variable {cap : ℕ} {p : Playback}

/-- An operation is a sequence of moves, or a worker has come to another state. -/
theorem run_cases (h : Linked p) {operation : Operation} (horderly : Orderly p operation) :
    (∃ g, Moves g Fault.Bearable p (p.run cap operation)) ∨
      ∃ i state, p.current i = true ∧ p.run cap operation = p.setState i state := by
  have hlost : Fault.Bearable .lost := by constructor <;> decide
  have hdefault : Fault.Bearable .defaultTrack := by constructor <;> decide
  cases operation with
  | seek g inEpoch =>
    exact Or.inl ⟨g, seek_moves (Or.inl horderly) h (fun _ => Or.inr hlost)
      fun _ => Or.inr (Or.inr hdefault)⟩
  | select g k trusted => exact Or.inl ⟨g, select_moves (Or.inl horderly) h k trusted⟩
  | commit g => exact Or.inl ⟨g, commit_moves (Or.inl horderly) h⟩
  | cancel g => exact Or.inl ⟨g, cancel_moves (Or.inl horderly.1) (Or.inl horderly.2)⟩
  | refresh g => exact Or.inl ⟨g, refresh_moves (Or.inl horderly)⟩
  | downshift => exact Or.inl ⟨quietGates, createAdaptive_moves (by decide)⟩
  | cleanup g => exact Or.inl ⟨g, cleanup_moves⟩
  | worker i state =>
    simp only [Playback.run]
    split
    · next hcurrent => exact Or.inr ⟨i, state, hcurrent, rfl⟩
    · exact Or.inl ⟨quietGates, .refl⟩

theorem Drained.moves {g : Gates} {p' : Playback} (h : Drained p)
    (hm : Moves g Fault.Bearable p p') : Drained p' := by
  induction hm with
  | refl => exact h
  | tail _ hlast ih => exact ih.move (fun hr => hr.1 rfl) (fun ho => ho.2 rfl) hlast

/-- A worker touches neither the ids nor the revisions. -/
theorem Drained.worker (h : Drained p) {i : ℕ} {state : EpochState} (hi : p.current i = true) :
    Drained (p.setState i state) := by
  rw [current, Bool.or_eq_true, decide_eq_true_eq, decide_eq_true_eq] at hi
  refine ⟨h.linked.setState i state, fun j e hget hactive hreplacement => ?_,
    fun j e hget hcurrent => ?_, h.switches⟩
  · obtain ⟨v, hv, rfl⟩ := get_modify_some hget
    have hji : j ≠ i := by
      rintro rfl
      exact hi.elim hactive hreplacement
    rw [if_neg hji]
    exact h.others j v hv hactive hreplacement
  · obtain ⟨v, hv, rfl⟩ := get_modify_some hget
    split
    · exact h.fresh j v hv hcurrent
    · exact h.fresh j v hv hcurrent

/-- One operation. -/
theorem Drained.run (h : Drained p) {operation : Operation} (horderly : Orderly p operation) :
    Drained (p.run cap operation) ∧ Follows p (p.run cap operation) := by
  rcases @run_cases cap p h.linked operation horderly with ⟨g, hmoves⟩ | ⟨i, state, hi, heq⟩
  · exact ⟨h.moves hmoves, h.linked.follows_moves hmoves⟩
  · rw [heq]
    exact ⟨h.worker hi, .of_eq rfl rfl rfl⟩

/-- In a run of orderly operations from a session with one active epoch: the active epoch is in the
map, the replacement is another one in it, the rest drains; the attach revision does not fall, and
every change of the active epoch is noted with a revision that is larger by one and that the epoch
left behind waits for. -/
theorem epoch_bookkeeping (cap : ℕ) (start p : Playback) (hstart : OneEpoch start)
    (hrun : Runs.Reach (Playback.step cap) Orderly start p) :
    (∃ a, p.activeEpochId = some a ∧ p.epochs.get a ≠ none) ∧
    (∀ r, p.replacementEpochId = some r → p.activeEpochId ≠ some r ∧ p.epochs.get r ≠ none) ∧
    (∀ i e, p.epochs.get i = some e → p.activeEpochId ≠ some i → p.replacementEpochId ≠ some i →
      e.state = .draining) ∧
    (∀ s ∈ p.switches, s.after = s.before + 1 ∧ s.drainTarget = some s.after) ∧
    ∀ operation, Orderly p operation →
      p.attachRevision ≤ (p.run cap operation).attachRevision ∧
      ∃ new, (p.run cap operation).switches = p.switches ++ new ∧
        (new = [] → (p.run cap operation).activeEpochId = p.activeEpochId) := by
  have h : Drained p := by
    refine Runs.Reach.invariant (P := Drained) hstart.drained ?_ hrun
    intro q operation q' _ hq horderly hstep
    cases Option.some.inj hstep
    exact (hq.run horderly).1
  refine ⟨h.linked.active, h.linked.replacement, h.others, h.switches, fun operation horderly => ?_⟩
  have hfollows : Follows p (p.run cap operation) := (h.run horderly).2
  exact ⟨hfollows.revision, hfollows.noted⟩

/-- The session becomes ready, and a seek out of its epoch is promoted at once. -/
theorem epoch_bookkeeping_seek : ∃ p : Playback,
    Runs.Reach (Playback.step 8) Orderly (.new none) p ∧ p.activeEpochId = some 1 ∧
      ∀ s ∈ p.switches, s.after = s.before + 1 ∧ s.drainTarget = some s.after := by
  have hready : Runs.Reach (Playback.step 8) Orderly (.new none) _ :=
    .next (a := .refresh { quietGates with activeReady := true }) .start rfl rfl
  have hseek : Runs.Reach (Playback.step 8) Orderly (.new none) _ :=
    .next (a := .seek { quietGates with replacementReady := true } false) hready rfl rfl
  exact ⟨_, hseek, rfl, (epoch_bookkeeping 8 _ _ (oneEpoch_new none) hseek).2.2.2.1⟩

/-- A promotion whose revision is refused leaves an attached epoch without a revision, and a
cancelled switch leaves the epoch of a seek behind that does not drain. -/
theorem books_unkept :
    (∃ p : Playback, Runs.Reach (Playback.step 8) (fun _ _ => True) (.new none) p ∧
      ∃ s ∈ p.switches, 0 < s.before ∧ s.after ≠ s.before + 1) ∧
    ∃ p : Playback, Runs.Reach (Playback.step 8) (fun _ _ => True) (.new none) p ∧
      ∃ i e, p.epochs.get i = some e ∧ p.activeEpochId ≠ some i ∧ p.replacementEpochId ≠ some i ∧
        e.state ≠ .draining := by
  have hready : Runs.Reach (Playback.step 8) (fun _ _ => True) (.new none) _ :=
    .next (a := .refresh { quietGates with activeReady := true }) .start trivial rfl
  have hrefused : Runs.Reach (Playback.step 8) (fun _ _ => True) (.new none) _ :=
    .next (a := .seek { quietGates with replacementReady := true, promotionGuard := false } false)
      hready trivial rfl
  have hseek : Runs.Reach (Playback.step 8) (fun _ _ => True) (.new none) _ :=
    .next (a := .seek quietGates false) .start trivial rfl
  have hcancel : Runs.Reach (Playback.step 8) (fun _ _ => True) (.new none) _ :=
    .next (a := .cancel quietGates) hseek trivial rfl
  constructor
  · exact ⟨_, hrefused, ⟨1, 1, some 2⟩, List.mem_singleton_self _, by decide, by decide⟩
  · exact ⟨_, hcancel, 1, _, rfl, by decide, by decide, by decide⟩

end Runs

end EpochSwitches
