/-
Polling the lite threshold decider (`mobile_playback_route2_gates.py`).

A snapshot that is requested twice should decide what it decided before.  The
evidence is counted up to the latest sample, and the holds up to a time after
it, so that both are the same at the second call.  The tier confirmed before is
not: a session that was undersupplied answers neutral once, and the next call
on the same samples takes that answer for the neutral phase and confirms fast.

* `refresh_record` -- the evidence and the holds do not move;
* `answer_again_iff` -- when a second call gives the same answer;
* `answers_repeated` -- runs with repeated calls;
* `lite_polling_iff` -- all of this from the start of a session.
-/
import Elvern.LiteDecider
import Mathlib.Tactic.Ring

namespace LiteDecider

variable {browser : BrowserPlayback} {epoch : Epoch} {poll : Poll}

/-! ### Evidence -/

section Evidence

variable {rate : ℚ}

theorem not_surplus_of_undersupplied (h : undersupplied rate) : surplus rate = false := by
  have hslow : rate < 1 := of_decide_eq_true h
  refine decide_eq_false fun hfast => ?_
  rw [supplySurplusMinRateX] at hfast
  linarith

theorem suffixSeconds_of_head {holds : ℚ → Bool} {other : ℚ} {latest : List (ℚ × ℚ)}
    (h : holds ((latest.head?.map Prod.snd).getD 0) = false) :
    suffixSeconds holds other latest = 0 := by
  cases latest with
  | nil => rfl
  | cons interval earlier =>
    simp only [List.head?_cons, Option.map_some, Option.getD_some] at h
    simp [suffixSeconds, h]

/-- An interval below real time ends the seconds with a surplus. -/
theorem positiveSuffix_of_undersupplied
    (h : undersupplied (frontierEvidence epoch).latestIntervalRateX) :
    (frontierEvidence epoch).positiveSuffixSeconds = 0 := by
  have hsurplus := not_surplus_of_undersupplied h
  by_cases hlength : epoch.frontierSamples.length < 2
  · rw [frontierEvidence, if_pos hlength]
  · rw [frontierEvidence, if_neg hlength] at hsurplus ⊢
    exact suffixSeconds_of_head hsurplus

/-- An interval with a surplus ends the seconds below real time. -/
theorem negativeSuffix_of_surplus
    (h : surplus (frontierEvidence epoch).latestIntervalRateX) :
    (frontierEvidence epoch).negativeSuffixSeconds = 0 := by
  have hfull : undersupplied (frontierEvidence epoch).latestIntervalRateX = false := by
    by_contra hunder
    have hshort := not_surplus_of_undersupplied (by simpa using hunder)
    exact absurd h (by simp [hshort])
  by_cases hlength : epoch.frontierSamples.length < 2
  · rw [frontierEvidence, if_pos hlength]
  · rw [frontierEvidence, if_neg hlength] at hfull ⊢
    exact suffixSeconds_of_head hfull

/-- The evidence is never less than what the samples show on their own. -/
theorem suffix_le_accumulate {ts : ℚ} (hts : (frontierEvidence epoch).latestSampleTs = some ts) :
    (frontierEvidence epoch).positiveSuffixSeconds
        ≤ (accumulate browser (frontierEvidence epoch)).1
      ∧ (frontierEvidence epoch).negativeSuffixSeconds
        ≤ (accumulate browser (frontierEvidence epoch)).2 := by
  unfold accumulate
  rw [hts]
  dsimp only
  by_cases hnew : 0 < browser.deciderLastSampleTs ∧ browser.deciderLastSampleTs + 1 / 1000 < ts
  · rw [if_pos hnew]
    by_cases hsurplus : surplus (frontierEvidence epoch).latestIntervalRateX
    · rw [if_pos hsurplus]
      exact ⟨le_max_left _ _, (negativeSuffix_of_surplus hsurplus).le⟩
    · rw [if_neg hsurplus]
      by_cases hunder : undersupplied (frontierEvidence epoch).latestIntervalRateX
      · rw [if_pos hunder]
        exact ⟨(positiveSuffix_of_undersupplied hunder).le, le_max_left _ _⟩
      · rw [if_neg hunder]
        exact ⟨le_rfl, le_rfl⟩
  · rw [if_neg hnew]
    exact ⟨le_max_right _ _, le_max_right _ _⟩

/-- The same samples add nothing to the evidence. -/
theorem accumulate_again {again : BrowserPlayback}
    (hlast : again.deciderLastSampleTs
      = (frontierEvidence epoch).latestSampleTs.getD browser.deciderLastSampleTs)
    (hpositive : again.positiveEvidenceSeconds
      = (accumulate browser (frontierEvidence epoch)).1)
    (hnegative : again.negativeEvidenceSeconds
      = (accumulate browser (frontierEvidence epoch)).2) :
    accumulate again (frontierEvidence epoch) = accumulate browser (frontierEvidence epoch) := by
  cases hts : (frontierEvidence epoch).latestSampleTs with
  | none => simp only [accumulate, hts]
  | some ts =>
    have hsame : again.deciderLastSampleTs = ts := by rw [hlast, hts, Option.getD_some]
    have hold : ¬ (0 < again.deciderLastSampleTs
        ∧ again.deciderLastSampleTs + 1 / 1000 < ts) := by
      rw [hsame]
      intro h
      linarith [h.2]
    obtain ⟨hpositiveLe, hnegativeLe⟩ := @suffix_le_accumulate browser epoch ts hts
    calc accumulate again (frontierEvidence epoch)
        = (max again.positiveEvidenceSeconds (frontierEvidence epoch).positiveSuffixSeconds,
            max again.negativeEvidenceSeconds (frontierEvidence epoch).negativeSuffixSeconds) := by
          rw [accumulate, hts]
          exact if_neg hold
      _ = accumulate browser (frontierEvidence epoch) := by
          rw [hpositive, hnegative, max_eq_left hpositiveLe, max_eq_left hnegativeLe]

end Evidence

/-! ### A second call -/

theorem prolong_again (signal : Bool) (ts hold untilTs : ℚ) :
    prolong signal ts hold (prolong signal ts hold untilTs) = prolong signal ts hold untilTs := by
  unfold prolong
  split_ifs
  · exact max_eq_left (le_max_right _ _)
  · rfl

variable (uni : PyText.Unicode)

/-- When a session is up to date for a call. -/
theorem refresh_eq_self {again : BrowserPlayback}
    (hstarted : (frontierEvidence poll.epoch).latestSampleTs.isSome → again.deciderStarted)
    (hlast : (frontierEvidence poll.epoch).latestSampleTs.getD again.deciderLastSampleTs
      = again.deciderLastSampleTs)
    (hevidence : accumulate again (frontierEvidence poll.epoch)
      = (again.positiveEvidenceSeconds, again.negativeEvidenceSeconds))
    (hrecovery : prolong (recoverySignal uni poll.session)
      (referenceTs (frontierEvidence poll.epoch)) postRecoveryHoldSeconds again.recoveryHoldUntilTs
      = again.recoveryHoldUntilTs)
    (hseek : prolong (seekSignal poll.session) (referenceTs (frontierEvidence poll.epoch))
      postSeekHoldSeconds again.seekHoldUntilTs = again.seekHoldUntilTs) :
    refresh uni again poll = again := by
  have hstarts : ((frontierEvidence poll.epoch).latestSampleTs.isSome && !again.deciderStarted)
      = false := by
    cases hsome : (frontierEvidence poll.epoch).latestSampleTs.isSome with
    | false => rfl
    | true => rw [hstarted hsome, Bool.not_true, Bool.and_false]
  unfold refresh
  simp only [hstarts, hlast, hevidence, hrecovery, hseek, Bool.or_false, Bool.false_eq_true,
    if_false]

/-- After a call, the session is up to date for another one on the same samples. -/
theorem refresh_record (candidate : Option LiteTier) (decided : Verdict) :
    refresh uni ((refresh uni browser poll).record candidate decided) poll
      = (refresh uni browser poll).record candidate decided := by
  refine refresh_eq_self uni ?_ ?_ ?_ (prolong_again _ _ _ _) (prolong_again _ _ _ _)
  · intro hsome
    have hstarted : (browser.deciderStarted || ((frontierEvidence poll.epoch).latestSampleTs.isSome
        && !browser.deciderStarted)) = true := by
      rw [hsome]
      cases browser.deciderStarted <;> rfl
    exact hstarted
  · have hlast : ∀ latest : Option ℚ, latest.getD (latest.getD browser.deciderLastSampleTs)
        = latest.getD browser.deciderLastSampleTs := by
      intro latest
      cases latest <;> rfl
    exact hlast _
  · exact accumulate_again rfl rfl rfl

/-- The branch of the decider that confirms a fast supply, or asks for neutral first. -/
def confirmsFast (browser : BrowserPlayback) (poll : Poll) : Bool :=
  let evidence := frontierEvidence poll.epoch
  sampleMature poll && !coldStartHold browser evidence && !postRecoveryHold browser evidence
    && !postSeekHold browser evidence
    && (fastSignal browser poll
      && decide (fastConfirmSeconds ≤ browser.positiveEvidenceSeconds + 1 / 1000)
      && displayReady poll)

/-- The branch, at a session that is up to date. -/
theorem verdict_of_confirmsFast (h : confirmsFast browser poll) :
    verdict browser poll =
      if browser.confirmedTier = .liteUndersupply then
        ⟨.liteUncertain, .neutral45, "lite_recovered_from_undersupply_neutral_45",
          some "undersupply_recovery_requires_neutral"⟩
      else ⟨.liteFast, .fastConfirmed15, "lite_fast_confirmed", none⟩ := by
  obtain ⟨hguards, hfast⟩ := (Bool.and_eq_true _ _).mp h
  simp only [Bool.and_eq_true, Bool.not_eq_true'] at hguards
  obtain ⟨⟨⟨hmature, hcold⟩, hrecovery⟩, hseek⟩ := hguards
  simp only [verdict, hmature, hcold, hrecovery, hseek, Bool.not_true, Bool.false_eq_true,
    if_false]
  exact if_pos hfast

/-- Outside that branch, the tier confirmed before does not count. -/
theorem verdict_record (h : confirmsFast browser poll = false) (candidate : Option LiteTier)
    (decided : Verdict) :
    verdict (browser.record candidate decided) poll = verdict browser poll := by
  -- the tests before that branch read neither the tier nor the verdict
  refine ite_congr rfl (fun _ => rfl) fun hmature => ?_
  refine ite_congr rfl (fun _ => rfl) fun hcold => ?_
  refine ite_congr rfl (fun _ => rfl) fun hrecovery => ?_
  refine ite_congr rfl (fun _ => rfl) fun hseek => ?_
  have hbranch : ¬ (fastSignal browser poll
      && decide (fastConfirmSeconds ≤ browser.positiveEvidenceSeconds + 1 / 1000)
      && displayReady poll) = true := by
    intro hfast
    simp only [Bool.not_eq_true', Bool.not_eq_false, Bool.not_eq_true]
      at hmature hcold hrecovery hseek
    have hconfirms : confirmsFast browser poll = true := by
      simp only [confirmsFast, hmature, Bool.true_and, Bool.and_eq_true, Bool.not_eq_true']
      exact ⟨⟨⟨hcold, hrecovery⟩, hseek⟩, by simpa only [Bool.and_eq_true] using hfast⟩
    rw [hconfirms] at h
    cases h
  exact (if_neg hbranch).trans (if_neg hbranch).symm

/-- The part of an answer that polling should not move: the state, the tiers and
the evidence. -/
structure Answer where
  state : DeciderState
  confirmedTier : LiteTier
  candidateTier : Option LiteTier
  positiveEvidenceSeconds : ℚ
  negativeEvidenceSeconds : ℚ

def DeciderFields.answer (fields : DeciderFields) : Answer :=
  ⟨fields.deciderState, fields.confirmedTier, fields.candidateTier,
    fields.positiveEvidenceSeconds, fields.negativeEvidenceSeconds⟩

/-- The session was undersupplied, and the samples confirm a fast supply. -/
def RecoversAtOnce (browser : BrowserPlayback) (poll : Poll) : Prop :=
  browser.confirmedTier = .liteUndersupply ∧ confirmsFast (refresh uni browser poll) poll = true

/-- Where it does not, the verdict stands. -/
theorem verdict_again (h : ¬ RecoversAtOnce uni browser poll) (candidate : Option LiteTier) :
    verdict ((refresh uni browser poll).record candidate (verdict (refresh uni browser poll) poll))
        poll
      = verdict (refresh uni browser poll) poll := by
  cases hconfirms : confirmsFast (refresh uni browser poll) poll with
  | false => exact verdict_record hconfirms candidate _
  | true =>
    have htier : browser.confirmedTier ≠ .liteUndersupply := fun htier => h ⟨htier, hconfirms⟩
    have hfirst := (verdict_of_confirmsFast hconfirms).trans (if_neg htier)
    rw [hfirst, @verdict_of_confirmsFast ((refresh uni browser poll).record _ _) poll hconfirms]
    exact if_neg fun hunder => LiteTier.noConfusion hunder

/-- A second call on the same samples gives the same answer, except after undersupply. -/
theorem answer_again_iff :
    (liteThresholdDecider uni (liteThresholdDecider uni browser poll).1 poll).2.answer
        = (liteThresholdDecider uni browser poll).2.answer
      ↔ ¬ RecoversAtOnce uni browser poll := by
  constructor
  · rintro hsame ⟨htier, hconfirms⟩
    have hfirst := (verdict_of_confirmsFast hconfirms).trans (if_pos htier)
    have hstate := congrArg Answer.state hsame
    simp only [liteThresholdDecider, DeciderFields.answer, refresh_record, hfirst] at hstate
    rw [@verdict_of_confirmsFast ((refresh uni browser poll).record _ _) poll hconfirms]
      at hstate
    cases hstate
  · intro h
    simp only [liteThresholdDecider, DeciderFields.answer, refresh_record, verdict_again uni h]
    rfl

/-! ### Runs -/

/-- The browser session after a run of calls. -/
def browserAfter (browser : BrowserPlayback) (polls : List Poll) : BrowserPlayback :=
  polls.foldl (fun browser poll => (liteThresholdDecider uni browser poll).1) browser

/-- The answers of a run of calls. -/
def answers (browser : BrowserPlayback) : List Poll → List Answer
  | [] => []
  | poll :: rest =>
    (liteThresholdDecider uni browser poll).2.answer
      :: answers (liteThresholdDecider uni browser poll).1 rest

/-- No call of the run finds an undersupplied session and a fast supply. -/
def Steady (browser : BrowserPlayback) : List Poll → Prop
  | [] => True
  | poll :: rest =>
    ¬ RecoversAtOnce uni browser poll ∧ Steady (liteThresholdDecider uni browser poll).1 rest

/-- A run in which each call is made once, and then as often again as the number says. -/
def repeated (counted : List (Poll × ℕ)) : List Poll :=
  counted.flatMap fun (poll, again) => List.replicate (again + 1) poll

/-- The decider does not read the previous tier that it writes. -/
theorem decider_previousTier (tier : Option LiteTier) :
    liteThresholdDecider uni { browser with previousTier := tier } poll
      = liteThresholdDecider uni browser poll := rfl

/-- A second call leaves the session as it is, but for the previous tier. -/
theorem browser_again (h : ¬ RecoversAtOnce uni browser poll) :
    (liteThresholdDecider uni (liteThresholdDecider uni browser poll).1 poll).1
      = { (liteThresholdDecider uni browser poll).1 with
          previousTier := some (liteThresholdDecider uni browser poll).1.confirmedTier } := by
  simp only [liteThresholdDecider, refresh_record, verdict_again uni h]
  rfl

/-- A session after the call is steady for it. -/
theorem steady_again (h : ¬ RecoversAtOnce uni browser poll) :
    ¬ RecoversAtOnce uni (liteThresholdDecider uni browser poll).1 poll := by
  rintro ⟨htier, hconfirms⟩
  simp only [liteThresholdDecider, refresh_record] at htier hconfirms
  have hfast : confirmsFast (refresh uni browser poll) poll = true := hconfirms
  have hverdict := verdict_of_confirmsFast hfast
  have hfirst : browser.confirmedTier ≠ .liteUndersupply := fun hunder => h ⟨hunder, hfast⟩
  rw [hverdict.trans (if_neg hfirst)] at htier
  cases htier

/-- Any number of further calls: the answers are the same, and what follows does not
see them. -/
theorem answers_replicate (again : ℕ) (rest : List Poll) {browser : BrowserPlayback}
    (h : ¬ RecoversAtOnce uni browser poll) :
    answers uni browser (List.replicate (again + 1) poll ++ rest)
      = List.replicate (again + 1) (liteThresholdDecider uni browser poll).2.answer
        ++ answers uni (liteThresholdDecider uni browser poll).1 rest := by
  induction again generalizing browser with
  | zero => rfl
  | succ again ih =>
    have hanswer := (answer_again_iff uni).mpr h
    have hrest : answers uni
        (liteThresholdDecider uni (liteThresholdDecider uni browser poll).1 poll).1 rest
        = answers uni (liteThresholdDecider uni browser poll).1 rest := by
      rw [browser_again uni h]
      cases rest with
      | nil => rfl
      | cons next rest => rw [answers, answers, decider_previousTier]
    rw [List.replicate_succ, List.cons_append, answers, ih (steady_again uni h), hanswer, hrest,
      List.replicate_succ (n := again + 1), List.cons_append]

/-- In a steady run, calls can be repeated at will. -/
theorem answers_repeated (counted : List (Poll × ℕ)) {browser : BrowserPlayback}
    (h : Steady uni browser (counted.map Prod.fst)) :
    answers uni browser (repeated counted)
      = (List.zipWith (fun again answer => List.replicate (again + 1) answer)
          (counted.map Prod.snd) (answers uni browser (counted.map Prod.fst))).flatten := by
  induction counted generalizing browser with
  | nil => rfl
  | cons first rest ih =>
    obtain ⟨hfirst, hrest⟩ := h
    have hsplit : repeated (first :: rest)
        = List.replicate (first.2 + 1) first.1 ++ repeated rest := rfl
    rw [hsplit, answers_replicate uni first.2 (repeated rest) hfirst, ih hrest]
    rfl

/-- The runway that the start-up gate requires, at a second snapshot. -/
theorem runway_again {session : Session}
    (h : ¬ RecoversAtOnce uni browser (startupPoll session epoch)) :
    (liteInitialStartupGate uni (liteInitialStartupGate uni browser session epoch).1 session
        epoch).2.requiredStartupRunwaySeconds
      = (liteInitialStartupGate uni browser session epoch).2.requiredStartupRunwaySeconds := by
  by_cases hpublished :
      (!epoch.initPublished || epoch.contiguousPublishedThroughSegment.isNone) = true
  · simp only [liteInitialStartupGate, if_pos hpublished]
  · have hstate := congrArg Answer.state ((answer_again_iff uni).mpr h)
    simp only [liteInitialStartupGate, if_neg hpublished]
    exact congrArg (fun state => boundedRunway session epoch (runwayFor state)) hstate

/-- Polling does not move the decider: from the start of a session on, a second call
gives the same answer exactly where the session was not undersupplied or the samples
do not confirm a fast supply. -/
theorem lite_polling_iff (earlier : List Poll) :
    (∀ poll : Poll,
        (liteThresholdDecider uni (liteThresholdDecider uni (browserAfter uni {} earlier) poll).1
            poll).2.answer
          = (liteThresholdDecider uni (browserAfter uni {} earlier) poll).2.answer
        ↔ ¬ RecoversAtOnce uni (browserAfter uni {} earlier) poll)
      ∧ (∀ counted : List (Poll × ℕ),
        Steady uni (browserAfter uni {} earlier) (counted.map Prod.fst) →
        answers uni (browserAfter uni {} earlier) (repeated counted)
          = (List.zipWith (fun again answer => List.replicate (again + 1) answer)
              (counted.map Prod.snd)
              (answers uni (browserAfter uni {} earlier) (counted.map Prod.fst))).flatten)
      ∧ ∀ (session : Session) (epoch : Epoch),
        ¬ RecoversAtOnce uni (browserAfter uni {} earlier) (startupPoll session epoch) →
        (liteInitialStartupGate uni
            (liteInitialStartupGate uni (browserAfter uni {} earlier) session epoch).1 session
            epoch).2.requiredStartupRunwaySeconds
          = (liteInitialStartupGate uni (browserAfter uni {} earlier) session
              epoch).2.requiredStartupRunwaySeconds :=
  ⟨fun _ => answer_again_iff uni, fun counted => answers_repeated uni counted,
    fun _ _ => runway_again uni⟩

/-- A client that reports nothing. -/
def quietSession : Session where
  durationSeconds := 3600
  targetPositionSeconds := 0
  lastStablePositionSeconds := 0
  committedPlayheadSeconds := 0
  actualMediaElementTimeSeconds := 0
  stalledRecoveryRequested := false
  lifecycleState := "attached"
  clientPlaybackStallReason := none
  pendingTargetSeconds := none

/-- A call with the samples of an epoch, whose supply rate is given. -/
def pollOf (samples : List (ℚ × ℚ)) (supplyRateX observationSeconds : ℚ) : Poll where
  session := quietSession
  epoch :=
    { initPublished := true
      contiguousPublishedThroughSegment := some 4
      epochStartSeconds := 0
      attachPositionSeconds := 0
      transcoderCompleted := false
      frontierSamples := samples }
  supplyRateX
  observationSeconds
  displayConfident := true

/-- Two calls at half the rate of real time. -/
def slowPolls : List Poll :=
  [pollOf [(100, 0), (103, 3 / 2), (106, 3), (109, 9 / 2), (112, 6), (118, 9)] (1 / 2) 18,
    pollOf [(109, 9 / 2), (112, 6), (115, 15 / 2), (118, 9), (121, 21 / 2), (126, 13)] (1 / 2) 17]

/-- A call at one and a half times the rate of real time. -/
def fastPoll : Poll :=
  pollOf [(126, 13), (129, 35 / 2), (132, 22), (135, 53 / 2), (138, 31), (142, 37)] (3 / 2) 16

/-- No character is special. -/
def plainText : PyText.Unicode := ⟨fun _ => false, fun _ => false, fun c => [c]⟩

/-- After undersupply, the first call on the samples of a fast supply says neutral,
and the second says fast. -/
theorem lite_polling_moves :
    (fastPoll.epoch.frontierSamples.map Prod.fst).Pairwise (· ≤ ·)
      ∧ (browserAfter plainText {} slowPolls).confirmedTier = .liteUndersupply
      ∧ (liteThresholdDecider plainText (browserAfter plainText {} slowPolls)
          fastPoll).2.deciderState = .neutral45
      ∧ (liteThresholdDecider plainText
          (liteThresholdDecider plainText (browserAfter plainText {} slowPolls) fastPoll).1
          fastPoll).2.deciderState = .fastConfirmed15 := by
  refine ⟨by decide +kernel, by decide +kernel, by decide +kernel, by decide +kernel⟩

end LiteDecider
