/-
One live Route2 session for each standard user.

`create_session` takes the manager's lock three times: it looks for a session of
the user that it can reuse or that conflicts, it asks for admission, and it
registers the new session.  Between these blocks any block of another call may
run.  A call is a `Call` with the stage that it has reached; the answers of the
code that is asked on the way (what a refresh makes of a session, whether a
position can be reused, provider access, admission) come with the action.

* `Manager.step` — one block of a call, or a stop, or an expiry;
* `Sound.step` — what every step keeps, if no session of the user comes to life
  between the check and the registration of a call;
* `one_live_session` — then a user who is no admin never has two live sessions,
  and each call returns the one there is, raises or registers the only one;
* `two_live_sessions` — two calls that both check before either registers.

`_active_session_by_user` is read by the legacy engine only and is left out.
-/
import Mathlib.Data.Finset.Basic
import Elvern.Heaps
import Elvern.Runs

open Heaps Runs

namespace SessionLimit

/-- `MobilePlaybackSession.state` -/
inductive SessionState where
  | queued
  | preparing
  | ready
  | retargeting
  | failed
  | stopped
  | expired
  deriving DecidableEq

/-- Not in `{"failed", "stopped", "expired"}`. -/
def SessionState.live : SessionState → Bool
  | .failed => false
  | .stopped => false
  | .expired => false
  | _ => true

/-- What `_refresh_route2_session_authority_locked` makes of `session.state`. -/
inductive Refreshed where
  | unchanged
  | failed
  | preparing
  | retargeting
  | ready
  deriving DecidableEq

def Refreshed.state (old : SessionState) : Refreshed → SessionState
  | .unchanged => old
  | .failed => .failed
  | .preparing => .preparing
  | .retargeting => .retargeting
  | .ready => .ready

/-- What a session is compared in before it is reused. -/
structure Source where
  mediaItemId : ℕ
  profile : String
  playbackMode : String
  selectedAudioStreamIndex : Option ℕ
  sourceFingerprint : String
  cacheKey : String
  deriving DecidableEq

/-- `MobilePlaybackSession`, with the number of the step that made it live. -/
structure Session where
  userId : ℕ
  source : Source
  state : SessionState
  liveSince : ℕ
  deriving DecidableEq

/-- A refresh in the step `clock`. -/
def Session.refresh (clock : ℕ) (r : Refreshed) (s : Session) : Session :=
  { s with
    state := r.state s.state
    liveSince := if s.state.live = false ∧ (r.state s.state).live = true then clock
      else s.liveSince }

/-- How far a call of `create_session` has come. -/
inductive Stage where
  /-- Before the first block. -/
  | arrived
  /-- The first block found a session to reuse. -/
  | reuse (sid : ℕ)
  /-- `touch_session` is done. -/
  | touched (sid : ℕ)
  /-- The first block, in the step `checkedAt`, found no session in the way. -/
  | clear (checkedAt : ℕ)
  /-- Provider access is checked. -/
  | accessible (checkedAt : ℕ)
  | admitted (checkedAt : ℕ)
  | registered (sid : ℕ)
  | returned (sid : ℕ)
  | raised
  deriving DecidableEq

/-- The step of the check, between the check and the registration. -/
def Stage.checkedAt : Stage → Option ℕ
  | .clear k => some k
  | .accessible k => some k
  | .admitted k => some k
  | _ => none

/-- The session that the call is about to answer with. -/
def Stage.answers : Stage → Option ℕ
  | .touched sid => some sid
  | .registered sid => some sid
  | _ => none

/-- A call of `create_session` for the engine `route2`. -/
structure Call where
  userId : ℕ
  source : Source
  /-- `source_kind == "cloud"` -/
  cloud : Bool
  stage : Stage
  deriving DecidableEq

/-- What the first block finds out about a candidate. -/
structure Look where
  refreshed : Refreshed
  /-- `_route2_session_can_reuse_target_locked` -/
  canReuse : Bool

/-- What the first block comes to. -/
inductive Verdict where
  | compatible (sid : ℕ)
  | conflicting (sid : ℕ)
  | free

/-- The manager: `_sessions`, `_route2_session_ids_by_user` and the calls under
way. -/
structure Manager where
  sessions : Heap Session
  route2SessionIdsByUser : ℕ → Finset ℕ
  calls : Heap Call

/-- The blocks. -/
inductive Action where
  | arrive (userId : ℕ) (source : Source) (cloud : Bool)
  /-- The first block; `listing` is the order of the candidates. -/
  | check (c : ℕ) (listing : List ℕ) (look : ℕ → Look)
  /-- `ensure_cloud_media_item_provider_access`, outside the lock. -/
  | access (c : ℕ) (granted : Bool)
  /-- `_raise_if_route2_admission_denied_locked` -/
  | admission (c : ℕ) (denied : Bool)
  | register (c : ℕ)
  | touch (c : ℕ)
  /-- `get_session` or `seek_session`; without a state it raises. -/
  | answer (c : ℕ) (refreshed : Option Refreshed)
  | stop (userId sid : ℕ)
  /-- `_cleanup_sessions_and_cache`, with the sessions whose time is over. -/
  | expire (sids : List ℕ)

namespace Manager

/-- A fresh manager. -/
def new : Manager := ⟨.empty, fun _ => ∅, .empty⟩

def refresh (now : ℕ) (m : Manager) (sid : ℕ) (r : Refreshed) : Manager :=
  { m with sessions := m.sessions.modify sid (Session.refresh now r) }

/-- `_ordered_live_sessions_locked` of `_get_user_route2_sessions_locked`, as a set. -/
def liveIds (m : Manager) (userId : ℕ) : Finset ℕ :=
  (m.route2SessionIdsByUser userId).filter fun sid =>
    ((m.sessions.get sid).any fun s => s.state.live) = true

/-- The loop of the first block over the candidates that are left. -/
def examine (now : ℕ) (source : Source) (look : ℕ → Look) (m : Manager) :
    List ℕ → Option ℕ → Option ℕ → Manager × Verdict
  | [], sameMovie, otherMovie =>
    match sameMovie.or otherMovie with
    | some sid => (m, .conflicting sid)
    | none => (m, .free)
  | sid :: rest, sameMovie, otherMovie =>
    if (m.sessions.get sid).map Session.source ≠ some source then
      examine now source look (m.refresh now sid (look sid).refreshed) rest sameMovie
        (otherMovie.or (some sid))
    else if (look sid).canReuse then
      (m.refresh now sid (look sid).refreshed, .compatible sid)
    else
      examine now source look (m.refresh now sid (look sid).refreshed) rest
        (sameMovie.or (some sid)) otherMovie

/-- The call goes on to a stage. -/
def setStage (m : Manager) (c : ℕ) (stage : Stage) : Manager :=
  { m with calls := m.calls.modify c fun call => { call with stage := stage } }

/-- `_sessions.pop` and `_unregister_session_locked` -/
def drop (m : Manager) (sid : ℕ) : Manager :=
  match m.sessions.get sid with
  | none => m
  | some s =>
    { m with
      sessions := m.sessions.pop sid
      route2SessionIdsByUser := fun u =>
        if u = s.userId then (m.route2SessionIdsByUser u).erase sid
        else m.route2SessionIdsByUser u }

/-- `_sessions[…] = session` and `_register_route2_session_locked`, under a new
session id. -/
def register (m : Manager) (s : Session) : Manager :=
  { m with
    sessions := m.sessions.alloc s
    route2SessionIdsByUser := fun u =>
      if u = s.userId then insert m.sessions.next (m.route2SessionIdsByUser u)
      else m.route2SessionIdsByUser u }

variable (admin : ℕ → Bool) (now : ℕ) (m : Manager) (c : ℕ)

/-- The stage after the first block.  An administrator may have more sessions. -/
def afterCheck (call : Call) : Verdict → Stage
  | .compatible sid => .reuse sid
  | .conflicting _ => if admin call.userId then .clear now else .raised
  | .free => .clear now

/-- The first block. -/
def checkBlock (call : Call) (listing : List ℕ) (look : ℕ → Look) : Option Manager :=
  if call.stage = .arrived ∧ listing.Nodup ∧ listing.toFinset = m.liveIds call.userId then
    let found := m.examine now call.source look listing none none
    some (found.1.setStage c (afterCheck admin now call found.2))
  else none

/-- Provider access; local items need none. -/
def accessCheck (call : Call) (granted : Bool) : Option Manager :=
  match call.stage with
  | .clear k => some (m.setStage c (if call.cloud && !granted then .raised else .accessible k))
  | _ => none

/-- The second block. -/
def admitBlock (call : Call) (denied : Bool) : Option Manager :=
  match call.stage with
  | .accessible k => some (m.setStage c (if denied then .raised else .admitted k))
  | _ => none

/-- The third block; `_initialize_route2_session_locked` leaves the state
`preparing`. -/
def registerBlock (call : Call) : Option Manager :=
  match call.stage with
  | .admitted _ =>
    some ((m.register ⟨call.userId, call.source, .preparing, now⟩).setStage c
      (.registered m.sessions.next))
  | _ => none

/-- `touch_session` moves the end of the session only. -/
def touchBlock (call : Call) : Option Manager :=
  match call.stage with
  | .reuse sid => some (m.setStage c (.touched sid))
  | _ => none

/-- `get_session` and `seek_session`: the session may be gone by now. -/
def answerBlock (call : Call) (refreshed : Option Refreshed) : Option Manager :=
  match call.stage.answers with
  | none => none
  | some sid =>
    match refreshed with
    | none => some (m.setStage c .raised)
    | some r =>
      if ((m.sessions.get sid).any fun s => s.userId = call.userId) = true then
        some ((m.refresh now sid r).setStage c (.returned sid))
      else some (m.setStage c .raised)

/-- `stop_session` -/
def stopBlock (userId sid : ℕ) : Manager :=
  if ((m.sessions.get sid).any fun s => s.userId = userId) = true then m.drop sid else m

/-- One block. -/
def block : Action → Option Manager
  | .arrive u source cloud =>
    some { m with calls := m.calls.alloc ⟨u, source, cloud, .arrived⟩ }
  | .check c listing look =>
    (m.calls.get c).bind fun call => m.checkBlock admin now c call listing look
  | .access c granted => (m.calls.get c).bind fun call => m.accessCheck c call granted
  | .admission c denied => (m.calls.get c).bind fun call => m.admitBlock c call denied
  | .register c => (m.calls.get c).bind fun call => m.registerBlock now c call
  | .touch c => (m.calls.get c).bind fun call => m.touchBlock c call
  | .answer c refreshed => (m.calls.get c).bind fun call => m.answerBlock now c call refreshed
  | .stop u sid => some (m.stopBlock u sid)
  | .expire sids => some (sids.foldl drop m)

/-- The session `sid` is a live one of the user. -/
def IsLive (u sid : ℕ) : Prop :=
  ∃ s, m.sessions.get sid = some s ∧ s.userId = u ∧ s.state.live = true

/-- A session of the user has come to life after the step `k`, and lives. -/
def BornAfter (u k : ℕ) : Prop :=
  ∃ sid s, m.sessions.get sid = some s ∧ s.userId = u ∧ s.state.live = true ∧ k < s.liveSince

/-- The condition on a step: a standard user's call registers its session only if
none of the user came to life since the call's check, and no answer brings a
failed session back beside a live one. -/
def Undisturbed : Action → Prop
  | .register c => ∀ call k, m.calls.get c = some call → call.stage = .admitted k →
      admin call.userId = false → ¬ m.BornAfter call.userId k
  | .answer c (some r) => ∀ call sid s, m.calls.get c = some call →
      call.stage.answers = some sid → m.sessions.get sid = some s → admin s.userId = false →
      s.state.live = false → (r.state s.state).live = true → ∀ sid', ¬ m.IsLive s.userId sid'
  | _ => True

/-- What a step of a standard user's call comes to: it reuses the one live
session of the user, it registers the only one, it answers with the one it
reused or registered, or it raises. -/
def Settled (m' : Manager) : Action → Prop
  | .check c _ _ => ∀ call sid, m'.calls.get c = some call → admin call.userId = false →
      call.stage = .reuse sid → ∀ sid', m.IsLive call.userId sid' ↔ sid' = sid
  | .register c => ∀ call sid, m'.calls.get c = some call → admin call.userId = false →
      call.stage = .registered sid → ∀ sid', m'.IsLive call.userId sid' ↔ sid' = sid
  | .answer c _ => ∀ call sid call', m.calls.get c = some call →
      call.stage.answers = some sid → m'.calls.get c = some call' →
      call'.stage = .returned sid ∨ call'.stage = .raised
  | _ => True

end Manager

/-- The manager and the number of its next step. -/
structure System where
  manager : Manager
  clock : ℕ

namespace System

def new : System := ⟨.new, 0⟩

def step (admin : ℕ → Bool) (sys : System) (a : Action) : Option System :=
  (sys.manager.block admin sys.clock a).map fun m => ⟨m, sys.clock + 1⟩

end System

/-! ### Steps that bring no session to life -/

namespace Manager

/-- `m'` has no live session that `m` does not have, and the same calls. -/
structure Quiet (m m' : Manager) : Prop where
  sessions : ∀ sid s', m'.sessions.get sid = some s' → ∃ s, m.sessions.get sid = some s ∧
    s.userId = s'.userId ∧
    (s'.state.live = true → s.state.live = true ∧ s.liveSince = s'.liveSince)
  indexed : ∀ u sid, sid ∈ m'.route2SessionIdsByUser u → sid ∈ m.route2SessionIdsByUser u
  listed : ∀ u sid s', m'.sessions.get sid = some s' →
    sid ∈ m.route2SessionIdsByUser u → sid ∈ m'.route2SessionIdsByUser u
  next : m'.sessions.next = m.sessions.next
  calls : m'.calls = m.calls

variable {admin : ℕ → Bool} {now : ℕ} {m m' m'' : Manager} {c sid : ℕ} {r : Refreshed}

theorem Quiet.refl (m : Manager) : m.Quiet m where
  sessions _ s' hs := ⟨s', hs, rfl, fun hl => ⟨hl, rfl⟩⟩
  indexed _ _ h := h
  listed _ _ _ _ h := h
  next := rfl
  calls := rfl

theorem Quiet.trans (h : m.Quiet m') (h' : m'.Quiet m'') : m.Quiet m'' where
  sessions sid s'' hs := by
    obtain ⟨s', hs', hu', hl'⟩ := h'.sessions sid s'' hs
    obtain ⟨s, hs, hu, hl⟩ := h.sessions sid s' hs'
    refine ⟨s, hs, hu.trans hu', fun hlive => ?_⟩
    obtain ⟨hlive', hsince'⟩ := hl' hlive
    obtain ⟨hlive, hsince⟩ := hl hlive'
    exact ⟨hlive, hsince.trans hsince'⟩
  indexed u sid hi := h.indexed u sid (h'.indexed u sid hi)
  listed u sid s'' hs hi := by
    obtain ⟨s', hs', -, -⟩ := h'.sessions sid s'' hs
    exact h'.listed u sid s'' hs (h.listed u sid s' hs' hi)
  next := h'.next.trans h.next
  calls := h'.calls.trans h.calls

/-- A refresh of a session that does not bring it back from the dead. -/
theorem Quiet.refresh
    (h : ∀ s, m.sessions.get sid = some s → (r.state s.state).live = true → s.state.live = true) :
    m.Quiet (m.refresh now sid r) where
  sessions j s' hs := by
    rcases Heap.get_of_modify hs with ⟨rfl, s, hget, rfl⟩ | ⟨-, hget⟩
    · refine ⟨s, hget, rfl, fun hlive => ?_⟩
      have hold : s.state.live = true := h s hget hlive
      have hsince : (Session.refresh now r s).liveSince = s.liveSince :=
        if_neg fun hn => Bool.noConfusion (hn.1.symm.trans hold)
      exact ⟨hold, hsince.symm⟩
    · exact ⟨s', hget, rfl, fun hl => ⟨hl, rfl⟩⟩
  indexed _ _ h := h
  listed _ _ _ _ h := h
  next := rfl
  calls := rfl

theorem Quiet.drop (m : Manager) (sid : ℕ) : m.Quiet (m.drop sid) := by
  unfold Manager.drop
  split
  next => exact .refl m
  next s hs =>
    refine ⟨fun j s' hj => ⟨s', Heap.get_of_pop hj, rfl, fun hl => ⟨hl, rfl⟩⟩, ?_, ?_, rfl, rfl⟩
    · intro u j hj
      dsimp only at hj
      split at hj
      · exact Finset.mem_of_mem_erase hj
      · exact hj
    · intro u j s' hj hmem
      have hne : j ≠ sid := by
        rintro rfl
        rw [Heap.get_pop_self] at hj
        cases hj
      dsimp only
      split
      · exact Finset.mem_erase.2 ⟨hne, hmem⟩
      · exact hmem

theorem Quiet.expire (m : Manager) (sids : List ℕ) : m.Quiet (sids.foldl Manager.drop m) := by
  induction sids generalizing m with
  | nil => exact .refl m
  | cons sid sids ih => exact (Quiet.drop m sid).trans (ih (m.drop sid))

theorem mem_liveIds {u : ℕ} : sid ∈ m.liveIds u ↔
    sid ∈ m.route2SessionIdsByUser u ∧ ∃ s, m.sessions.get sid = some s ∧ s.state.live = true := by
  rw [liveIds, Finset.mem_filter, Option.any_eq_true]

/-- The loop refreshes live sessions only, each of them once. -/
theorem Quiet.examine {source : Source} {look : ℕ → Look} {listing : List ℕ}
    (hnodup : listing.Nodup)
    (hlive : ∀ sid ∈ listing, ∀ s, m.sessions.get sid = some s → s.state.live = true)
    (same other : Option ℕ) : m.Quiet (m.examine now source look listing same other).1 := by
  induction listing generalizing m same other with
  | nil =>
      rw [Manager.examine]
      split <;> exact .refl m
  | cons sid rest ih =>
      obtain ⟨hfresh, hrest⟩ := List.nodup_cons.1 hnodup
      have hthis : m.Quiet (m.refresh now sid (look sid).refreshed) :=
        .refresh fun s hs _ => hlive sid (List.mem_cons_self ..) s hs
      -- the sessions that are left are as they were
      have hothers : ∀ j ∈ rest, ∀ s,
          (m.refresh now sid (look sid).refreshed).sessions.get j = some s →
          s.state.live = true := by
        intro j hj s hs
        have hne : j ≠ sid := fun he => hfresh (he ▸ hj)
        rw [Manager.refresh, Heap.get_modify_ne hne] at hs
        exact hlive j (List.mem_cons_of_mem _ hj) s hs
      rw [Manager.examine]
      split
      · exact hthis.trans (ih hrest hothers same _)
      · split
        · exact hthis
        · exact hthis.trans (ih hrest hothers _ other)

/-- A session that is reused is one of the candidates. -/
theorem mem_of_compatible {source : Source} {look : ℕ → Look} {listing : List ℕ}
    {same other : Option ℕ}
    (h : (m.examine now source look listing same other).2 = .compatible sid) : sid ∈ listing := by
  induction listing generalizing m same other with
  | nil =>
      rw [examine] at h
      split at h <;> cases h
  | cons j rest ih =>
      rw [examine] at h
      split at h
      · exact List.mem_cons_of_mem _ (ih h)
      · split at h
        · cases h
          exact List.mem_cons_self ..
        · exact List.mem_cons_of_mem _ (ih h)

/-- Nothing is in the way only if there are no candidates. -/
theorem nil_of_free {source : Source} {look : ℕ → Look} {listing : List ℕ}
    {same other : Option ℕ} (h : (m.examine now source look listing same other).2 = .free) :
    listing = [] ∧ same.or other = none := by
  induction listing generalizing m same other with
  | nil =>
      rw [examine] at h
      split at h
      · cases h
      · next hn => exact ⟨rfl, hn⟩
  | cons j rest ih =>
      rw [examine] at h
      split at h
      · have hnone := (ih h).2
        cases same <;> cases other <;> cases hnone
      · split at h
        · cases h
        · have hnone := (ih h).2
          cases same <;> cases hnone

end Manager

/-! ### The invariant -/

namespace Manager

/-- The live sessions of a standard user came to life after the step `k`. -/
def Since (admin : ℕ → Bool) (m : Manager) (u k : ℕ) : Prop :=
  admin u = false → ∀ sid s, m.sessions.get sid = some s → s.userId = u →
    s.state.live = true → k < s.liveSince

end Manager

/-- What holds of the manager before the step `now`. -/
structure Sound (admin : ℕ → Bool) (now : ℕ) (m : Manager) : Prop where
  listed : ∀ sid s, m.sessions.get sid = some s → sid ∈ m.route2SessionIdsByUser s.userId
  owned : ∀ u sid s, sid ∈ m.route2SessionIdsByUser u → m.sessions.get sid = some s →
    s.userId = u
  fresh : ∀ u sid, sid ∈ m.route2SessionIdsByUser u → sid < m.sessions.next
  one : ∀ u, admin u = false → ∀ sid sid', m.IsLive u sid → m.IsLive u sid' → sid = sid'
  checked : ∀ c call k, m.calls.get c = some call → call.stage.checkedAt = some k →
    k < now ∧ m.Since admin call.userId k

namespace Sound

variable {admin : ℕ → Bool} {now c sid : ℕ} {m m' : Manager} {call : Call} {stage : Stage}

theorem new : Sound admin 0 .new where
  listed _ _ hs := by cases hs
  owned _ _ _ _ hs := by cases hs
  fresh _ _ hmem := absurd hmem (Finset.notMem_empty _)
  one _ _ _ _ h := by
    obtain ⟨s, hs, -⟩ := h
    cases hs
  checked _ _ _ hc := by cases hc

theorem later (h : Sound admin now m) : Sound admin (now + 1) m :=
  { h with
    checked := fun c call k hc hk =>
      ⟨Nat.lt_succ_of_lt (h.checked c call k hc hk).1, (h.checked c call k hc hk).2⟩ }

theorem isLive_of_quiet {u : ℕ} (hq : m.Quiet m') (h : m'.IsLive u sid) : m.IsLive u sid := by
  obtain ⟨s', hs', hu', hl'⟩ := h
  obtain ⟨s, hs, hu, hl⟩ := hq.sessions sid s' hs'
  exact ⟨s, hs, hu.trans hu', (hl hl').1⟩

theorem since_quiet {u k : ℕ} (hq : m.Quiet m') (h : m.Since admin u k) :
    m'.Since admin u k := by
  intro hu sid s' hs' hu' hl'
  obtain ⟨s, hs, hus, hl⟩ := hq.sessions sid s' hs'
  obtain ⟨hlive, hsince⟩ := hl hl'
  exact hsince ▸ h hu sid s hs (hus.trans hu') hlive

/-- A step that brings no session to life. -/
theorem quiet (h : Sound admin now m) (hq : m.Quiet m') : Sound admin now m' where
  listed sid s' hs' := by
    obtain ⟨s, hs, hu, -⟩ := hq.sessions sid s' hs'
    exact hq.listed _ sid s' hs' (hu ▸ h.listed sid s hs)
  owned u sid s' hmem hs' := by
    obtain ⟨s, hs, hu, -⟩ := hq.sessions sid s' hs'
    exact hu.symm.trans (h.owned u sid s (hq.indexed u sid hmem) hs)
  fresh u sid hmem := hq.next ▸ h.fresh u sid (hq.indexed u sid hmem)
  one u hu sid sid' hl hl' :=
    h.one u hu sid sid' (isLive_of_quiet hq hl) (isLive_of_quiet hq hl')
  checked c call k hc hk := by
    rw [hq.calls] at hc
    obtain ⟨hlt, hsince⟩ := h.checked c call k hc hk
    exact ⟨hlt, since_quiet hq hsince⟩

/-- A call goes on. -/
theorem setStage (h : Sound admin now m) (hcall : m.calls.get c = some call)
    (hstage : ∀ k, stage.checkedAt = some k → k < now ∧ m.Since admin call.userId k) :
    Sound admin now (m.setStage c stage) :=
  { h with
    checked := by
      intro c' call' k hc' hk
      rcases Heap.get_of_modify hc' with ⟨rfl, call₀, hget, rfl⟩ | ⟨-, hget⟩
      · rw [hcall] at hget
        cases hget
        exact hstage k hk
      · exact h.checked c' call' k hget hk }

/-- A call goes on between its check and its registration. -/
theorem advance (h : Sound admin now m) (hcall : m.calls.get c = some call)
    (hstage : ∀ k, stage.checkedAt = some k → call.stage.checkedAt = some k) :
    Sound admin now (m.setStage c stage) :=
  h.setStage hcall fun k hk => h.checked c call k hcall (hstage k hk)

/-- The candidates of the first block are the live sessions of the user. -/
theorem mem_liveIds_iff (h : Sound admin now m) {u : ℕ} :
    sid ∈ m.liveIds u ↔ m.IsLive u sid := by
  rw [Manager.mem_liveIds]
  constructor
  · rintro ⟨hmem, s, hs, hl⟩
    exact ⟨s, hs, h.owned u sid s hmem hs, hl⟩
  · rintro ⟨s, hs, rfl, hl⟩
    exact ⟨h.listed sid s hs, s, hs, hl⟩

/-- The first block brings no session to life. -/
theorem examine_quiet (h : Sound admin now m) {u : ℕ} {listing : List ℕ} (hnodup : listing.Nodup)
    (hlisting : listing.toFinset = m.liveIds u) (source : Source) (look : ℕ → Look) :
    m.Quiet (m.examine now source look listing none none).1 := by
  refine .examine hnodup (fun sid hs s hget => ?_) none none
  rw [← List.mem_toFinset, hlisting, h.mem_liveIds_iff] at hs
  obtain ⟨s', hget', -, hl⟩ := hs
  rw [hget] at hget'
  cases hget'
  exact hl

/-- The first block. -/
theorem checkBlock (h : Sound admin now m) (hcall : m.calls.get c = some call)
    {listing : List ℕ} {look : ℕ → Look}
    (hm' : m.checkBlock admin now c call listing look = some m') : Sound admin (now + 1) m' := by
  rw [Manager.checkBlock] at hm'
  split at hm'
  · next hpre =>
    obtain ⟨-, hnodup, hlisting⟩ := hpre
    cases hm'
    have hmem : ∀ sid, sid ∈ listing ↔ m.IsLive call.userId sid := by
      intro sid
      rw [← List.mem_toFinset, hlisting, h.mem_liveIds_iff]
    have hquiet := h.examine_quiet hnodup hlisting call.source look
    have hcall' : (m.examine now call.source look listing none none).1.calls.get c = some call := by
      rw [hquiet.calls]
      exact hcall
    refine (h.quiet hquiet).later.setStage hcall' fun k hk => ?_
    cases hv : (m.examine now call.source look listing none none).2 with
    | compatible sid =>
        rw [hv] at hk
        cases hk
    | conflicting sid =>
        rw [hv, Manager.afterCheck] at hk
        cases hadmin : admin call.userId with
        | false =>
            rw [hadmin] at hk
            cases hk
        | true =>
            rw [hadmin] at hk
            cases hk
            exact ⟨Nat.lt_succ_self _, fun hno => Bool.noConfusion (hadmin.symm.trans hno)⟩
    | free =>
        rw [hv] at hk
        cases hk
        refine ⟨Nat.lt_succ_self _, Sound.since_quiet hquiet fun _ sid s hs hu hl => ?_⟩
        -- without candidates the user has no live session
        have hin : sid ∈ listing := (hmem sid).2 ⟨s, hs, hu, hl⟩
        rw [(Manager.nil_of_free hv).1] at hin
        cases hin
  · cases hm'

/-- A session that is registered while the user has no live one. -/
theorem register (h : Sound admin now m) {s : Session} (hsince : s.liveSince = now)
    (hnone : admin s.userId = false → ∀ sid, ¬ m.IsLive s.userId sid) :
    Sound admin (now + 1) (m.register s) := by
  have hget : ∀ j s', (m.register s).sessions.get j = some s' →
      (j = m.sessions.next ∧ s' = s) ∨ (j ≠ m.sessions.next ∧ m.sessions.get j = some s') := by
    intro j s' hj
    by_cases hn : j = m.sessions.next
    · subst hn
      rw [Manager.register, Heap.alloc, Heap.get_put_self] at hj
      cases hj
      exact Or.inl ⟨rfl, rfl⟩
    · rw [Manager.register, Heap.alloc, Heap.get_put_ne hn] at hj
      exact Or.inr ⟨hn, hj⟩
  -- its user had no live session, and so the new one is the only one
  have hlive : ∀ u, admin u = false → ∀ j, (m.register s).IsLive u j →
      (u = s.userId ∧ j = m.sessions.next) ∨ (u ≠ s.userId ∧ m.IsLive u j) := by
    rintro u hu j ⟨s', hj, rfl, hl⟩
    rcases hget j s' hj with ⟨rfl, rfl⟩ | ⟨-, hold⟩
    · exact Or.inl ⟨rfl, rfl⟩
    · have hold' : m.IsLive s'.userId j := ⟨s', hold, rfl, hl⟩
      refine Or.inr ⟨fun he => ?_, hold'⟩
      exact hnone (he ▸ hu) j (he ▸ hold')
  refine ⟨?_, ?_, ?_, ?_, ?_⟩
  · intro j s' hj
    show j ∈ if s'.userId = s.userId then insert m.sessions.next _ else _
    rcases hget j s' hj with ⟨rfl, rfl⟩ | ⟨-, hold⟩
    · rw [if_pos rfl]
      exact Finset.mem_insert_self ..
    · split
      · exact Finset.mem_insert_of_mem (h.listed j s' hold)
      · exact h.listed j s' hold
  · intro u j s' hmem hj
    have hmem' : j ∈ if u = s.userId then insert m.sessions.next (m.route2SessionIdsByUser u)
        else m.route2SessionIdsByUser u := hmem
    rcases hget j s' hj with ⟨rfl, rfl⟩ | ⟨hne, hold⟩
    · split at hmem'
      · next hu => exact hu.symm
      · -- the new id was in no index before
        next hu => exact absurd (h.fresh u _ hmem') (lt_irrefl _)
    · split at hmem'
      · exact h.owned u j s' (Finset.mem_of_mem_insert_of_ne hmem' hne) hold
      · exact h.owned u j s' hmem' hold
  · intro u j hmem
    have hmem' : j ∈ if u = s.userId then insert m.sessions.next (m.route2SessionIdsByUser u)
        else m.route2SessionIdsByUser u := hmem
    have hnext : (m.register s).sessions.next = m.sessions.next + 1 :=
      max_eq_right (Nat.le_succ _)
    rw [hnext]
    split at hmem'
    · rcases Finset.mem_insert.1 hmem' with rfl | hold
      · exact Nat.lt_succ_self _
      · exact Nat.lt_succ_of_lt (h.fresh u j hold)
    · exact Nat.lt_succ_of_lt (h.fresh u j hmem')
  · intro u hu j j' hj hj'
    rcases hlive u hu j hj with ⟨rfl, rfl⟩ | ⟨hne, hold⟩
    · rcases hlive _ hu j' hj' with ⟨-, rfl⟩ | ⟨hne, -⟩
      · rfl
      · exact absurd rfl hne
    · rcases hlive u hu j' hj' with ⟨rfl, -⟩ | ⟨-, hold'⟩
      · exact absurd rfl hne
      · exact h.one u hu j j' hold hold'
  · intro c call k hc hk
    obtain ⟨hlt, hafter⟩ := h.checked c call k hc hk
    refine ⟨Nat.lt_succ_of_lt hlt, fun hu j s' hj hus hl => ?_⟩
    rcases hget j s' hj with ⟨-, rfl⟩ | ⟨-, hold⟩
    · rw [hsince]
      exact hlt
    · exact hafter hu j s' hold hus hl

/-- A refresh that brings a failed session back while the user has no live one. -/
theorem revive (h : Sound admin now m) {r : Refreshed} {s : Session}
    (hs : m.sessions.get sid = some s) (hdead : s.state.live = false)
    (hlive : (r.state s.state).live = true)
    (hnone : admin s.userId = false → ∀ sid', ¬ m.IsLive s.userId sid') :
    Sound admin (now + 1) (m.refresh now sid r) := by
  have hget : ∀ j s', (m.refresh now sid r).sessions.get j = some s' →
      (j = sid ∧ s'.userId = s.userId ∧ s'.liveSince = now) ∨ m.sessions.get j = some s' := by
    intro j s' hj
    rcases Heap.get_of_modify hj with ⟨rfl, s₀, hs₀, rfl⟩ | ⟨-, hold⟩
    · rw [hs] at hs₀
      cases hs₀
      exact Or.inl ⟨rfl, rfl, if_pos ⟨hdead, hlive⟩⟩
    · exact Or.inr hold
  have hids : ∀ u j, (m.refresh now sid r).IsLive u j → admin u = false →
      (u = s.userId ∧ j = sid) ∨ (u ≠ s.userId ∧ m.IsLive u j) := by
    rintro u j ⟨s', hj, rfl, hl⟩ hu
    rcases hget j s' hj with ⟨rfl, hus, -⟩ | hold
    · exact Or.inl ⟨hus, rfl⟩
    · refine Or.inr ⟨fun he => ?_, s', hold, rfl, hl⟩
      exact hnone (he ▸ hu) j ⟨s', hold, he, hl⟩
  refine ⟨?_, ?_, h.fresh, ?_, ?_⟩
  · intro j s' hj
    rcases hget j s' hj with ⟨rfl, hus, -⟩ | hold
    · exact hus ▸ h.listed j s hs
    · exact h.listed j s' hold
  · intro u j s' hmem hj
    rcases hget j s' hj with ⟨rfl, hus, -⟩ | hold
    · exact hus.trans (h.owned u j s hmem hs)
    · exact h.owned u j s' hmem hold
  · intro u hu j j' hj hj'
    rcases hids u j hj hu with ⟨rfl, rfl⟩ | ⟨hne, hold⟩
    · rcases hids _ j' hj' hu with ⟨-, rfl⟩ | ⟨hne, -⟩
      · rfl
      · exact absurd rfl hne
    · rcases hids u j' hj' hu with ⟨rfl, -⟩ | ⟨-, hold'⟩
      · exact absurd rfl hne
      · exact h.one u hu j j' hold hold'
  · intro c call k hc hk
    obtain ⟨hlt, hafter⟩ := h.checked c call k hc hk
    refine ⟨Nat.lt_succ_of_lt hlt, fun hu j s' hj hus hl => ?_⟩
    rcases hget j s' hj with ⟨-, -, hsince⟩ | hold
    · rw [hsince]
      exact hlt
    · exact hafter hu j s' hold hus hl

/-- The refresh of an answer. -/
theorem refresh (h : Sound admin now m) {r : Refreshed}
    (hcond : ∀ s, m.sessions.get sid = some s → admin s.userId = false → s.state.live = false →
      (r.state s.state).live = true → ∀ sid', ¬ m.IsLive s.userId sid') :
    Sound admin (now + 1) (m.refresh now sid r) := by
  by_cases hrev : ∃ s, m.sessions.get sid = some s ∧ s.state.live = false ∧
      (r.state s.state).live = true
  · obtain ⟨s, hs, hdead, hlive⟩ := hrev
    exact h.revive hs hdead hlive fun hu => hcond s hs hu hdead hlive
  · refine (h.quiet (.refresh fun s hs hl => ?_)).later
    by_contra hdead
    exact hrev ⟨s, hs, Bool.eq_false_of_not_eq_true hdead, hl⟩

/-- The third block. -/
theorem registerBlock (h : Sound admin now m) (hcall : m.calls.get c = some call)
    (hcond : m.Undisturbed admin (.register c))
    (hm' : m.registerBlock now c call = some m') : Sound admin (now + 1) m' := by
  unfold Manager.registerBlock at hm'
  split at hm'
  next k hstage =>
    cases hm'
    have hreg : Sound admin (now + 1)
        (m.register ⟨call.userId, call.source, .preparing, now⟩) := by
      refine h.register rfl fun hu sid hlive => ?_
      obtain ⟨s, hs, hus, hl⟩ := hlive
      have hk : call.stage.checkedAt = some k := by rw [hstage]; rfl
      have hsince := (h.checked c call k hcall hk).2 hu sid s hs hus hl
      exact hcond call k hcall hstage hu ⟨sid, s, hs, hus, hl, hsince⟩
    exact hreg.setStage hcall fun k' hk' => by cases hk'
  next => cases hm'

/-- The answer. -/
theorem answerBlock (h : Sound admin now m) (hcall : m.calls.get c = some call)
    {refreshed : Option Refreshed} (hcond : m.Undisturbed admin (.answer c refreshed))
    (hm' : m.answerBlock now c call refreshed = some m') : Sound admin (now + 1) m' := by
  have hend : ∀ {m : Manager} (_ : Sound admin (now + 1) m) (_ : m.calls.get c = some call)
      (stage : Stage) (_ : stage.checkedAt = none), Sound admin (now + 1) (m.setStage c stage) := by
    intro m h hcall stage hnone
    exact h.advance hcall fun k hk => by rw [hnone] at hk; cases hk
  unfold Manager.answerBlock at hm'
  split at hm'
  next => cases hm'
  next sid hans =>
    split at hm'
    next =>
      cases hm'
      exact hend h.later hcall _ rfl
    next r =>
      split at hm'
      · cases hm'
        exact hend (h.refresh fun s hs hu hdead hlive =>
          hcond call sid s hcall hans hs hu hdead hlive) hcall _ rfl
      · cases hm'
        exact hend h.later hcall _ rfl

/-- Every block keeps the invariant, under the condition on it. -/
theorem block (h : Sound admin now m) {a : Action} (hcond : m.Undisturbed admin a)
    (hm' : m.block admin now a = some m') : Sound admin (now + 1) m' := by
  cases a with
  | arrive u source cloud =>
      cases hm'
      refine { h.later with checked := ?_ }
      intro c call k hc hk
      by_cases hn : c = m.calls.next
      · subst hn
        rw [Heap.alloc, Heap.get_put_self] at hc
        cases hc
        cases hk
      · rw [Heap.alloc, Heap.get_put_ne hn] at hc
        exact h.later.checked c call k hc hk
  | check c listing look =>
      obtain ⟨call, hcall, hblock⟩ := Option.bind_eq_some_iff.1 hm'
      exact h.checkBlock hcall hblock
  | access c granted =>
      obtain ⟨call, hcall, hblock⟩ := Option.bind_eq_some_iff.1 hm'
      unfold Manager.accessCheck at hblock
      split at hblock
      next k hstage =>
        cases hblock
        refine h.later.advance hcall fun k' hk' => ?_
        split at hk'
        · cases hk'
        · rw [hstage]
          exact hk'
      next => cases hblock
  | admission c denied =>
      obtain ⟨call, hcall, hblock⟩ := Option.bind_eq_some_iff.1 hm'
      unfold Manager.admitBlock at hblock
      split at hblock
      next k hstage =>
        cases hblock
        refine h.later.advance hcall fun k' hk' => ?_
        split at hk'
        · cases hk'
        · rw [hstage]
          exact hk'
      next => cases hblock
  | register c =>
      obtain ⟨call, hcall, hblock⟩ := Option.bind_eq_some_iff.1 hm'
      exact h.registerBlock hcall hcond hblock
  | touch c =>
      obtain ⟨call, hcall, hblock⟩ := Option.bind_eq_some_iff.1 hm'
      unfold Manager.touchBlock at hblock
      split at hblock
      next sid hstage =>
        cases hblock
        exact h.later.advance hcall fun k hk => by cases hk
      next => cases hblock
  | answer c refreshed =>
      obtain ⟨call, hcall, hblock⟩ := Option.bind_eq_some_iff.1 hm'
      exact h.answerBlock hcall hcond hblock
  | stop u sid =>
      cases hm'
      unfold Manager.stopBlock
      split
      · exact (h.quiet (.drop m sid)).later
      · exact h.later
  | expire sids =>
      cases hm'
      exact (h.quiet (.expire m sids)).later

/-- A session that is reused is the one live session of the user. -/
theorem settled_check (h : Sound admin now m) {listing : List ℕ} {look : ℕ → Look}
    (hm' : m.block admin now (.check c listing look) = some m') :
    m.Settled admin m' (.check c listing look) := by
  obtain ⟨call, hcall, hblock⟩ := Option.bind_eq_some_iff.1 hm'
  rw [Manager.checkBlock] at hblock
  split at hblock
  · next hpre =>
    cases hblock
    intro call' sid hcall' hu hstage sid'
    rcases Heap.get_of_modify hcall' with ⟨-, call₀, hget, rfl⟩ | ⟨hne, -⟩
    · have hv : (m.examine now call.source look listing none none).2 = .compatible sid := by
        cases hv : (m.examine now call.source look listing none none).2 with
        | compatible j =>
            rw [hv] at hstage
            cases hstage
            rfl
        | conflicting j =>
            rw [hv, Manager.afterCheck] at hstage
            split at hstage <;> cases hstage
        | free =>
            rw [hv] at hstage
            cases hstage
      have hsame : call₀ = call := by
        by_contra hne
        have hcalls : (m.examine now call.source look listing none none).1.calls = m.calls :=
          (h.examine_quiet hpre.2.1 hpre.2.2 call.source look).calls
        rw [hcalls, hcall] at hget
        exact hne (Option.some.inj hget).symm
      subst hsame
      have hlive : m.IsLive call₀.userId sid := by
        rw [← h.mem_liveIds_iff, ← hpre.2.2, List.mem_toFinset]
        exact Manager.mem_of_compatible hv
      constructor
      · exact fun hl => h.one _ hu sid' sid hl hlive
      · rintro rfl
        exact hlive
    · exact absurd rfl hne
  · cases hblock

/-- A session that is registered is then the one live session of the user. -/
theorem settled_register (h : Sound admin now m) (hcond : m.Undisturbed admin (.register c))
    (hm' : m.block admin now (.register c) = some m') : m.Settled admin m' (.register c) := by
  have hsound := h.block hcond hm'
  obtain ⟨call, hcall, hblock⟩ := Option.bind_eq_some_iff.1 hm'
  unfold Manager.registerBlock at hblock
  split at hblock
  next k hk =>
    cases hblock
    intro call' sid hcall' hu hstage sid'
    rcases Heap.get_of_modify hcall' with ⟨-, call₀, hget, rfl⟩ | ⟨hne, -⟩
    · have hsame : call₀ = call := Option.some.inj (hget.symm.trans hcall)
      subst hsame
      cases hstage
      have hnew : (m.register ⟨call₀.userId, call₀.source, .preparing, now⟩).sessions.get
          m.sessions.next = some ⟨call₀.userId, call₀.source, .preparing, now⟩ :=
        Heap.get_put_self
      have hlive : Manager.IsLive _ call₀.userId m.sessions.next := ⟨_, hnew, rfl, rfl⟩
      constructor
      · exact fun hl => hsound.one _ hu sid' _ hl hlive
      · rintro rfl
        exact hlive
    · exact absurd rfl hne
  next => cases hblock

theorem settled_answer {refreshed : Option Refreshed}
    (hm' : m.block admin now (.answer c refreshed) = some m') :
    m.Settled admin m' (.answer c refreshed) := by
  intro call sid call' hcall hans hcall'
  obtain ⟨call₀, hcall₀, hblock⟩ := Option.bind_eq_some_iff.1 hm'
  rw [hcall] at hcall₀
  cases hcall₀
  rw [Manager.answerBlock, hans] at hblock
  dsimp only at hblock
  split at hblock
  · cases hblock
    rw [Manager.setStage, Heap.get_modify_self, hcall] at hcall'
    cases hcall'
    exact Or.inr rfl
  · split at hblock
    · cases hblock
      rw [Manager.setStage, Heap.get_modify_self, Manager.refresh, hcall] at hcall'
      cases hcall'
      exact Or.inl rfl
    · cases hblock
      rw [Manager.setStage, Heap.get_modify_self, hcall] at hcall'
      cases hcall'
      exact Or.inr rfl

/-- What every block of a call comes to. -/
theorem settled (h : Sound admin now m) {a : Action} (hcond : m.Undisturbed admin a)
    (hm' : m.block admin now a = some m') : m.Settled admin m' a := by
  cases a with
  | check c listing look => exact h.settled_check hm'
  | register c => exact h.settled_register hcond hm'
  | answer c refreshed => exact settled_answer hm'
  | arrive | access | admission | touch | stop | expire => trivial

end Sound

/-- The states that are reached by steps that meet the condition. -/
abbrev QuietRun (admin : ℕ → Bool) (sys : System) : Prop :=
  Reach (System.step admin) (fun sys a => sys.manager.Undisturbed admin a) .new sys

theorem QuietRun.sound {admin : ℕ → Bool} {sys : System} (h : QuietRun admin sys) :
    Sound admin sys.clock sys.manager := by
  refine Reach.invariant (P := fun sys => Sound admin sys.clock sys.manager) .new ?_ h
  intro sys a sys' _ hs hok hst
  obtain ⟨m', hm', rfl⟩ := Option.map_eq_some_iff.1 hst
  exact hs.block hok hm'

/-- In every run in which no session of a standard user comes to life between the
check and the registration of a call of the user, and no answer brings a failed
one back beside a live one, a standard user has at most one live session, and a
call reuses that one, raises or registers the only one. -/
theorem one_live_session {admin : ℕ → Bool} {sys : System} (h : QuietRun admin sys) :
    (∀ u, admin u = false → ∀ sid sid', sys.manager.IsLive u sid → sys.manager.IsLive u sid' →
      sid = sid') ∧
    ∀ a sys', sys.manager.Undisturbed admin a → sys.step admin a = some sys' →
      sys.manager.Settled admin sys'.manager a := by
  have hsound := h.sound
  refine ⟨hsound.one, fun a sys' hok hst => ?_⟩
  obtain ⟨m', hm', rfl⟩ := Option.map_eq_some_iff.1 hst
  exact hsound.settled hok hm'

/-- A movie, and another one. -/
def sampleSource (item : ℕ) : Source := ⟨item, "mobile_1080p", "lite", none, "f", "k"⟩

/-- The user 1 creates a session, and then asks for the same movie again. -/
def sampleActions : List Action :=
  [.arrive 1 (sampleSource 1) false, .check 0 [] fun _ => ⟨.unchanged, true⟩, .access 0 true,
    .admission 0 false, .register 0, .answer 0 (some .ready)]

def sampleAfter (n : ℕ) : System :=
  (runFrom (System.step fun _ => false) .new (sampleActions.take n)).getD .new

/-- The user has the session of the first call, and no other. -/
theorem one_live_session_alone : (sampleAfter 6).manager.IsLive 1 0 ∧
    ∀ sid, (sampleAfter 6).manager.IsLive 1 sid → sid = 0 := by
  have h₁ : QuietRun (fun _ => false) (sampleAfter 1) :=
    .next (a := .arrive 1 (sampleSource 1) false) .start trivial rfl
  have h₂ : QuietRun (fun _ => false) (sampleAfter 2) :=
    .next (a := .check 0 [] fun _ => ⟨.unchanged, true⟩) h₁ trivial rfl
  have h₃ : QuietRun (fun _ => false) (sampleAfter 3) :=
    .next (a := .access 0 true) h₂ trivial rfl
  have h₄ : QuietRun (fun _ => false) (sampleAfter 4) :=
    .next (a := .admission 0 false) h₃ trivial rfl
  have h₅ : QuietRun (fun _ => false) (sampleAfter 5) := by
    refine .next (a := .register 0) h₄ ?_ rfl
    rintro call k - - - ⟨sid, s, hs, -⟩
    cases hs
  have h₆ : QuietRun (fun _ => false) (sampleAfter 6) := by
    refine Reach.next (a := .answer 0 (some .ready)) h₅ ?_ rfl
    rintro call sid s hcall hans hs - hdead
    cases hcall
    cases hans
    cases hs
    cases hdead
  have hlive : (sampleAfter 6).manager.IsLive 1 0 := ⟨_, rfl, rfl, rfl⟩
  exact ⟨hlive, fun sid hl => (one_live_session h₆).1 1 rfl sid 0 hl hlive⟩

/-- The user 1 creates two sessions at once. -/
def raceActions : List Action :=
  [.arrive 1 (sampleSource 1) false, .arrive 1 (sampleSource 2) false,
    .check 0 [] fun _ => ⟨.unchanged, true⟩, .check 1 [] fun _ => ⟨.unchanged, true⟩,
    .access 0 true, .access 1 true, .admission 0 false, .admission 1 false,
      .register 0, .register 1]

def afterRace : System := (runFrom (System.step fun _ => false) .new raceActions).getD .new

/-- Both calls find no session in the way, and both register one. -/
theorem two_live_sessions : ¬ ∀ sys, Reach (System.step fun _ => false) (fun _ _ => True) .new sys →
    ∀ u sid sid', sys.manager.IsLive u sid → sys.manager.IsLive u sid' → sid = sid' := by
  intro hone
  have hrun : runFrom (System.step fun _ => false) .new raceActions = some afterRace := rfl
  have hsame : (0 : ℕ) = 1 :=
    hone afterRace (reach_of_runFrom hrun) 1 0 1 ⟨_, rfl, rfl, rfl⟩ ⟨_, rfl, rfl, rfl⟩
  exact absurd hsame Nat.zero_ne_one

end SessionLimit
