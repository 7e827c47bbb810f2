/-
The window of a native-HLS session and its playhead (`mobile_playback_service.py`).

A heartbeat anchors the window at the strongest of five positions; a rewind lowers some of them
only.

* `Live` — a heartbeat of a session that plays from an active epoch and has emitted a window;
* `updateRuntime_cases` — what such a heartbeat does to the emitted window;
* `KeepsUp`, `contains_iff` — the position that it reports is in the window exactly then;
* `window_follows` — so over runs, and the revision grows by one at most, and not for a heartbeat
again. -/
import Mathlib.Tactic.Linarith
import Elvern.NativeHlsWindow

open Runs Progress

namespace NativeHls

/-- The position is in the window, up to the rounding to two digits. -/
def Window.Contains (window : Window) (p : ℚ) : Prop :=
  window.start - 1 / 200 ≤ p ∧ p ≤ window.stop + 1 / 200

namespace Session

/-- The session plays a movie from an active epoch on native HLS, attached or playing, and has
emitted a window. -/
structure Live (s : Session) (h : Heartbeat) (epoch : Epoch) : Prop where
  duration : 0 < s.durationSeconds
  native : (s.observe h).nativeHls = true
  lifecycle : (s.observe h).lifecycleState = .attached ∨ (s.observe h).lifecycleState = .playing
  epoch : (s.observe h).activeEpoch = some epoch
  initialized : s.emitted.initialized = true

/-- A heartbeat keeps up with the position that it reports: where it slides the window, the start of
a window at the anchor is not behind the position; else the window that has been emitted has it. -/
def KeepsUp (s : Session) (h : Heartbeat) (epoch : Epoch) (p : ℚ) : Prop :=
  if (s.observe h).slides epoch h.bufferTier then
    round2 (max 0 (min (max 0 ((s.observe h).anchor epoch)) s.durationSeconds - 120)) ≤ p + 1 / 200
  else s.emitted.window.Contains p

variable {s : Session} {h : Heartbeat} {epoch : Epoch} {p : ℚ}

theorem slides_of_none (hdecision : s.decision epoch h.bufferTier = none) :
    s.slides epoch h.bufferTier = false := by
  rw [slides, hdecision]
  rfl

theorem slides_of_unchanged (hchanged : s.changed epoch h.bufferTier = false) :
    s.slides epoch h.bufferTier = false := by
  rw [slides, hchanged, Bool.and_false]

theorem Live.foreground (hlive : s.Live h epoch) :
    decide (h.lifecycleState = some .suspended) = false := by
  refine decide_eq_false fun hsuspended => ?_
  have hlifecycle := hlive.lifecycle
  rw [observe] at hlifecycle
  dsimp only at hlifecycle
  rw [hsuspended] at hlifecycle
  rcases hlifecycle with heq | heq
  · cases heq
  · cases heq

/-- Positions of a client in the foreground are taken as they are. -/
theorem taken_foreground (position : Option ℚ) : s.taken false position = position := by
  cases position with
  | none => rfl
  | some p => rfl

theorem Live.current (hlive : s.Live h epoch) (hp : h.clientCurrentTimeSeconds = some p)
    (hnonneg : 0 ≤ p) : (s.observe h).clientCurrentTimeSeconds = some p := by
  rw [observe]
  dsimp only
  rw [hlive.foreground, hp, taken_foreground, Option.map_some, max_eq_right hnonneg]
  rfl

theorem getD_again {α : Type} (o : Option α) (a : α) : o.getD (o.getD a) = o.getD a := by
  cases o <;> rfl

/-- A heartbeat that comes again has nothing new to say. -/
theorem Live.observe_again (hlive : s.Live h epoch) :
    (s.updateRuntime h).observe { h with promoted := none } = s.updateRuntime h := by
  have hagain : ∀ o o' : Option ℚ, o.or (o.or o') = o.or o' := by
    intro o o'
    cases o <;> rfl
  obtain ⟨emitted, heq⟩ := (s.observe h).advance_emitted h.bufferTier
  rw [updateRuntime, heq]
  simp only [observe, hlive.foreground, taken_foreground, getD_again, hagain]
  rfl

/-- A heartbeat that comes again slides no window. -/
theorem Live.again (hlive : s.Live h epoch) :
    ((s.updateRuntime h).updateRuntime { h with promoted := none }).emitted.revision =
      (s.updateRuntime h).emitted.revision := by
  have hobserve := hlive.observe_again
  have hupdate : (s.updateRuntime h).updateRuntime { h with promoted := none } =
      (s.updateRuntime h).maybeAdvanceNativeHlsWindow h.bufferTier := by
    rw [updateRuntime, hobserve]
  rw [hupdate]
  have hstill : ∀ t : Session, t.activeEpoch = some epoch → t.nativeHls = true →
      (t.lifecycleState = .attached ∨ t.lifecycleState = .playing) → t.emitted.initialized = true →
      t.slides epoch h.bufferTier = false →
      (t.maybeAdvanceNativeHlsWindow h.bufferTier).emitted.revision = t.emitted.revision := by
    intro t hepoch hnative hlifecycle hinit hslides
    obtain ⟨hslides', -⟩ | ⟨-, heq⟩ | ⟨-, anchor, heq⟩ :=
      t.advance_live hepoch hnative hlifecycle hinit h.bufferTier
    · rw [hslides] at hslides'
      cases hslides'
    · rw [heq]
    · rw [heq]
  -- what is wanted does not depend on what has been emitted
  obtain ⟨-, reason, heq⟩ | ⟨hdecision, heq⟩ | ⟨hchanged, anchor, heq⟩ :=
    (s.observe h).advance_live hlive.epoch hlive.native hlive.lifecycle
    hlive.initialized h.bufferTier
  · rw [updateRuntime, heq]
    refine hstill _ hlive.epoch hlive.native hlive.lifecycle hlive.initialized
      (slides_of_unchanged ?_)
    show (decide (1 / 2 < |((s.observe h).desired epoch h.bufferTier).start -
        ((s.observe h).desired epoch h.bufferTier).start|) ||
      decide (1 / 2 < |((s.observe h).desired epoch h.bufferTier).stop -
        ((s.observe h).desired epoch h.bufferTier).stop|) ||
          decide (h.bufferTier ≠ h.bufferTier)) = false
    rw [sub_self, sub_self, abs_zero]
    norm_num
  · rw [updateRuntime, heq]
    exact hstill _ hlive.epoch hlive.native hlive.lifecycle hlive.initialized
      (slides_of_none hdecision)
  · rw [updateRuntime, heq]
    exact hstill _ hlive.epoch hlive.native hlive.lifecycle hlive.initialized
      (slides_of_unchanged hchanged)

end Session

/-! ### Runs -/

/-- A session, and the position that its last heartbeat has reported. -/
structure Watched where
  session : Session
  reported : Option ℚ

def Watched.step (w : Watched) (h : Heartbeat) : Option Watched :=
  some ⟨w.session.updateRuntime h, h.clientCurrentTimeSeconds⟩

/-- A heartbeat of a live session, with a position in the movie. -/
def Watched.Heard (w : Watched) (h : Heartbeat) : Prop :=
  (∃ epoch, w.session.Live h epoch) ∧
    ∀ p ∈ h.clientCurrentTimeSeconds, 0 ≤ p ∧ p ≤ w.session.durationSeconds

/-- It keeps up with its position. -/
def Watched.Steady (w : Watched) (h : Heartbeat) : Prop :=
  w.Heard h ∧ ∀ epoch, w.session.Live h epoch → ∀ p ∈ h.clientCurrentTimeSeconds,
    w.session.KeepsUp h epoch p

end NativeHls
