/-
The pending events of the diagnostics writer (`playback_diagnostics/writer.py`).

`enqueue` notes the keys of the events it accepts under one lock, and puts the batch into the queue
after it; other threads and the worker may come between. The worker takes a batch, and releases its
keys when it is done with it, whether it was written or not.

* `acceptEvents`, `Writer.step` — the loop of `enqueue`, and the steps of the writer;
* `Pending.Holds` — the pending ids and sequences are those of the given keys;
* `Harmless` — a batch that raises does so before any of its events is new;
* `pending_bookkeeping` — from steps with harmless batches only, the keys that are held are those of
  the batches on their way;
* `raising_batch_leaks` — a batch that raises in its middle leaves a key behind.
-/
import Mathlib.Data.Finset.Basic
import Mathlib.Data.List.Basic
import Mathlib.Logic.Function.Basic
import Mathlib.Tactic.Common
import Elvern.Runs

open Runs

namespace PendingEvents

/-! ### The writer -/

/-- An event as the bookkeeping reads it; a field is `none` where it is missing or cannot be
converted. -/
structure Event where
  eventId : Option String
  sourceSequence : Option ℤ
  deriving DecidableEq

/-- The id of an event, its source and its sequence. -/
abbrev Key := String × String × ℤ

/-- `_event_key`; `none` where it raises. -/
def eventKey (sourceId : String) (event : Event) : Option Key :=
  match event.eventId, event.sourceSequence with
  | some eventId, some sequence => some (eventId, sourceId, sequence)
  | _, _ => none

structure WriteBatch where
  playbackSessionId : String
  sourceId : String
  events : List Event
  allocateSourceSequences : Bool
  deriving DecidableEq

/-- `_pending_event_ids` and `_pending_source_sequences`. -/
structure Pending where
  eventIds : Finset String
  sourceSequences : String × ℤ → Option String

def Pending.empty : Pending := ⟨∅, fun _ => none⟩

def Pending.add (p : Pending) (key : Key) : Pending :=
  ⟨insert key.1 p.eventIds, Function.update p.sourceSequences key.2 (some key.1)⟩

/-- One round of `_release_pending_keys`. -/
def Pending.release (p : Pending) (key : Key) : Pending :=
  ⟨p.eventIds.erase key.1,
    if p.sourceSequences key.2 = some key.1 then Function.update p.sourceSequences key.2 none
    else p.sourceSequences⟩

def Pending.releaseKeys (p : Pending) (keys : List Key) : Pending := keys.foldl Pending.release p

/-- Why `enqueue` raises. -/
inductive EnqueueError
  | badKey
  | reusedId
  | conflictingSequences
  | pendingConflict
  deriving DecidableEq

/-- The text of the error; that of a bad key is Python's own. -/
def EnqueueError.text : EnqueueError → String
  | .badKey => ""
  | .reusedId => "Diagnostics event id is reused with another sequence"
  | .conflictingSequences => "Diagnostics batch contains conflicting source sequences"
  | .pendingConflict => "Diagnostics source sequence is already pending with another event"

/-- What the loop of `enqueue` works with. -/
structure Accepting where
  pending : Pending
  seenIds : String → Option ℤ
  seenSequences : ℤ → Option String
  acceptedEvents : List Event
  acceptedKeys : List Key
  duplicate : ℕ

def Accepting.start (pending : Pending) : Accepting :=
  ⟨pending, fun _ => none, fun _ => none, [], [], 0⟩

/-- One round of the loop. -/
def acceptEvent (sourceId : String) (s : Accepting) (event : Event) :
    Except EnqueueError Accepting :=
  match eventKey sourceId event with
  | none => .error .badKey
  | some (eventId, source, sequence) =>
    if s.seenIds eventId ≠ none ∧ s.seenIds eventId ≠ some sequence then .error .reusedId
    else if s.seenSequences sequence ≠ none ∧ s.seenSequences sequence ≠ some eventId then
      .error .conflictingSequences
    else if s.seenIds eventId ≠ none ∨ s.seenSequences sequence ≠ none then
      .ok { s with duplicate := s.duplicate + 1 }
    else
      let seen := { s with
        seenIds := Function.update s.seenIds eventId (some sequence)
        seenSequences := Function.update s.seenSequences sequence (some eventId) }
      let pendingEventId := s.pending.sourceSequences (source, sequence)
      if pendingEventId ≠ none ∧ pendingEventId ≠ some eventId then .error .pendingConflict
      else if eventId ∈ s.pending.eventIds ∨ pendingEventId = some eventId then
        .ok { seen with duplicate := seen.duplicate + 1 }
      else
        .ok { seen with
          pending := seen.pending.add (eventId, source, sequence)
          acceptedKeys := seen.acceptedKeys ++ [(eventId, source, sequence)]
          acceptedEvents := seen.acceptedEvents ++ [event] }

/-- The loop; what has been noted before an event that raises stays noted. -/
def acceptEvents (sourceId : String) : Accepting → List Event → Accepting × Option EnqueueError
  | s, [] => (s, none)
  | s, event :: rest =>
    match acceptEvent sourceId s event with
    | .error error => (s, some error)
    | .ok s' => acceptEvents sourceId s' rest

/-- The writer: the keys that are held, the batches of the calls that have not come to the queue,
the queue, and the batch at the worker. -/
structure Writer where
  pending : Pending
  submitting : List WriteBatch
  queue : List WriteBatch
  writing : Option WriteBatch

def Writer.empty : Writer := ⟨.empty, [], [], none⟩

/-- `enqueue` up to the queue, and how many events are duplicates. -/
def Writer.accept (w : Writer) (batch : WriteBatch) : Writer × Except EnqueueError ℕ :=
  if batch.allocateSourceSequences then ({ w with submitting := w.submitting ++ [batch] }, .ok 0)
  else
    match acceptEvents batch.sourceId (.start w.pending) batch.events with
    | (s, some error) => ({ w with pending := s.pending }, .error error)
    | (s, none) =>
      if s.acceptedEvents = [] then ({ w with pending := s.pending }, .ok s.duplicate)
      else
        ({ w with
          pending := s.pending
          submitting := w.submitting ++ [{ batch with events := s.acceptedEvents }] },
            .ok s.duplicate)

/-- The keys of a batch that its events hold. -/
def WriteBatch.heldKeys (batch : WriteBatch) : List Key :=
  if batch.allocateSourceSequences then [] else batch.events.filterMap (eventKey batch.sourceId)

/-- `_release_pending_batch`; the events of a batch on its way all have keys. -/
def Writer.releaseBatch (w : Writer) (batch : WriteBatch) : Writer :=
  { w with pending := w.pending.releaseKeys batch.heldKeys }

inductive Action
  /-- A call of `enqueue` up to the queue. -/
  | accept (batch : WriteBatch)
  /-- The end of the call whose batch is the given one of those submitted. -/
  | put (index : ℕ) (full : Bool)
  | take
  /-- The worker is done with its batch. -/
  | finish

def Writer.step (w : Writer) : Action → Option Writer
  | .accept batch => some (w.accept batch).1
  | .put index full =>
    match w.submitting[index]? with
    | none => none
    | some batch =>
      let rest := { w with submitting := w.submitting.eraseIdx index }
      some (if full then rest.releaseBatch batch else { rest with queue := rest.queue ++ [batch] })
  | .take =>
    match w.writing, w.queue with
    | none, batch :: rest => some { w with queue := rest, writing := some batch }
    | _, _ => none
  | .finish => w.writing.map fun batch => { w with writing := none }.releaseBatch batch

/-- The keys of all batches on their way. -/
def Writer.heldKeys (w : Writer) : List Key :=
  (w.submitting ++ w.queue ++ w.writing.toList).flatMap WriteBatch.heldKeys

/-! ### The keys that are held -/

/-- The pending ids and sequences are those of the keys, each id once. -/
structure Pending.Holds (p : Pending) (keys : List Key) : Prop where
  ids : ∀ eventId, eventId ∈ p.eventIds ↔ ∃ key ∈ keys, key.1 = eventId
  sequences : ∀ place eventId, p.sourceSequences place = some eventId ↔ (eventId, place) ∈ keys
  once : (keys.map Prod.fst).Nodup

section Keys

variable {p p' : Pending} {keys keys' : List Key} {key : Key}

theorem Pending.Holds.perm (h : p.Holds keys) (hperm : keys.Perm keys') : p.Holds keys' where
  ids eventId := by
    rw [h.ids]
    exact exists_congr fun key => by rw [hperm.mem_iff]
  sequences place eventId := by rw [h.sequences, hperm.mem_iff]
  once := (hperm.map Prod.fst).nodup_iff.1 h.once

/-- What is held determines the ids and sequences. -/
theorem Pending.Holds.unique (h : p.Holds keys) (h' : p'.Holds keys) : p = p' := by
  have hids : p.eventIds = p'.eventIds := by
    ext eventId
    rw [h.ids, h'.ids]
  have hsequences : p.sourceSequences = p'.sourceSequences := by
    funext place
    refine Option.ext fun eventId => ?_
    rw [h.sequences, h'.sequences]
  cases p
  cases p'
  cases hids
  cases hsequences
  rfl

theorem Pending.Holds.add (h : p.Holds keys) (hid : key.1 ∉ p.eventIds)
    (hplace : p.sourceSequences key.2 = none) : (p.add key).Holds (keys ++ [key]) where
  ids eventId := by
    simp only [Pending.add, Finset.mem_insert, h.ids, List.mem_append, List.mem_singleton]
    constructor
    · rintro (rfl | ⟨k, hk, rfl⟩)
      · exact ⟨key, Or.inr rfl, rfl⟩
      · exact ⟨k, Or.inl hk, rfl⟩
    · rintro ⟨k, hk | rfl, rfl⟩
      · exact Or.inr ⟨k, hk, rfl⟩
      · exact Or.inl rfl
  sequences place eventId := by
    simp only [Pending.add, Function.update_apply, List.mem_append, List.mem_singleton]
    split_ifs with hp
    · subst hp
      have hnot : (eventId, key.2) ∉ keys := by
        rw [← h.sequences, hplace]
        exact fun heq => by cases heq
      constructor
      · intro heq
        exact Or.inr (by rw [← Option.some.inj heq])
      · rintro (hmem | heq)
        · exact absurd hmem hnot
        · rw [← heq]
    · rw [h.sequences]
      refine ⟨Or.inl, fun hmem => hmem.resolve_right fun heq => hp ?_⟩
      rw [← heq]
  once := by
    rw [List.map_append, List.map_singleton, List.nodup_append]
    refine ⟨h.once, List.nodup_singleton _, fun a ha b hb => ?_⟩
    rw [List.mem_singleton.1 hb]
    rintro rfl
    obtain ⟨k, hk, heq⟩ := List.mem_map.1 ha
    exact hid ((h.ids _).2 ⟨k, hk, heq⟩)

theorem Pending.Holds.release (h : p.Holds (key :: keys)) : (p.release key).Holds keys := by
  have hplace : p.sourceSequences key.2 = some key.1 :=
    (h.sequences key.2 key.1).2 (List.mem_cons_self ..)
  have honce := List.nodup_cons.1 h.once
  have hother : ∀ k ∈ keys, k.1 ≠ key.1 := fun k hk heq => honce.1 (heq ▸ List.mem_map_of_mem hk)
  refine ⟨fun eventId => ?_, fun place eventId => ?_, honce.2⟩
  · simp only [Pending.release, Finset.mem_erase, h.ids, List.mem_cons]
    constructor
    · rintro ⟨hne, k, rfl | hk, rfl⟩
      · exact absurd rfl hne
      · exact ⟨k, hk, rfl⟩
    · rintro ⟨k, hk, rfl⟩
      exact ⟨hother k hk, k, Or.inr hk, rfl⟩
  · simp only [Pending.release, if_pos hplace, Function.update_apply]
    split_ifs with hp
    · subst hp
      refine ⟨fun heq => (by cases heq), fun hmem => ?_⟩
      have heq := (h.sequences key.2 eventId).2 (List.mem_cons_of_mem _ hmem)
      exact absurd (Option.some.inj (heq.symm.trans hplace)) (hother _ hmem)
    · rw [h.sequences, List.mem_cons]
      refine ⟨fun hmem => hmem.resolve_left fun heq => hp ?_, Or.inr⟩
      rw [← heq]

theorem Pending.Holds.releaseKeys {released : List Key} (h : p.Holds (released ++ keys)) :
    (p.releaseKeys released).Holds keys := by
  induction released generalizing p with
  | nil => exact h
  | cons key rest ih => exact ih h.release

end Keys

/-! ### The loop -/

/-- The loop raises at the event, after the events before it. -/
def Raises (p : Pending) (sourceId : String) (before : List Event) (event : Event) : Prop :=
  eventKey sourceId event = none ∨ ∃ eventId sequence, event = ⟨some eventId, some sequence⟩ ∧
    ((∃ b ∈ before, b.eventId = some eventId ∧ b.sourceSequence ≠ some sequence) ∨
      (∃ b ∈ before, b.sourceSequence = some sequence ∧ b.eventId ≠ some eventId) ∨
      (∀ b ∈ before, b.sourceSequence ≠ some sequence) ∧
        ∃ other, p.sourceSequences (sourceId, sequence) = some other ∧ other ≠ eventId)

/-- The first event that raises, if there is one, comes after events whose ids are pending
already. -/
def Harmless (w : Writer) (batch : WriteBatch) : Prop :=
  batch.allocateSourceSequences = false → ∀ before event rest,
    batch.events = before ++ event :: rest → Raises w.pending batch.sourceId before event →
    (∀ before' event' rest', before = before' ++ event' :: rest' →
      ¬ Raises w.pending batch.sourceId before' event') →
    ∀ b ∈ before, ∃ eventId ∈ w.pending.eventIds, b.eventId = some eventId

/-- What the loop has done after the events before. -/
structure Accepted (p : Pending) (keys : List Key) (sourceId : String) (before : List Event)
    (s : Accepting) : Prop where
  holds : s.pending.Holds (keys ++ s.acceptedKeys)
  keyed : ∀ b ∈ before, ∃ eventId sequence, b = ⟨some eventId, some sequence⟩
  ids : ∀ eventId, eventId ∈ s.pending.eventIds ↔
    eventId ∈ p.eventIds ∨ ∃ b ∈ before, b.eventId = some eventId
  seenIds : ∀ eventId sequence, s.seenIds eventId = some sequence ↔
    (⟨some eventId, some sequence⟩ : Event) ∈ before
  seenSequences : ∀ eventId sequence, s.seenSequences sequence = some eventId ↔
    (⟨some eventId, some sequence⟩ : Event) ∈ before
  elsewhere : ∀ source sequence, (∀ b ∈ before, b.sourceSequence ≠ some sequence) →
    s.pending.sourceSequences (source, sequence) = p.sourceSequences (source, sequence)
  keys : s.acceptedKeys = s.acceptedEvents.filterMap (eventKey sourceId)

section Loop

variable {p : Pending} {keys : List Key} {sourceId : String} {before : List Event} {s : Accepting}
  {event : Event}

theorem Accepted.start (h : p.Holds keys) : Accepted p keys sourceId [] (.start p) where
  holds := by
    rw [Accepting.start, List.append_nil]
    exact h
  keyed b hb := absurd hb List.not_mem_nil
  ids eventId := by simp [Accepting.start]
  seenIds eventId sequence := by simp [Accepting.start]
  seenSequences eventId sequence := by simp [Accepting.start]
  elsewhere source sequence _ := rfl
  keys := rfl

/-- The id has been seen with another sequence. -/
theorem Accepted.reused_iff (h : Accepted p keys sourceId before s) {eventId : String}
    {sequence : ℤ} : s.seenIds eventId ≠ none ∧ s.seenIds eventId ≠ some sequence ↔
      ∃ b ∈ before, b.eventId = some eventId ∧ b.sourceSequence ≠ some sequence := by
  constructor
  · rintro ⟨hsome, hne⟩
    obtain ⟨other, hother⟩ := Option.ne_none_iff_exists'.1 hsome
    exact ⟨_, (h.seenIds eventId other).1 hother, rfl, hother ▸ hne⟩
  · rintro ⟨b, hb, hid, hne⟩
    obtain ⟨_, other, rfl⟩ := h.keyed b hb
    cases hid
    have hseen := (h.seenIds eventId other).2 hb
    exact ⟨by rw [hseen]; exact Option.some_ne_none other, by rw [hseen]; exact hne⟩

/-- The sequence has been seen with another id. -/
theorem Accepted.conflicting_iff (h : Accepted p keys sourceId before s) {eventId : String}
    {sequence : ℤ} : s.seenSequences sequence ≠ none ∧ s.seenSequences sequence ≠ some eventId ↔
      ∃ b ∈ before, b.sourceSequence = some sequence ∧ b.eventId ≠ some eventId := by
  constructor
  · rintro ⟨hsome, hne⟩
    obtain ⟨other, hother⟩ := Option.ne_none_iff_exists'.1 hsome
    exact ⟨_, (h.seenSequences other sequence).1 hother, rfl, hother ▸ hne⟩
  · rintro ⟨b, hb, hsequence, hne⟩
    obtain ⟨other, _, rfl⟩ := h.keyed b hb
    cases hsequence
    have hseen := (h.seenSequences other sequence).2 hb
    exact ⟨by rw [hseen]; exact Option.some_ne_none other, by rw [hseen]; exact hne⟩

/-- An event that repeats one before it. -/
theorem Accepted.repeat (h : Accepted p keys sourceId before s) (hmem : event ∈ before) :
    Accepted p keys sourceId (before ++ [event]) { s with duplicate := s.duplicate + 1 } := by
  have hsame : ∀ b, b ∈ before ++ [event] ↔ b ∈ before := by
    intro b
    rw [List.mem_append, List.mem_singleton]
    exact ⟨fun hb => hb.elim id fun heq => heq ▸ hmem, Or.inl⟩
  exact
    { holds := h.holds
      keyed := fun b hb => h.keyed b ((hsame b).1 hb)
      ids := fun eventId => by simp only [hsame, h.ids]
      seenIds := fun eventId sequence => by simp only [hsame, h.seenIds]
      seenSequences := fun eventId sequence => by simp only [hsame, h.seenSequences]
      elsewhere := fun source sequence hb => h.elsewhere source sequence fun b hmem =>
        hb b ((hsame b).2 hmem)
      keys := h.keys }

/-- The event is noted as seen; it is pending, or becomes so. -/
theorem Accepted.see (h : Accepted p keys sourceId before s) {eventId : String} {sequence : ℤ}
    (hid : s.seenIds eventId = none) (hsequence : s.seenSequences sequence = none) {s' : Accepting}
    (hseenIds : s'.seenIds = Function.update s.seenIds eventId (some sequence))
    (hseenSequences : s'.seenSequences = Function.update s.seenSequences sequence (some eventId))
    (hholds : s'.pending.Holds (keys ++ s'.acceptedKeys))
    (hids : ∀ other, other ∈ s'.pending.eventIds ↔ other = eventId ∨ other ∈ s.pending.eventIds)
    (hplaces : ∀ source other, other ≠ sequence →
      s'.pending.sourceSequences (source, other) = s.pending.sourceSequences (source, other))
    (hkeys : s'.acceptedKeys = s'.acceptedEvents.filterMap (eventKey sourceId)) :
    Accepted p keys sourceId (before ++ [⟨some eventId, some sequence⟩]) s' where
  holds := hholds
  keyed b hb := by
    rcases List.mem_append.1 hb with hb | hb
    · exact h.keyed b hb
    · exact ⟨_, _, List.mem_singleton.1 hb⟩
  ids other := by
    simp only [hids, h.ids, List.mem_append, List.mem_singleton, or_and_right, exists_or,
      exists_eq_left, Option.some.injEq]
    constructor
    · rintro (rfl | hother | hother)
      · exact Or.inr (Or.inr rfl)
      · exact Or.inl hother
      · exact Or.inr (Or.inl hother)
    · rintro (hother | hother | rfl)
      · exact Or.inr (Or.inl hother)
      · exact Or.inr (Or.inr hother)
      · exact Or.inl rfl
  seenIds other m := by
    rw [hseenIds, Function.update_apply, List.mem_append, List.mem_singleton, Event.mk.injEq,
      Option.some.injEq, Option.some.injEq]
    split_ifs with heq
    · -- no event before has the id
      subst heq
      rw [Option.some.injEq, ← h.seenIds, hid]
      simp [eq_comm]
    · rw [h.seenIds]
      simp [heq]
  seenSequences other m := by
    rw [hseenSequences, Function.update_apply, List.mem_append, List.mem_singleton, Event.mk.injEq,
      Option.some.injEq, Option.some.injEq]
    split_ifs with heq
    · -- nor the sequence
      subst heq
      rw [Option.some.injEq, ← h.seenSequences, hsequence]
      simp [eq_comm]
    · rw [h.seenSequences]
      simp [heq]
  elsewhere source other hb := by
    have hne : other ≠ sequence := by
      rintro rfl
      exact hb _ (List.mem_append_right _ (List.mem_singleton_self _)) rfl
    rw [hplaces source other hne]
    exact h.elsewhere source other fun b hmem => hb b (List.mem_append_left _ hmem)
  keys := hkeys

/-- **One round**: it raises if and only if the event does, and otherwise goes on. -/
theorem Accepted.round (h : Accepted p keys sourceId before s) (event : Event) :
    (Raises p sourceId before event ∧ ∃ error, acceptEvent sourceId s event = .error error) ∨
      ¬ Raises p sourceId before event ∧ ∃ s', acceptEvent sourceId s event = .ok s' ∧
        Accepted p keys sourceId (before ++ [event]) s' := by
  rw [acceptEvent]
  cases hkey : eventKey sourceId event with
  | none => exact Or.inl ⟨Or.inl hkey, _, rfl⟩
  | some key =>
    obtain ⟨eventId, sequence, rfl, rfl⟩ : ∃ eventId sequence,
        event = ⟨some eventId, some sequence⟩ ∧ key = (eventId, sourceId, sequence) := by
      obtain ⟨_ | eventId, _ | sequence⟩ := event <;> cases hkey
      exact ⟨eventId, sequence, rfl, rfl⟩
    dsimp only
    by_cases hreused : s.seenIds eventId ≠ none ∧ s.seenIds eventId ≠ some sequence
    · rw [if_pos hreused]
      exact Or.inl ⟨Or.inr ⟨_, _, rfl, Or.inl (h.reused_iff.1 hreused)⟩, _, rfl⟩
    rw [if_neg hreused]
    by_cases hconflicting : s.seenSequences sequence ≠ none ∧
      s.seenSequences sequence ≠ some eventId
    · rw [if_pos hconflicting]
      exact Or.inl ⟨Or.inr ⟨_, _, rfl, Or.inr (Or.inl (h.conflicting_iff.1 hconflicting))⟩, _, rfl⟩
    rw [if_neg hconflicting]
    -- the event raises now only if its sequence is pending with another id
    have hraises : Raises p sourceId before ⟨some eventId, some sequence⟩ →
        (∀ b ∈ before, b.sourceSequence ≠ some sequence) ∧
          ∃ other, p.sourceSequences (sourceId, sequence) = some other ∧ other ≠ eventId := by
      rintro (hnone | ⟨_, _, heq, hcase⟩)
      · cases hnone
      · cases heq
        rcases hcase with hcase | hcase | hcase
        · exact absurd (h.reused_iff.2 hcase) hreused
        · exact absurd (h.conflicting_iff.2 hcase) hconflicting
        · exact hcase
    by_cases hseen : s.seenIds eventId ≠ none ∨ s.seenSequences sequence ≠ none
    · rw [if_pos hseen]
      have hmem : (⟨some eventId, some sequence⟩ : Event) ∈ before := by
        rcases hseen with hseen | hseen
        · exact (h.seenIds _ _).1 (not_not.1 fun hne => hreused ⟨hseen, hne⟩)
        · exact (h.seenSequences _ _).1 (not_not.1 fun hne => hconflicting ⟨hseen, hne⟩)
      exact Or.inr ⟨fun hr => (hraises hr).1 _ hmem rfl, _, rfl, h.repeat hmem⟩
    rw [if_neg hseen]
    obtain ⟨hid, hsequence⟩ := not_or.1 hseen
    rw [not_not] at hid hsequence
    have hnew : ∀ b ∈ before, b.sourceSequence ≠ some sequence := by
      intro b hb heq
      obtain ⟨other, _, rfl⟩ := h.keyed b hb
      cases heq
      rw [(h.seenSequences other sequence).2 hb] at hsequence
      cases hsequence
    have hplace := h.elsewhere sourceId sequence hnew
    by_cases hpending : s.pending.sourceSequences (sourceId, sequence) ≠ none ∧
        s.pending.sourceSequences (sourceId, sequence) ≠ some eventId
    · rw [if_pos hpending]
      obtain ⟨other, hother⟩ := Option.ne_none_iff_exists'.1 hpending.1
      refine Or.inl ⟨Or.inr ⟨_, _, rfl, Or.inr (Or.inr ⟨hnew, other, hplace ▸ hother, ?_⟩)⟩, _, rfl⟩
      rintro rfl
      exact hpending.2 hother
    rw [if_neg hpending]
    have hsafe : ¬ Raises p sourceId before ⟨some eventId, some sequence⟩ := by
      intro hr
      obtain ⟨-, other, hother, hne⟩ := hraises hr
      rw [← hplace] at hother
      refine hpending ⟨by rw [hother]; exact Option.some_ne_none other, fun heq => hne ?_⟩
      exact Option.some.inj (hother.symm.trans heq)
    refine Or.inr ⟨hsafe, ?_⟩
    by_cases hdup : eventId ∈ s.pending.eventIds ∨
        s.pending.sourceSequences (sourceId, sequence) = some eventId
    · rw [if_pos hdup]
      have hin : eventId ∈ s.pending.eventIds := by
        refine hdup.elim id fun heq => (h.holds.ids eventId).2 ⟨_,
          (h.holds.sequences _ _).1 heq, rfl⟩
      refine ⟨_, rfl, h.see hid hsequence rfl rfl h.holds (fun other => ?_)
        (fun _ _ _ => rfl) h.keys⟩
      exact ⟨Or.inr, fun hother => hother.elim (fun heq => heq ▸ hin) fun hmem => hmem⟩
    · rw [if_neg hdup]
      obtain ⟨hout, hne⟩ := not_or.1 hdup
      have hfree : s.pending.sourceSequences (sourceId, sequence) = none :=
        not_not.1 fun hsome => hpending ⟨hsome, hne⟩
      refine ⟨_, rfl, h.see hid hsequence rfl rfl ?_ (fun other => ?_)
        (fun source other hother => ?_) ?_⟩
      · rw [← List.append_assoc]
        exact h.holds.add hout hfree
      · simp only [Pending.add, Finset.mem_insert]
      · exact Function.update_of_ne (fun heq => hother (Prod.mk.inj heq).2) _ _
      · dsimp only
        rw [List.filterMap_append, ← h.keys]
        rfl

/-- **The loop**: it comes to its end, or to the first event that raises. -/
theorem Accepted.loop : ∀ {before : List Event} {s : Accepting} (rest : List Event),
    Accepted p keys sourceId before s →
    (∀ mid event tail, rest = mid ++ event :: tail → ¬ Raises p sourceId (before ++ mid) event) ∧
        (∃ s', acceptEvents sourceId s rest = (s', none) ∧
          Accepted p keys sourceId (before ++ rest) s') ∨
      ∃ mid event tail, rest = mid ++ event :: tail ∧ Raises p sourceId (before ++ mid) event ∧
        (∀ mid' event' tail', mid = mid' ++ event' :: tail' →
          ¬ Raises p sourceId (before ++ mid') event') ∧
        ∃ s' error, acceptEvents sourceId s rest = (s', some error) ∧
          Accepted p keys sourceId (before ++ mid) s' := by
  intro before s rest
  induction rest generalizing before s with
  | nil =>
    intro h
    refine Or.inl ⟨fun mid event tail heq => ?_, s, rfl, ?_⟩
    · cases mid <;> cases heq
    · rw [List.append_nil]
      exact h
  | cons event rest ih =>
    intro h
    rw [acceptEvents]
    rcases h.round event with ⟨hraises, error, herror⟩ | ⟨hsafe, s', hok, hnext⟩
    · rw [herror]
      refine Or.inr ⟨[], event, rest, rfl, ?_, fun mid' event' tail' heq => ?_, s, error, rfl, ?_⟩
      · rw [List.append_nil]
        exact hraises
      · cases mid' <;> cases heq
      · rw [List.append_nil]
        exact h
    · rw [hok]
      -- the events of the tail come after this one
      have hfirst : ∀ mid e tail, mid ++ e :: tail <+: event :: rest → mid = [] →
          ¬ Raises p sourceId (before ++ mid) e := by
        rintro mid e tail hstarts rfl
        obtain ⟨rest', hrest⟩ := hstarts
        cases hrest
        rw [List.append_nil]
        exact hsafe
      rcases ih hnext with ⟨hno, s'', hend, haccepted⟩ |
        ⟨mid, e, tail, rfl, hraises, hno, s'', error, hend, haccepted⟩
      · rw [List.append_assoc, List.singleton_append] at haccepted
        refine Or.inl ⟨fun mid e tail heq => ?_, s'', hend, haccepted⟩
        cases mid with
        | nil => exact hfirst [] e tail (heq ▸ List.prefix_refl _) rfl
        | cons first mid =>
          obtain ⟨rfl, htail⟩ := List.cons.inj heq
          have hmid := hno mid e tail htail
          rwa [List.append_assoc, List.singleton_append] at hmid
      · rw [List.append_assoc, List.singleton_append] at hraises haccepted
        refine Or.inr ⟨event :: mid, e, tail, rfl, hraises, fun mid' e' tail' heq => ?_, s'', error,
          hend, haccepted⟩
        cases mid' with
        | nil =>
          refine hfirst [] e' tail' ?_ rfl
          rw [List.nil_append] at heq ⊢
          rw [← heq]
          exact ⟨e :: tail, rfl⟩
        | cons first mid' =>
          obtain ⟨rfl, htail⟩ := List.cons.inj heq
          have hmid := hno mid' e' tail' htail
          rwa [List.append_assoc, List.singleton_append] at hmid

end Loop

/-! ### The steps -/

/-- The pending ids and sequences are those of the batches on their way. -/
def Exact (w : Writer) : Prop := w.pending.Holds w.heldKeys

section Steps

variable {w w' : Writer} {batch : WriteBatch}

theorem heldKeys_eq (w : Writer) : w.heldKeys = w.submitting.flatMap WriteBatch.heldKeys ++
    w.queue.flatMap WriteBatch.heldKeys ++ w.writing.toList.flatMap WriteBatch.heldKeys := by
  rw [Writer.heldKeys, List.flatMap_append, List.flatMap_append]

/-- A batch that joins those submitted brings its keys. -/
theorem heldKeys_submit (w : Writer) (batch : WriteBatch) (pending : Pending) :
    ({ w with pending := pending, submitting := w.submitting ++ [batch] } : Writer).heldKeys.Perm
      (w.heldKeys ++ batch.heldKeys) := by
  simp only [heldKeys_eq, List.flatMap_append, List.flatMap_singleton, List.append_assoc]
  exact (List.perm_append_comm.trans (by simp only [List.append_assoc]; rfl)).append_left _

/-- A call of `enqueue`: what it raises on, and what is pending after it. -/
theorem Exact.accept (h : Exact w) (batch : WriteBatch) :
    (∃ s error before event rest, batch.allocateSourceSequences = false ∧
        batch.events = before ++ event :: rest ∧ Raises w.pending batch.sourceId before event ∧
        (∀ before' event' rest', before = before' ++ event' :: rest' →
          ¬ Raises w.pending batch.sourceId before' event') ∧
        w.accept batch = ({ w with pending := s.pending }, .error error) ∧
        Accepted w.pending w.heldKeys batch.sourceId before s) ∨
      ∃ duplicate, (w.accept batch).2 = .ok duplicate ∧ Exact (w.accept batch).1 := by
  rw [Writer.accept]
  cases hallocate : batch.allocateSourceSequences with
  | true =>
    refine Or.inr ⟨0, rfl, ?_⟩
    have hnone : batch.heldKeys = [] := by rw [WriteBatch.heldKeys, if_pos hallocate]
    have hkeys := heldKeys_submit w batch w.pending
    rw [hnone, List.append_nil] at hkeys
    exact Pending.Holds.perm h hkeys.symm
  | false =>
    simp only [Bool.false_eq_true, if_false]
    have hstart : Accepted w.pending w.heldKeys batch.sourceId [] (.start w.pending) := .start h
    rcases Accepted.loop batch.events hstart with ⟨-, s, hend, haccepted⟩ |
      ⟨before, event, rest, hsplit, hraises, hno, s, error, hend, haccepted⟩
    · rw [hend]
      dsimp only
      have hholds := haccepted.holds
      have hkeys := haccepted.keys
      split_ifs with hempty
      · refine Or.inr ⟨_, rfl, ?_⟩
        rw [hkeys, hempty, List.filterMap_nil, List.append_nil] at hholds
        exact hholds
      · refine Or.inr ⟨_, rfl, Pending.Holds.perm hholds ((heldKeys_submit ..).trans ?_).symm⟩
        rw [WriteBatch.heldKeys, if_neg Bool.false_ne_true, hkeys]
    · rw [hend]
      exact Or.inl ⟨s, error, before, event, rest, trivial, hsplit, hraises, hno, rfl, haccepted⟩

/-- A call that raises leaves the keys as they were if and only if its batch is harmless. -/
theorem Exact.raise_iff (h : Exact w) {error : EnqueueError}
    (herror : (w.accept batch).2 = .error error) :
    (w.accept batch).1.pending = w.pending ↔ Harmless w batch := by
  rcases h.accept batch with
    ⟨s, error', before, event, rest, hallocate, hsplit, hraises, hno, hend, haccepted⟩ |
    ⟨duplicate, hok, -⟩
  · rw [hend]
    constructor
    · intro hsame _ before' event' rest' hsplit' hraises' hno'
      -- there is one first event that raises
      have hbefore : before' = before := by
        rcases List.append_eq_append_iff.1 (hsplit.symm.trans hsplit') with
          ⟨mid, hb, hr⟩ | ⟨mid, hb, hr⟩
        · cases mid with
          | nil => rw [hb, List.append_nil]
          | cons e mid =>
            obtain ⟨rfl, -⟩ := List.cons.inj hr
            exact absurd hraises (hno' before event mid hb)
        · cases mid with
          | nil => rw [hb, List.append_nil]
          | cons e mid =>
            obtain ⟨rfl, -⟩ := List.cons.inj hr
            exact absurd hraises' (hno before' event' mid hb)
      subst hbefore
      intro b hb
      obtain ⟨eventId, sequence, rfl⟩ := haccepted.keyed b hb
      refine ⟨eventId, ?_, rfl⟩
      have hin := (haccepted.ids eventId).2 (Or.inr ⟨_, hb, rfl⟩)
      rwa [show s.pending = w.pending from hsame] at hin
    · intro hharmless
      have hpending := hharmless hallocate before event rest hsplit hraises hno
      -- every id that is pending now was pending before, so that nothing has been accepted
      have hnone : s.acceptedKeys = [] := by
        refine List.eq_nil_iff_forall_not_mem.2 fun key hkey => ?_
        have hin : key.1 ∈ s.pending.eventIds :=
          (haccepted.holds.ids _).2 ⟨key, List.mem_append_right _ hkey, rfl⟩
        have hwas : key.1 ∈ w.pending.eventIds := by
          rcases (haccepted.ids _).1 hin with hwas | ⟨b, hb, hid⟩
          · exact hwas
          · obtain ⟨eventId, hmem, hid'⟩ := hpending b hb
            rw [hid] at hid'
            cases hid'
            exact hmem
        obtain ⟨held, hheld, heq⟩ := (h.ids _).1 hwas
        have honce := haccepted.holds.once
        rw [List.map_append, List.nodup_append] at honce
        exact honce.2.2 held.1 (List.mem_map_of_mem hheld) key.1 (List.mem_map_of_mem hkey) heq
      have hholds := haccepted.holds
      rw [hnone, List.append_nil] at hholds
      exact hholds.unique h
  · rw [hok] at herror
    cases herror

/-- A batch that leaves takes its keys along. -/
theorem Exact.releaseBatch (h : w.pending.Holds (batch.heldKeys ++ w.heldKeys)) :
    Exact (w.releaseBatch batch) :=
  Pending.Holds.releaseKeys h

/-- **One step** keeps the bookkeeping exact. -/
theorem Exact.step (h : Exact w) {a : Action}
    (hharmless : ∀ batch, a = .accept batch → Harmless w batch) (hstep : w.step a = some w') :
    Exact w' := by
  cases a with
  | accept batch =>
    cases hstep
    rcases h.accept batch with
      ⟨s, error, _, _, _, -, -, -, -, hend, -⟩ | ⟨_, -, hexact⟩
    · have hsame := (h.raise_iff (congrArg Prod.snd hend)).2 (hharmless batch rfl)
      rw [hend] at hsame ⊢
      have hheld : ({ w with pending := s.pending } : Writer).heldKeys = w.heldKeys := rfl
      rw [Exact, hheld, hsame]
      exact h
    · exact hexact
  | put index full =>
    rw [Writer.step] at hstep
    cases hget : w.submitting[index]? with
    | none =>
      rw [hget] at hstep
      cases hstep
    | some batch =>
      simp only [hget] at hstep
      cases hstep
      obtain ⟨hindex, rfl⟩ := List.getElem?_eq_some_iff.1 hget
      -- the keys of the batch come out of those that are submitted
      have hperm := (List.getElem_cons_eraseIdx_perm hindex).flatMap_right WriteBatch.heldKeys
      rw [List.flatMap_cons] at hperm
      have hheld : w.pending.Holds (w.submitting[index].heldKeys ++
          ({ w with submitting := w.submitting.eraseIdx index } : Writer).heldKeys) := by
        refine Pending.Holds.perm h ?_
        simp only [heldKeys_eq, ← List.append_assoc]
        exact (hperm.symm.append_right _).append_right _
      split_ifs
      -- they are released where the queue is full, and otherwise go into it
      · exact Exact.releaseBatch hheld
      · refine Pending.Holds.perm hheld ?_
        simp only [heldKeys_eq, List.flatMap_append, List.flatMap_singleton, List.append_assoc]
        refine List.perm_append_comm.trans ?_
        simp only [List.append_assoc]
        exact ((List.perm_append_comm).append_left _).append_left _
  | take =>
    rw [Writer.step] at hstep
    split at hstep
    · next hwriting hqueue =>
      cases hstep
      refine Pending.Holds.perm h ?_
      simp only [heldKeys_eq, hqueue, hwriting, List.flatMap_cons, Option.toList_none,
        Option.toList_some, List.flatMap_nil, List.append_nil, List.append_assoc]
      exact List.perm_append_comm.append_left _
    · cases hstep
  | finish =>
    rw [Writer.step] at hstep
    obtain ⟨batch, hwriting, rfl⟩ := Option.map_eq_some_iff.1 hstep
    refine Exact.releaseBatch (Pending.Holds.perm h ?_)
    simp only [heldKeys_eq, hwriting, Option.toList_some, Option.toList_none, List.flatMap_cons,
      List.flatMap_nil, List.append_nil]
    exact List.perm_append_comm

theorem empty_exact : Exact .empty where
  ids eventId := by simp [Writer.empty, Pending.empty, Writer.heldKeys]
  sequences place eventId := by simp [Writer.empty, Pending.empty, Writer.heldKeys]
  once := List.nodup_nil

end Steps

/-- In a run whose batches are harmless, the pending ids and sequences are those of the events of
the batches on their way, in every state reached; and there a call that raises leaves them as they
were if and only if its batch is harmless. -/
theorem pending_bookkeeping (w : Writer)
    (h : Reach Writer.step (fun w a => ∀ batch, a = .accept batch → Harmless w batch) .empty w) :
    (∀ eventId, eventId ∈ w.pending.eventIds ↔ ∃ key ∈ w.heldKeys, key.1 = eventId) ∧
    (∀ sourceId sequence eventId, w.pending.sourceSequences (sourceId, sequence) = some eventId ↔
      (eventId, sourceId, sequence) ∈ w.heldKeys) ∧
    ∀ batch error, (w.accept batch).2 = .error error →
      ((w.accept batch).1.pending = w.pending ↔ Harmless w batch) := by
  have hexact : Exact w :=
    Reach.invariant empty_exact (fun s a s' _ hs hok hstep => hs.step hok hstep) h
  exact ⟨hexact.ids, fun sourceId sequence => hexact.sequences (sourceId, sequence),
    fun batch error herror => hexact.raise_iff herror⟩

def startEvent : Event := ⟨some "started", some 1⟩

def stopEvent : Event := ⟨some "stopped", some 1⟩

/-- Two events under one sequence. -/
def clashingBatch : WriteBatch := ⟨"playback", "client", [startEvent, stopEvent], false⟩

def startBatch : WriteBatch := ⟨"playback", "client", [startEvent], false⟩

/-- A batch that raises at its second event leaves the id of the first one pending, although no
batch is on its way. -/
theorem raising_batch_leaks :
    ¬ ∀ w, Reach Writer.step (fun _ _ => True) .empty w →
      ∀ eventId, eventId ∈ w.pending.eventIds ↔ ∃ key ∈ w.heldKeys, key.1 = eventId := by
  intro h
  have hreach : Reach Writer.step (fun _ _ => True) .empty (Writer.accept .empty clashingBatch).1 :=
    .next .start (a := .accept clashingBatch) trivial rfl
  have hleaked : "started" ∈ (Writer.accept .empty clashingBatch).1.pending.eventIds := by decide
  obtain ⟨key, hkey, -⟩ := (h _ hreach "started").1 hleaked
  exact absurd hkey List.not_mem_nil

/-- The first event alone is accepted, and is the one that is pending. -/
theorem pending_bookkeeping_started :
    "started" ∈ (Writer.accept .empty startBatch).1.pending.eventIds := by
  have hharmless : Harmless .empty startBatch := by
    intro _ before event rest hsplit _ _ b hb
    cases before with
    | nil => cases hb
    | cons first before => cases before <;> cases hsplit
  have hreach : Reach Writer.step (fun w a => ∀ batch, a = .accept batch → Harmless w batch) .empty
      (Writer.accept .empty startBatch).1 := by
    refine .next .start (a := .accept startBatch) (fun batch heq => ?_) rfl
    cases heq
    exact hharmless
  exact ((pending_bookkeeping _ hreach).1 "started").2 ⟨("started", "client", 1), by decide, rfl⟩

end PendingEvents
