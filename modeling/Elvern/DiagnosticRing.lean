/-
The diagnostic ring buffer and its snapshot cursors.

A ring keeps the newest values in an array of slots, one record for each
sequence number, and forgets the oldest ones when a slot is used again or when
they fall out of the time window.  A snapshot cursor does not copy what the
ring holds: a record that is about to leave the ring is first handed to every
registered cursor that has still to read it.

* `Ring.step`, `Ring.run` -- the calls of the ring and of its cursors;
* `Ring.Stored` -- what the buffer of a ring holds;
* `Ring.stored_place`, `Ring.stored_evictOldest` -- the two writes keep it.

`Elvern/SnapshotCursors.lean` states what a cursor yields over a whole run.
-/
import Mathlib.Logic.Function.Basic
import Mathlib.Data.List.Basic
import Mathlib.Data.Nat.ModEq

namespace DiagnosticRing

universe u v

variable {V : Type u} {T : Type v}

/-- What a slot of the buffer holds. -/
structure Record (V : Type u) where
  sequence : ℕ
  value : V

/-- The arguments of the constructor, after it has put them in order.  A
timestamp of `none` is `null`; the function is also called on a missing
value. -/
structure Settings (V : Type u) (T : Type v) where
  maxEntries : ℕ
  maxEntries_pos : 1 ≤ maxEntries
  windowMs : Option T
  timestamp : Option V → Option T
  maxCursors : ℕ
  maxCursors_pos : 1 ≤ maxCursors

/-- `DiagnosticRingCursor`; `attached` says that its `ring` is not `null`.
The map of preserved values is a partial function. -/
structure Cursor (V : Type u) where
  attached : Bool
  currentSequence : ℕ
  lastSequence : ℕ
  preserved : ℕ → Option V
  cancelled : Bool

namespace Cursor

/-- The constructor of a cursor. -/
def new (firstSequence lastSequence : ℕ) : Cursor V where
  attached := true
  currentSequence := firstSequence
  lastSequence := lastSequence
  preserved := fun _ => none
  cancelled := false

/-- `get done()`. -/
def done (cursor : Cursor V) : Bool :=
  cursor.cancelled || decide (cursor.lastSequence < cursor.currentSequence)

/-- `preserve`. -/
def preserve (record : Record V) (cursor : Cursor V) : Cursor V :=
  if cursor.currentSequence ≤ record.sequence ∧ record.sequence ≤ cursor.lastSequence
      ∧ (cursor.preserved record.sequence).isNone then
    { cursor with preserved := Function.update cursor.preserved record.sequence record.value }
  else cursor

/-- What `release` does to the cursor itself. -/
def released (cursor : Cursor V) : Cursor V :=
  { cursor with attached := false, preserved := fun _ => none }

/-- What `commit` does to a cursor that is not done. -/
def advanced (cursor : Cursor V) : Cursor V :=
  { cursor with
    preserved := Function.update cursor.preserved cursor.currentSequence none
    currentSequence := cursor.currentSequence + 1 }

theorem done_eq_false {cursor : Cursor V} :
    cursor.done = false ↔
      cursor.cancelled = false ∧ cursor.currentSequence ≤ cursor.lastSequence := by
  simp [done]

end Cursor

/-- `DiagnosticRingBuffer`.  `made` lists every cursor that was ever created,
`cursors` is the set of the registered ones in the order of their insertion. -/
structure Ring (V : Type u) (T : Type v) where
  buffer : ℕ → Option (Record V)
  firstSequence : ℕ
  nextSequence : ℕ
  latestTimestampMs : Option T
  coverageStartTimestampMs : Option T
  cursors : List ℕ
  made : List (Cursor V)

/-- The ring that the constructor builds. -/
def Ring.new : Ring V T where
  buffer := fun _ => none
  firstSequence := 1
  nextSequence := 1
  latestTimestampMs := none
  coverageStartTimestampMs := none
  cursors := []
  made := []

namespace Ring

variable (settings : Settings V T)

/-- `get length()`. -/
def length (ring : Ring V T) : ℕ := ring.nextSequence - ring.firstSequence

/-- The slot of a sequence number. -/
def slotOf (sequence : ℕ) : ℕ := (sequence - 1) % settings.maxEntries

/-- `recordAt`. -/
def recordAt (ring : Ring V T) (sequence : ℕ) : Option (Record V) :=
  match ring.buffer (slotOf settings sequence) with
  | some record => if record.sequence = sequence then some record else none
  | none => none

/-- `this.cursors.forEach(f)`, for an `f` that changes only the cursor it is
called on. -/
def forEachCursor (f : Cursor V → Cursor V) (ring : Ring V T) : Ring V T :=
  { ring with made := ring.made.mapIdx fun id cursor =>
      if id ∈ ring.cursors then f cursor else cursor }

/-- Hands a record that leaves the ring to the registered cursors. -/
def handOver (ring : Ring V T) : Option (Record V) → Ring V T
  | some record => ring.forEachCursor (Cursor.preserve record)
  | none => ring

section Writing

variable [Sub T] [LE T] [DecidableLE T]

/-- The body of the loop of `evictExpired`, past its two breaks. -/
def evictOldest (ring : Ring V T) : Ring V T :=
  let oldestRecord := ring.recordAt settings ring.firstSequence
  let handed := ring.handOver oldestRecord
  let buffer := match oldestRecord with
    | some record =>
      let slot := slotOf settings record.sequence
      if (handed.buffer slot).map Record.sequence = some record.sequence then
        Function.update handed.buffer slot none
      else handed.buffer
    | none => handed.buffer
  { handed with
    buffer := buffer
    firstSequence := ring.firstSequence + 1 }

/-- Whether the loop of `evictExpired` goes on: more than one record is left,
and the oldest has a timestamp that is not at or after the cutoff. -/
def oldestExpired (cutoff : T) (ring : Ring V T) : Bool :=
  decide (1 < ring.length) &&
    match settings.timestamp ((ring.recordAt settings ring.firstSequence).map Record.value) with
    | some oldestTimestamp => !decide (cutoff ≤ oldestTimestamp)
    | none => false

/-- The loop of `evictExpired`, with as many turns as it can take. -/
def evictLoop (cutoff : T) : ℕ → Ring V T → Ring V T
  | 0, ring => ring
  | turns + 1, ring =>
    if oldestExpired settings cutoff ring then
      evictLoop cutoff turns (ring.evictOldest settings)
    else ring

/-- `evictExpired`. -/
def evictExpired (latestTimestampMs : Option T) (ring : Ring V T) : Ring V T :=
  match settings.windowMs, latestTimestampMs with
  | some windowMs, some latest =>
    evictLoop settings (latest - windowMs) ring.length ring
  | _, _ => ring

/-- `push` before its call of `evictExpired`: the record takes its slot. -/
def place (value : V) (ring : Ring V T) : Ring V T :=
  let timestampMs := settings.timestamp (some value)
  let slot := slotOf settings ring.nextSequence
  let handed := ring.handOver (ring.buffer slot)
  { handed with
    buffer := Function.update handed.buffer slot (some ⟨ring.nextSequence, value⟩)
    nextSequence := ring.nextSequence + 1
    firstSequence := max ring.firstSequence (ring.nextSequence + 1 - settings.maxEntries)
    coverageStartTimestampMs := ring.coverageStartTimestampMs.or timestampMs
    latestTimestampMs := timestampMs.or ring.latestTimestampMs }

/-- `push`. -/
def push (value : V) (ring : Ring V T) : Ring V T :=
  (ring.place settings value).evictExpired settings (settings.timestamp (some value))

end Writing

/-- `snapshot`. -/
def snapshot (ring : Ring V T) : List (Option V) :=
  (List.range ring.length).map fun index =>
    (ring.recordAt settings (ring.firstSequence + index)).map Record.value

/-- `release`, with the `releaseCursor` of the ring it is attached to. -/
def release (id : ℕ) (ring : Ring V T) : Ring V T :=
  match ring.made[id]? with
  | some cursor =>
    { ring with
      cursors := if cursor.attached then ring.cursors.erase id else ring.cursors
      made := ring.made.set id cursor.released }
  | none => ring

/-- Writes the fields of a cursor. -/
def putCursor (id : ℕ) (cursor : Cursor V) (ring : Ring V T) : Ring V T :=
  { ring with made := ring.made.set id cursor }

/-- `cancel`. -/
def cancel (id : ℕ) (ring : Ring V T) : Ring V T :=
  match ring.made[id]? with
  | some cursor => (ring.putCursor id { cursor with cancelled := true }).release id
  | none => ring

/-- `createSnapshotCursor`; the new cursor is the last one made. -/
def createSnapshotCursor (ring : Ring V T) : Ring V T :=
  let room := if settings.maxCursors ≤ ring.cursors.length then
      match ring.cursors.head? with
      | some oldest => ring.cancel oldest
      | none => ring
    else ring
  { room with
    cursors := room.cursors ++ [room.made.length]
    made := room.made ++ [Cursor.new room.firstSequence (room.nextSequence - 1)] }

/-- `clear`. -/
def clear (ring : Ring V T) : Ring V T where
  buffer := fun _ => none
  firstSequence := 1
  nextSequence := 1
  latestTimestampMs := none
  coverageStartTimestampMs := none
  cursors := []
  made := (ring.forEachCursor fun cursor => { cursor.released with cancelled := true }).made

/-- What `peek` finds at a sequence number: the preserved value, else the
value the ring still has. -/
def valueAt (ring : Ring V T) (cursor : Cursor V) (sequence : ℕ) : Option V :=
  (cursor.preserved sequence).or
    (if cursor.attached then (ring.recordAt settings sequence).map Record.value else none)

/-- `peek`. -/
def peek (id : ℕ) (ring : Ring V T) : Option V :=
  match ring.made[id]? with
  | some cursor =>
    if cursor.done then none else ring.valueAt settings cursor cursor.currentSequence
  | none => none

/-- `commit`: whether it moved, and the ring afterwards. -/
def commit (id : ℕ) (ring : Ring V T) : Bool × Ring V T :=
  match ring.made[id]? with
  | some cursor =>
    if cursor.done then (false, ring)
    else
      let moved := ring.putCursor id cursor.advanced
      (true, if cursor.advanced.done then moved.release id else moved)
  | none => (false, ring)

/-- How many sequence numbers a cursor has not passed. -/
def unread (id : ℕ) (ring : Ring V T) : ℕ :=
  match ring.made[id]? with
  | some cursor => cursor.lastSequence + 1 - cursor.currentSequence
  | none => 0

/-- The loop of `read`, with as many turns as the cursor can still take;
`limit` counts the values it may still collect. -/
def readLoop (id : ℕ) : ℕ → ℕ → Ring V T → List V × Ring V T
  | 0, _, ring => ([], ring)
  | _ + 1, 0, ring => ([], ring)
  | turns + 1, limit + 1, ring =>
    let rest := (ring.commit id).2
    match ring.peek settings id with
    | some value => (value :: (readLoop id turns limit rest).1, (readLoop id turns limit rest).2)
    | none => readLoop id turns (limit + 1) rest

/-- `read`; an argument that is missing or zero is `0`. -/
def read (id : ℕ) (maxEntries : ℕ) (ring : Ring V T) : List V × Ring V T :=
  match ring.made[id]? with
  | some cursor =>
    if cursor.cancelled then ([], ring)
    else
      let collected := readLoop settings id (ring.unread id) (max 1 maxEntries) ring
      match collected.2.made[id]? with
      | some after => (collected.1, if after.done then collected.2.release id else collected.2)
      | none => collected
  | none => ([], ring)

end Ring

/-- A call of a method of the ring or of one of its cursors.  `evictExpired`
without an argument is `none`. -/
inductive Op (V : Type u) (T : Type v) where
  | push (value : V)
  | evictExpired (latestTimestampMs : Option (Option T))
  | snapshot
  | createSnapshotCursor
  | clear
  | read (id maxEntries : ℕ)
  | peek (id : ℕ)
  | commit (id : ℕ)
  | cancel (id : ℕ)

namespace Ring

variable (settings : Settings V T) [Sub T] [LE T] [DecidableLE T]

/-- One call. -/
def step (ring : Ring V T) : Op V T → Ring V T
  | .push value => ring.push settings value
  | .evictExpired latest => ring.evictExpired settings (latest.getD ring.latestTimestampMs)
  | .snapshot => ring
  | .createSnapshotCursor => ring.createSnapshotCursor settings
  | .clear => ring.clear
  | .read id maxEntries => (ring.read settings id maxEntries).2
  | .peek _ => ring
  | .commit id => (ring.commit id).2
  | .cancel id => ring.cancel id

/-- A run of calls. -/
def run (ring : Ring V T) (ops : List (Op V T)) : Ring V T := ops.foldl (step settings) ring

/-- The values that one call takes out of a cursor: what `read` returns, and
the value that `peek` shows just before a `commit` passes it. -/
def taken (id : ℕ) (ring : Ring V T) : Op V T → List V
  | .read other maxEntries =>
    if other = id then (ring.read settings id maxEntries).1 else []
  | .commit other =>
    if other = id ∧ (ring.commit id).1 = true then (ring.peek settings id).toList else []
  | _ => []

/-- The values that a run takes out of a cursor, in order. -/
def takenOver (id : ℕ) : Ring V T → List (Op V T) → List V
  | _, [] => []
  | ring, op :: ops => ring.taken settings id op ++ takenOver id (ring.step settings op) ops

/-! ### The records of a ring -/

section Records

omit [Sub T] [LE T] [DecidableLE T]

variable {settings} {ring ring' : Ring V T}

/-- Two sequence numbers less than a buffer apart have different slots. -/
theorem slotOf_ne {s t : ℕ} (hs : 1 ≤ s) (hst : s < t) (ht : t < s + settings.maxEntries) :
    slotOf settings s ≠ slotOf settings t := by
  intro heq
  have hdvd : settings.maxEntries ∣ (t - 1) - (s - 1) :=
    (Nat.modEq_iff_dvd' (by omega)).mp heq
  have hle : settings.maxEntries ≤ (t - 1) - (s - 1) := Nat.le_of_dvd (by omega) hdvd
  omega

theorem recordAt_eq_some {s : ℕ} {record : Record V} :
    ring.recordAt settings s = some record ↔
      ring.buffer (slotOf settings s) = some record ∧ record.sequence = s := by
  rw [recordAt]
  cases ring.buffer (slotOf settings s) with
  | none => simp
  | some found =>
    by_cases h : found.sequence = s
    · simp only [h, if_true, Option.some.injEq]
      constructor
      · rintro rfl
        exact ⟨rfl, h⟩
      · exact fun hboth => hboth.1
    · simp only [h, if_false, Option.some.injEq]
      constructor
      · intro hnone
        cases hnone
      · rintro ⟨rfl, hs⟩
        exact absurd hs h

theorem recordAt_congr (hbuffer : ring'.buffer = ring.buffer) (s : ℕ) :
    ring'.recordAt settings s = ring.recordAt settings s := by
  simp only [recordAt, hbuffer]

/-- A slot that is written changes what is found only at its own numbers. -/
theorem recordAt_of_slot_ne {s slot : ℕ} {entry : Option (Record V)}
    (hbuffer : ring'.buffer = Function.update ring.buffer slot entry)
    (hslot : slotOf settings s ≠ slot) :
    ring'.recordAt settings s = ring.recordAt settings s := by
  simp only [recordAt, hbuffer, Function.update_of_ne hslot]

/-- What the buffer of a ring holds: each record lies in its own slot, and
there is one for each number from the first to the next. -/
structure Stored (settings : Settings V T) (ring : Ring V T) : Prop where
  first_pos : 1 ≤ ring.firstSequence
  first_le : ring.firstSequence ≤ ring.nextSequence
  next_le : ring.nextSequence ≤ ring.firstSequence + settings.maxEntries
  placed : ∀ slot record, ring.buffer slot = some record →
    slotOf settings record.sequence = slot
  retained : ∀ s, ring.firstSequence ≤ s → s < ring.nextSequence →
    ∃ record, ring.recordAt settings s = some record

theorem Stored.congr (h : Stored settings ring) (hbuffer : ring'.buffer = ring.buffer)
    (hfirst : ring'.firstSequence = ring.firstSequence)
    (hnext : ring'.nextSequence = ring.nextSequence) : Stored settings ring' where
  first_pos := by rw [hfirst]; exact h.first_pos
  first_le := by rw [hfirst, hnext]; exact h.first_le
  next_le := by rw [hfirst, hnext]; exact h.next_le
  placed := by rw [hbuffer]; exact h.placed
  retained := by
    intro s hs hlt
    rw [recordAt_congr hbuffer]
    exact h.retained s (hfirst ▸ hs) (hnext ▸ hlt)

theorem stored_new : Stored settings (Ring.new : Ring V T) where
  first_pos := Nat.le_refl 1
  first_le := Nat.le_refl 1
  next_le := Nat.le_add_right 1 settings.maxEntries
  placed := by
    intro slot record h
    cases h
  retained := by
    intro s hs hlt
    exact absurd hlt (Nat.not_lt.mpr hs)

@[simp] theorem handOver_buffer (ring : Ring V T) (entry : Option (Record V)) :
    (ring.handOver entry).buffer = ring.buffer := by cases entry <;> rfl

@[simp] theorem handOver_cursors (ring : Ring V T) (entry : Option (Record V)) :
    (ring.handOver entry).cursors = ring.cursors := by cases entry <;> rfl

@[simp] theorem handOver_nextSequence (ring : Ring V T) (entry : Option (Record V)) :
    (ring.handOver entry).nextSequence = ring.nextSequence := by cases entry <;> rfl

/-- Handing a record over reaches the registered cursors and no others. -/
theorem getElem?_handOver (ring : Ring V T) (entry : Option (Record V)) (id : ℕ) :
    (ring.handOver entry).made[id]? =
      match entry with
      | some record =>
        if id ∈ ring.cursors then ring.made[id]?.map (Cursor.preserve record) else ring.made[id]?
      | none => ring.made[id]? := by
  cases entry with
  | none => rfl
  | some record =>
    show (ring.made.mapIdx _)[id]? = _
    rw [List.getElem?_mapIdx]
    by_cases h : id ∈ ring.cursors
    · simp only [h, if_true]
    · simp only [h, if_false, Option.map_id']

/-- The oldest record leaves its slot. -/
theorem evictOldest_eq {record : Record V}
    (hrecord : ring.recordAt settings ring.firstSequence = some record) :
    ring.evictOldest settings =
      { ring.handOver (some record) with
        buffer := Function.update ring.buffer (slotOf settings ring.firstSequence) none
        firstSequence := ring.firstSequence + 1 } := by
  obtain ⟨hslot, hsequence⟩ := recordAt_eq_some.mp hrecord
  have hfound : (ring.buffer (slotOf settings record.sequence)).map Record.sequence
      = some record.sequence := by
    rw [hsequence, hslot, Option.map_some, hsequence]
  simp only [evictOldest, hrecord, handOver_buffer, hfound, if_true]
  rw [hsequence]

/-- One turn of the loop of `evictExpired` keeps the buffer in order, as long as
a record is left. -/
theorem stored_evictOldest (h : Stored settings ring) (hmore : 1 < ring.length) :
    Stored settings (ring.evictOldest settings) := by
  have hfirst := h.first_pos
  have hnext := h.next_le
  have hlength : ring.firstSequence + 1 < ring.nextSequence := by
    simp only [length] at hmore
    omega
  obtain ⟨record, hrecord⟩ := h.retained ring.firstSequence (Nat.le_refl _) (by omega)
  rw [evictOldest_eq hrecord]
  constructor
  · show 1 ≤ ring.firstSequence + 1
    omega
  · show ring.firstSequence + 1 ≤ (ring.handOver (some record)).nextSequence
    rw [handOver_nextSequence]
    omega
  · show (ring.handOver (some record)).nextSequence ≤ ring.firstSequence + 1 + settings.maxEntries
    rw [handOver_nextSequence]
    omega
  · intro slot found hfound
    by_cases hslot : slot = slotOf settings ring.firstSequence
    · rw [hslot] at hfound
      simp only [Function.update_self] at hfound
      cases hfound
    · simp only [Function.update_of_ne hslot] at hfound
      exact h.placed slot found hfound
  · intro s hs hlt
    rw [handOver_nextSequence] at hlt
    replace hs : ring.firstSequence + 1 ≤ s := hs
    have hne : slotOf settings s ≠ slotOf settings ring.firstSequence :=
      (slotOf_ne hfirst (by omega) (by omega)).symm
    obtain ⟨found, hfound⟩ := h.retained s (by omega) hlt
    exact ⟨found, by rw [← hfound]; exact recordAt_of_slot_ne rfl hne⟩

theorem place_buffer (ring : Ring V T) (value : V) :
    (ring.place settings value).buffer =
      Function.update ring.buffer (slotOf settings ring.nextSequence)
        (some ⟨ring.nextSequence, value⟩) := by
  simp only [place, handOver_buffer]

/-- Placing a record keeps the buffer in order. -/
theorem stored_place (h : Stored settings ring) (value : V) :
    Stored settings (ring.place settings value) := by
  have hfirst := h.first_pos
  have hle := h.first_le
  have hmax := settings.maxEntries_pos
  constructor
  · show 1 ≤ max ring.firstSequence _
    omega
  · show max ring.firstSequence (ring.nextSequence + 1 - settings.maxEntries)
      ≤ ring.nextSequence + 1
    omega
  · show ring.nextSequence + 1
      ≤ max ring.firstSequence (ring.nextSequence + 1 - settings.maxEntries) + settings.maxEntries
    omega
  · intro slot record hrecord
    rw [place_buffer] at hrecord
    by_cases hslot : slot = slotOf settings ring.nextSequence
    · rw [hslot, Function.update_self] at hrecord
      cases hrecord
      exact hslot.symm
    · rw [Function.update_of_ne hslot] at hrecord
      exact h.placed slot record hrecord
  · intro s hs hlt
    replace hs : max ring.firstSequence (ring.nextSequence + 1 - settings.maxEntries) ≤ s := hs
    replace hlt : s < ring.nextSequence + 1 := hlt
    by_cases hnew : s = ring.nextSequence
    · refine ⟨⟨s, value⟩, recordAt_eq_some.mpr ⟨?_, rfl⟩⟩
      rw [place_buffer, hnew, Function.update_self]
    · -- an older number that is still in the ring is less than a buffer away
      have hne : slotOf settings s ≠ slotOf settings ring.nextSequence :=
        slotOf_ne (by omega) (by omega) (by omega)
      obtain ⟨record, hrecord⟩ := h.retained s (by omega) (by omega)
      exact ⟨record, by
        rw [← hrecord]
        exact recordAt_of_slot_ne (place_buffer ring value) hne⟩

theorem length_evictOldest (ring : Ring V T) :
    (ring.evictOldest settings).length = ring.length - 1 := by
  show (ring.handOver _).nextSequence - (ring.firstSequence + 1) = _
  rw [handOver_nextSequence, length]
  omega

end Records

omit [Sub T] in
theorem stored_evictLoop (cutoff : T) (turns : ℕ) {ring : Ring V T}
    (h : Stored settings ring) : Stored settings (evictLoop settings cutoff turns ring) := by
  induction turns generalizing ring with
  | zero => exact h
  | succ turns ih =>
    rw [evictLoop]
    by_cases hexpired : oldestExpired settings cutoff ring = true
    · rw [if_pos hexpired]
      simp only [oldestExpired, Bool.and_eq_true, decide_eq_true_eq] at hexpired
      exact ih (stored_evictOldest h hexpired.1)
    · rw [if_neg hexpired]
      exact h

theorem stored_evictExpired (latestTimestampMs : Option T) {ring : Ring V T}
    (h : Stored settings ring) :
    Stored settings (ring.evictExpired settings latestTimestampMs) := by
  unfold evictExpired
  split
  · exact stored_evictLoop settings _ _ h
  · exact h

omit [Sub T] in
/-- The loop of `evictExpired` has turns enough: it ends where the oldest
record that is left has not expired. -/
theorem evictLoop_settled (cutoff : T) (turns : ℕ) (ring : Ring V T)
    (hturns : ring.length ≤ turns) :
    oldestExpired settings cutoff (evictLoop settings cutoff turns ring) = false := by
  induction turns generalizing ring with
  | zero =>
    rw [evictLoop, oldestExpired, decide_eq_false (by omega), Bool.false_and]
  | succ turns ih =>
    rw [evictLoop]
    by_cases hexpired : oldestExpired settings cutoff ring = true
    · rw [if_pos hexpired]
      apply ih
      rw [length_evictOldest]
      omega
    · rw [if_neg hexpired]
      exact Bool.not_eq_true _ ▸ hexpired

end Ring

end DiagnosticRing
