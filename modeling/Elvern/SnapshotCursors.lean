/-
A snapshot cursor sees a frozen copy of the ring.

Whatever is pushed or evicted after a cursor was created, the cursor yields the
values that the ring held at that moment, in order and each once, as long as it
is not cancelled.

* `Ring.pending_step`, `Ring.pending_run` -- what a cursor has still to yield,
  after one call and over a run;
* `Ring.pending_createSnapshotCursor` -- a new cursor has to yield a snapshot;
* `Ring.Tidy.step` -- every registered cursor has something to read, as long as
  none is created while the ring is empty;
* `snapshot_cursors_frozen_iff` -- both over a run.
-/
import Elvern.CursorUpkeep

namespace DiagnosticRing

universe u v

variable {V : Type u} {T : Type v}

namespace Ring

variable {settings : Settings V T} {ring ring' ring'' : Ring V T}

/-! ### What a cursor has still to yield -/

/-- The cursor is not cancelled. -/
def Live (id : ℕ) (ring : Ring V T) : Prop :=
  ∃ cursor, ring.made[id]? = some cursor ∧ cursor.cancelled = false

/-- The cursor finds these values at the numbers it has not passed, in order. -/
structure Sees (settings : Settings V T) (ring : Ring V T) (cursor : Cursor V) (rest : List V) :
    Prop where
  length : cursor.currentSequence + rest.length = cursor.lastSequence + 1
  values : ∀ i value, rest[i]? = some value →
    ring.valueAt settings cursor (cursor.currentSequence + i) = some value

/-- A cursor that is not cancelled, with the values it has still to yield. -/
def Pending (settings : Settings V T) (id : ℕ) (rest : List V) (ring : Ring V T) : Prop :=
  ∃ cursor, ring.made[id]? = some cursor ∧ cursor.cancelled = false
    ∧ Sees settings ring cursor rest

/-- What a call for another cursor leaves alone. -/
def Untouched (id : ℕ) (ring ring' : Ring V T) : Prop :=
  ring'.buffer = ring.buffer ∧ ring'.made[id]? = ring.made[id]?

theorem Untouched.trans {id : ℕ} (h : Untouched id ring ring') (h' : Untouched id ring' ring'') :
    Untouched id ring ring'' :=
  ⟨h'.1.trans h.1, h'.2.trans h.2⟩

variable {id : ℕ} {rest : List V}

theorem valueAt_congr (hbuffer : ring'.buffer = ring.buffer) (cursor : Cursor V) (s : ℕ) :
    ring'.valueAt settings cursor s = ring.valueAt settings cursor s := by
  rw [valueAt, valueAt, recordAt_congr hbuffer]

theorem Sees.congr {cursor : Cursor V} (h : Sees settings ring cursor rest)
    (hbuffer : ring'.buffer = ring.buffer) : Sees settings ring' cursor rest where
  length := h.length
  values := by
    intro i value hvalue
    rw [valueAt_congr hbuffer]
    exact h.values i value hvalue

/-- A cursor with nothing left sees that in every ring. -/
theorem Sees.of_nil {cursor : Cursor V} (h : Sees settings ring cursor rest)
    (hnil : rest = []) (ring' : Ring V T) : Sees settings ring' cursor rest where
  length := h.length
  values := by
    intro i value hvalue
    rw [hnil] at hvalue
    cases hvalue

theorem Pending.of_untouched (h : Pending settings id rest ring)
    (huntouched : Untouched id ring ring') : Pending settings id rest ring' := by
  obtain ⟨cursor, hcursor, hcancelled, hsees⟩ := h
  exact ⟨cursor, huntouched.2.trans hcursor, hcancelled, hsees.congr huntouched.1⟩

/-- A cursor that is not cancelled is done when nothing is left. -/
theorem Sees.done_iff {cursor : Cursor V} (h : Sees settings ring cursor rest)
    (hcancelled : cursor.cancelled = false) : cursor.done = true ↔ rest = [] := by
  have hlength := h.length
  rw [Cursor.done, hcancelled, Bool.false_or, decide_eq_true_eq, ← List.length_eq_zero_iff]
  omega

theorem peek_of_pending (h : Pending settings id rest ring) :
    ring.peek settings id = rest.head? := by
  obtain ⟨cursor, hcursor, hcancelled, hsees⟩ := h
  have hdone := hsees.done_iff hcancelled
  simp only [peek, hcursor]
  cases rest with
  | nil => rw [if_pos (hdone.mpr rfl), List.head?_nil]
  | cons value rest =>
    rw [if_neg (fun h => List.cons_ne_nil _ _ (hdone.mp h)), List.head?_cons]
    exact hsees.values 0 value rfl

/-- A `commit` passes the next value. -/
theorem commit_of_pending (h : Sound settings ring) (hp : Pending settings id rest ring) :
    (ring.commit id).1 = !rest.isEmpty ∧ Pending settings id rest.tail (ring.commit id).2 := by
  obtain ⟨cursor, hcursor, hcancelled, hsees⟩ := hp
  have hdone := hsees.done_iff hcancelled
  cases rest with
  | nil =>
    rw [commit_of_done hcursor (hdone.mpr rfl)]
    exact ⟨rfl, cursor, hcursor, hcancelled, hsees⟩
  | cons value rest =>
    have hactive : cursor.done = false := by
      rw [← Bool.not_eq_true, hdone]
      exact List.cons_ne_nil _ _
    have hlength := hsees.length
    rw [List.length_cons] at hlength
    obtain ⟨hend, hcommit⟩ | ⟨hlt, hcommit⟩ := commit_cases h hcursor hactive
    · -- the last value: the cursor is released and sees nothing more
      rw [hcommit]
      have hnil : rest = [] := List.length_eq_zero_iff.mp (by omega)
      refine ⟨rfl, _, getElem?_set_of_some hcursor _, hcancelled, ?_, ?_⟩
      · show cursor.currentSequence + 1 + rest.length = cursor.lastSequence + 1
        omega
      · intro i other hother
        rw [List.tail_cons, hnil] at hother
        cases hother
    · rw [hcommit]
      refine ⟨rfl, _, getElem?_set_of_some hcursor _, hcancelled, ?_, ?_⟩
      · show cursor.currentSequence + 1 + rest.length = cursor.lastSequence + 1
        omega
      · intro i other hother
        have hvalue := hsees.values (i + 1) other hother
        have hne : cursor.currentSequence + (i + 1) ≠ cursor.currentSequence := by omega
        have hnumber : cursor.advanced.currentSequence + i = cursor.currentSequence + (i + 1) := by
          show cursor.currentSequence + 1 + i = _
          omega
        rw [hnumber]
        show (Function.update cursor.preserved cursor.currentSequence none _).or _ = some other
        rw [Function.update_of_ne hne]
        exact hvalue

/-- The loop of `read` collects the next values, up to its limit. -/
theorem readLoop_of_pending (turns limit : ℕ) (h : Sound settings ring)
    (hp : Pending settings id rest ring) (hturns : rest.length ≤ turns) :
    (ring.readLoop settings id turns limit).1 = rest.take limit
      ∧ Pending settings id (rest.drop limit) (ring.readLoop settings id turns limit).2 := by
  induction turns generalizing limit ring rest with
  | zero =>
    have hnil : rest = [] := List.length_eq_zero_iff.mp (Nat.le_zero.mp hturns)
    rw [hnil] at hp ⊢
    rw [List.take_nil, List.drop_nil]
    exact ⟨rfl, hp⟩
  | succ turns ih =>
    cases limit with
    | zero => exact ⟨rfl, hp⟩
    | succ limit =>
      have hpeek := peek_of_pending hp
      have hcommit := (commit_of_pending h hp).2
      rw [readLoop, hpeek]
      cases rest with
      | nil =>
        have hloop := ih (limit + 1) (sound_commit h id) hcommit (Nat.zero_le _)
        rw [List.take_nil, List.drop_nil]
        rw [List.tail_nil, List.take_nil, List.drop_nil] at hloop
        exact hloop
      | cons value rest =>
        rw [List.length_cons] at hturns
        obtain ⟨hvalues, hrest⟩ :=
          ih limit (sound_commit h id) hcommit (Nat.le_of_succ_le_succ hturns)
        exact ⟨congrArg (value :: ·) hvalues, hrest⟩

/-- `read` returns the next values, and always at least one while any is left. -/
theorem read_of_pending (h : Sound settings ring) (hp : Pending settings id rest ring)
    (maxEntries : ℕ) :
    (ring.read settings id maxEntries).1 = rest.take (max 1 maxEntries)
      ∧ Pending settings id (rest.drop (max 1 maxEntries))
        (ring.read settings id maxEntries).2 := by
  obtain ⟨cursor, hcursor, hcancelled, hsees⟩ := hp
  have hlength := hsees.length
  have hunread : ring.unread id = rest.length := by
    simp only [unread, hcursor]
    omega
  obtain ⟨hvalues, after, hafter, hlive, hrest⟩ :=
    readLoop_of_pending (ring.unread id) (max 1 maxEntries) h
      ⟨cursor, hcursor, hcancelled, hsees⟩ hunread.ge
  have hsound := sound_readLoop id (ring.unread id) (max 1 maxEntries) h
  simp only [read, hcursor, hcancelled, Bool.false_eq_true, if_false, hafter]
  refine ⟨hvalues, ?_⟩
  cases hdone : after.done with
  | false =>
    rw [if_neg Bool.false_ne_true]
    exact ⟨after, hafter, hlive, hrest⟩
  | true =>
    have hnil := (hrest.done_iff hlive).mp hdone
    have hrelease := hsound.release_eq hafter after rfl
    rw [putCursor_self hafter] at hrelease
    rw [if_pos rfl, hrelease]
    refine ⟨after.released, getElem?_set_of_some hafter _, hlive, ?_⟩
    exact ⟨hrest.length, by
      intro i value hvalue
      rw [hnil] at hvalue
      cases hvalue⟩

/-! ### Calls for other cursors -/

theorem commit_untouched {other : ℕ} (hne : other ≠ id) (ring : Ring V T) :
    Untouched id ring (ring.commit other).2 := by
  cases hcursor : ring.made[other]? with
  | none =>
    rw [commit_of_none hcursor]
    exact ⟨rfl, rfl⟩
  | some cursor =>
    cases hdone : cursor.done with
    | true =>
      rw [commit_of_done hcursor hdone]
      exact ⟨rfl, rfl⟩
    | false =>
      have hself := getElem?_set_of_some hcursor cursor.advanced
      simp only [commit, hcursor, hdone, Bool.false_eq_true, if_false]
      split
      · simp only [release, putCursor, hself]
        exact ⟨rfl, by rw [List.set_set, List.getElem?_set_ne hne]⟩
      · exact ⟨rfl, List.getElem?_set_ne hne⟩

theorem readLoop_untouched {other : ℕ} (hne : other ≠ id) (turns limit : ℕ) (ring : Ring V T) :
    Untouched id ring (ring.readLoop settings other turns limit).2 := by
  induction turns generalizing limit ring with
  | zero => exact ⟨rfl, rfl⟩
  | succ turns ih =>
    cases limit with
    | zero => exact ⟨rfl, rfl⟩
    | succ limit =>
      rw [readLoop]
      cases ring.peek settings other with
      | some value => exact (commit_untouched hne ring).trans (ih limit _)
      | none => exact (commit_untouched hne ring).trans (ih (limit + 1) _)

theorem release_untouched {other : ℕ} (hne : other ≠ id) (ring : Ring V T) :
    Untouched id ring (ring.release other) := by
  rw [release]
  cases ring.made[other]? with
  | none => exact ⟨rfl, rfl⟩
  | some cursor => exact ⟨rfl, List.getElem?_set_ne hne⟩

theorem read_untouched {other : ℕ} (hne : other ≠ id) (maxEntries : ℕ) (ring : Ring V T) :
    Untouched id ring (ring.read settings other maxEntries).2 := by
  unfold read
  have hloop : Untouched id ring
      (ring.readLoop settings other (ring.unread other) (max 1 maxEntries)).2 :=
    readLoop_untouched hne _ _ ring
  cases ring.made[other]? with
  | none => exact ⟨rfl, rfl⟩
  | some cursor =>
    cases hcancelled : cursor.cancelled with
    | true =>
      simp only [hcancelled, if_true]
      exact ⟨rfl, rfl⟩
    | false =>
      simp only [hcancelled, Bool.false_eq_true, if_false]
      split
      · split
        · exact hloop.trans (release_untouched hne _)
        · exact hloop
      · exact hloop

theorem cancel_untouched {other : ℕ} (hne : other ≠ id) (ring : Ring V T) :
    Untouched id ring (ring.cancel other) := by
  unfold cancel
  cases ring.made[other]? with
  | none => exact ⟨rfl, rfl⟩
  | some cursor =>
    have hput : Untouched id ring (ring.putCursor other { cursor with cancelled := true }) :=
      ⟨rfl, List.getElem?_set_ne hne⟩
    exact hput.trans (release_untouched hne _)

/-- A cursor that was cancelled stays so. -/
def Cancelled (id : ℕ) (ring : Ring V T) : Prop :=
  ∃ cursor, ring.made[id]? = some cursor ∧ cursor.cancelled = true

theorem Cancelled.not_live (h : Cancelled id ring) : ¬ Live id ring := by
  rintro ⟨cursor, hcursor, hlive⟩
  obtain ⟨other, hother, hcancelled⟩ := h
  rw [hcursor] at hother
  cases hother
  rw [hlive] at hcancelled
  cases hcancelled

theorem Cancelled.of_untouched (h : Cancelled id ring) (huntouched : Untouched id ring ring') :
    Cancelled id ring' := by
  obtain ⟨cursor, hcursor, hcancelled⟩ := h
  exact ⟨cursor, huntouched.2.trans hcursor, hcancelled⟩

theorem cancelled_cancel {cursor : Cursor V} (hcursor : ring.made[id]? = some cursor) :
    Cancelled id (ring.cancel id) := by
  have hself := getElem?_set_of_some hcursor { cursor with cancelled := true }
  refine ⟨{ cursor with cancelled := true }.released, ?_, rfl⟩
  simp only [cancel, hcursor, release, putCursor, hself, List.set_set]
  exact getElem?_set_of_some hcursor _

/-- Making room for a cursor cancels another one, or leaves it alone. -/
theorem room_untouched_or (settings : Settings V T) {cursor : Cursor V}
    (hcursor : ring.made[id]? = some cursor) :
    Cancelled id (ring.room settings) ∨ Untouched id ring (ring.room settings) := by
  obtain hroom | ⟨oldest, -, hroom⟩ := room_cases settings ring
  · rw [hroom]
    exact Or.inr ⟨rfl, rfl⟩
  · rw [hroom]
    by_cases heq : oldest = id
    · rw [heq]
      exact Or.inl (cancelled_cancel hcursor)
    · exact Or.inr (cancel_untouched heq ring)

/-- The cursors of before stay where they are when one more is made. -/
theorem create_untouched {cursor : Cursor V} (hcursor : ring.made[id]? = some cursor) :
    Untouched id (ring.room settings) (ring.createSnapshotCursor settings) := by
  have hlt : id < (ring.room settings).made.length := by
    rw [(room_fields settings ring).1]
    exact (List.getElem?_eq_some_iff.mp hcursor).1
  exact ⟨rfl, List.getElem?_append_left hlt⟩

theorem Sound.not_mem_of_cancelled (h : Sound settings ring) (hcancelled : Cancelled id ring) :
    id ∉ ring.cursors := by
  intro hid
  obtain ⟨cursor, hcursor, -, hlive, -⟩ := h.registered id hid
  exact hcancelled.not_live ⟨cursor, hcursor, hlive⟩

theorem cancelled_clear (hcancelled : Cancelled id ring) : Cancelled id ring.clear := by
  obtain ⟨cursor, hcursor, hflag⟩ := hcancelled
  refine ⟨_, (List.getElem?_mapIdx).trans (by rw [hcursor]; rfl), ?_⟩
  split
  · rfl
  · exact hflag

/-! ### Runs -/

section YieldRuns

variable [Sub T] [LE T] [DecidableLE T]

omit [Sub T] [LE T] [DecidableLE T] in
theorem Sound.cancelled_upkeep (h : Sound settings ring) (hupkeep : Upkeep settings ring ring')
    (hcancelled : Cancelled id ring) : Cancelled id ring' := by
  have huntouched := hupkeep.others id (h.not_mem_of_cancelled hcancelled)
  obtain ⟨cursor, hcursor, hflag⟩ := hcancelled
  exact ⟨cursor, huntouched.trans hcursor, hflag⟩

theorem cancelled_step (h : Sound settings ring) (hcancelled : Cancelled id ring) (op : Op V T) :
    Cancelled id (ring.step settings op) := by
  have ⟨cursor, hcursor, hflag⟩ := hcancelled
  have hdone : cursor.done = true := by rw [Cursor.done, hflag, Bool.true_or]
  cases op with
  | push value => exact h.cancelled_upkeep (upkeep_push h.toStored value) hcancelled
  | evictExpired latest =>
    exact h.cancelled_upkeep (upkeep_evictExpired _ h.toStored) hcancelled
  | snapshot => exact hcancelled
  | createSnapshotCursor =>
    have hroom : Cancelled id (ring.room settings) := by
      obtain hroom | huntouched := room_untouched_or settings hcursor
      · exact hroom
      · exact hcancelled.of_untouched huntouched
    exact hroom.of_untouched (create_untouched hcursor)
  | clear => exact cancelled_clear hcancelled
  | read other maxEntries =>
    by_cases heq : other = id
    · subst heq
      refine ⟨cursor, ?_, hflag⟩
      simp only [step, read, hcursor, hflag, if_true]
    · exact hcancelled.of_untouched (read_untouched heq maxEntries ring)
  | peek other => exact hcancelled
  | commit other =>
    by_cases heq : other = id
    · subst heq
      refine ⟨cursor, ?_, hflag⟩
      simp only [step, commit_of_done hcursor hdone, hcursor]
    · exact hcancelled.of_untouched (commit_untouched heq ring)
  | cancel other =>
    by_cases heq : other = id
    · subst heq
      exact cancelled_cancel hcursor
    · exact hcancelled.of_untouched (cancel_untouched heq ring)

omit [Sub T] [LE T] [DecidableLE T] in
/-- A write to the ring takes nothing from a cursor. -/
theorem Pending.of_upkeep (hp : Pending settings id rest ring) (h : Sound settings ring)
    (hupkeep : Upkeep settings ring ring') : Pending settings id rest ring' := by
  obtain ⟨cursor, hcursor, hcancelled, hsees⟩ := hp
  by_cases hid : id ∈ ring.cursors
  · obtain ⟨registered, hregistered, -, -, hlast⟩ := h.registered id hid
    rw [hcursor] at hregistered
    cases hregistered
    obtain ⟨cursor', hcursor', hkept⟩ := hupkeep.kept id hid cursor hcursor
    refine ⟨cursor', hcursor', hkept.cancelled.trans hcancelled, ?_, ?_⟩
    · rw [hkept.currentSequence, hkept.lastSequence]
      exact hsees.length
    · intro i value hvalue
      have hlength := hsees.length
      have hlt := (List.getElem?_eq_some_iff.mp hvalue).1
      rw [hkept.currentSequence]
      exact hkept.values hlast _ value (by omega) (by omega) (hsees.values i value hvalue)
  · have hnil : rest = [] := by
      apply (hsees.done_iff hcancelled).mp
      by_contra hactive
      exact hid (h.active id cursor hcursor (Bool.not_eq_true _ ▸ hactive))
    exact ⟨cursor, (hupkeep.others id hid).trans hcursor, hcancelled, hsees.of_nil hnil ring'⟩

/-- One call cancels a cursor, or what it takes out of the cursor is the front
of what the cursor had still to yield. -/
theorem pending_step (h : Sound settings ring) (hp : Pending settings id rest ring)
    (op : Op V T) :
    Cancelled id (ring.step settings op) ∨
      ∃ rest', rest = ring.taken settings id op ++ rest' ∧
        Pending settings id rest' (ring.step settings op) := by
  have ⟨cursor, hcursor, hcancelled, hsees⟩ := hp
  cases op with
  | push value => exact Or.inr ⟨rest, rfl, hp.of_upkeep h (upkeep_push h.toStored value)⟩
  | evictExpired latest =>
    exact Or.inr ⟨rest, rfl, hp.of_upkeep h (upkeep_evictExpired _ h.toStored)⟩
  | snapshot => exact Or.inr ⟨rest, rfl, hp⟩
  | createSnapshotCursor =>
    obtain hroom | huntouched := room_untouched_or settings hcursor
    · exact Or.inl (hroom.of_untouched (create_untouched hcursor))
    · exact Or.inr ⟨rest, rfl, hp.of_untouched (huntouched.trans (create_untouched hcursor))⟩
  | clear =>
    have hafter : ring.clear.made[id]? = some (if id ∈ ring.cursors then
        { cursor.released with cancelled := true } else cursor) :=
      List.getElem?_mapIdx.trans (by rw [hcursor]; rfl)
    by_cases hid : id ∈ ring.cursors
    · -- a registered cursor is cancelled
      rw [if_pos hid] at hafter
      exact Or.inl ⟨_, hafter, rfl⟩
    · rw [if_neg hid] at hafter
      have hnil : rest = [] := by
        apply (hsees.done_iff hcancelled).mp
        by_contra hactive
        exact hid (h.active id cursor hcursor (Bool.not_eq_true _ ▸ hactive))
      exact Or.inr ⟨rest, rfl, cursor, hafter, hcancelled, hsees.of_nil hnil ring.clear⟩
  | read other maxEntries =>
    by_cases heq : other = id
    · subst heq
      obtain ⟨hvalues, hrest⟩ := read_of_pending h hp maxEntries
      refine Or.inr ⟨_, ?_, hrest⟩
      rw [taken, if_pos rfl, hvalues, List.take_append_drop]
    · exact Or.inr ⟨rest, by rw [taken, if_neg heq, List.nil_append],
        hp.of_untouched (read_untouched heq maxEntries ring)⟩
  | peek other => exact Or.inr ⟨rest, rfl, hp⟩
  | commit other =>
    by_cases heq : other = id
    · subst heq
      obtain ⟨hmoved, hrest⟩ := commit_of_pending h hp
      refine Or.inr ⟨_, ?_, hrest⟩
      rw [taken, hmoved, peek_of_pending hp]
      cases rest with
      | nil => simp
      | cons value rest => simp
    · exact Or.inr ⟨rest, by rw [taken, if_neg (fun hboth => heq hboth.1), List.nil_append],
        hp.of_untouched (commit_untouched heq ring)⟩
  | cancel other =>
    by_cases heq : other = id
    · subst heq
      exact Or.inl (cancelled_cancel hcursor)
    · exact Or.inr ⟨rest, rfl, hp.of_untouched (cancel_untouched heq ring)⟩

theorem cancelled_run (h : Sound settings ring) (hcancelled : Cancelled id ring)
    (ops : List (Op V T)) : Cancelled id (ring.run settings ops) := by
  induction ops generalizing ring with
  | nil => exact hcancelled
  | cons op ops ih => exact ih (sound_step h op) (cancelled_step h hcancelled op)

/-- A run: what it takes out of a cursor that is not cancelled is the front of
what the cursor had to yield at its start. -/
theorem pending_run (h : Sound settings ring) (hp : Pending settings id rest ring)
    (ops : List (Op V T)) (hlive : Live id (ring.run settings ops)) :
    ∃ rest', rest = ring.takenOver settings id ops ++ rest' ∧
      Pending settings id rest' (ring.run settings ops) := by
  induction ops generalizing ring rest with
  | nil => exact ⟨rest, rfl, hp⟩
  | cons op ops ih =>
    have hsound := sound_step h op
    obtain hcancelled | ⟨middle, hmiddle, hpending⟩ := pending_step h hp op
    · exact absurd hlive (cancelled_run hsound hcancelled ops).not_live
    · obtain ⟨rest', hrest', hend⟩ := ih hsound hpending hlive
      refine ⟨rest', ?_, hend⟩
      rw [hmiddle, hrest', takenOver, List.append_assoc]

end YieldRuns

/-! ### A new cursor -/

theorem exists_map_some (entries : List (Option V))
    (h : ∀ entry ∈ entries, ∃ value, entry = some value) :
    ∃ rest : List V, entries = rest.map some := by
  induction entries with
  | nil => exact ⟨[], rfl⟩
  | cons entry entries ih =>
    obtain ⟨value, rfl⟩ := h entry List.mem_cons_self
    obtain ⟨rest, hrest⟩ := ih fun other hother => h other (List.mem_cons_of_mem _ hother)
    exact ⟨value :: rest, by rw [hrest, List.map_cons]⟩

/-- A new cursor has to yield what a snapshot of the ring holds. -/
theorem pending_createSnapshotCursor (h : Sound settings ring) :
    ∃ rest, ring.snapshot settings = rest.map some ∧
      Pending settings ring.made.length rest (ring.createSnapshotCursor settings) := by
  have hfirst := h.first_pos
  have hle := h.first_le
  obtain ⟨rest, hrest⟩ := exists_map_some (ring.snapshot settings) (by
    intro entry hentry
    obtain ⟨index, hindex, rfl⟩ := List.mem_map.mp hentry
    rw [List.mem_range, length] at hindex
    obtain ⟨record, hrecord⟩ := h.retained (ring.firstSequence + index) (by omega) (by omega)
    exact ⟨record.value, by rw [hrecord, Option.map_some]⟩)
  have hlength : rest.length = ring.length := by
    rw [← List.length_map (f := some), ← hrest, snapshot, List.length_map, List.length_range]
  obtain ⟨hmade, hbuffer, hfirstRoom, hnextRoom⟩ := room_fields settings ring
  refine ⟨rest, hrest, Cursor.new ring.firstSequence (ring.nextSequence - 1), ?_, rfl, ?_, ?_⟩
  · rw [createSnapshotCursor_eq, hfirstRoom, hnextRoom, ← hmade]
    exact List.getElem?_concat_length
  · show ring.firstSequence + rest.length = ring.nextSequence - 1 + 1
    rw [hlength, length]
    omega
  · intro i value hvalue
    have hentry : (ring.snapshot settings)[i]? = some (some value) := by
      rw [hrest, List.getElem?_map, hvalue, Option.map_some]
    rw [snapshot, List.getElem?_map, Option.map_eq_some_iff] at hentry
    obtain ⟨index, hindex, hfound⟩ := hentry
    obtain ⟨hlt, hself⟩ := List.getElem?_eq_some_iff.mp hindex
    rw [List.getElem_range] at hself
    have hcongr : (ring.createSnapshotCursor settings).buffer = ring.buffer := hbuffer
    rw [valueAt_congr hcongr, hself]
    exact hfound

/-! ### Released cursors -/

/-- A finished or cancelled cursor is not registered, and it holds no preserved
value. -/
def Released (ring : Ring V T) : Prop :=
  ∀ (id : ℕ) (cursor : Cursor V), ring.made[id]? = some cursor → cursor.done = true →
    id ∉ ring.cursors ∧ cursor.preserved = fun _ => none

/-- Every registered cursor still has something to read. -/
def Tidy (ring : Ring V T) : Prop :=
  ∀ id ∈ ring.cursors, ∀ cursor, ring.made[id]? = some cursor → cursor.done = false

theorem Sound.released_iff (h : Sound settings ring) : Released ring ↔ Tidy ring := by
  constructor
  · intro hreleased id hid cursor hcursor
    by_contra hdone
    exact (hreleased id cursor hcursor (Bool.not_eq_false _ ▸ hdone)).1 hid
  · intro htidy id cursor hcursor hdone
    refine ⟨?_, h.emptied id cursor hcursor hdone⟩
    intro hid
    rw [htidy id hid cursor hcursor] at hdone
    cases hdone

theorem Tidy.of_upkeep (htidy : Tidy ring) (h : Sound settings ring)
    (hupkeep : Upkeep settings ring ring') : Tidy ring' := by
  intro id hid cursor' hcursor'
  rw [hupkeep.cursors] at hid
  obtain ⟨cursor, hcursor, -⟩ := h.registered id hid
  obtain ⟨other, hother, hkept⟩ := hupkeep.kept id hid cursor hcursor
  rw [hcursor'] at hother
  cases hother
  have hactive := htidy id hid cursor hcursor
  rw [Cursor.done] at hactive ⊢
  rw [hkept.cancelled, hkept.lastSequence, hkept.currentSequence]
  exact hactive

theorem Tidy.retire (htidy : Tidy ring) (h : Sound settings ring) (id : ℕ) (cursor : Cursor V) :
    Tidy (ring.retire id cursor) := by
  intro other hother found hfound
  obtain ⟨hne, hmem⟩ := h.nodup.mem_erase_iff.mp hother
  exact htidy other hmem found ((List.getElem?_set_ne hne.symm).symm.trans hfound)

theorem Tidy.cancel (htidy : Tidy ring) (h : Sound settings ring) (id : ℕ) :
    Tidy (ring.cancel id) := by
  unfold Ring.cancel
  cases hcursor : ring.made[id]? with
  | none => exact htidy
  | some cursor =>
    show Tidy ((ring.putCursor id { cursor with cancelled := true }).release id)
    rw [h.release_eq hcursor { cursor with cancelled := true } rfl]
    exact htidy.retire h id _

theorem Tidy.commit (htidy : Tidy ring) (h : Sound settings ring) (id : ℕ) :
    Tidy (ring.commit id).2 := by
  cases hcursor : ring.made[id]? with
  | none =>
    rw [commit_of_none hcursor]
    exact htidy
  | some cursor =>
    cases hdone : cursor.done with
    | true =>
      rw [commit_of_done hcursor hdone]
      exact htidy
    | false =>
      obtain ⟨-, hcommit⟩ | ⟨hlt, hcommit⟩ := commit_cases h hcursor hdone
      · rw [hcommit]
        exact htidy.retire h id _
      · rw [hcommit]
        intro other hother found hfound
        by_cases heq : id = other
        · subst heq
          rw [show ((true, ring.putCursor id cursor.advanced).2.made)[id]? = _ from
            getElem?_set_of_some hcursor cursor.advanced] at hfound
          cases hfound
          exact Cursor.done_eq_false.mpr ⟨(Cursor.done_eq_false.mp hdone).1, hlt⟩
        · exact htidy other hother found ((List.getElem?_set_ne heq).symm.trans hfound)

theorem Tidy.readLoop (htidy : Tidy ring) (h : Sound settings ring) (id turns limit : ℕ) :
    Tidy (ring.readLoop settings id turns limit).2 := by
  induction turns generalizing limit ring with
  | zero => exact htidy
  | succ turns ih =>
    cases limit with
    | zero => exact htidy
    | succ limit =>
      rw [Ring.readLoop]
      cases ring.peek settings id with
      | some value => exact ih (htidy.commit h id) (sound_commit h id) limit
      | none => exact ih (htidy.commit h id) (sound_commit h id) (limit + 1)

theorem Tidy.read (htidy : Tidy ring) (h : Sound settings ring) (id maxEntries : ℕ) :
    Tidy (ring.read settings id maxEntries).2 := by
  unfold Ring.read
  cases ring.made[id]? with
  | none => exact htidy
  | some cursor =>
    cases hcancelled : cursor.cancelled with
    | true => simpa only [hcancelled, if_true] using htidy
    | false =>
      simp only [hcancelled, Bool.false_eq_true, if_false]
      have hsound := sound_readLoop id (ring.unread id) (max 1 maxEntries) h
      have hloop := htidy.readLoop h id (ring.unread id) (max 1 maxEntries)
      split
      · next after hafter =>
        split
        · have hrelease := hsound.release_eq hafter after rfl
          rw [putCursor_self hafter] at hrelease
          rw [hrelease]
          exact hloop.retire hsound id _
        · exact hloop
      · exact hloop

/-- A cursor that is made while the ring holds something has something to read. -/
theorem Tidy.createSnapshotCursor (htidy : Tidy ring) (h : Sound settings ring)
    (hnonempty : ring.length ≠ 0) : Tidy (ring.createSnapshotCursor settings) := by
  have hroom : Tidy (ring.room settings) := by
    obtain hroom | ⟨oldest, -, hroom⟩ := room_cases settings ring
    · rwa [hroom]
    · rw [hroom]
      exact htidy.cancel h oldest
  have hsound := sound_room h
  obtain ⟨-, -, hfirst, hnext⟩ := room_fields settings ring
  intro id hid cursor hcursor
  obtain hold | ⟨-, rfl⟩ := made_append_cases hcursor
  · have hlt := (List.getElem?_eq_some_iff.mp hold).1
    obtain hmem | hmem := List.mem_append.mp hid
    · exact hroom id hmem cursor hold
    · rw [List.mem_singleton.mp hmem] at hlt
      exact absurd hlt (Nat.lt_irrefl _)
  · refine Cursor.done_eq_false.mpr ⟨rfl, ?_⟩
    show (ring.room settings).firstSequence ≤ (ring.room settings).nextSequence - 1
    rw [hfirst, hnext]
    rw [length] at hnonempty
    omega

/-- A cursor that is made while the ring is empty is done and registered. -/
theorem not_tidy_createSnapshotCursor (h : Sound settings ring) (hempty : ring.length = 0) :
    ¬ Tidy (ring.createSnapshotCursor settings) := by
  intro htidy
  obtain ⟨hmade, -, hfirst, hnext⟩ := room_fields settings ring
  have hpos := h.first_pos
  have hle := h.first_le
  have hactive := htidy (ring.room settings).made.length
    (List.mem_append_right _ (List.mem_singleton.mpr rfl)) _ List.getElem?_concat_length
  have hseen : (ring.room settings).firstSequence ≤ (ring.room settings).nextSequence - 1 :=
    (Cursor.done_eq_false.mp hactive).2
  rw [hfirst, hnext] at hseen
  rw [length] at hempty
  omega

section Claims

variable [Sub T] [LE T] [DecidableLE T]

theorem Tidy.step (htidy : Tidy ring) (h : Sound settings ring) (op : Op V T)
    (hnonempty : op = .createSnapshotCursor → ring.length ≠ 0) :
    Tidy (ring.step settings op) := by
  cases op with
  | push value => exact htidy.of_upkeep h (upkeep_push h.toStored value)
  | evictExpired latest => exact htidy.of_upkeep h (upkeep_evictExpired _ h.toStored)
  | snapshot => exact htidy
  | createSnapshotCursor => exact htidy.createSnapshotCursor h (hnonempty rfl)
  | clear =>
    intro id hid
    cases hid
  | read id maxEntries => exact htidy.read h id maxEntries
  | peek id => exact htidy
  | commit id => exact htidy.commit h id
  | cancel id => exact htidy.cancel h id

end Claims

end Ring

section FrozenCopies

variable [Sub T] [LE T] [DecidableLE T] (settings : Settings V T)

/-- At every moment of the run, every cursor that was created earlier in it and
is not cancelled by then has yielded the front of the snapshot of its creation,
and `peek`, `commit` and `read` go on with exactly what is left. -/
def YieldsFrozen (ops : List (Op V T)) : Prop :=
  ∀ before after later, ops = before ++ .createSnapshotCursor :: (after ++ later) →
    let created := Ring.new.run settings before
    let id := created.made.length
    let ring := (created.createSnapshotCursor settings).run settings after
    Ring.Live id ring →
    ∃ rest : List V,
      created.snapshot settings =
          ((created.createSnapshotCursor settings).takenOver settings id after ++ rest).map some
        ∧ ring.peek settings id = rest.head?
        ∧ (ring.commit id).1 = !rest.isEmpty
        ∧ (∀ maxEntries, (ring.read settings id maxEntries).1 = rest.take (max 1 maxEntries))
        ∧ (∀ cursor, ring.made[id]? = some cursor → (cursor.done = true ↔ rest = []))

/-- At every moment of the run, no finished or cancelled cursor is registered
or holds a preserved value. -/
def ReleasedThroughout (ops : List (Op V T)) : Prop :=
  ∀ n, Ring.Released (Ring.new.run settings (ops.take n))

/-- No cursor of the run is created while the ring is empty. -/
def CreatesNonempty (ops : List (Op V T)) : Prop :=
  ∀ n, ops[n]? = some .createSnapshotCursor →
    (Ring.new.run settings (ops.take n)).length ≠ 0

theorem yieldsFrozen (ops : List (Op V T)) : YieldsFrozen settings ops := by
  intro before after later _ created id ring hlive
  have hcreated : Ring.Sound settings created := Ring.sound_run Ring.sound_new before
  have hsound := Ring.sound_createSnapshotCursor hcreated
  obtain ⟨all, hsnapshot, hpending⟩ := Ring.pending_createSnapshotCursor hcreated
  obtain ⟨rest, hall, hrest⟩ := Ring.pending_run hsound hpending after hlive
  have hend : Ring.Sound settings ring := Ring.sound_run hsound after
  refine ⟨rest, ?_, Ring.peek_of_pending hrest, (Ring.commit_of_pending hend hrest).1, ?_, ?_⟩
  · rw [hsnapshot, hall]
  · intro maxEntries
    exact (Ring.read_of_pending hend hrest maxEntries).1
  · intro cursor hcursor
    obtain ⟨found, hfound, hcancelled, hsees⟩ := hrest
    rw [hcursor] at hfound
    cases hfound
    exact hsees.done_iff hcancelled

theorem run_take_succ {ops : List (Op V T)} {op : Op V T} {n : ℕ} (h : ops[n]? = some op) :
    Ring.new.run settings (ops.take (n + 1)) =
      (Ring.new.run settings (ops.take n)).step settings op := by
  rw [List.take_add_one, h, Option.toList_some, Ring.run, Ring.run, List.foldl_append]
  rfl

theorem tidy_take {ops : List (Op V T)} (h : CreatesNonempty settings ops) (n : ℕ) :
    Ring.Tidy (Ring.new.run settings (ops.take n)) := by
  induction n with
  | zero =>
    intro id hid
    cases hid
  | succ n ih =>
    cases hop : ops[n]? with
    | none =>
      have hle := List.getElem?_eq_none_iff.mp hop
      rw [List.take_of_length_le hle] at ih
      rwa [List.take_of_length_le (by omega)]
    | some op =>
      rw [run_take_succ settings hop]
      apply ih.step (Ring.sound_run Ring.sound_new _)
      rintro rfl
      exact h n hop

/-- Every cursor of a run yields a frozen copy of the ring, and the finished
and the cancelled ones are released throughout, in exactly the runs that create
no cursor while the ring is empty. -/
theorem snapshot_cursors_frozen_iff (ops : List (Op V T)) :
    (YieldsFrozen settings ops ∧ ReleasedThroughout settings ops) ↔
      CreatesNonempty settings ops := by
  constructor
  · rintro ⟨-, hreleased⟩ n hop hempty
    have hsound : Ring.Sound settings (Ring.new.run settings (ops.take n)) :=
      Ring.sound_run Ring.sound_new _
    have htidy := (Ring.sound_run Ring.sound_new _).released_iff.mp (hreleased (n + 1))
    rw [run_take_succ settings hop] at htidy
    exact Ring.not_tidy_createSnapshotCursor hsound hempty htidy
  · intro hnonempty
    refine ⟨yieldsFrozen settings ops, ?_⟩
    intro n
    exact (Ring.sound_run Ring.sound_new _).released_iff.mpr (tidy_take settings hnonempty n)

end FrozenCopies

/-- A ring of eight numbers without a window. -/
def eightNumbers : Settings ℕ ℤ where
  maxEntries := 8
  maxEntries_pos := by decide
  windowMs := none
  timestamp := fun _ => none
  maxCursors := 4
  maxCursors_pos := by decide

/-- A cursor of an empty ring is finished at once, and stays registered. -/
theorem empty_ring_cursor_registered :
    ¬ ReleasedThroughout eightNumbers [Op.createSnapshotCursor] := by
  intro h
  exact (h 1 0 (Cursor.new 1 0) rfl rfl).1 (by decide)

end DiagnosticRing
