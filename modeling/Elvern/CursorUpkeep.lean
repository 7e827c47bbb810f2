/-
What the operations of a diagnostic ring do to its cursors.

A write to the ring may take a record away, but only after every registered
cursor that has still to read it was handed the record.  The other operations
move a cursor on or take it out of the registry.

* `Ring.upkeep_push`, `Ring.upkeep_evictExpired` -- what a write does to the
  cursors;
* `Ring.commit_cases`, `Ring.Sound.release_eq` -- what a cursor does to the
  registry;
* `Ring.Sound`, `Ring.sound_run` -- the invariant of the ring and its cursors.
-/
import Elvern.DiagnosticRing

namespace DiagnosticRing

universe u v

variable {V : Type u} {T : Type v}

namespace Cursor

theorem preserve_fields (record : Record V) (cursor : Cursor V) :
    (cursor.preserve record).attached = cursor.attached
      ∧ (cursor.preserve record).currentSequence = cursor.currentSequence
      ∧ (cursor.preserve record).lastSequence = cursor.lastSequence
      ∧ (cursor.preserve record).cancelled = cursor.cancelled := by
  rw [preserve]
  split
  · exact ⟨rfl, rfl, rfl, rfl⟩
  · exact ⟨rfl, rfl, rfl, rfl⟩

/-- A preserved value is never replaced. -/
theorem preserve_of_some {record : Record V} {cursor : Cursor V} {s : ℕ} {value : V}
    (h : cursor.preserved s = some value) :
    (cursor.preserve record).preserved s = some value := by
  rw [preserve]
  split
  · next hneeded =>
    have hne : s ≠ record.sequence := by
      rintro rfl
      rw [h] at hneeded
      exact absurd hneeded.2.2 (by simp)
    exact (Function.update_of_ne hne _ _).trans h
  · exact h

/-- A cursor keeps the value of a record that it has still to read. -/
theorem preserve_self {record : Record V} {cursor : Cursor V}
    (hcurrent : cursor.currentSequence ≤ record.sequence)
    (hlast : record.sequence ≤ cursor.lastSequence)
    (h : cursor.preserved record.sequence = none) :
    (cursor.preserve record).preserved record.sequence = some record.value := by
  rw [preserve, if_pos ⟨hcurrent, hlast, by rw [h]; rfl⟩]
  exact Function.update_self _ _ _

theorem preserve_of_ne {record : Record V} {cursor : Cursor V} {s : ℕ}
    (h : s ≠ record.sequence) :
    (cursor.preserve record).preserved s = cursor.preserved s := by
  rw [preserve]
  split
  · exact Function.update_of_ne h _ _
  · rfl

/-- A cursor that has passed its end takes no record. -/
theorem preserve_of_lt {record : Record V} {cursor : Cursor V}
    (h : cursor.lastSequence < cursor.currentSequence) : cursor.preserve record = cursor := by
  rw [preserve, if_neg]
  rintro ⟨hcurrent, hlast, -⟩
  omega

end Cursor

namespace Ring

variable {settings : Settings V T} {ring ring' ring'' : Ring V T}

/-! ### What a write to the ring does to its cursors -/

/-- A cursor before and after a write: only its preserved values have changed,
and it finds what it found before at every number it has still to read. -/
structure Kept (settings : Settings V T) (ring ring' : Ring V T) (cursor cursor' : Cursor V) :
    Prop where
  attached : cursor'.attached = cursor.attached
  currentSequence : cursor'.currentSequence = cursor.currentSequence
  lastSequence : cursor'.lastSequence = cursor.lastSequence
  cancelled : cursor'.cancelled = cursor.cancelled
  values : cursor.lastSequence < ring.nextSequence →
    ∀ s value, cursor.currentSequence ≤ s → s ≤ cursor.lastSequence →
      ring.valueAt settings cursor s = some value → ring'.valueAt settings cursor' s = some value
  preserved : cursor.lastSequence < cursor.currentSequence →
    cursor'.preserved = cursor.preserved

/-- What a write to the ring does: the registered cursors are kept, the others
are not touched, and no sequence number is given out again. -/
structure Upkeep (settings : Settings V T) (ring ring' : Ring V T) : Prop where
  cursors : ring'.cursors = ring.cursors
  nextSequence : ring.nextSequence ≤ ring'.nextSequence
  others : ∀ id, id ∉ ring.cursors → ring'.made[id]? = ring.made[id]?
  kept : ∀ id ∈ ring.cursors, ∀ cursor, ring.made[id]? = some cursor →
    ∃ cursor', ring'.made[id]? = some cursor' ∧ Kept settings ring ring' cursor cursor'

theorem Upkeep.refl (ring : Ring V T) : Upkeep settings ring ring where
  cursors := rfl
  nextSequence := Nat.le_refl _
  others := fun _ _ => rfl
  kept := by
    intro id _ cursor hcursor
    exact ⟨cursor, hcursor, rfl, rfl, rfl, rfl, fun _ _ _ _ _ h => h, fun _ => rfl⟩

theorem Upkeep.trans (h : Upkeep settings ring ring') (h' : Upkeep settings ring' ring'') :
    Upkeep settings ring ring'' where
  cursors := h'.cursors.trans h.cursors
  nextSequence := h.nextSequence.trans h'.nextSequence
  others := by
    intro id hid
    rw [h'.others id (by rwa [h.cursors]), h.others id hid]
  kept := by
    intro id hid cursor hcursor
    obtain ⟨cursor', hcursor', hkept⟩ := h.kept id hid cursor hcursor
    obtain ⟨cursor'', hcursor'', hkept'⟩ := h'.kept id (by rwa [h.cursors]) cursor' hcursor'
    refine ⟨cursor'', hcursor'', ?_⟩
    constructor
    · exact hkept'.attached.trans hkept.attached
    · exact hkept'.currentSequence.trans hkept.currentSequence
    · exact hkept'.lastSequence.trans hkept.lastSequence
    · exact hkept'.cancelled.trans hkept.cancelled
    · intro hlast s value hs hle hvalue
      apply hkept'.values
      · rw [hkept.lastSequence]
        exact hlast.trans_le h.nextSequence
      · rwa [hkept.currentSequence]
      · rwa [hkept.lastSequence]
      · exact hkept.values hlast s value hs hle hvalue
    · intro hpast
      rw [hkept'.preserved (by rwa [hkept.lastSequence, hkept.currentSequence]),
        hkept.preserved hpast]

/-- A slot that is written with a number that is not given out yet changes what is found
at the number of its old record alone. -/
theorem recordAt_of_slot {slot : ℕ} {entry : Option (Record V)} {s : ℕ}
    (hentry : ∀ record, entry = some record → ring.nextSequence ≤ record.sequence)
    (hbuffer : ring'.buffer = Function.update ring.buffer slot entry) (hs : s < ring.nextSequence)
    (hne : ∀ record, ring.buffer slot = some record → record.sequence ≠ s) :
    ring'.recordAt settings s = ring.recordAt settings s := by
  by_cases hslot : slotOf settings s = slot
  · have hbefore : ring.recordAt settings s = none := by
      rw [recordAt, hslot]
      cases hrecord : ring.buffer slot with
      | none => rfl
      | some record => exact if_neg (hne record hrecord)
    have hafter : ring'.recordAt settings s = none := by
      rw [recordAt, hbuffer, hslot, Function.update_self]
      cases hcase : entry with
      | none => rfl
      | some record =>
        have hle := hentry record hcase
        exact if_neg (by omega)
    rw [hbefore, hafter]
  · exact recordAt_of_slot_ne hbuffer hslot

/-- A cursor that was handed a record finds what it found before, although the record
is gone. -/
theorem valueAt_preserve {record : Record V} {cursor : Cursor V} {s : ℕ} {value : V}
    (hrecord : ring.buffer (slotOf settings record.sequence) = some record)
    (hothers : s ≠ record.sequence → ring'.recordAt settings s = ring.recordAt settings s)
    (hcurrent : cursor.currentSequence ≤ s) (hlast : s ≤ cursor.lastSequence)
    (hvalue : ring.valueAt settings cursor s = some value) :
    ring'.valueAt settings (cursor.preserve record) s = some value := by
  rw [valueAt] at hvalue ⊢
  cases hpreserved : cursor.preserved s with
  | some other =>
    rw [hpreserved, Option.some_or] at hvalue
    rw [Cursor.preserve_of_some hpreserved, Option.some_or, hvalue]
  | none =>
    rw [hpreserved, Option.none_or] at hvalue
    by_cases hself : s = record.sequence
    · subst hself
      rw [Cursor.preserve_self hcurrent hlast hpreserved, Option.some_or]
      rw [recordAt, hrecord] at hvalue
      simp only [if_true, Option.map_some] at hvalue
      -- a cursor that is not attached would not have found the record
      cases hcase : cursor.attached with
      | true => simpa only [hcase, if_true] using hvalue
      | false =>
        rw [hcase] at hvalue
        cases hvalue
    · rw [Cursor.preserve_of_ne hself, hpreserved, Option.none_or,
        (Cursor.preserve_fields record cursor).1, hothers hself]
      exact hvalue

/-- A slot is written after its record was handed over.  The record that takes
the slot, if any, has a number that no cursor waits for. -/
theorem upkeep_of_slot (slot : ℕ) (entry : Option (Record V))
    (hplaced : ∀ record, ring.buffer slot = some record →
      slotOf settings record.sequence = slot)
    (hentry : ∀ record, entry = some record → ring.nextSequence ≤ record.sequence)
    (hbuffer : ring'.buffer = Function.update ring.buffer slot entry)
    (hcursors : ring'.cursors = ring.cursors)
    (hnext : ring.nextSequence ≤ ring'.nextSequence)
    (hmade : ring'.made = (ring.handOver (ring.buffer slot)).made) :
    Upkeep settings ring ring' := by
  refine ⟨hcursors, hnext, ?_, ?_⟩
  · intro id hid
    rw [hmade, getElem?_handOver]
    cases ring.buffer slot with
    | none => rfl
    | some record => exact if_neg hid
  · intro id hid cursor hcursor
    cases hrecord : ring.buffer slot with
    | none =>
      refine ⟨cursor, ?_, rfl, rfl, rfl, rfl, ?_, fun _ => rfl⟩
      · rw [hmade, hrecord]
        exact hcursor
      · intro hlast s value hs hle hvalue
        rw [valueAt, recordAt_of_slot hentry hbuffer (by omega) fun other hother => ?_]
        · exact hvalue
        · rw [hrecord] at hother
          cases hother
    | some record =>
      obtain ⟨hattached, hcurrent, hlastSequence, hcancelled⟩ :=
        Cursor.preserve_fields record cursor
      refine ⟨cursor.preserve record, ?_, hattached, hcurrent, hlastSequence, hcancelled, ?_, ?_⟩
      · rw [hmade, getElem?_handOver, hrecord]
        simp only [hid, if_true, hcursor, Option.map_some]
      · intro hlast s value hs hle hvalue
        refine valueAt_preserve ((hplaced record hrecord).symm ▸ hrecord) ?_ hs hle hvalue
        intro hself
        refine recordAt_of_slot hentry hbuffer (by omega) fun other hother => ?_
        rw [hrecord] at hother
        cases hother
        exact Ne.symm hself
      · intro hpast
        rw [Cursor.preserve_of_lt hpast]

theorem upkeep_evictOldest (h : Stored settings ring) (hmore : 1 < ring.length) :
    Upkeep settings ring (ring.evictOldest settings) := by
  have hlength : ring.firstSequence < ring.nextSequence := by
    simp only [length] at hmore
    omega
  obtain ⟨record, hrecord⟩ := h.retained ring.firstSequence (Nat.le_refl _) hlength
  have hslot := (recordAt_eq_some.mp hrecord).1
  rw [evictOldest_eq hrecord]
  apply upkeep_of_slot (slotOf settings ring.firstSequence) none (h.placed _)
  · intro other hother
    cases hother
  · rfl
  · rw [handOver_cursors]
  · rw [handOver_nextSequence]
  · rw [hslot]

section Writes

variable [Sub T] [LE T] [DecidableLE T]

omit [Sub T] in
theorem upkeep_evictLoop (cutoff : T) (turns : ℕ) (h : Stored settings ring) :
    Upkeep settings ring (evictLoop settings cutoff turns ring) := by
  induction turns generalizing ring with
  | zero => exact Upkeep.refl ring
  | succ turns ih =>
    rw [evictLoop]
    by_cases hexpired : oldestExpired settings cutoff ring = true
    · rw [if_pos hexpired]
      simp only [oldestExpired, Bool.and_eq_true, decide_eq_true_eq] at hexpired
      exact (upkeep_evictOldest h hexpired.1).trans (ih (stored_evictOldest h hexpired.1))
    · rw [if_neg hexpired]
      exact Upkeep.refl ring

theorem upkeep_evictExpired (latestTimestampMs : Option T) (h : Stored settings ring) :
    Upkeep settings ring (ring.evictExpired settings latestTimestampMs) := by
  unfold evictExpired
  split
  · exact upkeep_evictLoop _ _ h
  · exact Upkeep.refl ring

omit [Sub T] [LE T] [DecidableLE T] in
theorem upkeep_place (h : Stored settings ring) (value : V) :
    Upkeep settings ring (ring.place settings value) := by
  apply upkeep_of_slot (slotOf settings ring.nextSequence) (some ⟨ring.nextSequence, value⟩)
    (h.placed _)
  · rintro record hrecord
    cases hrecord
    exact Nat.le_refl _
  · exact place_buffer ring value
  · exact handOver_cursors ring _
  · exact Nat.le_succ _
  · rfl

theorem upkeep_push (h : Stored settings ring) (value : V) :
    Upkeep settings ring (ring.push settings value) :=
  (upkeep_place h value).trans (upkeep_evictExpired _ (stored_place h value))

theorem stored_push (h : Stored settings ring) (value : V) :
    Stored settings (ring.push settings value) :=
  stored_evictExpired settings _ (stored_place h value)

end Writes

/-! ### The invariant of a ring and its cursors -/

/-- The registered cursors are attached and not cancelled, every cursor that
is not done is registered, and no done cursor holds a preserved value. -/
structure Sound (settings : Settings V T) (ring : Ring V T) : Prop
    extends Stored settings ring where
  nodup : ring.cursors.Nodup
  registered : ∀ id ∈ ring.cursors, ∃ cursor, ring.made[id]? = some cursor ∧
    cursor.attached = true ∧ cursor.cancelled = false ∧ cursor.lastSequence < ring.nextSequence
  active : ∀ (id : ℕ) (cursor : Cursor V), ring.made[id]? = some cursor → cursor.done = false →
    id ∈ ring.cursors
  emptied : ∀ (id : ℕ) (cursor : Cursor V), ring.made[id]? = some cursor → cursor.done = true →
    cursor.preserved = fun _ => none

theorem sound_new : Sound settings (Ring.new : Ring V T) where
  toStored := stored_new
  nodup := List.nodup_nil
  registered := by
    intro id hid
    cases hid
  active := by
    intro id cursor hcursor
    cases hcursor
  emptied := by
    intro id cursor hcursor
    cases hcursor

/-- A write to the ring keeps the invariant of the cursors. -/
theorem Sound.of_upkeep (h : Sound settings ring) (hupkeep : Upkeep settings ring ring')
    (hstored : Stored settings ring') : Sound settings ring' := by
  refine ⟨hstored, hupkeep.cursors ▸ h.nodup, ?_, ?_, ?_⟩
  · intro id hid
    rw [hupkeep.cursors] at hid
    obtain ⟨cursor, hcursor, hattached, hcancelled, hlast⟩ := h.registered id hid
    obtain ⟨cursor', hcursor', hkept⟩ := hupkeep.kept id hid cursor hcursor
    refine ⟨cursor', hcursor', hkept.attached.trans hattached,
      hkept.cancelled.trans hcancelled, ?_⟩
    rw [hkept.lastSequence]
    exact hlast.trans_le hupkeep.nextSequence
  · intro id cursor' hcursor' hdone
    rw [hupkeep.cursors]
    by_contra hid
    rw [hupkeep.others id hid] at hcursor'
    exact hid (h.active id cursor' hcursor' hdone)
  · intro id cursor' hcursor' hdone
    by_cases hid : id ∈ ring.cursors
    · obtain ⟨cursor, hcursor, -, hcancelled, -⟩ := h.registered id hid
      obtain ⟨other, hother, hkept⟩ := hupkeep.kept id hid cursor hcursor
      rw [hcursor'] at hother
      cases hother
      rw [Cursor.done, hkept.cancelled, hcancelled, hkept.lastSequence, hkept.currentSequence,
        Bool.false_or, decide_eq_true_eq] at hdone
      rw [hkept.preserved hdone]
      apply h.emptied id cursor hcursor
      rw [Cursor.done, decide_eq_true hdone, Bool.or_true]
    · rw [hupkeep.others id hid] at hcursor'
      exact h.emptied id cursor' hcursor' hdone

/-- The ring after a cursor has left the registry for good. -/
def retire (id : ℕ) (cursor : Cursor V) (ring : Ring V T) : Ring V T :=
  { ring with
    cursors := ring.cursors.erase id
    made := ring.made.set id cursor }

theorem getElem?_set_of_some {made : List (Cursor V)} {id : ℕ} {cursor : Cursor V}
    (hcursor : made[id]? = some cursor) (cursor' : Cursor V) :
    (made.set id cursor')[id]? = some cursor' :=
  List.getElem?_set_self (List.getElem?_eq_some_iff.mp hcursor).1

theorem sound_retire (h : Sound settings ring) {id : ℕ} {cursor : Cursor V}
    (hdone : cursor.done = true) (hpreserved : cursor.preserved = fun _ => none) :
    Sound settings (ring.retire id cursor) := by
  refine ⟨h.toStored.congr rfl rfl rfl, h.nodup.erase id, ?_, ?_, ?_⟩
  · intro other hother
    obtain ⟨hne, hmem⟩ := h.nodup.mem_erase_iff.mp hother
    obtain ⟨found, hfound, hrest⟩ := h.registered other hmem
    exact ⟨found, (List.getElem?_set_ne hne.symm).trans hfound, hrest⟩
  · intro other found hfound hactive
    have hne : id ≠ other := by
      rintro rfl
      have hsome := List.mem_of_getElem? hfound
      rw [show (ring.retire id cursor).made[id]? = (ring.made.set id cursor)[id]? from rfl,
        List.getElem?_set] at hfound
      simp only [if_true] at hfound
      split at hfound
      · cases hfound
        rw [hdone] at hactive
        cases hactive
      · cases hfound
    rw [show (ring.retire id cursor).made[other]? = (ring.made.set id cursor)[other]? from rfl,
      List.getElem?_set_ne hne] at hfound
    exact h.nodup.mem_erase_iff.mpr ⟨hne.symm, h.active other found hfound hactive⟩
  · intro other found hfound hother
    rw [show (ring.retire id cursor).made[other]? = (ring.made.set id cursor)[other]? from rfl,
      List.getElem?_set] at hfound
    split at hfound
    · split at hfound
      · cases hfound
        exact hpreserved
      · cases hfound
    · exact h.emptied other found hfound hother

/-- A cursor that is released leaves the registry, whether it was in it or not. -/
theorem Sound.release_eq (h : Sound settings ring) {id : ℕ} {cursor : Cursor V}
    (hcursor : ring.made[id]? = some cursor) (cursor' : Cursor V)
    (hattached : cursor'.attached = cursor.attached) :
    (ring.putCursor id cursor').release id = ring.retire id cursor'.released := by
  have hself : (ring.putCursor id cursor').made[id]? = some cursor' :=
    getElem?_set_of_some hcursor cursor'
  rw [release, hself]
  simp only [putCursor, retire, List.set_set, hattached]
  cases hcase : cursor.attached with
  | true => rfl
  | false =>
    have hout : id ∉ ring.cursors := by
      intro hid
      obtain ⟨found, hfound, hattached', -⟩ := h.registered id hid
      rw [hcursor] at hfound
      cases hfound
      rw [hcase] at hattached'
      cases hattached'
    rw [List.erase_of_not_mem hout]
    rfl

theorem putCursor_self {id : ℕ} {cursor : Cursor V} (hcursor : ring.made[id]? = some cursor) :
    ring.putCursor id cursor = ring := by
  obtain ⟨hlt, rfl⟩ := List.getElem?_eq_some_iff.mp hcursor
  rw [putCursor, List.set_getElem_self]

theorem sound_cancel (h : Sound settings ring) (id : ℕ) : Sound settings (ring.cancel id) := by
  unfold cancel
  cases hcursor : ring.made[id]? with
  | none => exact h
  | some cursor =>
    show Sound settings ((ring.putCursor id { cursor with cancelled := true }).release id)
    rw [h.release_eq hcursor { cursor with cancelled := true } rfl]
    exact sound_retire h rfl rfl

/-- What a `commit` does to a cursor that is not done: it moves on, and leaves
the registry at its end. -/
theorem commit_cases (h : Sound settings ring) {id : ℕ} {cursor : Cursor V}
    (hcursor : ring.made[id]? = some cursor) (hactive : cursor.done = false) :
    (cursor.currentSequence = cursor.lastSequence ∧
        ring.commit id = (true, ring.retire id cursor.advanced.released))
      ∨ (cursor.currentSequence < cursor.lastSequence ∧
        ring.commit id = (true, ring.putCursor id cursor.advanced)) := by
  obtain ⟨hcancelled, hle⟩ := Cursor.done_eq_false.mp hactive
  have hcommit : ring.commit id = (true, if cursor.advanced.done then
      (ring.putCursor id cursor.advanced).release id
      else ring.putCursor id cursor.advanced) := by
    simp only [commit, hcursor, hactive, Bool.false_eq_true, if_false]
  have hdone : cursor.advanced.done =
      decide (cursor.lastSequence < cursor.currentSequence + 1) := by
    rw [Cursor.done]
    show (cursor.cancelled || decide (cursor.lastSequence < cursor.currentSequence + 1)) = _
    rw [hcancelled, Bool.false_or]
  by_cases hend : cursor.currentSequence = cursor.lastSequence
  · left
    refine ⟨hend, ?_⟩
    rw [hcommit, hdone, decide_eq_true (by omega), if_pos rfl,
      h.release_eq hcursor cursor.advanced rfl]
  · right
    refine ⟨by omega, ?_⟩
    rw [hcommit, hdone, decide_eq_false (by omega), if_neg Bool.false_ne_true]

theorem commit_of_done {id : ℕ} {cursor : Cursor V} (hcursor : ring.made[id]? = some cursor)
    (hdone : cursor.done = true) : ring.commit id = (false, ring) := by
  simp only [commit, hcursor, hdone, if_true]

theorem commit_of_none {id : ℕ} (hcursor : ring.made[id]? = none) :
    ring.commit id = (false, ring) := by
  simp only [commit, hcursor]

/-- A cursor that is moved on keeps the invariant, as long as it is not done. -/
theorem sound_putCursor (h : Sound settings ring) {id : ℕ} {cursor : Cursor V}
    (hcursor : ring.made[id]? = some cursor) (hid : id ∈ ring.cursors) (cursor' : Cursor V)
    (hattached : cursor'.attached = cursor.attached)
    (hlast : cursor'.lastSequence = cursor.lastSequence)
    (hactive : cursor'.done = false) : Sound settings (ring.putCursor id cursor') := by
  have hself := getElem?_set_of_some hcursor cursor'
  have hcancelled := (Cursor.done_eq_false.mp hactive).1
  refine ⟨h.toStored.congr rfl rfl rfl, h.nodup, ?_, ?_, ?_⟩
  · intro other hother
    by_cases heq : id = other
    · subst heq
      obtain ⟨found, hfound, hrest⟩ := h.registered id hid
      rw [hcursor] at hfound
      cases hfound
      exact ⟨cursor', hself, hattached.trans hrest.1, hcancelled, hlast ▸ hrest.2.2⟩
    · obtain ⟨found, hfound, hrest⟩ := h.registered other hother
      exact ⟨found, (List.getElem?_set_ne heq).trans hfound, hrest⟩
  · intro other found hfound hother
    by_cases heq : id = other
    · exact heq ▸ hid
    · exact h.active other found ((List.getElem?_set_ne heq).symm.trans hfound) hother
  · intro other found hfound hother
    by_cases heq : id = other
    · subst heq
      rw [show (ring.putCursor id cursor').made[id]? = some cursor' from hself] at hfound
      cases hfound
      rw [hactive] at hother
      cases hother
    · exact h.emptied other found ((List.getElem?_set_ne heq).symm.trans hfound) hother

theorem sound_commit (h : Sound settings ring) (id : ℕ) :
    Sound settings (ring.commit id).2 := by
  cases hcursor : ring.made[id]? with
  | none =>
    rw [commit_of_none hcursor]
    exact h
  | some cursor =>
    cases hdone : cursor.done with
    | true =>
      rw [commit_of_done hcursor hdone]
      exact h
    | false =>
      have hcancelled := (Cursor.done_eq_false.mp hdone).1
      obtain ⟨hend, hcommit⟩ | ⟨hlt, hcommit⟩ := commit_cases h hcursor hdone
      · rw [hcommit]
        apply sound_retire h
        · show (cursor.cancelled || decide (cursor.lastSequence < cursor.currentSequence + 1)) =
            true
          rw [decide_eq_true (by omega), Bool.or_true]
        · rfl
      · rw [hcommit]
        apply sound_putCursor h hcursor (h.active id cursor hcursor hdone) cursor.advanced rfl rfl
        exact Cursor.done_eq_false.mpr ⟨hcancelled, hlt⟩

theorem sound_readLoop (id : ℕ) (turns limit : ℕ) (h : Sound settings ring) :
    Sound settings (ring.readLoop settings id turns limit).2 := by
  induction turns generalizing limit ring with
  | zero => exact h
  | succ turns ih =>
    cases limit with
    | zero => exact h
    | succ limit =>
      rw [readLoop]
      cases ring.peek settings id with
      | some value => exact ih limit (sound_commit h id)
      | none => exact ih (limit + 1) (sound_commit h id)

theorem sound_read (h : Sound settings ring) (id maxEntries : ℕ) :
    Sound settings (ring.read settings id maxEntries).2 := by
  unfold read
  cases hcursor : ring.made[id]? with
  | none => exact h
  | some cursor =>
    cases hcancelled : cursor.cancelled with
    | true => simpa only [hcancelled, if_true] using h
    | false =>
      simp only [hcancelled, Bool.false_eq_true, if_false]
      have hloop := sound_readLoop id (ring.unread id) (max 1 maxEntries) h
      cases hafter : (ring.readLoop settings id (ring.unread id) (max 1 maxEntries)).2.made[id]?
        with
      | none => exact hloop
      | some after =>
        cases hdone : after.done with
        | false => simpa only [hdone, Bool.false_eq_true, if_false] using hloop
        | true =>
          have hrelease := hloop.release_eq hafter after rfl
          rw [putCursor_self hafter] at hrelease
          simp only [hdone, if_true, hrelease]
          exact sound_retire hloop hdone rfl

theorem sound_clear (h : Sound settings ring) : Sound settings ring.clear := by
  refine ⟨?_, List.nodup_nil, ?_, ?_, ?_⟩
  · exact stored_new.congr rfl rfl rfl
  · intro id hid
    cases hid
  · intro id cursor hcursor hactive
    rw [show ring.clear.made = ring.made.mapIdx _ from rfl, List.getElem?_mapIdx,
      Option.map_eq_some_iff] at hcursor
    obtain ⟨before, hbefore, rfl⟩ := hcursor
    exfalso
    by_cases hid : id ∈ ring.cursors
    · rw [if_pos hid] at hactive
      cases hactive
    · rw [if_neg hid] at hactive
      exact hid (h.active id before hbefore hactive)
  · intro id cursor hcursor hdone
    rw [show ring.clear.made = ring.made.mapIdx _ from rfl, List.getElem?_mapIdx,
      Option.map_eq_some_iff] at hcursor
    obtain ⟨before, hbefore, rfl⟩ := hcursor
    by_cases hid : id ∈ ring.cursors
    · rw [if_pos hid]
      rfl
    · rw [if_neg hid] at hdone ⊢
      exact h.emptied id before hbefore hdone

theorem cancel_fields (id : ℕ) (ring : Ring V T) :
    (ring.cancel id).made.length = ring.made.length
      ∧ (ring.cancel id).buffer = ring.buffer
      ∧ (ring.cancel id).firstSequence = ring.firstSequence
      ∧ (ring.cancel id).nextSequence = ring.nextSequence := by
  unfold cancel
  cases hcursor : ring.made[id]? with
  | none => exact ⟨rfl, rfl, rfl, rfl⟩
  | some cursor =>
    have hself := getElem?_set_of_some hcursor { cursor with cancelled := true }
    simp only [release, putCursor, hself, List.length_set, and_self]

/-- The ring in which `createSnapshotCursor` puts the new cursor. -/
def room (settings : Settings V T) (ring : Ring V T) : Ring V T :=
  if settings.maxCursors ≤ ring.cursors.length then
    match ring.cursors.head? with
    | some oldest => ring.cancel oldest
    | none => ring
  else ring

theorem room_cases (settings : Settings V T) (ring : Ring V T) :
    ring.room settings = ring ∨ ∃ oldest ∈ ring.cursors, ring.room settings =
        ring.cancel oldest := by
  rw [room]
  split
  · cases hcursors : ring.cursors with
    | nil => exact Or.inl rfl
    | cons oldest rest => exact Or.inr ⟨oldest, List.mem_cons_self, rfl⟩
  · exact Or.inl rfl

theorem room_fields (settings : Settings V T) (ring : Ring V T) :
    (ring.room settings).made.length = ring.made.length
      ∧ (ring.room settings).buffer = ring.buffer
      ∧ (ring.room settings).firstSequence = ring.firstSequence
      ∧ (ring.room settings).nextSequence = ring.nextSequence := by
  obtain hroom | ⟨oldest, -, hroom⟩ := room_cases settings ring
  · rw [hroom]
    exact ⟨rfl, rfl, rfl, rfl⟩
  · rw [hroom]
    exact cancel_fields oldest ring

theorem sound_room (h : Sound settings ring) : Sound settings (ring.room settings) := by
  obtain hroom | ⟨oldest, -, hroom⟩ := room_cases settings ring
  · rwa [hroom]
  · rw [hroom]
    exact sound_cancel h oldest

theorem createSnapshotCursor_eq (settings : Settings V T) (ring : Ring V T) :
    ring.createSnapshotCursor settings =
      { ring.room settings with
        cursors := (ring.room settings).cursors ++ [(ring.room settings).made.length]
        made := (ring.room settings).made ++
          [Cursor.new (ring.room settings).firstSequence
            ((ring.room settings).nextSequence - 1)] } := rfl

/-- A cursor after one more was made is an old one, or the new one. -/
theorem made_append_cases {made : List (Cursor V)} {id : ℕ} {cursor new : Cursor V}
    (h : (made ++ [new])[id]? = some cursor) :
    made[id]? = some cursor ∨ id = made.length ∧ cursor = new := by
  by_cases hlt : id < made.length
  · left
    rwa [List.getElem?_append_left hlt] at h
  · right
    rw [List.getElem?_append_right (by omega)] at h
    obtain ⟨hzero, hnew⟩ := List.getElem?_eq_some_iff.mp h
    simp only [List.length_singleton] at hzero
    refine ⟨by omega, ?_⟩
    rw [← hnew, List.getElem_singleton]

theorem sound_createSnapshotCursor (h : Sound settings ring) :
    Sound settings (ring.createSnapshotCursor settings) := by
  rw [createSnapshotCursor_eq]
  generalize hgen : ring.room settings = base
  replace h : Sound settings base := hgen ▸ sound_room h
  have hnext : base.firstSequence ≤ base.nextSequence := h.first_le
  have hfirst := h.first_pos
  have hnew : base.made.length ∉ base.cursors := by
    intro hmem
    obtain ⟨found, hfound, -⟩ := h.registered _ hmem
    rw [List.getElem?_eq_none (Nat.le_refl _)] at hfound
    cases hfound
  refine ⟨h.toStored.congr rfl rfl rfl, ?_, ?_, ?_, ?_⟩
  · show (base.cursors ++ [base.made.length]).Nodup
    refine List.nodup_append.mpr ⟨h.nodup, List.nodup_cons.mpr ⟨List.not_mem_nil,
      List.nodup_nil⟩, ?_⟩
    rintro id hid other hother rfl
    exact hnew (List.mem_singleton.mp hother ▸ hid)
  · intro id hid
    replace hid : id ∈ base.cursors ++ [base.made.length] := hid
    obtain hid | hid := List.mem_append.mp hid
    · obtain ⟨found, hfound, hrest⟩ := h.registered id hid
      have hlt := (List.getElem?_eq_some_iff.mp hfound).1
      exact ⟨found, (List.getElem?_append_left hlt).trans hfound, hrest⟩
    · rw [List.mem_singleton.mp hid]
      refine ⟨_, List.getElem?_concat_length, rfl, rfl, ?_⟩
      show base.nextSequence - 1 < base.nextSequence
      omega
  · intro id cursor hcursor hactive
    show id ∈ base.cursors ++ [base.made.length]
    obtain hold | ⟨hid, -⟩ := made_append_cases hcursor
    · exact List.mem_append_left _ (h.active id cursor hold hactive)
    · exact List.mem_append_right _ (List.mem_singleton.mpr hid)
  · intro id cursor hcursor hdone
    obtain hold | ⟨-, rfl⟩ := made_append_cases hcursor
    · exact h.emptied id cursor hold hdone
    · rfl

section Steps

variable [Sub T] [LE T] [DecidableLE T]

theorem sound_step (h : Sound settings ring) (op : Op V T) :
    Sound settings (ring.step settings op) := by
  cases op with
  | push value => exact h.of_upkeep (upkeep_push h.toStored value) (stored_push h.toStored value)
  | evictExpired latest =>
    exact h.of_upkeep (upkeep_evictExpired _ h.toStored) (stored_evictExpired settings _ h.toStored)
  | snapshot => exact h
  | createSnapshotCursor => exact sound_createSnapshotCursor h
  | clear => exact sound_clear h
  | read id maxEntries => exact sound_read h id maxEntries
  | peek id => exact h
  | commit id => exact sound_commit h id
  | cancel id => exact sound_cancel h id

theorem sound_run (h : Sound settings ring) (ops : List (Op V T)) :
    Sound settings (ring.run settings ops) := by
  induction ops generalizing ring with
  | nil => exact h
  | cons op ops ih => exact ih (sound_step h op)

end Steps

end Ring

end DiagnosticRing
