/-
The usage totals of the spool in IndexedDB.

Every operation reads the usage rows of its session and of the whole spool and
writes them back; `cleanupSealedSession` is three transactions, and others may
come between them.

* `Accounted` — the rows are the sums of the stored bytes, which fit `maxBytes`;
* `usage_accounted` — it holds in every state, and with it no clamp changes a value and
  normal events stay below their limit, as long as no session is named like the global
  row and no event is stored when the last transaction of a cleanup runs;
* `event_during_cleanup` — an event that arrives during a cleanup loses its bytes.
-/
import Mathlib.Tactic.Common
import Elvern.DiagnosticSpool
import Elvern.Runs

open Runs

namespace Spool

/-! ### Sums of bytes -/

@[simp] theorem bytesOf_nil : bytesOf [] = 0 := rfl

@[simp] theorem bytesOf_cons (e : Entry) (l : List Entry) :
    bytesOf (e :: l) = e.bytes + bytesOf l :=
  List.sum_cons

@[simp] theorem bytesOf_append (l l' : List Entry) :
    bytesOf (l ++ l') = bytesOf l + bytesOf l' := by
  rw [bytesOf, List.map_append, List.sum_append]
  rfl

/-- What is deleted and what stays add up. -/
theorem bytesOf_filter_add (c : Entry → Bool) (l : List Entry) :
    bytesOf (l.filter c) + bytesOf (l.filter fun e => !c e) = bytesOf l := by
  induction l with
  | nil => rfl
  | cons e l ih =>
    cases hc : c e with
    | true => simp [hc, ← ih, Nat.add_assoc]
    | false => simp [hc, ← ih, Nat.add_left_comm]

/-- `eventKey` -/
def Entry.key (e : Entry) : String × Number := (e.sessionId, e.sourceSequence)

theorem at_iff {e : Entry} {sessionId : String} {sequence : Number} :
    e.at sessionId sequence = true ↔ e.key = (sessionId, sequence) := by
  rw [Entry.at, Bool.and_eq_true, decide_eq_true_eq, decide_eq_true_eq, Entry.key, Prod.mk.injEq]

/-- Around the entry that is found there is no other under its key. -/
theorem split_of_find {l : List Entry} {sessionId : String} {sequence : Number} {e : Entry}
    (hkeys : (l.map Entry.key).Nodup) (h : l.find? (·.at sessionId sequence) = some e) :
    ∃ as bs, l = as ++ e :: bs ∧ e.at sessionId sequence = true ∧
      (∀ a ∈ as, a.at sessionId sequence = false) ∧ ∀ b ∈ bs, b.at sessionId sequence = false := by
  obtain ⟨he, as, bs, rfl, has⟩ := List.find?_eq_some_iff_append.1 h
  refine ⟨as, bs, rfl, he, fun a ha => by simpa using has a ha, fun b hb => ?_⟩
  rw [List.map_append, List.map_cons] at hkeys
  have hnot := (List.nodup_cons.1 (List.nodup_append.1 hkeys).2.1).1
  by_contra hat
  rw [Bool.not_eq_false, at_iff, ← at_iff.1 he] at hat
  exact hnot (hat ▸ List.mem_map_of_mem hb)

/-- The entries with one of them replaced. -/
theorem map_replaced {as bs : List Entry} {e : Entry} {sessionId : String} {sequence : Number}
    (event : Event) (he : e.at sessionId sequence = true)
    (has : ∀ a ∈ as, a.at sessionId sequence = false)
    (hbs : ∀ b ∈ bs, b.at sessionId sequence = false) :
    (as ++ e :: bs).map (fun x => if x.at sessionId sequence then x.replaced event else x) =
      as ++ e.replaced event :: bs := by
  have hid : ∀ l : List Entry, (∀ a ∈ l, a.at sessionId sequence = false) →
      l.map (fun x => if x.at sessionId sequence then x.replaced event else x) = l := by
    intro l hl
    refine (List.map_congr_left fun a ha => ?_).trans (List.map_id l)
    rw [if_neg (by rw [hl a ha]; decide)]
    rfl
  rw [List.map_append, List.map_cons, hid as has, hid bs hbs, if_pos he]

/-! ### The rows -/

theorem usageMetaKey_inj {s t : String} : usageMetaKey s = usageMetaKey t ↔ s = t :=
  String.append_right_inj _

/-- Only a session of that name has its row under the key of the global one. -/
theorem usageMetaKey_eq_global {s : String} : usageMetaKey s = globalUsageKey ↔ s = "global" :=
  usageMetaKey_inj (t := "global")

namespace IndexedDb

/-- The bytes of a session's entries. -/
def sessionBytes (p : IndexedDb) (sessionId : String) : ℕ :=
  bytesOf (p.events.filter (·.sessionId = sessionId))

/-- The usage rows are the sums of the stored bytes. -/
structure Accounted (p : IndexedDb) : Prop where
  session : ∀ s, s ≠ "global" → (p.usage (usageMetaKey s)).getD 0 = p.sessionBytes s
  all : (p.usage globalUsageKey).getD 0 = bytesOf p.events
  fits : bytesOf p.events ≤ p.maxBytes
  keys : (p.events.map Entry.key).Nodup

namespace Accounted

variable {p q : IndexedDb} {s : String}

theorem usageBytes_session (h : Accounted p) (hs : s ≠ "global") :
    p.usageBytes (usageMetaKey s) = p.sessionBytes s := by
  rw [usageBytes, h.session s hs, Int.toNat_natCast]

theorem usageBytes_all (h : Accounted p) : p.usageBytes globalUsageKey = bytesOf p.events := by
  rw [usageBytes, h.all, Int.toNat_natCast]

theorem empty (maxBytes : ℕ) : Accounted (.empty maxBytes) where
  session _ _ := rfl
  all := rfl
  fits := Nat.zero_le _
  keys := List.nodup_nil

/-- Nothing but the entries and the usage rows matters. -/
theorem congr (h : Accounted p) (hmax : q.maxBytes = p.maxBytes) (hevents : q.events = p.events)
    (husage : q.usage = p.usage) : Accounted q where
  session s hs := by
    rw [husage, h.session s hs, sessionBytes, sessionBytes, hevents]
  all := by rw [husage, h.all, hevents]
  fits := by
    rw [hevents, hmax]
    exact h.fits
  keys := hevents ▸ h.keys

/-- The entries of one session change, and both rows are written. -/
theorem write (h : Accounted p) (hs : s ≠ "global") {a b : ℤ} {events : List Entry}
    (hmax : q.maxBytes = p.maxBytes) (hevents : q.events = events)
    (husage : q.usage = Function.update (Function.update p.usage (usageMetaKey s) (some a))
      globalUsageKey (some b))
    (ha : a = bytesOf (events.filter (·.sessionId = s))) (hb : b = bytesOf events)
    (hother : ∀ t, t ≠ s →
      bytesOf (events.filter (·.sessionId = t)) = bytesOf (p.events.filter (·.sessionId = t)))
    (hfits : bytesOf events ≤ p.maxBytes) (hkeys : (events.map Entry.key).Nodup) : Accounted q := by
  subst hevents
  refine ⟨fun t ht => ?_, ?_, hmax ▸ hfits, hkeys⟩
  · have hne : usageMetaKey t ≠ globalUsageKey := fun hg => ht (usageMetaKey_eq_global.1 hg)
    rw [husage, Function.update_of_ne hne]
    by_cases hts : t = s
    · subst hts
      rw [Function.update_self, Option.getD_some, ha]
      rfl
    · rw [Function.update_of_ne fun hk => hts (usageMetaKey_inj.1 hk), h.session t ht, sessionBytes,
        sessionBytes, hother t hts]
  · rw [husage, Function.update_self, Option.getD_some, hb]

/-- A session's entries are among all of them. -/
theorem within_le {events : List Entry} {c : Entry → Bool} :
    bytesOf (events.filter c) ≤ bytesOf events := by
  rw [← bytesOf_filter_add c events]
  exact Nat.le_add_right ..

/-- The entries of a session within a range are among the session's. -/
theorem filter_within {events : List Entry} {first last : Number} :
    events.filter (·.within s first last) =
      (events.filter (·.sessionId = s)).filter (·.within s first last) := by
  rw [List.filter_filter]
  refine List.filter_congr fun e _ => ?_
  rw [Entry.within]
  cases decide (e.sessionId = s) <;> simp

/-- No deletion takes more bytes than there are. -/
theorem deleted_le (h : Accounted p) (hs : s ≠ "global") (first last : Number) :
    bytesOf (p.events.filter (·.within s first last)) ≤ p.usageBytes (usageMetaKey s) ∧
      bytesOf (p.events.filter (·.within s first last)) ≤ p.usageBytes globalUsageKey := by
  rw [h.usageBytes_session hs, h.usageBytes_all]
  constructor
  · rw [filter_within]
    exact within_le
  · exact within_le

theorem deleteRange (h : Accounted p) (hs : s ≠ "global") (first last : Number) :
    Accounted (p.deleteRange s first last) := by
  obtain ⟨hsession, hall⟩ := h.deleted_le hs first last
  have hadd := bytesOf_filter_add (·.within s first last) p.events
  rw [h.usageBytes_session hs] at hsession
  rw [h.usageBytes_all] at hall
  have hevents : (p.deleteRange s first last).events =
      p.events.filter fun e => !e.within s first last := rfl
  refine h.write hs rfl hevents rfl ?_ ?_ (fun t ht => ?_) ?_ ?_
  · -- what stays of the session
    rw [h.usageBytes_session hs]
    have hsplit := bytesOf_filter_add (·.within s first last) (p.events.filter (·.sessionId = s))
    rw [← filter_within, List.filter_filter] at hsplit
    rw [List.filter_filter, sessionBytes, ← hsplit]
    have hcomm : (p.events.filter fun e => decide (e.sessionId = s) && !e.within s first last) =
        p.events.filter fun e => (!e.within s first last) && decide (e.sessionId = s) :=
      List.filter_congr fun e _ => Bool.and_comm _ _
    rw [hcomm]
    omega
  · rw [h.usageBytes_all]
    omega
  · -- other sessions keep their entries
    rw [List.filter_filter]
    congr 1
    refine List.filter_congr fun e _ => ?_
    by_cases het : e.sessionId = t
    · have hes : e.sessionId ≠ s := fun hes => ht (het.symm.trans hes)
      simp [Entry.within, het, ht]
    · simp [het]
  · exact le_trans within_le h.fits
  · exact h.keys.sublist (List.filter_sublist.map _)

theorem createAndEnqueue (h : Accounted p) (hs : s ≠ "global") (inc : ℚ → ℚ)
    (factory : Number → Option Event) (priority : Bool) :
    Accounted (p.createAndEnqueue inc s factory priority).1 := by
  unfold IndexedDb.createAndEnqueue
  dsimp only
  split
  next => exact h
  next event _ =>
    split
    next => exact h
    next =>
      split
      next => exact h
      next hroom =>
        split
        next => exact h
        next hnew =>
          rw [h.usageBytes_all, not_lt] at hroom
          refine h.write hs rfl rfl rfl ?_ ?_ (fun t ht => ?_) ?_ ?_
          · rw [h.usageBytes_session hs, List.filter_append, bytesOf_append, sessionBytes]
            simp [newEntry]
          · rw [h.usageBytes_all, bytesOf_append]
            simp [newEntry]
          · rw [List.filter_append, bytesOf_append]
            simp [newEntry, Ne.symm ht]
          · rw [bytesOf_append]
            have hlimit : allowedLimit p.maxBytes (priority || event.critical) ≤ p.maxBytes := by
              rw [allowedLimit, normalLimit]
              split <;> omega
            simpa [newEntry] using hroom.trans hlimit
          · rw [Bool.not_eq_true, List.any_eq_false] at hnew
            rw [List.map_append]
            refine List.nodup_append.2 ⟨h.keys, List.pairwise_singleton _ _, ?_⟩
            rintro k hk k' hk' rfl
            obtain ⟨e, he, rfl⟩ := List.mem_map.1 hk
            exact hnew e he (at_iff.2 (List.mem_singleton.1 hk'))

theorem replaceWithGap (h : Accounted p) (hs : s ≠ "global") (sequence : Number) (event : Event) :
    Accounted (p.replaceWithGap s sequence event).1 := by
  unfold IndexedDb.replaceWithGap
  split
  next => exact h
  next existing hfind =>
    dsimp only
    split
    next => exact h
    next hroom =>
      obtain ⟨as, bs, hl, he, has, hbs⟩ := split_of_find h.keys hfind
      rw [h.usageBytes_all] at hroom
      refine h.write hs rfl rfl rfl ?_ ?_ (fun t ht => ?_) ?_ ?_
      all_goals rw [hl, map_replaced event he has hbs]
      · rw [h.usageBytes_session hs, sessionBytes, hl]
        simp [List.filter_append, (Prod.mk.inj (at_iff.1 he)).1, Entry.replaced]
        omega
      · rw [h.usageBytes_all, hl]
        simp [Entry.replaced]
        omega
      · have hne : existing.sessionId ≠ t := fun het =>
          ht (het.symm.trans (Prod.mk.inj (at_iff.1 he)).1)
        simp [List.filter_append, hne, Entry.replaced]
      · rw [hl] at hroom
        simp [Entry.replaced] at hroom ⊢
        omega
      · have hkeys := h.keys
        rw [hl, List.map_append, List.map_cons] at hkeys
        rw [List.map_append, List.map_cons]
        exact hkeys

end Accounted

end IndexedDb

/-! ### Interleaved transactions -/

/-- A running `cleanupSealedSession`: it has found no events, and once `checked` it has
found the session sealed and without gaps. -/
structure Cleaning where
  sessionId : String
  checked : Bool

/-- The spool and the cleanups that run. -/
structure Shared where
  spool : IndexedDb
  cleanings : List Cleaning

/-- The transactions. -/
inductive Transaction where
  | createAndEnqueue (sessionId : String) (factory : Number → Option Event) (priority : Bool)
  | replaceWithGap (sessionId : String) (sequence : Number) (event : Event)
  | queueGap (sessionId : String) (gap : GapFields) (sequence : Option Field)
  | completeGap (sessionId : String) (gap : GapFields) (watermark : Number)
  | acknowledge (sessionId : String) (watermark : Number)
  | markCloseState (sessionId : String) (closed : Bool)
  /-- A cleanup reads the statistics of its session. -/
  | beginCleanup (sessionId : String)
  /-- The `i`-th cleanup reads the recovery state. -/
  | checkCleanup (i : ℕ)
  /-- The `i`-th cleanup deletes the rows. -/
  | endCleanup (i : ℕ)

namespace Shared

variable (inc : ℚ → ℚ)

/-- One transaction. -/
def step (w : Shared) : Transaction → Option Shared
  | .createAndEnqueue s factory priority =>
    some { w with spool := (w.spool.createAndEnqueue inc s factory priority).1 }
  | .replaceWithGap s sequence event =>
    some { w with spool := (w.spool.replaceWithGap s sequence event).1 }
  | .queueGap s gap sequence => some { w with spool := (w.spool.queueGap inc s gap sequence).1 }
  | .completeGap s gap watermark =>
    some { w with spool := (w.spool.completeGap s gap watermark).1 }
  | .acknowledge s watermark => some { w with spool := (w.spool.acknowledge s watermark).1 }
  | .markCloseState s closed => some { w with spool := w.spool.markCloseState s closed }
  | .beginCleanup s =>
    if 0 < (w.spool.stats s).queueDepth then some w
    else some { w with cleanings := w.cleanings ++ [⟨s, false⟩] }
  | .checkCleanup i =>
    match w.cleanings[i]? with
    | some c =>
      if c.checked then none
      else if w.spool.canForget c.sessionId then
        some { w with cleanings := w.cleanings.set i { c with checked := true } }
      else some { w with cleanings := w.cleanings.eraseIdx i }
    | none => none
  | .endCleanup i =>
    match w.cleanings[i]? with
    | some c =>
      if c.checked then
        some ⟨w.spool.forget c.sessionId, w.cleanings.eraseIdx i⟩
      else none
    | none => none

/-- No session has the name of the global row, and a cleanup that deletes the rows of a session
leaves no event of it behind. -/
def Keeps (w : Shared) : Transaction → Prop
  | .createAndEnqueue s _ _ => s ≠ "global"
  | .replaceWithGap s _ _ => s ≠ "global"
  | .completeGap s _ _ => s ≠ "global"
  | .acknowledge s _ => s ≠ "global"
  | .endCleanup i => ∀ c, w.cleanings[i]? = some c →
      c.sessionId ≠ "global" ∧ ∀ e ∈ w.spool.events, e.sessionId ≠ c.sessionId
  | _ => True

end Shared

namespace IndexedDb

variable (p : IndexedDb) (inc : ℚ → ℚ) (s : String)

/-- A queued gap touches neither the entries nor their bytes. -/
theorem queueGap_frame (gap : GapFields) (sequence : Option Field) :
    (p.queueGap inc s gap sequence).1.maxBytes = p.maxBytes ∧
      (p.queueGap inc s gap sequence).1.events = p.events ∧
      (p.queueGap inc s gap sequence).1.usage = p.usage := by
  unfold queueGap
  cases sequence with
  | none =>
    dsimp only
    split
    · exact ⟨rfl, rfl, rfl⟩
    · split <;> exact ⟨rfl, rfl, rfl⟩
  | some field =>
    dsimp only
    split
    · exact ⟨rfl, rfl, rfl⟩
    · split <;> exact ⟨rfl, rfl, rfl⟩

theorem createAndEnqueue_maxBytes (factory : Number → Option Event) (priority : Bool) :
    (p.createAndEnqueue inc s factory priority).1.maxBytes = p.maxBytes := by
  unfold createAndEnqueue
  dsimp only
  split
  · rfl
  · split
    · rfl
    · split
      · rfl
      · split <;> rfl

theorem replaceWithGap_maxBytes (sequence : Number) (event : Event) :
    (p.replaceWithGap s sequence event).1.maxBytes = p.maxBytes := by
  unfold replaceWithGap
  split
  · rfl
  · dsimp only
    split <;> rfl

end IndexedDb

/-- No transaction changes `maxBytes`. -/
theorem Shared.step_maxBytes {w w' : Shared} {inc : ℚ → ℚ} {t : Transaction}
    (hst : w.step inc t = some w') : w'.spool.maxBytes = w.spool.maxBytes := by
  cases t with
  | createAndEnqueue s factory priority =>
    cases hst
    exact w.spool.createAndEnqueue_maxBytes inc s factory priority
  | replaceWithGap s sequence event =>
    cases hst
    exact w.spool.replaceWithGap_maxBytes s sequence event
  | queueGap s gap sequence =>
    cases hst
    exact (w.spool.queueGap_frame inc s gap sequence).1
  | completeGap s gap watermark =>
    cases hst
    rfl
  | acknowledge s watermark =>
    cases hst
    rfl
  | markCloseState s closed =>
    cases hst
    rfl
  | beginCleanup s =>
    rw [Shared.step] at hst
    split at hst <;> cases hst <;> rfl
  | checkCleanup i =>
    rw [Shared.step] at hst
    split at hst
    · split at hst
      · cases hst
      · split at hst <;> cases hst <;> rfl
    · cases hst
  | endCleanup i =>
    rw [Shared.step] at hst
    split at hst
    · split at hst
      · cases hst
        rfl
      · cases hst
    · cases hst

namespace IndexedDb.Accounted

variable {p : IndexedDb} {s : String}

theorem forget_usage : (p.forget s).usage = Function.update p.usage (usageMetaKey s) none := rfl

/-- The rows of a session without events are deleted. -/
theorem forget (h : Accounted p) (hs : s ≠ "global") (hnone : ∀ e ∈ p.events, e.sessionId ≠ s) :
    Accounted (p.forget s) := by
  refine ⟨fun t ht => ?_, ?_, h.fits, h.keys⟩
  · by_cases hts : t = s
    · subst hts
      have hzero : p.events.filter (·.sessionId = t) = [] :=
        List.filter_eq_nil_iff.2 fun e he => by simpa using hnone e he
      have hbytes : (p.forget t).sessionBytes t = 0 := congrArg bytesOf hzero
      rw [forget_usage, Function.update_self, hbytes]
      rfl
    · rw [forget_usage, Function.update_of_ne fun hk => hts (usageMetaKey_inj.1 hk)]
      exact h.session t ht
  · rw [forget_usage, Function.update_of_ne fun hk => hs (usageMetaKey_eq_global.1 hk.symm)]
    exact h.all

theorem queueGap (h : Accounted p) (inc : ℚ → ℚ) (gap : GapFields) (sequence : Option Field) :
    Accounted (p.queueGap inc s gap sequence).1 := by
  obtain ⟨hmax, hevents, husage⟩ := p.queueGap_frame inc s gap sequence
  exact h.congr hmax hevents husage

/-- A transaction that meets the condition keeps the rows accounted. -/
theorem step {w w' : Shared} {inc : ℚ → ℚ} {t : Transaction} (h : Accounted w.spool)
    (hk : w.Keeps t) (hst : w.step inc t = some w') : Accounted w'.spool := by
  cases t with
  | createAndEnqueue s factory priority =>
    cases hst
    exact h.createAndEnqueue hk inc factory priority
  | replaceWithGap s sequence event =>
    cases hst
    exact h.replaceWithGap hk sequence event
  | queueGap s gap sequence =>
    cases hst
    exact h.queueGap inc gap sequence
  | completeGap s gap watermark =>
    cases hst
    exact (h.deleteRange hk _ _).congr rfl rfl rfl
  | acknowledge s watermark =>
    cases hst
    exact (h.deleteRange hk _ _).congr rfl rfl rfl
  | markCloseState s closed =>
    cases hst
    exact h.congr rfl rfl rfl
  | beginCleanup s =>
    rw [Shared.step] at hst
    split at hst <;> cases hst <;> exact h
  | checkCleanup i =>
    rw [Shared.step] at hst
    split at hst
    · split at hst
      · cases hst
      · split at hst <;> cases hst <;> exact h
    · cases hst
  | endCleanup i =>
    rw [Shared.step] at hst
    split at hst
    · next c hc =>
      split at hst
      · cases hst
        obtain ⟨hs, hnone⟩ := hk c hc
        exact h.forget hs hnone
      · cases hst
    · cases hst

/-- An event that is not critical is stored within the normal limit. -/
theorem normal_fits (h : Accounted p) {inc : ℚ → ℚ} {factory : Number → Option Event}
    {event : Event} {q : IndexedDb} {sequence : Number} {bytes usage all : ℕ}
    (hevent : factory (p.nextSequence inc s) = some event) (hnormal : event.critical = false)
    (hstored : p.createAndEnqueue inc s factory false = (q, .stored sequence bytes usage all)) :
    bytesOf q.events ≤ normalLimit p.maxBytes := by
  unfold IndexedDb.createAndEnqueue at hstored
  dsimp only at hstored
  rw [hevent] at hstored
  dsimp only at hstored
  split at hstored
  · cases hstored
  · split at hstored
    · cases hstored
    · next hroom =>
      split at hstored
      · cases hstored
      · cases hstored
        rw [h.usageBytes_all, not_lt, hnormal] at hroom
        rw [bytesOf_append]
        exact hroom

end IndexedDb.Accounted

/-- In every state of a run whose transactions meet the condition the usage rows are the sums of
the stored bytes and the whole fits `maxBytes`; a deletion takes no more bytes than a row has; and
an event that is not critical is stored within the normal limit. -/
theorem usage_accounted (inc : ℚ → ℚ) (maxBytes : ℕ) (w : Shared)
    (hw : Reach (Shared.step inc) Shared.Keeps ⟨.empty maxBytes, []⟩ w) :
    w.spool.Accounted ∧ w.spool.maxBytes = maxBytes ∧
    (∀ s first last, s ≠ "global" →
      bytesOf (w.spool.events.filter (·.within s first last)) ≤
        w.spool.usageBytes (usageMetaKey s) ∧
      bytesOf (w.spool.events.filter (·.within s first last)) ≤
        w.spool.usageBytes globalUsageKey) ∧
    ∀ s factory event q sequence bytes usage all,
      factory (w.spool.nextSequence inc s) = some event → event.critical = false →
      w.spool.createAndEnqueue inc s factory false = (q, .stored sequence bytes usage all) →
      bytesOf q.events ≤ normalLimit maxBytes := by
  obtain ⟨hacc, hmax⟩ : w.spool.Accounted ∧ w.spool.maxBytes = maxBytes := by
    refine Reach.invariant
      (P := fun w => w.spool.Accounted ∧ w.spool.maxBytes = maxBytes) ⟨.empty maxBytes, rfl⟩ ?_ hw
    rintro w t w' - ⟨hacc, hmax⟩ hk hst
    exact ⟨hacc.step hk hst, (Shared.step_maxBytes hst).trans hmax⟩
  refine ⟨hacc, hmax, fun s first last hs => hacc.deleted_le hs first last, ?_⟩
  intro s factory event q sequence bytes usage all hevent hnormal hstored
  exact hmax ▸ hacc.normal_fits hevent hnormal hstored

/-- A factory of events of ten bytes. -/
def tenBytes (sequence : Number) : Option Event := some ⟨"event", sequence, 10, false⟩

theorem usage_accounted_once :
    ((IndexedDb.empty 1000000).createAndEnqueue (· + 1) "session" tenBytes false).1.Accounted :=
  (usage_accounted (· + 1) 1000000
    ⟨((IndexedDb.empty 1000000).createAndEnqueue (· + 1) "session" tenBytes false).1, []⟩
    (.next (a := .createAndEnqueue "session" tenBytes false) .start
      (by rw [Shared.Keeps]; decide) rfl)).1

/-- An event arrives between the transactions of a cleanup. -/
def duringCleanup : List Transaction :=
  [.markCloseState "session" true, .beginCleanup "session", .checkCleanup 0,
    .createAndEnqueue "session" tenBytes false, .endCleanup 0]

/-- What the rows and the store say about the session and about the whole. -/
def totals (w : Shared) : ℕ × ℕ × ℕ :=
  (w.spool.usageBytes (usageMetaKey "session"), w.spool.sessionBytes "session",
    w.spool.usageBytes globalUsageKey)

/-- The event is stored and counted for the whole, but its session has no usage. -/
theorem event_during_cleanup :
    ∃ w, runFrom (Shared.step (· + 1)) ⟨.empty 1000000, []⟩ duringCleanup = some w ∧
      totals w = (0, 10, 10) ∧ ¬ w.spool.Accounted := by
  have hrun : (runFrom (Shared.step (· + 1)) ⟨.empty 1000000, []⟩ duringCleanup).map totals =
      some (0, 10, 10) := by decide +kernel
  obtain ⟨w, hw, htotals⟩ := Option.map_eq_some_iff.1 hrun
  refine ⟨w, hw, htotals, fun hacc => ?_⟩
  have hsession := hacc.usageBytes_session (s := "session") (by decide)
  obtain ⟨hrow, hrest⟩ := Prod.mk.inj htotals
  have hzero : (0 : ℕ) = 10 := hrow.symm.trans (hsession.trans (Prod.mk.inj hrest).1)
  cases hzero

end Spool
