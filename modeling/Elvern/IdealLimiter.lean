/-
The rate limiter against an ideal one (`rate_limiter_service.py`).

The ideal limiter remembers every failure of a key since its last clear or lockout and never drops
one; the real one deletes rows as it goes, and shares its tables between limiters and keys.

* `Memory`, `Reference` — the ideal limiter;
* `limiterCall`, `referenceCall` — a call on any of the limiters over one database, and on the ideal
  one;
* `Agrees` — what a bucket and a memory have in common at a time;
* `limiter_refines` — in every run with a clock that does not go back the answers are the same.
-/
import Mathlib.Data.List.Pairwise
import Elvern.LimiterBuckets
import Elvern.LoginThrottle
import Elvern.Simulations

open Statements Statements.Program SlidingWindow LoginThrottle Simulations

namespace IdealLimiter

/-! ### The ideal limiter -/

/-- The failures of a key since the last clear or lockout, and the end of its lockout. -/
structure Memory where
  failures : List Time
  lockedUntil : Option Time

def Memory.empty : Memory := ⟨[], none⟩

namespace Memory

variable (m : Memory) (lim : RateLimiter) (now : Time)

def registerFailure : Memory × ℕ :=
  let failures := m.failures ++ [now]
  if lim.maxAttempts ≤ (failures.filter fun t => decide (now - lim.windowSeconds ≤ t)).length then
    (⟨[], some (now + lim.lockoutSeconds)⟩, lim.lockoutSeconds)
  else ({ m with failures := failures }, 0)

def check : ℕ :=
  match m.lockedUntil with
  | none => 0
  | some lockedUntil => if now < lockedUntil then max 1 (lockedUntil - now).ceil.toNat else 0

end Memory

/-- A memory for each kind and normalised key. -/
abbrev Reference := BucketKind → String → Memory

/-- The memory of one key is replaced. -/
def Reference.remember (r : Reference) (kind : BucketKind) (key : String)
    (m : Memory) : Reference :=
  fun kind' key' => if kind' = kind ∧ key' = key then m else r kind' key'

/-! ### Calls -/

inductive Operation
  | check
  | registerFailure
  | clear
  deriving DecidableEq

/-- A call on one of the limiters. -/
structure TimedCall (ι : Type) where
  limiter : ι
  operation : Operation
  key : String
  now : Time

section Calls

variable {ι : Type} (env : AuthEnv) (limiters : ι → RateLimiter)

/-- The method of the limiter; `clear` returns nothing. -/
def Operation.request (lim : RateLimiter) (key : String) : Operation → Request (Option ℕ)
  | .check => do
    let seconds ← lim.check env key
    .ret (some seconds)
  | .registerFailure => do
    let seconds ← lim.registerFailure env key fun _ db => db
    .ret (some seconds)
  | .clear => do
    lim.clear env key
    .ret none

/-- A call on the database. -/
def limiterCall (db : AuthDb) (call : TimedCall ι) : AuthDb × Outcome PyError (Option ℕ) :=
  runAlone (fun _ => ⟨call.now, ""⟩)
    (call.operation.request env (limiters call.limiter) call.key) 0 db none

/-- The same call on the ideal limiter. -/
def referenceCall (r : Reference) (call : TimedCall ι) : Reference × Outcome PyError (Option ℕ) :=
  let lim := limiters call.limiter
  let kind := lim.bucketKind
  let key := env.normalizeKey call.key
  match call.operation with
  | .check => (r, .returned (some ((r kind key).check call.now)))
  | .registerFailure =>
    let (m, seconds) := (r kind key).registerFailure lim call.now
    (r.remember kind key m, .returned (some seconds))
  | .clear => (r.remember kind key .empty, .returned none)

/-- The call is about the bucket. -/
def TimedCall.on (kind : BucketKind) (key : String) (call : TimedCall ι) : Bool :=
  (limiters call.limiter).bucketKind = kind && env.normalizeKey call.key = key

end Calls

/-! ### One bucket -/

/-- The failures that can still count are the same; a lockout that has been dropped has ended. -/
structure Agrees (lim : RateLimiter) (now : Time) (b : Bucket Time) (m : Memory) : Prop where
  failures : ∀ cutoff, now - lim.windowSeconds ≤ cutoff →
    b.failures.filter (fun t => decide (cutoff ≤ t)) = m.failures.filter fun t =>
      decide (cutoff ≤ t)
  lockout : b.blockedUntil = m.lockedUntil ∨
    b.blockedUntil = none ∧ ∃ u, m.lockedUntil = some u ∧ u ≤ now

section Bucket

variable {lim : RateLimiter} {now now' : Time} {b : Bucket Time} {m : Memory}

theorem Agrees.empty : Agrees lim now ⟨[], none⟩ Memory.empty := ⟨fun _ _ => rfl, Or.inl rfl⟩

theorem Agrees.later (h : Agrees lim now b m) (hle : now ≤ now') : Agrees lim now' b m where
  failures cutoff hcutoff := h.failures cutoff ((sub_le_sub_right hle _).trans hcutoff)
  lockout := h.lockout.imp_right fun ⟨hnone, u, hu, hended⟩ => ⟨hnone, u, hu, hended.trans hle⟩

/-- The failures that are dropped are too old for every later window. -/
theorem Agrees.forget (h : Agrees lim now b m) {cutoff : Time}
    (hcutoff : cutoff ≤ now - lim.windowSeconds) : Agrees lim now (b.forget cutoff) m where
  failures cutoff' hcutoff' := by
    rw [← h.failures cutoff' hcutoff', Bucket.forget, List.filter_filter]
    refine List.filter_congr fun t _ => ?_
    by_cases ht : cutoff' ≤ t
    · have hkept : cutoff ≤ t := hcutoff.trans (hcutoff'.trans ht)
      simp [ht, hkept]
    · simp [ht]
  lockout := h.lockout

/-- A failure counts the same in both, and leaves the same lockout. -/
theorem Agrees.fail (h : Agrees lim now b m) :
    Agrees lim now (b.fail lim.limits now) (m.registerFailure lim now).1 ∧
      (m.registerFailure lim now).2 =
        if lim.maxAttempts ≤ ((b.failures ++ [now]).filter fun t =>
          decide (now - lim.windowSeconds ≤ t)).length then lim.lockoutSeconds else 0 := by
  have hkept : ∀ cutoff, now - lim.windowSeconds ≤ cutoff →
      (b.failures ++ [now]).filter (fun t => decide (cutoff ≤ t)) =
        (m.failures ++ [now]).filter fun t => decide (cutoff ≤ t) := by
    intro cutoff hcutoff
    rw [List.filter_append, List.filter_append, h.failures cutoff hcutoff]
  have hfail : b.fail lim.limits now =
      if lim.maxAttempts ≤ ((m.failures ++ [now]).filter fun t =>
        decide (now - lim.windowSeconds ≤ t)).length then ⟨[], some (now + lim.lockoutSeconds)⟩
      else ⟨(m.failures ++ [now]).filter fun t => decide (now - lim.windowSeconds ≤ t),
        b.blockedUntil⟩ := by
    rw [← hkept _ le_rfl]
    rfl
  rw [Memory.registerFailure, hfail, hkept _ le_rfl]
  by_cases hmax : lim.maxAttempts ≤
      ((m.failures ++ [now]).filter fun t => decide (now - lim.windowSeconds ≤ t)).length
  · simp only [if_pos hmax]
    exact ⟨⟨fun _ _ => rfl, Or.inl rfl⟩, trivial⟩
  · simp only [if_neg hmax]
    refine ⟨⟨fun cutoff hcutoff => ?_, h.lockout⟩, trivial⟩
    dsimp only
    rw [List.filter_filter]
    refine List.filter_congr fun t _ => ?_
    by_cases ht : cutoff ≤ t
    · have hin : now - (lim.windowSeconds : Time) ≤ t := hcutoff.trans ht
      simp [ht, hin]
    · simp [ht]

/-- A lockout is reported alike, whether or not the row of an ended one has been dropped. -/
theorem Agrees.check (h : Agrees lim now b m) :
    m.check now = match b.blockedUntil with
      | none => 0
      | some u => if now < u then max 1 (u - now).ceil.toNat else 0 := by
  rw [Memory.check]
  rcases h.lockout with heq | ⟨hnone, u, hu, hended⟩
  · rw [heq]
  · rw [hnone, hu]
    exact if_neg (not_lt.2 hended)

/-- The row of an ended lockout is dropped. -/
theorem Agrees.dropLockout (h : Agrees lim now b m) {u : Time} (hu : b.blockedUntil = some u)
    (hended : u ≤ now) : Agrees lim now { b with blockedUntil := none } m where
  failures := h.failures
  lockout := by
    rcases h.lockout with heq | ⟨hnone, -⟩
    · exact Or.inr ⟨rfl, u, heq ▸ hu, hended⟩
    · rw [hnone] at hu
      cases hu

end Bucket

/-! ### The database -/

section Database

variable {ι : Type} {env : AuthEnv} {limiters : ι → RateLimiter} {now : Time} {db : AuthDb}
  {r : Reference}

/-- Every bucket of every limiter agrees with its memory. -/
def AllAgree (limiters : ι → RateLimiter) (now : Time) (db : AuthDb) (r : Reference) : Prop :=
  ∀ i key, Agrees (limiters i) now (bucket (limiters i).bucketKind key db)
    (r (limiters i).bucketKind key)

theorem clearBucket_bucket (db : AuthDb) (kind : BucketKind) (key : String) :
    bucket kind key (db.clearBucket kind key) = ⟨[], none⟩ := by
  have hfailures : (bucket kind key (db.clearBucket kind key)).failures = [] :=
    failures_deleteFailures db kind key
  exact congrArg₂ Bucket.mk hfailures (blockedUntil_deleteLockout _ kind key)

/-- What `register_failure` returns. -/
theorem registerFailure_seconds (db : AuthDb) (lim : RateLimiter) (key : String) (now : Time)
    (hwindow : (lim.windowSeconds : Time) ≤ loginFailureRetention) :
    (db.registerFailure lim key now).2 =
      if lim.maxAttempts ≤ (((bucket lim.bucketKind key db).failures ++ [now]).filter fun t =>
        decide (now - lim.windowSeconds ≤ t)).length then lim.lockoutSeconds else 0 := by
  have hpruned := failures_pruned db lim.bucketKind key now (now - lim.windowSeconds)
    (by linarith)
  have hcount := length_failuresSince (((db.insertFailure lim.bucketKind key
    now).deleteFailuresBefore lim.bucketKind key (now - lim.windowSeconds)).deleteAllFailuresBefore
      (now - loginFailureRetention)) lim.bucketKind key (now - lim.windowSeconds)
  rw [hpruned, List.filter_filter] at hcount
  simp only [Bool.and_self] at hcount
  rw [AuthDb.registerFailure, ← hcount]
  dsimp only
  split_ifs <;> rfl

theorem AllAgree.later (h : AllAgree limiters now db r) {now' : Time} (hle : now ≤ now') :
    AllAgree limiters now' db r := fun i key => (h i key).later hle

/-- One bucket and one memory change, and agree. -/
theorem allAgree_remember {kind : BucketKind} {key : String}
    {m : Memory} {db' : AuthDb}
    (hown : ∀ i, (limiters i).bucketKind = kind → Agrees (limiters i) now (bucket kind key db') m)
    (hother : ∀ i key', ¬ (kind = (limiters i).bucketKind ∧ key = key') →
      Agrees (limiters i) now (bucket (limiters i).bucketKind key' db')
        (r (limiters i).bucketKind key')) :
    AllAgree limiters now db' (r.remember kind key m) := by
  intro i key'
  rw [Reference.remember]
  split_ifs with hkey
  · obtain ⟨rfl, rfl⟩ := hkey
    exact hown i rfl
  · exact hother i key' fun ⟨hkind, heq⟩ => hkey ⟨hkind.symm, heq.symm⟩

/-- The programs of the methods, run alone. -/
theorem limiterCall_check (db : AuthDb) (i : ι) (key : String) (now : Time) :
    limiterCall env limiters db ⟨i, .check, key, now⟩ =
      ((checked db (limiters i) (env.normalizeKey key) now).1,
        .returned (some (checked db (limiters i) (env.normalizeKey key) now).2)) := by
  rw [limiterCall, Operation.request, runAlone_check]
  rfl

theorem limiterCall_registerFailure (db : AuthDb) (i : ι) (key : String) (now : Time) :
    limiterCall env limiters db ⟨i, .registerFailure, key, now⟩ =
      ((db.registerFailure (limiters i) (env.normalizeKey key) now).1,
        .returned (some (db.registerFailure (limiters i) (env.normalizeKey key) now).2)) := rfl

theorem limiterCall_clear (db : AuthDb) (i : ι) (key : String) (now : Time) :
    limiterCall env limiters db ⟨i, .clear, key, now⟩ =
      (db.clearBucket (limiters i).bucketKind (env.normalizeKey key), .returned none) := rfl

/-- `check` answers alike, and drops at most the row of a lockout that has ended. -/
theorem AllAgree.check (h : AllAgree limiters now db r) (i : ι) (key : String)
    (hconfig : ∀ i j, (limiters i).bucketKind = (limiters j).bucketKind → limiters i = limiters j) :
    (checked db (limiters i) key now).2 = (r (limiters i).bucketKind key).check now ∧
      AllAgree limiters now (checked db (limiters i) key now).1 r := by
  have hcheck := (h i key).check
  rw [bucket] at hcheck
  dsimp only at hcheck
  rw [hcheck]
  cases hblocked : db.blockedUntil (limiters i).bucketKind key with
  | none =>
    simp only [checked, hblocked]
    exact ⟨trivial, h⟩
  | some u =>
    by_cases hu : now < u
    · simp only [checked, hblocked, if_pos hu]
      exact ⟨trivial, h⟩
    · simp only [checked, hblocked, if_neg hu]
      refine ⟨trivial, fun j key' => ?_⟩
      by_cases hkey : (limiters i).bucketKind = (limiters j).bucketKind ∧ key = key'
      -- the row that goes is of a lockout that has ended for every limiter of the kind
      · obtain ⟨hkind, rfl⟩ := hkey
        rw [← hconfig i j hkind]
        have hbucket : bucket (limiters i).bucketKind key
          (db.deleteLockout (limiters i).bucketKind key) =
            { bucket (limiters i).bucketKind key db with blockedUntil := none } :=
          congrArg₂ Bucket.mk rfl (blockedUntil_deleteLockout db _ key)
        rw [hbucket]
        exact (h i key).dropLockout hblocked (not_lt.1 hu)
      · have hbucket : bucket (limiters j).bucketKind key'
            (db.deleteLockout (limiters i).bucketKind key) =
                bucket (limiters j).bucketKind key' db :=
          congrArg₂ Bucket.mk rfl (blockedUntil_deleteLockout_other db hkey)
        rw [hbucket]
        exact h j key'

/-- `register_failure` answers alike; in the other buckets it drops what no window reaches. -/
theorem AllAgree.registerFailure (h : AllAgree limiters now db r) (i : ι) (key : String)
    (hconfig : ∀ i j, (limiters i).bucketKind = (limiters j).bucketKind → limiters i = limiters j)
    (hwindow : ∀ i, ((limiters i).windowSeconds : Time) ≤ loginFailureRetention) :
    (db.registerFailure (limiters i) key now).2 =
        ((r (limiters i).bucketKind key).registerFailure (limiters i) now).2 ∧
      AllAgree limiters now (db.registerFailure (limiters i) key now).1
        (r.remember (limiters i).bucketKind key
          ((r (limiters i).bucketKind key).registerFailure (limiters i) now).1) := by
  obtain ⟨hagrees, hseconds⟩ := (h i key).fail
  refine ⟨?_, allAgree_remember (fun j hkind => ?_) fun j key' hkey => ?_⟩
  · rw [hseconds]
    exact registerFailure_seconds db (limiters i) key now (hwindow i)
  · rw [hconfig j i hkind, registerFailure_bucket db (limiters i) key now (hwindow i)]
    exact hagrees
  -- the sweep over all kinds and keys drops failures that no limiter counts any more
  · rw [registerFailure_bucket_other db (limiters i) now hkey]
    exact (h j key').forget (sub_le_sub_left (hwindow j) now)

theorem AllAgree.clear (h : AllAgree limiters now db r) (i : ι) (key : String) :
    AllAgree limiters now (db.clearBucket (limiters i).bucketKind key)
      (r.remember (limiters i).bucketKind key .empty) := by
  refine allAgree_remember (fun j hkind => ?_) fun j key' hkey => ?_
  · rw [clearBucket_bucket]
    exact Agrees.empty
  · rw [clearBucket_bucket_other db hkey]
    exact h j key'

/-- **One call** is answered alike, and every bucket still agrees. -/
theorem AllAgree.call (h : AllAgree limiters now db r) (call : TimedCall ι)
    (hconfig : ∀ i j, (limiters i).bucketKind = (limiters j).bucketKind → limiters i = limiters j)
    (hwindow : ∀ i, ((limiters i).windowSeconds : Time) ≤ loginFailureRetention)
    (hnow : now ≤ call.now) :
    (limiterCall env limiters db call).2 = (referenceCall env limiters r call).2 ∧
      AllAgree limiters call.now (limiterCall env limiters db call).1
        (referenceCall env limiters r call).1 := by
  obtain ⟨i, operation, key, time⟩ := call
  have hlater : AllAgree limiters time db r := h.later hnow
  cases operation with
  | check =>
    obtain ⟨hanswer, hnext⟩ := hlater.check i (env.normalizeKey key) hconfig
    rw [limiterCall_check, hanswer]
    exact ⟨rfl, hnext⟩
  | registerFailure =>
    obtain ⟨hanswer, hnext⟩ := hlater.registerFailure i (env.normalizeKey key) hconfig hwindow
    rw [limiterCall_registerFailure, hanswer]
    exact ⟨rfl, hnext⟩
  | clear =>
    rw [limiterCall_clear]
    exact ⟨rfl, hlater.clear i (env.normalizeKey key)⟩

/-- The ideal limiter answers a call on a key from the memory of that key. -/
theorem reference_filter (kind : BucketKind) (key : String) (calls : List (TimedCall ι)) :
    (trace (referenceCall env limiters) (fun _ _ => .empty) calls).filter
        (fun p => p.1.on env limiters kind key) =
      trace (referenceCall env limiters) (fun _ _ => .empty)
        (calls.filter fun call : TimedCall ι => call.on env limiters kind key) := by
  have hon : ∀ call : TimedCall ι, call.on env limiters kind key = true ↔
      (limiters call.limiter).bucketKind = kind ∧ env.normalizeKey call.key = key := by
    intro call
    rw [TimedCall.on, Bool.and_eq_true, decide_eq_true_eq, decide_eq_true_eq]
  refine trace_filter (fun call : TimedCall ι => call.on env limiters kind key)
    (fun s t : Reference => s kind key = t kind key) (fun s t call hcall hE => ?_)
    (fun s t call hcall hE => ?_) rfl
  · have hne : ¬ (kind = (limiters call.limiter).bucketKind ∧ key = env.normalizeKey call.key) := by
      rintro ⟨hkind, hkey⟩
      rw [(hon call).2 ⟨hkind.symm, hkey.symm⟩] at hcall
      cases hcall
    rw [referenceCall]
    cases call.operation with
    | check => exact hE
    | registerFailure => exact (if_neg hne).trans hE
    | clear => exact (if_neg hne).trans hE
  · obtain ⟨hkind, hkey⟩ := (hon call).1 hcall
    rw [referenceCall, referenceCall]
    cases call.operation with
    | check =>
      dsimp only
      rw [hkind, hkey, hE]
      exact ⟨rfl, rfl⟩
    | registerFailure =>
      dsimp only
      rw [hkind, hkey, hE]
      exact ⟨rfl, (if_pos ⟨rfl, rfl⟩).trans (if_pos ⟨rfl, rfl⟩).symm⟩
    | clear =>
      dsimp only
      rw [hkind, hkey]
      exact ⟨rfl, (if_pos ⟨rfl, rfl⟩).trans (if_pos ⟨rfl, rfl⟩).symm⟩

end Database

/-- In every run of calls on any limiters over one database, with one configuration for each kind,
no window longer than the retention and a clock that does not go back, each call returns what the
ideal limiter returns; and the calls on one key return what they would return without all others. -/
theorem limiter_refines {ι : Type} (env : AuthEnv) (limiters : ι → RateLimiter) (db : AuthDb)
    (hfailures : db.loginFailures = []) (hlockouts : db.loginLockouts = [])
    (hconfig : ∀ i j, (limiters i).bucketKind = (limiters j).bucketKind → limiters i = limiters j)
    (hwindow : ∀ i, 0 < (limiters i).windowSeconds ∧ (limiters i).windowSeconds ≤ 7 * 86400)
    (calls : List (TimedCall ι)) (hclock : calls.Pairwise fun c d => c.now ≤ d.now) :
    trace (limiterCall env limiters) db calls =
        trace (referenceCall env limiters) (fun _ _ => .empty) calls ∧
      ∀ kind key, (trace (limiterCall env limiters) db calls).filter
          (fun p => p.1.on env limiters kind key) =
        trace (limiterCall env limiters) db
          (calls.filter fun call : TimedCall ι => call.on env limiters kind key) := by
  have hretention : ∀ i, ((limiters i).windowSeconds : Time) ≤ loginFailureRetention := by
    intro i
    have hle := (hwindow i).2
    rw [loginFailureRetention]
    exact_mod_cast hle
  have hstart : ∀ now, AllAgree limiters now db fun _ _ => .empty := by
    intro now i key
    have hbucket : bucket (limiters i).bucketKind key db = ⟨[], none⟩ := by
      rw [bucket, AuthDb.blockedUntil, hfailures, hlockouts]
      rfl
    rw [hbucket]
    exact Agrees.empty
  have hrefines : ∀ calls : List (TimedCall ι), calls.Pairwise (fun c d => c.now ≤ d.now) →
      trace (limiterCall env limiters) db calls =
        trace (referenceCall env limiters) (fun _ _ => .empty) calls := by
    intro calls hclock
    cases calls with
    | nil => rfl
    | cons call rest =>
      refine trace_eq TimedCall.now (AllAgree limiters) (fun now s t c h hnow => ?_)
        (hstart call.now) (fun c hc => ?_) hclock
      · exact h.call c hconfig hretention hnow
      · rcases List.mem_cons.1 hc with rfl | hc
        · exact le_rfl
        · exact (List.pairwise_cons.1 hclock).1 c hc
  refine ⟨hrefines calls hclock, fun kind key => ?_⟩
  rw [hrefines calls hclock, reference_filter, hrefines _ (hclock.filter _)]

/-- The two limiters of the login. -/
def loginLimiter : Bool → RateLimiter
  | true => loginIpRateLimiter
  | false => loginUsernameRateLimiter

/-- Ten failures from one address lock it out for ten minutes. -/
def loginCalls : List (TimedCall Bool) :=
  (List.range 10).map (fun second : ℕ => ⟨true, .registerFailure, "10.0.0.1", second⟩) ++
    [⟨true, .check, "10.0.0.1", 10⟩, ⟨false, .registerFailure, "alice", 11⟩,
      ⟨true, .check, "10.0.0.1", 700⟩, ⟨true, .clear, "10.0.0.1", 701⟩]

/-- The seconds that a call has answered with. -/
def seconds : Outcome PyError (Option ℕ) → Option ℕ
  | .returned answer => answer
  | _ => none

theorem limiter_refines_loginLimiter :
    trace (limiterCall sampleEnv loginLimiter) .empty loginCalls =
        trace (referenceCall sampleEnv loginLimiter) (fun _ _ => .empty) loginCalls ∧
      ((trace (limiterCall sampleEnv loginLimiter) .empty loginCalls).map fun p => seconds p.2) =
        List.replicate 9 (some 0) ++ [some 600, some 599, some 0, some 0, none] := by
  have hrefines := (limiter_refines sampleEnv loginLimiter .empty rfl rfl (by decide)
    (by decide) loginCalls (by decide +kernel)).1
  refine ⟨hrefines, ?_⟩
  rw [hrefines]
  decide +kernel

end IdealLimiter
