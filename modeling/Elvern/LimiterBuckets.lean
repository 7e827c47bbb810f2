/-
The limiter as a sliding window.

The failures and the lockout of a bucket key refine a bucket of `SlidingWindow`, marked with
the times at which wrong codes of one user were registered.

* `registerFailure_bucket`, `registerFailure_bucket_other` — the transaction of
  `register_failure` on its own bucket and on the others;
* `Throttled` — the tables keep the bound on the wrong codes of a user;
* `checked_throttled`, `registerFailure_throttled`, `wrongCode_throttled`,
  `clearBucket_throttled` — what each method of the limiter does to it.
-/
import Elvern.RateLimiter
import Elvern.SlidingWindow

open Tables SlidingWindow

/-- The settings as limits of a sliding window. -/
def RateLimiter.limits (lim : RateLimiter) : Limits Time where
  window := lim.windowSeconds
  lockout := lim.lockoutSeconds
  maxAttempts := lim.maxAttempts

namespace LoginThrottle

/-- The rows of one bucket key. -/
def bucket (kind : BucketKind) (key : String) (db : AuthDb) : Bucket Time where
  failures := (db.loginFailures.filter fun f => f.inBucket kind key).map
    LoginFailureRow.occurredAtUnix
  blockedUntil := db.blockedUntil kind key

/-- When wrong codes of the user were registered, the newest first. -/
def wrongCodeTimes (username : String) (db : AuthDb) : List Time :=
  (db.wrongCodes.filter fun w => w.username == username).map WrongCode.at_

/-- The rows that the limiters read and the recorded wrong codes are the same. -/
structure SameLimits (s u : AuthDb) : Prop where
  failures : u.loginFailures = s.loginFailures
  lockouts : u.loginLockouts = s.loginLockouts
  wrongCodes : u.wrongCodes = s.wrongCodes

theorem SameLimits.trans {s u v : AuthDb} (h : SameLimits s u) (h' : SameLimits u v) :
    SameLimits s v :=
  ⟨h'.failures.trans h.failures, h'.lockouts.trans h.lockouts, h'.wrongCodes.trans h.wrongCodes⟩

/-! ### The statements of the limiter on a bucket -/

theorem inBucket_iff {kind : BucketKind} {key : String} {f : LoginFailureRow} :
    f.inBucket kind key = true ↔ f.bucketKind = kind ∧ f.bucketKey = key := by
  simp [LoginFailureRow.inBucket]

theorem lockout_inBucket_iff {kind : BucketKind} {key : String} {l : LoginLockoutRow} :
    l.inBucket kind key = true ↔ l.bucketKind = kind ∧ l.bucketKey = key := by
  simp [LoginLockoutRow.inBucket]

/-- No row is in two buckets. -/
theorem inBucket_other {kind kind' : BucketKind} {key key' : String} {f : LoginFailureRow}
    (hne : ¬ (kind' = kind ∧ key' = key)) (h : f.inBucket kind key = true) :
    f.inBucket kind' key' = false := by
  obtain ⟨rfl, rfl⟩ := inBucket_iff.mp h
  rw [Bool.eq_false_iff]
  intro h'
  obtain ⟨rfl, rfl⟩ := inBucket_iff.mp h'
  exact hne ⟨rfl, rfl⟩

theorem lockout_inBucket_other {kind kind' : BucketKind} {key key' : String}
    {l : LoginLockoutRow} (hne : ¬ (kind' = kind ∧ key' = key)) (h : l.inBucket kind key = true) :
    l.inBucket kind' key' = false := by
  obtain ⟨rfl, rfl⟩ := lockout_inBucket_iff.mp h
  rw [Bool.eq_false_iff]
  intro h'
  obtain ⟨rfl, rfl⟩ := lockout_inBucket_iff.mp h'
  exact hne ⟨rfl, rfl⟩

theorem blockedUntil_deleteLockout (db : AuthDb) (kind : BucketKind) (key : String) :
    (db.deleteLockout kind key).blockedUntil kind key = none := by
  rw [AuthDb.blockedUntil, AuthDb.deleteLockout, Option.map_eq_none_iff, List.find?_eq_none]
  intro l hl
  simpa using (List.mem_filter.mp hl).2

theorem blockedUntil_deleteLockout_other (db : AuthDb) {kind kind' : BucketKind}
    {key key' : String} (hne : ¬ (kind' = kind ∧ key' = key)) :
    (db.deleteLockout kind' key').blockedUntil kind key = db.blockedUntil kind key := by
  rw [AuthDb.blockedUntil, AuthDb.deleteLockout, List.find?_filter, AuthDb.blockedUntil]
  congr 2
  funext l
  by_cases h : l.inBucket kind key = true
  · rw [h, lockout_inBucket_other hne h]
    rfl
  · simp [h]

theorem failures_deleteFailures (db : AuthDb) (kind : BucketKind) (key : String) :
    (bucket kind key (db.deleteFailures kind key)).failures = [] := by
  simp [bucket, AuthDb.deleteFailures, List.filter_filter]

theorem failures_deleteFailures_other (db : AuthDb) {kind kind' : BucketKind}
    {key key' : String} (hne : ¬ (kind' = kind ∧ key' = key)) :
    (bucket kind key (db.deleteFailures kind' key')).failures = (bucket kind key db).failures := by
  simp only [bucket, AuthDb.deleteFailures, List.filter_filter]
  congr 1
  refine List.filter_congr fun f _ => ?_
  by_cases h : f.inBucket kind key = true
  · rw [h, inBucket_other hne h]
    rfl
  · simp [h]

theorem clearBucket_bucket_other (db : AuthDb) {kind kind' : BucketKind} {key key' : String}
    (hne : ¬ (kind' = kind ∧ key' = key)) :
    bucket kind key (db.clearBucket kind' key') = bucket kind key db := by
  have hf := failures_deleteFailures_other db hne
  have hb := blockedUntil_deleteLockout_other (db.deleteFailures kind' key') hne
  exact congrArg₂ Bucket.mk hf hb

/-- The failures of a bucket after the insert and the two deletes of `register_failure`. -/
theorem failures_pruned (db : AuthDb) (kind : BucketKind) (key : String) (now cutoff : Time)
    (hcut : now - loginFailureRetention ≤ cutoff) :
    (bucket kind key (((db.insertFailure kind key now).deleteFailuresBefore kind key
        cutoff).deleteAllFailuresBefore (now - loginFailureRetention))).failures =
      ((bucket kind key db).failures ++ [now]).filter fun t => decide (cutoff ≤ t) := by
  have hnew : [LoginFailureRow.mk kind key now].filter (fun f => f.inBucket kind key) =
      [LoginFailureRow.mk kind key now] := by
    simp [LoginFailureRow.inBucket]
  have hmap : (bucket kind key db).failures ++ [now] =
      ((db.insertFailure kind key now).loginFailures.filter fun f => f.inBucket kind key).map
        LoginFailureRow.occurredAtUnix := by
    rw [AuthDb.insertFailure, List.filter_append, hnew, List.map_append]
    rfl
  rw [hmap, List.filter_map, List.filter_filter]
  simp only [bucket, AuthDb.deleteAllFailuresBefore, AuthDb.deleteFailuresBefore,
    List.filter_filter]
  congr 1
  refine List.filter_congr fun f _ => ?_
  by_cases h : cutoff ≤ f.occurredAtUnix
  · simp [h, not_lt.mpr h, not_lt.mpr (hcut.trans h)]
  · cases hf : f.inBucket kind key <;> simp [h, not_le.mp h]

/-- The count of `register_failure`, once the older failures are deleted. -/
theorem length_failuresSince (db : AuthDb) (kind : BucketKind) (key : String) (cutoff : Time) :
    (db.failuresSince kind key cutoff).length =
      ((bucket kind key db).failures.filter fun t => decide (cutoff ≤ t)).length := by
  rw [bucket, List.filter_map, List.length_map, List.filter_filter, AuthDb.failuresSince]
  congr 2
  funext f
  exact Bool.and_comm _ _

theorem blockedUntil_replaceLockout (db : AuthDb) (kind : BucketKind) (key : String) (u : Time) :
    (db.replaceLockout kind key u).blockedUntil kind key = some u := by
  have hnone : (db.loginLockouts.filter fun l => !l.inBucket kind key).find?
      (fun l => l.inBucket kind key) = none := by
    rw [List.find?_eq_none]
    intro l hl
    simpa using (List.mem_filter.mp hl).2
  rw [AuthDb.blockedUntil, AuthDb.replaceLockout, List.find?_append, hnone]
  simp [LoginLockoutRow.inBucket]

/-- **`register_failure` is the failure of a sliding window.** -/
theorem registerFailure_bucket (db : AuthDb) (lim : RateLimiter) (key : String) (now : Time)
    (hwindow : (lim.windowSeconds : Time) ≤ loginFailureRetention) :
    bucket lim.bucketKind key (db.registerFailure lim key now).1 =
      (bucket lim.bucketKind key db).fail lim.limits now := by
  have hpruned := failures_pruned db lim.bucketKind key now (now - lim.windowSeconds)
    (by linarith)
  have hcount := length_failuresSince (((db.insertFailure lim.bucketKind key
    now).deleteFailuresBefore lim.bucketKind key (now - lim.windowSeconds)).deleteAllFailuresBefore
      (now - loginFailureRetention)) lim.bucketKind key (now - lim.windowSeconds)
  rw [hpruned, List.filter_filter] at hcount
  simp only [Bool.and_self] at hcount
  rw [AuthDb.registerFailure, Bucket.fail]
  by_cases hmax : lim.maxAttempts ≤ (((bucket lim.bucketKind key db).failures ++ [now]).filter
        fun t => decide (now - lim.windowSeconds ≤ t)).length
  · simp only [hcount, if_pos hmax]
    exact (congrArg₂ Bucket.mk (failures_deleteFailures _ _ _)
      (blockedUntil_replaceLockout _ _ _ _)).trans (if_pos hmax).symm
  · simp only [hcount, if_neg hmax]
    exact (congrArg₂ Bucket.mk hpruned rfl).trans (if_neg hmax).symm

theorem failures_insertFailure_other (db : AuthDb) {kind kind' : BucketKind} {key key' : String}
    (now : Time) (hne : ¬ (kind' = kind ∧ key' = key)) :
    (bucket kind key (db.insertFailure kind' key' now)).failures =
    (bucket kind key db).failures := by
  have hnew : [LoginFailureRow.mk kind' key' now].filter (fun f => f.inBucket kind key) = [] := by
    rw [List.filter_eq_nil_iff]
    intro f hf hin
    rw [List.mem_singleton.mp hf] at hin
    exact hne (inBucket_iff.mp hin)
  simp only [bucket, AuthDb.insertFailure]
  rw [List.filter_append, hnew, List.append_nil]

theorem failures_deleteFailuresBefore_other (db : AuthDb) {kind kind' : BucketKind}
    {key key' : String} (cutoff : Time) (hne : ¬ (kind' = kind ∧ key' = key)) :
    (bucket kind key (db.deleteFailuresBefore kind' key' cutoff)).failures =
      (bucket kind key db).failures := by
  simp only [bucket, AuthDb.deleteFailuresBefore, List.filter_filter]
  congr 1
  refine List.filter_congr fun f _ => ?_
  by_cases h : f.inBucket kind key = true
  · rw [h, inBucket_other hne h]
    rfl
  · simp [h]

theorem failures_deleteAllFailuresBefore (db : AuthDb) (kind : BucketKind) (key : String)
    (cutoff : Time) :
    (bucket kind key (db.deleteAllFailuresBefore cutoff)).failures =
      (bucket kind key db).failures.filter fun t => decide (cutoff ≤ t) := by
  simp only [bucket, AuthDb.deleteAllFailuresBefore, List.filter_map, List.filter_filter]
  congr 1
  refine List.filter_congr fun f _ => ?_
  by_cases h : cutoff ≤ f.occurredAtUnix
  · simp [h, not_lt.mpr h]
  · simp [h, not_le.mp h]

theorem blockedUntil_replaceLockout_other (db : AuthDb) {kind kind' : BucketKind}
    {key key' : String} (u : Time) (hne : ¬ (kind' = kind ∧ key' = key)) :
    (db.replaceLockout kind' key' u).blockedUntil kind key = db.blockedUntil kind key := by
  have hnew : [LoginLockoutRow.mk kind' key' u].find? (fun l => l.inBucket kind key) = none := by
    rw [List.find?_eq_none]
    intro l hl hin
    rw [List.mem_singleton.mp hl] at hin
    exact hne (lockout_inBucket_iff.mp hin)
  rw [← blockedUntil_deleteLockout_other db hne, AuthDb.blockedUntil, AuthDb.replaceLockout,
    List.find?_append, hnew, Option.or_none]
  rfl

/-- A failure of another bucket only drops rows that are past their retention. -/
theorem registerFailure_bucket_other (db : AuthDb) (lim : RateLimiter) {kind : BucketKind}
    {key key' : String} (now : Time) (hne : ¬ (lim.bucketKind = kind ∧ key' = key)) :
    bucket kind key (db.registerFailure lim key' now).1 =
      (bucket kind key db).forget (now - loginFailureRetention) := by
  have hfailures : (bucket kind key (((db.insertFailure lim.bucketKind key'
      now).deleteFailuresBefore lim.bucketKind key' (now -
        lim.windowSeconds)).deleteAllFailuresBefore (now - loginFailureRetention))).failures =
      ((bucket kind key db).forget (now - loginFailureRetention)).failures := by
    rw [failures_deleteAllFailuresBefore, failures_deleteFailuresBefore_other _ _ hne,
      failures_insertFailure_other _ _ hne, Bucket.forget]
  rw [AuthDb.registerFailure]
  simp only []
  split
  · refine congrArg₂ Bucket.mk ((failures_deleteFailures_other _ hne).trans hfailures) ?_
    exact blockedUntil_replaceLockout_other _ _ hne
  · exact congrArg₂ Bucket.mk hfailures rfl

/-- What `check` at time `now` leaves when nothing else runs, and the seconds that it returns. -/
def checked (db : AuthDb) (lim : RateLimiter) (key : String) (now : Time) : AuthDb × ℕ :=
  match db.blockedUntil lim.bucketKind key with
  | none => (db, 0)
  | some blockedUntil =>
    if now < blockedUntil then (db, max 1 (blockedUntil - now).ceil.toNat)
    else (db.deleteLockout lim.bucketKind key, 0)

/-- `check` either refuses the key and leaves the tables alone, or finds no lockout or drops one
that has ended. -/
theorem checked_cases (db : AuthDb) (lim : RateLimiter) (key : String) (now : Time) :
    ((checked db lim key now).1 = db ∧ (checked db lim key now).2 ≠ 0) ∨
      (db.blockedUntil lim.bucketKind key = none ∧ checked db lim key now = (db, 0)) ∨
      ∃ u, db.blockedUntil lim.bucketKind key = some u ∧ u ≤ now ∧
        checked db lim key now = (db.deleteLockout lim.bucketKind key, 0) := by
  rcases hb : db.blockedUntil lim.bucketKind key with _ | u
  · exact .inr (.inl ⟨rfl, by rw [checked, hb]⟩)
  · by_cases hu : now < u
    · have hchk : checked db lim key now = (db, max 1 (u - now).ceil.toNat) := by
        simp only [checked, hb, if_pos hu]
      rw [hchk]
      exact .inl ⟨rfl, by omega⟩
    · have hchk : checked db lim key now = (db.deleteLockout lim.bucketKind key, 0) := by
        simp only [checked, hb, if_neg hu]
      exact .inr (.inr ⟨u, rfl, not_lt.mp hu, hchk⟩)

/-! ### The bound over the tables -/

/-- The bucket of the user keeps the bound on the wrong codes of the user. -/
def Throttled (env : AuthEnv) (lim : RateLimiter) (username : String) (db : AuthDb)
    (now : Time) : Prop :=
  Bounded lim.limits (bucket lim.bucketKind (env.normalizeKey username) db) now
    (wrongCodeTimes username db)

section Bound

variable {env : AuthEnv} {lim lim' : RateLimiter} {username key : String} {s u : AuthDb}
  {now now' : Time}

theorem Throttled.later (h : Throttled env lim username s now) (hle : now ≤ now') :
    Throttled env lim username s now' := Bounded.later h hle

theorem Throttled.same (h : Throttled env lim username s now) (hsame : SameLimits s u) :
    Throttled env lim username u now := by
  rw [Throttled, bucket, wrongCodeTimes, AuthDb.blockedUntil] at h ⊢
  rw [hsame.failures, hsame.lockouts, hsame.wrongCodes]
  exact h

/-- `check` keeps the bound, of its own bucket and of the others. -/
theorem checked_throttled (h : Throttled env lim username s now) :
    Throttled env lim username (checked s lim' key now).1 now := by
  rcases checked_cases s lim' key now with ⟨hs, _⟩ | ⟨_, hchk⟩ | ⟨u, hu, hle, hchk⟩
  · rw [hs]
    exact h
  · rw [hchk]
    exact h
  · rw [hchk]
    by_cases hkey : lim'.bucketKind = lim.bucketKind ∧ key = env.normalizeKey username
    · obtain ⟨hkind, rfl⟩ := hkey
      have hbucket : bucket lim.bucketKind (env.normalizeKey username)
          (s.deleteLockout lim'.bucketKind (env.normalizeKey username)) =
          (bucket lim.bucketKind (env.normalizeKey username) s).unblock now := by
        rw [hkind] at hu ⊢
        have hnone := blockedUntil_deleteLockout s lim.bucketKind (env.normalizeKey username)
        have hended : ((bucket lim.bucketKind (env.normalizeKey username) s).blockedUntil).any
            (fun u => decide (u ≤ now)) = true := by
          rw [bucket, hu, Option.any_some, decide_eq_true_eq]
          exact hle
        rw [Bucket.unblock, if_pos hended]
        exact congrArg₂ Bucket.mk rfl hnone
      show Bounded _ (bucket lim.bucketKind _ _) _ _
      rw [hbucket]
      exact Bounded.unblock h
    · have hbucket : bucket lim.bucketKind (env.normalizeKey username)
          (s.deleteLockout lim'.bucketKind key) =
          bucket lim.bucketKind (env.normalizeKey username) s :=
        congrArg₂ Bucket.mk rfl (blockedUntil_deleteLockout_other s hkey)
      show Bounded _ (bucket lim.bucketKind _ _) _ _
      rw [hbucket]
      exact h

/-- A key that `check` lets pass has no lockout. -/
theorem blockedUntil_of_checked (h : (checked s lim key now).2 = 0) :
    (checked s lim key now).1.blockedUntil lim.bucketKind key = none := by
  rcases checked_cases s lim key now with ⟨_, hne⟩ | ⟨hnone, hchk⟩ | ⟨u, _, _, hchk⟩
  · exact absurd h hne
  · rw [hchk]
    exact hnone
  · rw [hchk]
    exact blockedUntil_deleteLockout s lim.bucketKind key

/-- A failure that is no wrong code of the user keeps the bound. -/
theorem registerFailure_throttled (h : Throttled env lim username s now) (hle : now ≤ now')
    (hwindow : (lim.windowSeconds : Time) ≤ loginFailureRetention)
    (hlim : lim'.bucketKind = lim.bucketKind → lim' = lim) :
    Throttled env lim username (s.registerFailure lim' key now').1 now' := by
  have hmarks : wrongCodeTimes username (s.registerFailure lim' key now').1 =
      wrongCodeTimes username s := by
    rw [AuthDb.registerFailure]
    simp only []
    split <;> rfl
  rw [Throttled, hmarks]
  by_cases hkey : lim'.bucketKind = lim.bucketKind ∧ key = env.normalizeKey username
  · obtain ⟨hkind, rfl⟩ := hkey
    rw [hlim hkind, registerFailure_bucket s lim _ now' hwindow]
    exact Bounded.fail h hle
  · rw [registerFailure_bucket_other s lim' now' hkey]
    exact Bounded.forget (Bounded.later h hle) (sub_le_sub_left hwindow now')

/-- A wrong code of the user, whose key is not locked out, keeps the bound. -/
theorem wrongCode_throttled (h : Throttled env lim username s now) (hle : now ≤ now')
    (hwindow : (lim.windowSeconds : Time) ≤ loginFailureRetention) (hmax : 1 ≤ lim.maxAttempts)
    (hnone : s.blockedUntil lim.bucketKind (env.normalizeKey username) = none) :
    Throttled env lim username
      ((s.registerFailure lim (env.normalizeKey username) now').1.recordWrongCode
        { username, at_ := now' }) now' := by
  have hmarks : wrongCodeTimes username
      ((s.registerFailure lim (env.normalizeKey username) now').1.recordWrongCode
        { username, at_ := now' }) = now' :: wrongCodeTimes username s := by
    have hrecord : (s.registerFailure lim (env.normalizeKey username) now').1.wrongCodes =
        s.wrongCodes := by
      rw [AuthDb.registerFailure]
      simp only []
      split <;> rfl
    simp [wrongCodeTimes, AuthDb.recordWrongCode, hrecord]
  have hbucket : bucket lim.bucketKind (env.normalizeKey username)
      ((s.registerFailure lim (env.normalizeKey username) now').1.recordWrongCode
        { username, at_ := now' }) =
      (bucket lim.bucketKind (env.normalizeKey username) s).fail lim.limits now' :=
    registerFailure_bucket s lim _ now' hwindow
  rw [Throttled, hmarks, hbucket]
  exact Bounded.mark h hnone hmax (Nat.cast_nonneg _) hle

/-- A wrong code of another user keeps the bound. -/
theorem wrongCode_other_throttled {other : String} (h : Throttled env lim username s now)
    (hne : other ≠ username) :
    Throttled env lim username (s.recordWrongCode { username := other, at_ := now' }) now := by
  have hmarks : wrongCodeTimes username (s.recordWrongCode { username := other, at_ := now' }) =
      wrongCodeTimes username s := by
    simp [wrongCodeTimes, AuthDb.recordWrongCode, hne]
  rw [Throttled, hmarks]
  exact h

/-- `clear` keeps the bound of the other buckets, and of its own one when the wrong codes of
the user are old. -/
theorem clearBucket_throttled {kind : BucketKind} (h : Throttled env lim username s now)
    (hold : kind = lim.bucketKind → key = env.normalizeKey username →
      ∀ t ∈ wrongCodeTimes username s, t + lim.limits.span ≤ now) :
    Throttled env lim username (s.clearBucket kind key) now := by
  show Bounded _ (bucket _ _ (s.clearBucket kind key)) _ (wrongCodeTimes username s)
  by_cases hkey : kind = lim.bucketKind ∧ key = env.normalizeKey username
  · obtain ⟨rfl, rfl⟩ := hkey
    exact Bounded.reset h (hold rfl rfl)
  · rw [clearBucket_bucket_other s hkey]
    exact h

end Bound

end LoginThrottle
