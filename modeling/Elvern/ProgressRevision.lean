/-
The progress revision (`library_revision_service.py`).

`get_library_progress_state` binds the shared local source before it reads anything: that `UPDATE`
opens a transaction, so the rows and the counters are read under the write lock of the connection,
which is closed without a commit.

* `progressState_meets` — a response is what the tables held under the counter that its revision
  encodes, whatever the others commit between its statements;
* `progress_revision_current` — in every interleaving of calls with writes of progress, the counter
  of a revision is the one at the time of the rows, and two responses with one revision carry the
  same items.
-/
import Elvern.AuthTables
import Elvern.ProgressTracking

open Statements Statements.Program

namespace ProgressRevision

open Progress (ProgressRow)

/-- The tables: the progress rows and counters, and the other tables.  `seen` records the rows of a
user under each counter so far (no statement reads it). -/
structure LibraryDb (ρ : Type) where
  progress : ℕ → ℕ → Option ProgressRow
  /-- `library_revision_counters` of the layer `progress`, scope `user` -/
  userCounter : ℕ → ℕ
  /-- `library_revision_counters` of the layer `progress`, scope `global` -/
  globalCounter : ℕ
  others : ρ
  seen : ℕ → ℕ → ℕ → Option ProgressRow

/-- What the call uses of the rest of the library, on the other tables. -/
structure LibraryCode (ρ ε : Type) where
  /-- The write of `_ensure_shared_local_library_source`, if it makes one. -/
  ensureSharedSource : ρ → Option (ρ → Except ε ρ)
  /-- `bind_unassigned_local_media_items_to_shared_source` -/
  bindUnassigned : ρ → Except ε ρ
  /-- `_load_globally_hidden_movie_keys` and `_load_hidden_movie_keys` -/
  hiddenKeys : ρ → ℕ → List String
  /-- The ids that the joins and the `WHERE` of the progress rows let through, in their order. -/
  candidates : ρ → ℕ → List ℕ
  /-- `_row_matches_hidden_keys`, on the row of an item -/
  matchesHidden : ρ → ℕ → List String → Bool
  /-- `load_accessible_media_item_ids_by_age` -/
  accessible : ρ → AuthenticatedUser → List ℕ → ℕ → Bool

/-- An item of the response. -/
structure ProgressItem where
  id : ℕ
  progressSeconds : ℚ
  progressDurationSeconds : Option ℚ
  completed : Bool
  deriving DecidableEq

/-- The response, and the user's counter when the rows were read. -/
structure ProgressState where
  schemaVersion : String
  progressRevision : String
  items : List ProgressItem
  counterAtRows : ℕ

/-- `str(user.role)` -/
def roleText : Role → String
  | .admin => "admin"
  | .standardUser => "standard_user"

/-- The message of `_opaque_token` for the layer `progress`. -/
def tokenMessage (user : AuthenticatedUser) (global counter : ℕ) : String :=
  "\x7b\"age_credential\":" ++ toString user.ageCredential ++ ",\"counters\":[" ++
    toString global ++ "," ++
    toString counter ++ "],\"layer\":\"progress\",\"role\":\"" ++ roleText user.role ++
    "\",\"schema\":\"library-revision-v1\",\"user_id\":" ++ toString user.id ++ "\x7d"

section

variable {ρ ε : Type} (code : LibraryCode ρ ε) (digest : String → String)

/-- `SELECT … FROM playback_progress p JOIN media_items m …` -/
def progressRows (user : AuthenticatedUser) (db : LibraryDb ρ) : List (ℕ × ProgressRow) :=
  (code.candidates db.others user.id).filterMap fun id =>
    (db.progress user.id id).map fun row => (id, row)

/-- The items of the response, from the rows and what else was read. -/
def itemsOf (rows : List (ℕ × ProgressRow)) (hidden accessible : ℕ → Bool) : List ProgressItem :=
  (rows.filter fun x => !hidden x.1 && accessible x.1).map fun x =>
    { id := x.1, progressSeconds := x.2.positionSeconds,
      progressDurationSeconds := x.2.durationSeconds, completed := x.2.completed }

/-- `ensure_current_shared_local_source_binding` -/
def ensureSharedBinding : Program (LibraryDb ρ) Unit ε Unit := do
  let ensure ← query fun db => code.ensureSharedSource db.others
  match ensure with
  | none =>
    let _ ← insert fun db => (code.bindUnassigned db.others).map fun others =>
      ({ db with others }, 0)
  | some f =>
    let _ ← insert fun db => (f db.others).map fun others => ({ db with others }, 1)
    let _ ← insert fun db => (code.bindUnassigned db.others).map fun others =>
      ({ db with others }, 0)

/-- The reads of `get_library_progress_state`, and its response. -/
def readProgressState (user : AuthenticatedUser) :
    Program (LibraryDb ρ) Unit ε (Option ProgressState) := do
  let keys ← query fun db => code.hiddenKeys db.others user.id
  let rows ← query fun db => (progressRows code user db, db.userCounter user.id)
  let accessible ← query fun db => code.accessible db.others user (rows.1.map Prod.fst)
  let hidden ← query fun db id => code.matchesHidden db.others id keys
  let counters ← query fun db => (db.globalCounter, db.userCounter user.id)
  return some
    { schemaVersion := "library-progress-state-v1"
      progressRevision := digest (tokenMessage user counters.1 counters.2)
      items := itemsOf rows.1 hidden accessible
      counterAtRows := rows.2 }

/-- `get_library_progress_state` -/
def getLibraryProgressState (user : AuthenticatedUser) :
    Program (LibraryDb ρ) Unit ε (Option ProgressState) := do
  ensureSharedBinding code
  readProgressState code digest user

/-- A transaction that writes progress rows of a user; the triggers bump the user's counter. -/
def writeRows (user : ℕ) (f : (ℕ → Option ProgressRow) → ℕ → Option ProgressRow)
    (db : LibraryDb ρ) : LibraryDb ρ :=
  { db with
    progress := Function.update db.progress user (f (db.progress user))
    userCounter := Function.update db.userCounter user (db.userCounter user + 1)
    seen := Function.update db.seen user
      (Function.update (db.seen user) (db.userCounter user + 1) (f (db.progress user))) }

/-- A request: the progress state of a user, or a write of progress rows. -/
inductive Request where
  | state (user : AuthenticatedUser)
  | write (user : ℕ) (f : (ℕ → Option ProgressRow) → ℕ → Option ProgressRow)

/-- The statements of a request. -/
def Request.program : Request → Program (LibraryDb ρ) Unit ε (Option ProgressState)
  | .state user => getLibraryProgressState code digest user
  | .write user f => do
    update (writeRows user f)
    commitNow
    return none

/-- Tables before any of the requests. -/
def initial (progress : ℕ → ℕ → Option ProgressRow) (userCounter : ℕ → ℕ) (globalCounter : ℕ)
    (others : ρ) : LibraryDb ρ :=
  { progress, userCounter, globalCounter, others, seen := fun user _ => progress user }

end

/-! ### What the commits keep -/

section

variable {ρ ε : Type} {code : LibraryCode ρ ε} {digest : String → String}

/-- The rows of every user are those seen under the current counter. -/
def Recorded (db : LibraryDb ρ) : Prop :=
  ∀ user, db.seen user (db.userCounter user) = db.progress user

/-- Commits leave the other tables and what was seen before, and counters do not fall. -/
structure Evolves (s s' : LibraryDb ρ) : Prop where
  others : s'.others = s.others
  global : s'.globalCounter = s.globalCounter
  counter : ∀ user, s.userCounter user ≤ s'.userCounter user
  seen : ∀ user c, c ≤ s.userCounter user → s'.seen user c = s.seen user c
  recorded : Recorded s → Recorded s'

theorem Evolves.refl (s : LibraryDb ρ) : Evolves s s :=
  ⟨rfl, rfl, fun _ => le_refl _, fun _ _ _ => rfl, id⟩

theorem Evolves.trans {s t u : LibraryDb ρ} (h : Evolves s t) (h' : Evolves t u) : Evolves s u where
  others := h'.others.trans h.others
  global := h'.global.trans h.global
  counter := fun user => (h.counter user).trans (h'.counter user)
  seen := fun user c hc => (h'.seen user c (hc.trans (h.counter user))).trans (h.seen user c hc)
  recorded := fun hr => h'.recorded (h.recorded hr)

theorem evolves_of_reflTransGen {s t : LibraryDb ρ} (h : Relation.ReflTransGen Evolves s t) :
    Evolves s t := by
  induction h with
  | refl => exact .refl s
  | tail _ hst ih => exact ih.trans hst

theorem evolves_of_later {s t : LibraryDb ρ} {w : Option (LibraryDb ρ)} (h : Later Evolves s w t) :
    Evolves s t :=
  h.rel Evolves.refl Evolves.trans

theorem evolves_writeRows (user : ℕ) (f : (ℕ → Option ProgressRow) → ℕ → Option ProgressRow)
    (db : LibraryDb ρ) : Evolves db (writeRows user f db) := by
  refine ⟨rfl, rfl, fun u => ?_, fun u c hc => ?_, fun hr u => ?_⟩ <;> by_cases hu : u = user
  · subst hu
    simp [writeRows]
  · simp [writeRows, hu]
  · subst hu
    have hne : c ≠ db.userCounter u + 1 := by omega
    simp [writeRows, hne]
  · simp [writeRows, hu]
  · subst hu
    simp [writeRows]
  · simpa [writeRows, hu] using hr u

/-- The other tables as the call sees them in its transaction. -/
def boundOthers (code : LibraryCode ρ ε) (others : ρ) : Except ε ρ :=
  match code.ensureSharedSource others with
  | none => code.bindUnassigned others
  | some f => (f others).bind code.bindUnassigned

/-- The items of a user from given rows. -/
def servedItems (code : LibraryCode ρ ε) (user : AuthenticatedUser) (bound : ρ)
    (rows : ℕ → Option ProgressRow) : List ProgressItem :=
  let found := (code.candidates bound user.id).filterMap fun id =>
    (rows id).map fun row => (id, row)
  itemsOf found (fun id => code.matchesHidden bound id (code.hiddenKeys bound user.id))
    (code.accessible bound user (found.map Prod.fst))

/-- The response carries the rows seen under the counter that its revision encodes. -/
structure Served (code : LibraryCode ρ ε) (digest : String → String) (user : AuthenticatedUser)
    (resp : ProgressState) (db : LibraryDb ρ) : Prop where
  counter : resp.counterAtRows ≤ db.userCounter user.id
  revision : resp.progressRevision = digest (tokenMessage user db.globalCounter resp.counterAtRows)
  items : ∃ bound, boundOthers code db.others = .ok bound ∧
    resp.items = servedItems code user bound (db.seen user.id resp.counterAtRows)

theorem Served.evolves {user : AuthenticatedUser} {resp : ProgressState} {s t : LibraryDb ρ}
    (h : Served code digest user resp s) (he : Evolves s t) : Served code digest user resp t := by
  obtain ⟨bound, hbound, hitems⟩ := h.items
  refine ⟨h.counter.trans (he.counter _), ?_, bound, ?_, ?_⟩
  · rw [he.global]
    exact h.revision
  · rw [he.others]
    exact hbound
  · rw [he.seen _ _ h.counter]
    exact hitems

/-- What a request returns. -/
def Returns (code : LibraryCode ρ ε) (digest : String → String) (request : Request)
    (result : Option ProgressState) (db : LibraryDb ρ) : Prop :=
  ∀ user resp, request = .state user → result = some resp → Served code digest user resp db

theorem ok_of_map {α β : Type} {x : Except ε α} {g : α → β} {y : β} (h : x.map g = .ok y) :
    ∃ a, x = .ok a ∧ g a = y := by
  cases x with
  | error e => cases h
  | ok a =>
    cases h
    exact ⟨a, rfl, rfl⟩

/-- The reads of the call, in the transaction that the binding has opened. -/
theorem readProgressState_meets {user : AuthenticatedUser} {s : LibraryDb ρ} {bound : ρ}
    (hs : Recorded s) (hbound : boundOthers code s.others = .ok bound) :
    Meets Evolves Evolves (Returns code digest (.state user)) (readProgressState code digest user)
      s (some { s with others := bound }) := by
  refine meets_query fun s₁ h₁ => ?_
  cases h₁
  refine meets_query fun s₂ h₂ => ?_
  cases h₂
  refine meets_query fun s₃ h₃ => ?_
  cases h₃
  refine meets_query fun s₄ h₄ => ?_
  cases h₄
  refine meets_query fun s₅ h₅ => ?_
  cases h₅
  refine meets_ret fun s₆ s₇ h₆ h₇ => ?_
  cases h₆
  rintro _ resp ⟨⟩ ⟨⟩
  refine Served.evolves ⟨le_refl _, rfl, bound, hbound, ?_⟩ (evolves_of_reflTransGen h₇)
  simp only [view_some, hs user.id]
  rfl

/-- **The state of a user is read under one lock**, whatever the others commit before. -/
theorem progressState_meets (user : AuthenticatedUser) {s : LibraryDb ρ} (hs : Recorded s) :
    Meets Evolves Evolves (Returns code digest (.state user))
      (getLibraryProgressState code digest user) s none := by
  rw [getLibraryProgressState, ensureSharedBinding, bind_assoc]
  refine meets_query fun s₁ h₁ => ?_
  have hs₁ := (evolves_of_later h₁).recorded hs
  rw [view_none]
  -- from its first write on the call holds the lock
  rcases hensure : code.ensureSharedSource s₁.others with _ | f
  · refine meets_insert fun s₂ u n h₂ hu => ?_
    have he := evolves_of_later h₂
    obtain ⟨bound, hbind, ⟨⟩⟩ := ok_of_map hu
    rw [view_none, he.others] at hbind
    refine readProgressState_meets (he.recorded hs₁) ?_
    rw [boundOthers, he.others, hensure]
    exact hbind
  · dsimp only
    rw [bind_assoc]
    refine meets_insert fun s₂ u n h₂ hu => ?_
    have he := evolves_of_later h₂
    obtain ⟨ensured, hwrite, ⟨⟩⟩ := ok_of_map hu
    rw [view_none, he.others] at hwrite
    refine meets_insert fun s₃ u n h₃ hu => ?_
    cases h₃
    obtain ⟨bound, hbind, ⟨⟩⟩ := ok_of_map hu
    rw [view_some] at hbind
    refine readProgressState_meets (he.recorded hs₁) ?_
    rw [boundOthers, he.others, hensure]
    simp only [hwrite]
    exact hbind

theorem writeRows_meets (user : ℕ) (f : (ℕ → Option ProgressRow) → ℕ → Option ProgressRow)
    (s : LibraryDb ρ) : Meets Evolves Evolves (Returns code digest (.write user f))
      (Request.program code digest (.write user f)) s none := by
  refine meets_update fun s₁ h₁ => ?_
  refine meets_commit (evolves_writeRows user f s₁) ?_
  refine meets_ret fun s₂ s₃ _ _ => ?_
  intro _ _ hrequest
  cases hrequest

theorem program_meets (request : Request) {s : LibraryDb ρ} (hs : Recorded s) :
    Meets Evolves Evolves (Returns code digest request) (request.program code digest) s none := by
  cases request with
  | state user => exact progressState_meets user hs
  | write user f => exact writeRows_meets user f s

/-- The texts of different counters differ. -/
theorem tokenMessage_inj {user : AuthenticatedUser} {global c c' : ℕ}
    (h : tokenMessage user global c = tokenMessage user global c') : c = c' := by
  have htext : toString c = toString c' := by
    -- the texts behind the counter go one by one
    unfold tokenMessage at h
    have h := (String.append_left_inj _).mp h
    have h := (String.append_left_inj _).mp h
    have h := (String.append_left_inj _).mp h
    have h := (String.append_left_inj _).mp h
    have h := (String.append_left_inj _).mp h
    exact (String.append_right_inj _).mp h
  have hdigits : Nat.toDigits 10 c = Nat.toDigits 10 c' := by
    have hlists := congrArg String.toList htext
    simpa only [Nat.toString_eq_ofList_toDigits, String.toList_ofList] using hlists
  calc c = Nat.ofDigitChars 10 (Nat.toDigits 10 c) 0 := Nat.ofDigitChars_ten_toDigits.symm
    _ = Nat.ofDigitChars 10 (Nat.toDigits 10 c') 0 := by rw [hdigits]
    _ = c' := Nat.ofDigitChars_ten_toDigits

/-- The library with the requests on it. -/
abbrev LibraryServer (ρ ε : Type) := Server ℕ (LibraryDb ρ) Unit ε (Option ProgressState)

/-- The law of the progress revisions that have been returned. -/
structure Current (digest : String → String) (requests : ℕ → Request) (global : ℕ)
    (srv : LibraryServer ρ ε) : Prop where
  revision : ∀ i user resp, requests i = .state user → srv.remaining i = .ret (some resp) →
    ∃ counter, resp.progressRevision = digest (tokenMessage user global counter) ∧
      counter ≤ resp.counterAtRows
  items : (∀ a b, digest a = digest b → a = b) → ∀ i j user resp resp',
    requests i = .state user → requests j = .state user →
    srv.remaining i = .ret (some resp) → srv.remaining j = .ret (some resp') →
    resp.progressRevision = resp'.progressRevision → resp.items = resp'.items

/-- **A progress revision is not newer than its items**, in every interleaving of calls of
`get_library_progress_state` with writes of progress: two responses of a user with the same revision
carry the same items, if the digest has no collisions. -/
theorem progress_revision_current (code : LibraryCode ρ ε) (digest : String → String)
    (progress : ℕ → ℕ → Option ProgressRow) (userCounter : ℕ → ℕ) (global : ℕ) (others : ρ)
    (requests : ℕ → Request) {srv : LibraryServer ρ ε}
    (hrun : Runs.Reach Server.step (fun _ _ => True)
      (Server.init (initial progress userCounter global others)
        fun i => (requests i).program code digest) srv) : Current digest requests global srv := by
  have hsound := Server.Sound.reach (R := fun _ => Evolves) (G := fun _ => Evolves)
    (Q := fun i => Returns code digest (requests i)) (fun _ _ _ _ _ h => h)
    (fun i => program_meets (requests i) fun _ => rfl) hrun
  have hevolves : Evolves (initial progress userCounter global others) srv.committed :=
    (hsound.chain.invariant (P := Evolves (initial progress userCounter global others)) (.refl _)
      fun c hc h => h.trans (hsound.guarantee c hc)).1
  have hserved : ∀ i user resp, requests i = .state user → srv.remaining i = .ret (some resp) →
      Served code digest user resp srv.committed := by
    intro i user resp hi hret
    have hm := hsound.meets i
    rw [hret] at hm
    exact hm.returned user resp hi rfl
  refine ⟨fun i user resp hi hret => ?_,
    fun hdigest i j user resp resp' hi hj hret hret' hrev => ?_⟩
  · have h := hserved i user resp hi hret
    exact ⟨resp.counterAtRows, by rw [h.revision, hevolves.global]; rfl, le_refl _⟩
  · have h := hserved i user resp hi hret
    have h' := hserved j user resp' hj hret'
    have hcounter : resp.counterAtRows = resp'.counterAtRows :=
      tokenMessage_inj (hdigest _ _ (h.revision.symm.trans (hrev.trans h'.revision)))
    obtain ⟨bound, hbound, hitems⟩ := h.items
    obtain ⟨bound', hbound', hitems'⟩ := h'.items
    rw [hbound, Except.ok.injEq] at hbound'
    rw [hitems, hitems', hcounter, hbound']

end

/-! ### A write between two calls -/

/-- A library of the items 1 and 2, none of them hidden or restricted. -/
def sampleCode : LibraryCode Unit Unit where
  ensureSharedSource _ := none
  bindUnassigned others := .ok others
  hiddenKeys _ _ := []
  candidates _ _ := [1, 2]
  matchesHidden _ _ _ := false
  accessible _ _ _ _ := true

def sampleUser : AuthenticatedUser :=
  { id := 5, username := "user", role := .standardUser, enabled := true,
    assistantBetaEnabled := false,
    ageCredential := 18, sessionId := none }

/-- Call 1 saves ten seconds of item 1, the others ask for the state of the user. -/
def sampleRequests (i : ℕ) : Request :=
  if i = 1 then .write 5 fun rows => Function.update rows 1
    (some { positionSeconds := 10, durationSeconds := none, watchSecondsTotal :=
        10, completed := false,
            updatedAt := 0 })
  else .state sampleUser

/-- The write runs while call 0 has not begun its transaction; call 2 comes after both. -/
def sampleSchedule : List (Turn ℕ Unit) :=
  .run 0 () :: List.replicate 2 (.run 1 ()) ++ List.replicate 6 (.run 0 ()) ++
    List.replicate 7 (.run 2 ())

/-- The items of a request that has returned. -/
def returnedItems (p : Program (LibraryDb Unit) Unit Unit (Option ProgressState)) :
    Option (List ProgressItem) :=
  match p with
  | .ret (some resp) => some resp.items
  | _ => none

theorem progress_revision_current_after_write :
    ∃ srv, Runs.runFrom Server.step (Server.init (initial (fun _ _ => none) (fun _ => 3) 0 ())
        fun i => (sampleRequests i).program sampleCode id) sampleSchedule = some srv ∧
      (returnedItems (srv.remaining 0)).map List.length = some 1 ∧
      returnedItems (srv.remaining 0) = returnedItems (srv.remaining 2) ∧
      Current id sampleRequests 0 srv := by
  have hrun : ((Runs.runFrom Server.step (Server.init (initial (fun _ _ => none) (fun _ => 3) 0 ())
      fun i => (sampleRequests i).program sampleCode id) sampleSchedule).any fun srv =>
        decide ((returnedItems (srv.remaining 0)).map List.length = some 1) &&
          decide (returnedItems (srv.remaining 0) = returnedItems (srv.remaining 2))) = true := by
    decide +kernel
  obtain ⟨srv, hsrv, hprop⟩ := (Option.any_eq_true _ _).mp hrun
  rw [Bool.and_eq_true, decide_eq_true_eq, decide_eq_true_eq] at hprop
  exact ⟨srv, hsrv, hprop.1, hprop.2,
    progress_revision_current sampleCode id _ _ 0 () sampleRequests (Runs.reach_of_runFrom hsrv)⟩

end ProgressRevision
