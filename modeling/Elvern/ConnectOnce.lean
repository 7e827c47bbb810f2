/-
An operation connects an account once.

The requests of `GoogleConnect` run interleaved, statement by statement, with logouts between them.
The rows they read before their first write may be out of date when they write, but every change of
a status names the status that it starts from.

* `Lawful` — what a commit does to the operations: a status only moves on, and the last ones stay;
* `request_meets` — every request keeps to it, and a callback writes an account only in the
  transaction that takes a pending operation of its owner to `connected`;
* `connected_once` — what follows for every interleaving: an operation is connected by at most one
  callback, however often its state token is presented, and never after it was cancelled, failed, or
  expired;
* `cancelled_replacement_applied` — a confirmation does not look at the row count of its last write.
-/
import Elvern.GoogleConnect

open Tables Statements Statements.Program PyText

namespace GoogleConnect

/-- A request, or the logout of a session. -/
inductive Call where
  | connect (userId authSessionId : ℕ) (operationId : String)
  | operationPayload (userId authSessionId : ℕ) (operationId : String)
  | cancelOperation (userId authSessionId : ℕ) (operationId : String)
  | complete (stateToken : String)
  | cancelConnect (stateToken : String)
  | failConnect (stateToken message : String)
  | candidatePayload (userId authSessionId : ℕ) (operationId : String)
  | cancelCandidate (userId authSessionId : ℕ) (operationId : String)
  | confirmCandidate (userId authSessionId : ℕ) (operationId : String)
  | logout (authSessionId : ℕ)

/-- The logout of a session. -/
def logoutSession (authSessionId : ℕ) : Request Unit := do
  let clock ← input
  update fun db => db.revokeSession authSessionId clock.now
  commitNow

/-- The statements of a call. -/
def Call.request (env : AuthEnv) : Call → Request (Option Status)
  | .connect userId sessionId operationId => do
    let status ← GoogleConnect.connect env userId sessionId operationId
    .ret (some status)
  | .operationPayload userId sessionId operationId => do
    let status ← GoogleConnect.operationPayload env userId sessionId operationId
    .ret (some status)
  | .cancelOperation userId sessionId operationId => do
    let status ← GoogleConnect.cancelOperation env userId sessionId operationId
    .ret (some status)
  | .complete stateToken => do
    let status ← GoogleConnect.complete env stateToken
    .ret (some status)
  | .cancelConnect stateToken => do
    GoogleConnect.cancelConnect env stateToken
    .ret none
  | .failConnect stateToken message => do
    GoogleConnect.failConnect env stateToken message
    .ret none
  | .candidatePayload userId sessionId operationId => do
    let _ ← loadActiveCandidate env userId sessionId operationId
    .ret none
  | .cancelCandidate userId sessionId operationId => do
    let status ← GoogleConnect.cancelCandidate env userId sessionId operationId
    .ret (some status)
  | .confirmCandidate userId sessionId operationId => do
    let status ← GoogleConnect.confirmCandidate env userId sessionId operationId
    .ret (some status)
  | .logout sessionId => do
    logoutSession sessionId
    .ret none

/-- The statuses that can follow. -/
def Status.Leads (a b : Status) : Prop :=
  a = b ∨ a = .pending ∨
    (a = .accountMismatch ∧ (b = .connected ∨ b = .cancelled ∨ b = .expired))

theorem Status.Leads.trans {a b c : Status} (h : a.Leads b) (h' : b.Leads c) : a.Leads c := by
  rcases h with rfl | rfl | ⟨rfl, hb⟩
  · exact h'
  · exact .inr (.inl rfl)
  · rcases h' with rfl | rfl | ⟨rfl, -⟩
    · exact .inr (.inr ⟨rfl, hb⟩)
    · rcases hb with hb | hb | hb <;> cases hb
    · rcases hb with hb | hb | hb <;> cases hb

/-- A status other than `pending` does not become `pending`, and `connected` stays. -/
theorem Status.Leads.of_connected {b : Status} (h : Status.connected.Leads b) : b = .connected := by
  rcases h with rfl | h | ⟨h, -⟩
  · rfl
  · cases h
  · cases h

/-- Whom an operation belongs to. -/
def OperationRow.owner (r : OperationRow) : ℕ × ℕ × String :=
  (r.userId, r.authSessionId, r.operationIdHash)

/-- The operations after a commit, or after the first writes of a transaction. -/
structure Lawful (s u : ConnectDb) : Prop where
  seq : s.operations.seq ≤ u.operations.seq
  old : ∀ op' ∈ u.operations.rows, op'.id ≤ s.operations.seq →
    ∃ op ∈ s.operations.rows, op.id = op'.id ∧ op.owner = op'.owner ∧ op.status.Leads op'.status

/-- The accounts of a user. -/
def accountsOf (db : ConnectDb) (userId : ℕ) : List AccountRow :=
  db.accounts.rows.filter fun r => r.userId == userId

/-- What a commit of a call may do to the accounts. -/
def Call.Grants (s u : ConnectDb) : Call → Prop
  | .complete _ => ∀ v, accountsOf u v ≠ accountsOf s v →
      ∃ op ∈ s.operations.rows, op.userId = v ∧ op.status = .pending ∧
        ∃ op' ∈ u.operations.rows, op'.id = op.id ∧ op'.status = .connected
  | .confirmCandidate userId _ _ => ∀ v, v ≠ userId → accountsOf u v = accountsOf s v
  | _ => ∀ v, accountsOf u v = accountsOf s v

/-- The guarantee of a call. -/
def Guarantee (call : Call) (s u : ConnectDb) : Prop := Lawful s u ∧ call.Grants s u

variable {s s' u t : ConnectDb} {now : Time}

/-! ### The operations after a write -/

theorem Lawful.refl (s : ConnectDb) : Lawful s s where
  seq := le_rfl
  old op' hop' _ := ⟨op', hop', rfl, rfl, .inl rfl⟩

theorem Lawful.trans (h : Lawful s u) (h' : Lawful u t) : Lawful s t where
  seq := h.seq.trans h'.seq
  old op'' hop'' hle := by
    obtain ⟨op', hop', hid', howner', hleads'⟩ := h'.old op'' hop'' (hle.trans h.seq)
    obtain ⟨op, hop, hid, howner, hleads⟩ := h.old op' hop' (hid' ▸ hle)
    exact ⟨op, hop, hid.trans hid', howner.trans howner', hleads.trans hleads'⟩

/-- What a request finds later. -/
theorem lawful_of_later {w : Option ConnectDb} (h : Later Lawful s w s') : Lawful s s' :=
  h.rel Lawful.refl fun h₁ h₂ => h₁.trans h₂

theorem Lawful.of_operations (h : u.operations = s.operations) : Lawful s u := by
  refine ⟨by rw [h], fun op' hop' _ => ⟨op', ?_, rfl, rfl, .inl rfl⟩⟩
  rwa [h] at hop'

/-- An update that names the status it starts from. -/
theorem lawful_updateOperations {p : OperationRow → Bool} {f : OperationRow → OperationRow}
    {hf : ∀ r, (f r).id = r.id} (howner : ∀ r, (f r).owner = r.owner)
    (hleads : ∀ r, p r = true → r.status.Leads (f r).status) :
    Lawful s (s.updateOperations p f hf).1 where
  seq := le_rfl
  old op' hop' _ := by
    obtain ⟨op, hop, rfl⟩ := List.mem_map.mp hop'
    refine ⟨op, hop, ?_⟩
    split
    · next hp => exact ⟨(hf op).symm, (howner op).symm, hleads op hp⟩
    · exact ⟨rfl, rfl, .inl rfl⟩

theorem lawful_expireOperations : Lawful s (s.expireOperations now).1 := by
  refine lawful_updateOperations (fun _ => rfl) fun r hp => ?_
  rw [Bool.and_eq_true, Bool.or_eq_true, beq_iff_eq, beq_iff_eq] at hp
  rcases hp.1 with hp | hp
  · exact .inr (.inl hp)
  · exact .inr (.inr ⟨hp, .inr (.inr rfl)⟩)

theorem lawful_deleteStaleCandidates : Lawful s (s.deleteStaleCandidates now) where
  seq := le_rfl
  old op' hop' _ := by
    obtain ⟨op, hop, rfl⟩ := List.mem_map.mp hop'
    refine ⟨op, hop, ?_⟩
    split <;> exact ⟨rfl, rfl, .inl rfl⟩

theorem lawful_deleteStaleOperations : Lawful s (s.deleteStaleOperations now) where
  seq := le_rfl
  old op' hop' _ := ⟨op', (AutoTable.mem_deleteWhere.mp hop').1, rfl, rfl, .inl rfl⟩

theorem lawful_insertOperation {userId sessionId n : ℕ} {hash : String}
    (h : s.insertOperation userId sessionId hash now = .ok (u, n)) : Lawful s u := by
  unfold ConnectDb.insertOperation at h
  split at h
  · cases h
  · cases h
    refine ⟨Nat.le_succ _, fun op' hop' hle => ?_⟩
    rcases AutoTable.mem_insert.mp hop' with hold | rfl
    · exact ⟨op', hold, rfl, rfl, .inl rfl⟩
    · exact absurd hle (Nat.not_succ_le_self _)

/-- A cancellation or a failure of pending operations, or a cancellation of mismatched ones. -/
theorem lawful_cancelOperations {p : OperationRow → Bool}
    (hp : ∀ r, p r = true → r.status = .pending ∨ r.status = .accountMismatch) :
    Lawful s (s.cancelOperations p now).1 := by
  refine lawful_updateOperations (fun _ => rfl) fun r hr => ?_
  rcases hp r hr with hr | hr
  · exact .inr (.inl hr)
  · exact .inr (.inr ⟨hr, .inr (.inl rfl)⟩)

theorem lawful_failOperations {p : OperationRow → Bool} {message : String}
    (hp : ∀ r, p r = true → r.status = .pending) : Lawful s (s.failOperations p message now).1 :=
  lawful_updateOperations (fun _ => rfl) fun r hr => .inr (.inl (hp r hr))

theorem lawful_markMismatch {st : StateRow} {candidateId : ℕ} :
    Lawful s (s.markMismatch st candidateId now).1 := by
  refine lawful_updateOperations (fun _ => rfl) fun r hr => ?_
  rw [Bool.and_eq_true, beq_iff_eq] at hr
  exact .inr (.inl hr.2)

theorem lawful_markConnected {id : ℕ} {status : Status} {candidateId : Option ℕ}
    (hstatus : status = .pending ∨ status = .accountMismatch) :
    Lawful s (s.markConnected id status candidateId now).1 := by
  refine lawful_updateOperations (fun _ => rfl) fun r hr => ?_
  rw [Bool.and_eq_true, beq_iff_eq, beq_iff_eq] at hr
  rcases hstatus with rfl | rfl
  · exact .inr (.inl hr.2)
  · exact .inr (.inr ⟨hr.2, .inl rfl⟩)

/-! ### The accounts after a write -/

/-- The accounts that an upsert leaves alone. -/
theorem accountsOf_upsertAccount {userId v : ℕ} {subjectHash refreshToken accessToken : String}
    (hv : v ≠ userId) :
    accountsOf (s.upsertAccount userId subjectHash refreshToken accessToken now) v =
        accountsOf s v := by
  unfold ConnectDb.upsertAccount
  split
  · show (s.accounts.rows.map _).filter _ = s.accounts.rows.filter _
    rw [List.filter_map, List.filter_congr fun r _ => ?_]
    · refine (List.map_congr_left fun r hr => ?_).trans (List.map_id _)
      have hrv : r.userId = v := by simpa using (List.mem_filter.mp hr).2
      rw [if_neg (by simpa [hrv] using hv)]
      rfl
    · simp only [Function.comp]
      split <;> rfl
  · show (s.accounts.rows ++ [_]).filter _ = s.accounts.rows.filter _
    have hother : (userId == v) = false := by simpa using Ne.symm hv
    rw [List.filter_append, List.filter_singleton]
    show _ ++ (bif userId == v then _ else []) = _
    rw [hother, cond_false, List.append_nil]

theorem operations_upsertAccount {userId : ℕ} {subjectHash refreshToken accessToken : String} :
    (s.upsertAccount userId subjectHash refreshToken accessToken now).operations =
    s.operations := by
  unfold ConnectDb.upsertAccount
  split <;> rfl

/-- The first writes of a transaction that do not touch the accounts. -/
structure Tidy (s u : ConnectDb) : Prop where
  lawful : Lawful s u
  accounts : u.accounts = s.accounts

theorem Tidy.trans (h : Tidy s u) (h' : Tidy u t) : Tidy s t :=
  ⟨h.lawful.trans h'.lawful, h'.accounts.trans h.accounts⟩

theorem Tidy.of_operations (h : u.operations = s.operations) (haccounts : u.accounts = s.accounts) :
    Tidy s u := ⟨.of_operations h, haccounts⟩

theorem Tidy.accountsOf (h : Tidy s u) (v : ℕ) : accountsOf u v = accountsOf s v := by
  rw [GoogleConnect.accountsOf, GoogleConnect.accountsOf, h.accounts]

/-- A transaction that leaves the accounts alone is in the guarantee of every call. -/
theorem Tidy.guarantee (h : Tidy s u) (call : Call) : Guarantee call s u := by
  refine ⟨h.lawful, ?_⟩
  cases call with
  | complete stateToken => exact fun v hv => absurd (h.accountsOf v) hv
  | confirmCandidate userId sessionId operationId => exact fun v _ => h.accountsOf v
  | connect | operationPayload | cancelOperation | cancelConnect | failConnect | candidatePayload
  | cancelCandidate | logout => exact h.accountsOf

/-! ### What the requests commit -/

section Meets

variable {α : Type} {call : Call}

abbrev Keeps (call : Call) (p : Request α) (s : ConnectDb) (w : Option ConnectDb) : Prop :=
  Meets Lawful (Guarantee call) (fun _ _ => True) p s w

theorem keeps_ret {a : α} {w : Option ConnectDb} : Keeps call (.ret a) s w :=
  meets_ret fun _ _ _ _ => trivial

/-- A write in a transaction that is open. -/
theorem keeps_update {f : ConnectDb → ConnectDb} {k : Unit → Request α}
    (h : Keeps call (k ()) s (some (f u))) : Keeps call (update f >>= k) s (some u) :=
  meets_update fun s₁ hs => by
    cases hs
    exact h

theorem keeps_counted {f : ConnectDb → ConnectDb × ℕ} {k : ℕ → Request α}
    (h : Keeps call (k (f u).2) s (some (f u).1)) : Keeps call (counted f >>= k) s (some u) :=
  meets_insert fun s₁ u₁ n hs hu => by
    cases hs
    obtain ⟨rfl, rfl⟩ : (f u).1 = u₁ ∧ (f u).2 = n := by
      simpa only [view_some, Except.ok.injEq, Prod.ext_iff] using hu
    exact h

theorem keeps_insert {f : ConnectDb → Except PyError (ConnectDb × ℕ)} {k : ℕ → Request α}
    (h : ∀ u' n, f u = .ok (u', n) → Keeps call (k n) s (some u')) :
    Keeps call (insert f >>= k) s (some u) :=
  meets_insert fun s₁ u₁ n hs hu => by
    cases hs
    exact h u₁ n hu

/-- A read in a transaction that is open. -/
theorem keeps_query {β : Type} {f : ConnectDb → β} {k : β → Request α}
    (h : Keeps call (k (f u)) s (some u)) : Keeps call (query f >>= k) s (some u) :=
  meets_query fun s₁ hs => by
    cases hs
    exact h

/-- The cleanup opens a transaction. -/
theorem keeps_cleanup {k : Unit → Request α}
    (h : ∀ s' u, Lawful s s' → Tidy s' u → Keeps call (k ()) s' (some u)) :
    Keeps call (cleanup now >>= k) s none := by
  simp only [cleanup, bind_assoc]
  refine meets_insert fun s₁ u₁ n hs hu => ?_
  cases hu
  refine keeps_update (keeps_update (keeps_update ?_))
  have hexpire : Tidy s₁ (s₁.expireOperations now).1 := ⟨lawful_expireOperations, rfl⟩
  refine h s₁ _ (lawful_of_later hs) (hexpire.trans ?_)
  have hstates : Tidy (s₁.expireOperations now).1
      ((s₁.expireOperations now).1.deleteExpiredStates now) :=
    .of_operations rfl rfl
  refine hstates.trans ?_
  have hcandidates : Tidy ((s₁.expireOperations now).1.deleteExpiredStates now)
      (((s₁.expireOperations now).1.deleteExpiredStates now).deleteStaleCandidates now) :=
    ⟨lawful_deleteStaleCandidates, rfl⟩
  exact hcandidates.trans ⟨lawful_deleteStaleOperations, rfl⟩

/-- A read outside a transaction. -/
theorem keeps_read {β : Type} {f : ConnectDb → β} {k : β → Request α}
    (h : ∀ s', Keeps call (k (f s')) s' none) : Keeps call (query f >>= k) s none :=
  meets_query fun s' _ => h s'

theorem keeps_input {k : Input → Request α} (h : ∀ s' x, Keeps call (k x) s' none) :
    Keeps call (input >>= k) s none :=
  meets_input fun s' x _ => h s' x

/-- The first write of a transaction. -/
theorem keeps_begin {f : ConnectDb → ConnectDb} {k : Unit → Request α}
    (h : ∀ s', Keeps call (k ()) s' (some (f s'))) : Keeps call (update f >>= k) s none :=
  meets_update fun s' _ => h s'

theorem keeps_begin_counted {f : ConnectDb → ConnectDb × ℕ} {k : ℕ → Request α}
    (h : ∀ s', Keeps call (k (f s').2) s' (some (f s').1)) : Keeps call (counted f >>= k) s none :=
  meets_insert fun s' u₁ n _ hu => by
    obtain ⟨rfl, rfl⟩ : (f s').1 = u₁ ∧ (f s').2 = n := by
      simpa only [view_none, Except.ok.injEq, Prod.ext_iff] using hu
    exact h s'

/-- A transaction that has left the accounts alone ends, and the request returns. -/
theorem keeps_end {a : α} (h : Tidy s u) : Keeps call (commitNow >>= fun _ => .ret a) s (some u) :=
  meets_commit (h.guarantee call) keeps_ret

variable {env : AuthEnv} {userId sessionId : ℕ} {operationId stateToken : String}

theorem connect_keeps : Keeps call (connect env userId sessionId operationId) s none := by
  unfold connect
  split
  · exact meets_raise
  refine keeps_input fun s₁ clock => keeps_cleanup fun s₂ u _ hu => keeps_query ?_
  split
  · exact meets_raise
  refine keeps_update (keeps_insert fun u₁ n hu₁ => keeps_insert fun u₂ m hu₂ => keeps_end ?_)
  have hoperations :
      Tidy (u.deleteStatesOf sessionId (hashGoogleOauthOperation env operationId)) u₁ := by
    refine ⟨lawful_insertOperation hu₁, ?_⟩
    unfold ConnectDb.insertOperation at hu₁
    split at hu₁ <;> cases hu₁
    rfl
  have hstates : Tidy u₁ u₂ := by
    unfold ConnectDb.insertState at hu₂
    split at hu₂ <;> cases hu₂
    exact .of_operations rfl rfl
  have hdeleted : Tidy u (u.deleteStatesOf sessionId (hashGoogleOauthOperation env operationId)) :=
    .of_operations rfl rfl
  exact hu.trans (hdeleted.trans (hoperations.trans hstates))

theorem operationPayload_keeps :
    Keeps call (operationPayload env userId sessionId operationId) s none := by
  refine keeps_input fun s₁ clock => keeps_cleanup fun s₂ u _ hu => keeps_query ?_
  refine meets_commit (hu.guarantee call) ?_
  split
  · exact meets_raise
  · exact keeps_ret

theorem cancelOperation_keeps :
    Keeps call (cancelOperation env userId sessionId operationId) s none := by
  refine keeps_input fun s₁ clock => keeps_cleanup fun s₂ u _ hu => keeps_query ?_
  split
  · exact meets_raise
  split
  · exact keeps_end hu
  refine keeps_counted (keeps_update (keeps_update (keeps_end (hu.trans ?_))))
  refine Tidy.trans ⟨lawful_cancelOperations fun r hr => ?_, rfl⟩ (.of_operations rfl rfl)
  rw [Bool.and_eq_true, Bool.or_eq_true, beq_iff_eq, beq_iff_eq, beq_iff_eq] at hr
  exact hr.2

/-- `endConnect` ends only operations that are pending. -/
theorem endConnect_keeps {mark : (OperationRow → Bool) → Time → ConnectDb → ConnectDb × ℕ}
    (hmark : ∀ p now (db : ConnectDb), (∀ r, p r = true → r.status = .pending) →
      Tidy db (mark p now db).1) :
    Keeps call (endConnect env stateToken mark) s none := by
  unfold endConnect
  split
  · exact keeps_ret
  refine keeps_input fun s₁ clock => keeps_read fun s₂ => ?_
  split
  · exact keeps_begin fun s₃ => keeps_end (.of_operations rfl rfl)
  refine keeps_begin_counted fun s₃ => keeps_update (keeps_end ?_)
  refine (hmark _ _ s₃ fun r hr => ?_).trans (.of_operations rfl rfl)
  rw [Bool.and_eq_true, beq_iff_eq] at hr
  exact hr.2

theorem failConnect_keeps {stateToken message : String} :
    Keeps call (GoogleConnect.failConnect env stateToken message) s none := by
  unfold GoogleConnect.failConnect
  exact endConnect_keeps fun p now db hp => ⟨lawful_failOperations hp, rfl⟩

/-- What a callback writes for the owner `st.userId` of a pending operation. -/
theorem guarantee_connectAccount {st : StateRow}
    {stateHash subjectHash refreshToken accessToken : String}
    {validated : Time} {operation : OperationRow} {accountId : ℕ} {checked : List ℕ}
    {accessible : ℕ → Bool}
    (hread : s.activeOperation st validated = some operation) (hlater : Lawful s s')
    (hcount : ((((s'.upsertAccount st.userId subjectHash refreshToken accessToken
      now).applySourceValidation st.userId accountId subjectHash checked accessible).markConnected
        operation.id .pending none now).2) = 1) :
    Guarantee (.complete stateToken) s'
      (((((s'.upsertAccount st.userId subjectHash refreshToken accessToken
        now).applySourceValidation st.userId accountId subjectHash checked accessible).markConnected
          operation.id .pending none now).1).deleteState stateHash) := by
  have hupsert : (s'.upsertAccount st.userId subjectHash refreshToken accessToken now).operations =
      s'.operations :=
    operations_upsertAccount
  obtain ⟨hmem, hnames⟩ := AutoTable.mem_of_find hread
  refine ⟨?_, fun v hv => ?_⟩
  · have hvalidated : Lawful s' ((s'.upsertAccount st.userId subjectHash refreshToken
        accessToken now).applySourceValidation st.userId accountId subjectHash
            checked accessible) :=
      .of_operations hupsert
    have hmark :=
      hvalidated.trans (@lawful_markConnected _ now operation.id .pending none (.inl rfl))
    exact hmark.trans (.of_operations rfl)
  -- Only the accounts of the owner change.
  have hv' : v = st.userId := by
    by_contra hne
    exact hv (accountsOf_upsertAccount hne)
  subst hv'
  -- The row that the last update has found is the operation read before, which is the owner's.
  obtain ⟨op, hfound⟩ := List.length_eq_one_iff.mp hcount
  obtain ⟨hin, hkey⟩ := List.mem_filter.mp (hfound ▸ List.mem_singleton_self op)
  have hop : op ∈ s'.operations.rows := hupsert ▸ hin
  rw [Bool.and_eq_true, beq_iff_eq, beq_iff_eq] at hkey
  obtain ⟨hid, hpending⟩ := hkey
  obtain ⟨op₀, hop₀, hid₀, howner, -⟩ := hlater.old op hop (hid ▸ s.operations.keys_le _ hmem)
  have heq : op₀ = operation := s.operations.key_inj hop₀ hmem (hid₀.trans hid)
  subst heq
  have huser : op₀.userId = st.userId := by
    simp only [ConnectDb.names, Bool.and_eq_true, beq_iff_eq] at hnames
    exact hnames.1.1.1.1
  refine ⟨op, hop, (congrArg Prod.fst howner).symm.trans huser, hpending,
    { op with status := .connected, updatedAt := now, completedAt := some now
              candidateId := none.orElse fun _ => op.candidateId }, ?_, rfl, rfl⟩
  refine List.mem_map.mpr ⟨op, hupsert.symm ▸ hop, ?_⟩
  rw [if_pos (by simp [hid, hpending])]

/-- The account is written only in the transaction that ends a pending operation of its user. -/
theorem connectAccount_keeps {st : StateRow}
    {stateHash subjectHash refreshToken accessToken : String} {existing : Option AccountRow} :
    Keeps (.complete stateToken)
      (connectAccount st stateHash subjectHash refreshToken accessToken now existing) s none := by
  refine keeps_read fun s₁ => keeps_input fun s₂ validation => meets_query fun s₃ _ => ?_
  rcases hoperation : (view s₃ none).activeOperation st validation.now with _ | operation
  · exact meets_raise
  refine meets_update fun s₄ h₄ => keeps_query ?_
  split
  · exact meets_raise
  refine keeps_update (keeps_counted ?_)
  split
  · exact meets_raise
  next account _ hcount =>
    refine keeps_update (meets_commit ?_ keeps_ret)
    exact guarantee_connectAccount hoperation (lawful_of_later h₄) (not_not.mp hcount)

theorem complete_keeps : Keeps (.complete stateToken) (complete env stateToken) s none := by
  refine keeps_input fun s₁ clock => keeps_read fun s₂ => ?_
  split
  · exact meets_raise
  refine keeps_input fun s₃ reply => ?_
  split
  · exact meets_raise
  split
  · exact meets_raise
  split
  · exact meets_raise
  refine keeps_read fun s₄ => ?_
  split
  · exact meets_raise
  refine keeps_read fun s₅ => keeps_read fun s₆ => ?_
  dsimp only
  split
  · exact meets_raise
  split
  · -- The callback found another account than the one before.
    refine keeps_begin fun s₇ => keeps_counted (keeps_counted ?_)
    split
    · exact meets_raise
    refine keeps_update (keeps_end ?_)
    refine Tidy.trans (.of_operations rfl rfl) (Tidy.trans ⟨lawful_markMismatch, rfl⟩
      (.of_operations rfl rfl))
  · exact connectAccount_keeps

/-- The candidate that a request has found may be out of date when the request goes on. -/
theorem keeps_loadActiveCandidate {k : CandidateRow × Time → Request α}
    (h : ∀ s' x, Keeps call (k x) s' none) :
    Keeps call (loadActiveCandidate env userId sessionId operationId >>= k) s none := by
  simp only [loadActiveCandidate, bind_assoc]
  refine keeps_input fun s₁ clock => keeps_cleanup fun s₂ u _ hu => keeps_query ?_
  refine meets_commit (hu.guarantee call) ?_
  split
  · exact meets_raise
  · exact h _ _

theorem cancelCandidate_keeps :
    Keeps call (cancelCandidate env userId sessionId operationId) s none := by
  refine keeps_loadActiveCandidate fun s₁ loaded => keeps_input fun s₂ clock => ?_
  refine keeps_begin fun s₃ => keeps_counted (keeps_end ?_)
  refine ⟨Lawful.trans ?_ (lawful_cancelOperations fun r hr => ?_), rfl⟩
  · exact .of_operations rfl
  · rw [Bool.and_eq_true, beq_iff_eq] at hr
    exact .inr hr.2

/-- A confirmation writes the account of the user who confirms. -/
theorem confirmCandidate_keeps :
    Keeps (.confirmCandidate userId sessionId operationId)
      (confirmCandidate env userId sessionId operationId) s none := by
  refine keeps_loadActiveCandidate fun s₁ loaded => ?_
  dsimp only
  split
  · exact meets_raise
  refine keeps_read fun s₂ => keeps_read fun s₃ => keeps_input fun s₄ validation =>
    keeps_read fun s₅ => ?_
  split
  · exact meets_raise
  refine keeps_begin fun s₆ => keeps_query ?_
  split
  · exact meets_raise
  refine keeps_update (keeps_update (keeps_counted (meets_commit ⟨?_, fun v hv => ?_⟩ keeps_ret)))
  · refine Lawful.trans ?_ (lawful_markConnected (.inr rfl))
    exact .of_operations operations_upsertAccount
  · exact accountsOf_upsertAccount hv

/-- **A call commits only what its guarantee allows**, whatever the others commit between its
statements. -/
theorem request_meets (env : AuthEnv) (call : Call) (s : ConnectDb) :
    Meets Lawful (Guarantee call) (fun _ _ => True) (call.request env) s none := by
  cases call with
  | connect userId sessionId operationId => exact meets_bind (fun _ _ _ => keeps_ret) connect_keeps
  | operationPayload userId sessionId operationId =>
    exact meets_bind (fun _ _ _ => keeps_ret) operationPayload_keeps
  | cancelOperation userId sessionId operationId =>
    exact meets_bind (fun _ _ _ => keeps_ret) cancelOperation_keeps
  | complete stateToken => exact meets_bind (fun _ _ _ => keeps_ret) complete_keeps
  | cancelConnect stateToken =>
    refine meets_bind (fun _ _ _ => keeps_ret) (endConnect_keeps fun p now db hp => ?_)
    exact ⟨lawful_cancelOperations fun r hr => .inl (hp r hr), rfl⟩
  | failConnect stateToken message => exact meets_bind (fun _ _ _ => keeps_ret) failConnect_keeps
  | candidatePayload userId sessionId operationId =>
    exact keeps_loadActiveCandidate fun _ _ => keeps_ret
  | cancelCandidate userId sessionId operationId =>
    exact meets_bind (fun _ _ _ => keeps_ret) cancelCandidate_keeps
  | confirmCandidate userId sessionId operationId =>
    exact meets_bind (fun _ _ _ => keeps_ret) confirmCandidate_keeps
  | logout sessionId =>
    simp only [Call.request, logoutSession, bind_assoc]
    exact keeps_input fun s₁ clock => keeps_begin fun s₂ => keeps_end (.of_operations rfl rfl)

end Meets

/-! ### Every interleaving -/

/-- The database with the calls on it. -/
abbrev ConnectServer := Server ℕ ConnectDb Input PyError (Option Status)

/-- All calls before their first statement. -/
def start (env : AuthEnv) (db : ConnectDb) (calls : ℕ → Call) : ConnectServer :=
  Server.init db fun i => (calls i).request env

/-- An operation with this id is connected. -/
def isConnected (id : ℕ) (db : ConnectDb) : Bool :=
  db.operations.rows.any fun r => r.id == id && r.status == .connected

/-- A commit that connects the operation. -/
def connects (id : ℕ) (c : ℕ × ConnectDb × ConnectDb) : Bool :=
  isConnected id c.2.2 && !isConnected id c.2.1

/-- The law of the operations over the commits so far. -/
structure ConnectedOnce (calls : ℕ → Call) (srv : ConnectServer) : Prop where
  moves : ∀ c ∈ srv.history, ∀ op ∈ c.2.2.operations.rows, ∀ op' ∈ srv.committed.operations.rows,
    op'.id = op.id → op.owner = op'.owner ∧ op.status.Leads op'.status
  once : ∀ id, (srv.history.filter (connects id)).length ≤ 1
  granted : ∀ c ∈ srv.history, (calls c.1).Grants c.2.1 c.2.2

theorem isConnected_iff {id : ℕ} :
    isConnected id s = true ↔ ∃ op ∈ s.operations.rows, op.id = id ∧ op.status = .connected := by
  simp [isConnected]

/-- An operation that is found later was there before. -/
theorem Lawful.row (h : Lawful s u) {op op' : OperationRow} (hop : op ∈ s.operations.rows)
    (hop' : op' ∈ u.operations.rows) (hid : op'.id = op.id) :
    op.owner = op'.owner ∧ op.status.Leads op'.status := by
  obtain ⟨op₀, hop₀, hid₀, howner, hleads⟩ := h.old op' hop' (hid ▸ s.operations.keys_le op hop)
  have heq : op₀ = op := s.operations.key_inj hop₀ hop (hid₀.trans hid)
  exact heq ▸ ⟨howner, hleads⟩

/-- A connected operation stays connected as long as there is one with its id. -/
theorem Lawful.isConnected {t : ConnectDb} {id : ℕ} (h : Lawful s u) (h' : Lawful u t)
    (hs : isConnected id s = true) (ht : GoogleConnect.isConnected id t = true) :
    GoogleConnect.isConnected id u = true := by
  obtain ⟨op, hop, rfl, hstatus⟩ := isConnected_iff.mp hs
  obtain ⟨op'', hop'', hid'', -⟩ := isConnected_iff.mp ht
  have hle : op''.id ≤ u.operations.seq := hid'' ▸ (s.operations.keys_le op hop).trans h.seq
  obtain ⟨op', hop', hid', -, -⟩ := h'.old op'' hop'' hle
  have hleads := (h.row hop hop' (hid'.trans hid'')).2
  rw [hstatus] at hleads
  exact isConnected_iff.mpr ⟨op', hop', hid'.trans hid'', hleads.of_connected⟩

/-- **An operation is connected once.**  In every interleaving of reconnect requests, callbacks,
confirmations, cancellations and logouts, the statuses of an operation only move on, at most one
commit connects it, and an account is written by the callback whose commit connects a pending
operation of its owner, or by the owner's confirmation. -/
theorem connected_once (env : AuthEnv) (db : ConnectDb) (calls : ℕ → Call) {srv : ConnectServer}
    (hrun : Runs.Reach Server.step (fun _ _ => True) (start env db calls) srv) :
    ConnectedOnce calls srv := by
  have hsound := Server.Sound.reach (R := fun _ => Lawful) (G := fun i => Guarantee (calls i))
    (Q := fun _ _ _ => True) (fun _ _ _ _ _ hc => hc.1)
    (fun i => request_meets env (calls i) db) hrun
  obtain ⟨hlast, hpairs⟩ := hsound.chain.pairwise (E := Lawful) Lawful.refl
    (fun _ _ _ h h' => h.trans h') fun c hc => (hsound.guarantee c hc).1
  refine ⟨fun c hc op hop op' hop' hid => (hlast c hc).row hop hop' hid, fun id => ?_,
    fun c hc => (hsound.guarantee c hc).2⟩
  refine filter_length_le_one (R := fun later earlier : ℕ × ConnectDb × ConnectDb =>
    connects id earlier = true → connects id later = false) ?_ fun a b ha hb hab => ?_
  · refine hpairs.imp_of_mem fun {later earlier} hl he hbetween hfirst => ?_
    by_contra hsecond
    rw [Bool.not_eq_false, connects, Bool.and_eq_true, Bool.not_eq_true'] at hsecond
    rw [connects, Bool.and_eq_true] at hfirst
    have hstill := hbetween.isConnected (hsound.guarantee later hl).1 hfirst.1 hsecond.1
    rw [hsecond.2] at hstill
    cases hstill
  · rw [hab hb] at ha
    cases ha

/-! ### Two callbacks with one token -/

/-- A user with a login session. -/
def sampleDb : ConnectDb :=
  { sessions := [{ id := 7, userId := 1, revokedAt := none }], states := [], operations := .empty,
    candidates := .empty, accounts := .empty, sources := [] }

/-- A reconnect, and callbacks with the token that it has handed out. -/
def sampleCalls : ℕ → Call
  | 0 => .connect 1 7 "reconnect"
  | _ => .complete "fresh"

/-- `n` statements of call `i` at second 3000. -/
def statements (i n : ℕ) : List (Turn ℕ Input) :=
  List.replicate n (.run i
    { now := 3000, fresh := "fresh", accessible := fun _ => true
      exchange := .ok
        { accessToken := "access", refreshToken := some "refresh", subject := "subject" } })

/-- The reconnect, and two callbacks that both find the operation pending before either of them
writes. -/
def sampleRun : List (Turn ℕ Input) :=
  statements 0 10 ++ statements 1 9 ++ statements 2 9 ++ statements 1 6 ++ statements 2 4

theorem connected_once_of_sampleRun :
    ∃ srv, Runs.runFrom Server.step (start sampleEnv sampleDb sampleCalls) sampleRun = some srv ∧
      srv.history.map Prod.fst = [1, 0] ∧ isConnected 1 srv.committed = true ∧
      ConnectedOnce sampleCalls srv := by
  have hrun : ((Runs.runFrom Server.step (start sampleEnv sampleDb sampleCalls)
      sampleRun).any fun srv =>
      decide (srv.history.map Prod.fst = [1, 0]) && isConnected 1 srv.committed) = true := by
    decide +kernel
  obtain ⟨srv, hsrv, hprop⟩ := (Option.any_eq_true _ _).mp hrun
  rw [Bool.and_eq_true, decide_eq_true_eq] at hprop
  exact ⟨srv, hsrv, hprop.1, hprop.2, connected_once _ _ _ (Runs.reach_of_runFrom hsrv)⟩

/-! ### A confirmation and a cancellation -/

/-- The user has an account of another identity. -/
def otherAccountDb : ConnectDb :=
  { sampleDb with
    accounts := AutoTable.empty.insert
      (fun id => { id, userId := 1, subjectHash := "other", refreshToken := "old",
                   accessToken := "old", updatedAt := 0 })
      fun _ => rfl }

/-- A reconnect, its callback, and then a confirmation next to a cancellation. -/
def replacementCalls : ℕ → Call
  | 0 => .connect 1 7 "reconnect"
  | 1 => .complete "fresh"
  | 2 => .confirmCandidate 1 7 "reconnect"
  | _ => .cancelCandidate 1 7 "reconnect"

/-- **A cancelled replacement can still be applied.**  The confirmation does not read the row count
of its last update, so the account is replaced although the operation has been cancelled. -/
theorem cancelled_replacement_applied :
    ∃ srv, Runs.Reach Server.step (fun _ _ => True)
      (start sampleEnv otherAccountDb replacementCalls) srv ∧
      srv.committed.operations.rows.map OperationRow.status = [.cancelled] ∧
      srv.committed.accounts.rows.map AccountRow.subjectHash =
          ["google.account_subject:subject"] := by
  -- The cancellation runs between the confirmation's last read and its first write.
  have hrun : ((Runs.runFrom Server.step (start sampleEnv otherAccountDb replacementCalls)
      (statements 0 10 ++ statements 1 11 ++ statements 2 11 ++ statements 3 11 ++
        statements 2 6)).any fun srv =>
        decide (srv.committed.operations.rows.map OperationRow.status = [.cancelled]) &&
          decide (srv.committed.accounts.rows.map AccountRow.subjectHash =
            ["google.account_subject:subject"])) = true := by
    decide +kernel
  obtain ⟨srv, hsrv, hprop⟩ := (Option.any_eq_true _ _).mp hrun
  rw [Bool.and_eq_true, decide_eq_true_eq, decide_eq_true_eq] at hprop
  exact ⟨srv, Runs.reach_of_runFrom hsrv, hprop⟩

end GoogleConnect
