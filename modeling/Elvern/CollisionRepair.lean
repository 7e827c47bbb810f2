/-
Repairing shared copy identities.

All rows but one that share a copy identity are given new ones, and every record of the shared
key is copied to each of them, within a savepoint.  Nobody sees more or less afterwards, as
long as no new identity is the key of a record that no row has any more (`FreshKeys`).

* `Recopied.hiddenAt` — one row with its new identity;
* `repairGroup_spec` — the rows of one identity;
* `repair_keeps_visibility` — all identities, and the savepoint.
-/
import Elvern.HiddenIdentities

namespace HiddenKeys

variable (env : Env)

/-- The counters of `repair_hidden_copy_identity_collisions`. -/
structure RepairSummary where
  identityCollisionsRepaired : ℕ
  userCopyKeysMaterialized : ℕ
  globalCopyKeysMaterialized : ℕ
  deriving DecidableEq

/-- The identities of more than one row. -/
def duplicateIdentities (db : Db) : List CopyIdentity :=
  (db.activeIdentities.eraseDups.filter fun c =>
    decide (1 < db.activeIdentities.count c)).insertionSort fun a b => a.text ≤ b.text

def Scope.userId : Scope → Option ℕ
  | .user userId => some userId
  | .everyone => none

/-- The records of a key at users, in their order, -/
def userRecords (db : Db) (movieKey : String) : List HiddenKey :=
  (db.keys.filter fun key => key.movieKey = movieKey ∧ key.scope.userId.isSome).insertionSort
    fun a b => a.scope.userId.getD 0 ≤ b.scope.userId.getD 0

/-- and the one for everyone. -/
def globalRecord (db : Db) (movieKey : String) : Option HiddenKey :=
  db.keys.find? fun key => key.movieKey = movieKey ∧ key.scope = .everyone

/-- The records of a key, copied to a payload. -/
def copyRecords (s : State) (payload : Payload) (records : List HiddenKey) : Except DbError State :=
  records.foldlM (fun s record => insertCopyKey env s
    (payload.record record.scope record.hiddenByUserId record.hiddenAt)) s

/-- A new identity for a row, with the records of the one it had. -/
def repairRow (users : List HiddenKey) (everyone : Option HiddenKey) (s : State) (row : MediaRow) :
    Except DbError State := do
  let new := newHiddenCopyIdentity env s s.db.activeIdentities
  let s ← new.2.look env
  let row' := row.withIdentity new.1
  let (payload, s) ← resolveHiddenCopyIdentityPayload env
    { s with db := s.db.setIdentity new.1 row.id } row'
  match payload with
  | none => throw .collisionRepairFailed
  | some payload =>
    let s ← copyRecords env s payload users
    let s ← copyRecords env s payload everyone.toList
    recordLocalCopyIdentityAliases env s row new.1

/-- The rows of one identity: all but the first get new ones. -/
def repairGroup (summary : RepairSummary) (s : State) (shared : CopyIdentity) :
    Except DbError (RepairSummary × State) := do
  let rows := (s.db.media.filter fun r => decide (r.hiddenCopyIdentity = some shared)).insertionSort
    fun a b => a.id ≤ b.id
  if rows.length < 2 then return (summary, s)
  else
    let users := userRecords s.db shared.text
    let everyone := globalRecord s.db shared.text
    let s ← s.look env
    let s ← rows.tail.foldlM (repairRow env users everyone) s
    return ({ identityCollisionsRepaired := summary.identityCollisionsRepaired + rows.tail.length
              userCopyKeysMaterialized :=
                summary.userCopyKeysMaterialized + rows.tail.length * users.length
              globalCopyKeysMaterialized :=
                summary.globalCopyKeysMaterialized + rows.tail.length * everyone.toList.length }, s)

/-- The body of the savepoint. -/
def repairGroups (s : State) : Except DbError (RepairSummary × State) :=
  (duplicateIdentities s.db).foldlM (fun (summary, s) shared => repairGroup env summary s shared)
    (⟨0, 0, 0⟩, s)

/-- `repair_hidden_copy_identity_collisions`: an exception rolls back to the savepoint. -/
def repairHiddenCopyIdentityCollisions (s : State) : Except DbError RepairSummary × State :=
  match repairGroups env s with
  | .ok (summary, s') => (.ok summary, s')
  | .error e => (.error e, s)

/-! ### Records -/

section Records

variable {db : Db} {scope : Scope} {key : String}

theorem upsertKey_hasKey {keys : List HiddenKey} {new : HiddenKey} {update : HiddenKey → HiddenKey}
    (hupdate : ∀ old, (update old).scope = old.scope ∧ (update old).movieKey = old.movieKey) :
    (∃ k ∈ upsertKey keys new update, k.scope = scope ∧ k.movieKey = key) ↔
      (∃ k ∈ keys, k.scope = scope ∧ k.movieKey = key) ∨ new.scope = scope ∧
          new.movieKey = key := by
  rw [upsertKey]
  dsimp only
  split
  · next hany =>
    obtain ⟨found, hfound, hsame⟩ := List.any_eq_true.mp hany
    have hsame := of_decide_eq_true hsame
    constructor
    · rintro ⟨k, hk, hscope, hkey⟩
      obtain ⟨old, hold, rfl⟩ := List.mem_map.mp hk
      refine Or.inl ⟨old, hold, ?_⟩
      split at hscope
      · next hmatch =>
        rw [if_pos hmatch] at hkey
        exact ⟨(hupdate old).1 ▸ hscope, (hupdate old).2 ▸ hkey⟩
      · next hmatch =>
        rw [if_neg hmatch] at hkey
        exact ⟨hscope, hkey⟩
    · intro h
      obtain ⟨old, hold, hscope, hkey⟩ : ∃ k ∈ keys, k.scope = scope ∧ k.movieKey = key := by
        rcases h with h | ⟨hscope, hkey⟩
        · exact h
        · exact ⟨found, hfound, hsame.1.trans hscope, hsame.2.trans hkey⟩
      refine ⟨_, List.mem_map_of_mem hold, ?_⟩
      split
      · exact ⟨(hupdate old).1.trans hscope, (hupdate old).2.trans hkey⟩
      · exact ⟨hscope, hkey⟩
  · constructor
    · rintro ⟨k, hk, hscope, hkey⟩
      rcases List.mem_append.mp hk with hk | hk
      · exact Or.inl ⟨k, hk, hscope, hkey⟩
      · rw [List.mem_singleton.mp hk] at hscope hkey
        exact Or.inr ⟨hscope, hkey⟩
    · rintro (⟨k, hk, hscope, hkey⟩ | ⟨hscope, hkey⟩)
      · exact ⟨k, List.mem_append_left _ hk, hscope, hkey⟩
      · exact ⟨new, List.mem_append_right _ (List.mem_singleton_self _), hscope, hkey⟩

/-- Inserting a copy key adds it and nothing else. -/
theorem insertCopyKey_spec {s s' : State} {new : HiddenKey} (h : insertCopyKey env s new = .ok s') :
    s'.db.media = s.db.media ∧ s'.db.items = s.db.items ∧
      ∀ scope key, s'.db.HasKey scope key ↔
        s.db.HasKey scope key ∨ new.scope = scope ∧ new.movieKey = key := by
  rw [insertCopyKey] at h
  obtain ⟨looked, hlook, h⟩ := Except.bind_eq_ok_iff.mp h
  have hdb := State.look_eq hlook
  rw [← Except.ok.inj h, ← hdb]
  exact ⟨rfl, rfl, fun scope key => upsertKey_hasKey fun old => ⟨rfl, rfl⟩⟩

/-- Copy keys that are inserted one after the other. -/
theorem insertCopyKeys_spec {ρ : Type} {new : ρ → HiddenKey} {rows : List ρ} {s s' : State}
    (h : rows.foldlM (fun s r => insertCopyKey env s (new r)) s = .ok s') :
    s'.db.media = s.db.media ∧ s'.db.items = s.db.items ∧
      ∀ scope key, s'.db.HasKey scope key ↔
        s.db.HasKey scope key ∨ ∃ r ∈ rows, (new r).scope = scope ∧ (new r).movieKey = key := by
  induction rows generalizing s with
  | nil =>
    rw [← Except.ok.inj h]
    simp
  | cons r rest ih =>
    rw [List.foldlM_cons] at h
    obtain ⟨next, hinsert, h⟩ := Except.bind_eq_ok_iff.mp h
    obtain ⟨hmedia, hitems, hkeys⟩ := insertCopyKey_spec env hinsert
    obtain ⟨hmedia', hitems', hkeys'⟩ := ih h
    refine ⟨hmedia'.trans hmedia, hitems'.trans hitems, fun scope key => ?_⟩
    rw [hkeys' scope key, hkeys scope key, List.exists_mem_cons_iff, or_assoc]

/-- Rows that become copy keys of one payload. -/
theorem insertPayload_spec {ρ : Type} {scopeOf : ρ → Scope} {hiddenBy : ρ → ℕ}
    {hiddenAt : ρ → String} {rows : List ρ} {payload : Payload} {s s' : State}
    (h : rows.foldlM (fun s r => insertCopyKey env s
      (payload.record (scopeOf r) (hiddenBy r) (hiddenAt r))) s = .ok s') :
    s'.db.media = s.db.media ∧ s'.db.items = s.db.items ∧
      ∀ scope key, s'.db.HasKey scope key ↔
        s.db.HasKey scope key ∨ payload.movieKey = key ∧ ∃ r ∈ rows, scopeOf r = scope := by
  obtain ⟨hmedia, hitems, hkeys⟩ := insertCopyKeys_spec env h
  refine ⟨hmedia, hitems, fun scope key => (hkeys scope key).trans (or_congr_right ?_)⟩
  constructor
  · rintro ⟨r, hr, hscope, hkey⟩
    exact ⟨hkey, r, hr, hscope⟩
  · rintro ⟨hkey, r, hr, hscope⟩
    exact ⟨r, hr, hscope, hkey⟩

/-- Copying records to a payload. -/
theorem copyRecords_spec {s s' : State} {payload : Payload} {records : List HiddenKey}
    (h : copyRecords env s payload records = .ok s') :
    s'.db.media = s.db.media ∧ s'.db.items = s.db.items ∧
      ∀ scope key, s'.db.HasKey scope key ↔
        s.db.HasKey scope key ∨ payload.movieKey = key ∧ ∃ record ∈ records,
            record.scope = scope := by
  rw [copyRecords] at h
  exact insertPayload_spec env h

theorem globalRecord_spec {record : HiddenKey} (h : globalRecord db key = some record) :
    record ∈ db.keys ∧ record.movieKey = key ∧ record.scope = .everyone := by
  rw [globalRecord] at h
  have hfound := List.find?_some h
  exact ⟨List.mem_of_find?_eq_some h, of_decide_eq_true hfound⟩

/-- The records that are copied are those of the key. -/
theorem hasKey_iff_records (scope : Scope) :
    db.HasKey scope key ↔
      (∃ record ∈ userRecords db key, record.scope = scope) ∨
        ∃ record ∈ (globalRecord db key).toList, record.scope = scope := by
  simp only [Db.HasKey, userRecords, List.mem_insertionSort, List.mem_filter, decide_eq_true_eq]
  constructor
  · rintro ⟨record, hrecord, rfl, rfl⟩
    rcases hscope : record.scope with userId | _
    · exact Or.inl ⟨record, ⟨hrecord, rfl, by rw [hscope]; rfl⟩, hscope⟩
    · right
      have hsome : (globalRecord db record.movieKey).isSome := by
        rw [globalRecord, List.find?_isSome]
        exact ⟨record, hrecord, decide_eq_true ⟨rfl, hscope⟩⟩
      obtain ⟨found, hfound⟩ := Option.isSome_iff_exists.mp hsome
      exact ⟨found, Option.mem_toList.mpr hfound, (globalRecord_spec hfound).2.2⟩
  · rintro (⟨record, ⟨hrecord, hkey, -⟩, hscope⟩ | ⟨record, hrecord, hscope⟩)
    · exact ⟨record, hrecord, hscope, hkey⟩
    · obtain ⟨hmem, hkey, -⟩ := globalRecord_spec (Option.mem_toList.mp hrecord)
      exact ⟨record, hmem, hscope, hkey⟩

end Records

/-! ### One row -/

/-- Two rows have the identity. -/
def Db.Collides (db : Db) (c : CopyIdentity) : Prop :=
  ∃ r ∈ db.media, ∃ r' ∈ db.media, r ≠ r' ∧ r.hiddenCopyIdentity = some c ∧
    r'.hiddenCopyIdentity = some c

/-- A random identity that a record has for its key is the identity of some row. -/
def FreshKeys (db : Db) : Prop :=
  ∀ n scope, db.HasKey scope (env.token n).text → env.token n ∈ db.activeIdentities

theorem Db.mem_activeIdentities {db : Db} {c : CopyIdentity} :
    c ∈ db.activeIdentities ↔ ∃ r ∈ db.media, r.hiddenCopyIdentity = some c :=
  List.mem_filterMap

/-- `row` has given up the identity `shared` for the new one, and the records went with it. -/
structure Recopied (shared new : CopyIdentity) (row : MediaRow) (db db' : Db) : Prop where
  mem : row ∈ db.media
  identity : row.hiddenCopyIdentity = some shared
  not_active : new ∉ db.activeIdentities
  token : ∃ n, new = env.token n
  media : db'.media = (db.setIdentity new row.id).media
  items : db'.items = db.items
  hasKey : ∀ scope key, db'.HasKey scope key ↔
    db.HasKey scope key ∨ new.text = key ∧ db.HasKey scope shared.text

/-- What a repair, or a part of one, keeps. -/
structure Repairs (db db' : Db) : Prop where
  fresh : FreshKeys env db'
  hiddenAt : ∀ scope, db'.HiddenAt env scope = db.HiddenAt env scope
  collides : ∀ c, db'.Collides c → db.Collides c
  kept : ∀ c ∈ db.activeIdentities, ∃ r ∈ db.media, r ∈ db'.media ∧ r.hiddenCopyIdentity = some c
  old : ∀ r ∈ db'.media, ∀ c ∈ db.activeIdentities, r.hiddenCopyIdentity = some c → r ∈ db.media

variable {env}

namespace Recopied

variable {shared new : CopyIdentity} {row : MediaRow} {db db' : Db}

/-- Another row stays as it is, -/
theorem mem_of_ne (h : Recopied env shared new row db db') {r : MediaRow} (hr : r ∈ db.media)
    (hne : r.id ≠ row.id) : r ∈ db'.media := by
  rw [h.media]
  exact List.mem_map.mpr ⟨r, hr, if_neg hne⟩

/-- the row is there with its new identity, -/
theorem mem_new (h : Recopied env shared new row db db') : row.withIdentity new ∈ db'.media := by
  rw [h.media]
  exact List.mem_map.mpr ⟨row, h.mem, if_pos rfl⟩

/-- and there is no other row. -/
theorem mem_cases (h : Recopied env shared new row db db') {r : MediaRow} (hr : r ∈ db'.media) :
    r = row.withIdentity new ∨ r ∈ db.media ∧ r.id ≠ row.id := by
  rw [h.media] at hr
  obtain ⟨q, hq, rfl⟩ := List.mem_map.mp hr
  split
  · next hid =>
    rw [db.row_eq hq h.mem hid]
    exact Or.inl rfl
  · next hid => exact Or.inr ⟨hq, hid⟩

theorem ne_new (h : Recopied env shared new row db db') {r : MediaRow} (hr : r ∈ db.media) :
    r.hiddenCopyIdentity ≠ some new :=
  fun hidentity => h.not_active (Db.mem_activeIdentities.mpr ⟨r, hr, hidentity⟩)

/-- The copied records hide the row where the record of the shared identity hid it. -/
theorem rowHidden_new (h : Recopied env shared new row db db') (hfresh : FreshKeys env db)
    (scope : Scope) :
    db'.RowHidden env scope (row.withIdentity new) ↔ db.RowHidden env scope row := by
  have hstale : ¬db.HasKey scope new.text := by
    obtain ⟨n, hn⟩ := h.token
    intro hhas
    rw [hn] at hhas
    exact h.not_active (hn ▸ hfresh n scope hhas)
  have hitem : db'.HasItem scope (row.withIdentity new).id ↔ db.HasItem scope row.id := by
    rw [Db.HasItem, Db.HasItem, h.items]
    rfl
  have hkey : (∃ key ∈ hiddenKeyCandidatesForRow env (row.withIdentity new),
        db'.HasKey scope key) ↔
      ∃ key ∈ hiddenKeyCandidatesForRow env row, db.HasKey scope key := by
    constructor
    · rintro ⟨key, hkey, hhas⟩
      rcases (mem_hiddenKeyCandidates env).mp hkey with ⟨c, hc, rfl⟩ | hlegacy
      · cases Option.some.inj hc
        refine ⟨shared.text,
          (mem_hiddenKeyCandidates env).mpr (Or.inl ⟨shared, h.identity, rfl⟩), ?_⟩
        rcases (h.hasKey scope _).mp hhas with hold | ⟨-, hshared⟩
        · exact absurd hold hstale
        · exact hshared
      · rw [legacyHiddenKeys_withIdentity] at hlegacy
        refine ⟨key, (mem_hiddenKeyCandidates env).mpr (Or.inr hlegacy), ?_⟩
        rcases (h.hasKey scope _).mp hhas with hold | ⟨rfl, -⟩
        · exact hold
        · have hcopy := not_isCopyKey_of_mem_legacy env hlegacy
          rw [new.isCopyKey_text] at hcopy
          cases hcopy
    · rintro ⟨key, hkey, hhas⟩
      rcases (mem_hiddenKeyCandidates env).mp hkey with ⟨c, hc, rfl⟩ | hlegacy
      · rw [h.identity] at hc
        cases Option.some.inj hc
        exact ⟨new.text, (mem_hiddenKeyCandidates env).mpr (Or.inl ⟨new, rfl, rfl⟩),
          (h.hasKey scope _).mpr (Or.inr ⟨rfl, hhas⟩)⟩
      · rw [← legacyHiddenKeys_withIdentity row new] at hlegacy
        exact ⟨key, (mem_hiddenKeyCandidates env).mpr (Or.inr hlegacy),
          (h.hasKey scope _).mpr (Or.inl hhas)⟩
  rw [Db.RowHidden, Db.RowHidden, hitem, hkey]

/-- The copied records hide no other row. -/
theorem rowHidden_other (h : Recopied env shared new row db db') {r : MediaRow}
    (hr : r ∈ db.media) (scope : Scope) :
    db'.RowHidden env scope r ↔ db.RowHidden env scope r := by
  have hitem : db'.HasItem scope r.id ↔ db.HasItem scope r.id := by
    rw [Db.HasItem, Db.HasItem, h.items]
  have hkey : (∃ key ∈ hiddenKeyCandidatesForRow env r, db'.HasKey scope key) ↔
      ∃ key ∈ hiddenKeyCandidatesForRow env r, db.HasKey scope key := by
    constructor
    · rintro ⟨key, hkey, hhas⟩
      rcases (h.hasKey scope _).mp hhas with hold | ⟨rfl, -⟩
      · exact ⟨key, hkey, hold⟩
      · rcases (mem_hiddenKeyCandidates env).mp hkey with ⟨c, hc, htext⟩ | hlegacy
        · rw [CopyIdentity.ext htext] at hc
          exact absurd hc (h.ne_new hr)
        · have hcopy := not_isCopyKey_of_mem_legacy env hlegacy
          rw [new.isCopyKey_text] at hcopy
          cases hcopy
    · rintro ⟨key, hkey, hhas⟩
      exact ⟨key, hkey, (h.hasKey scope _).mpr (Or.inl hhas)⟩
  rw [Db.RowHidden, Db.RowHidden, hitem, hkey]

theorem hiddenAt (h : Recopied env shared new row db db') (hfresh : FreshKeys env db)
    (scope : Scope) : db'.HiddenAt env scope = db.HiddenAt env scope := by
  ext i
  constructor
  · rintro ⟨r, hr, rfl, hhidden⟩
    rcases h.mem_cases hr with rfl | ⟨hold, -⟩
    · exact ⟨row, h.mem, rfl, (h.rowHidden_new hfresh scope).mp hhidden⟩
    · exact ⟨r, hold, rfl, (h.rowHidden_other hold scope).mp hhidden⟩
  · rintro ⟨r, hr, rfl, hhidden⟩
    by_cases hid : r.id = row.id
    · rw [db.row_eq hr h.mem hid] at hhidden ⊢
      exact ⟨_, h.mem_new, rfl, (h.rowHidden_new hfresh scope).mpr hhidden⟩
    · exact ⟨r, h.mem_of_ne hr hid, rfl, (h.rowHidden_other hr scope).mpr hhidden⟩

theorem collides (h : Recopied env shared new row db db') {c : CopyIdentity}
    (hcollides : db'.Collides c) : db.Collides c := by
  obtain ⟨r, hr, r', hr', hne, hc, hc'⟩ := hcollides
  rcases h.mem_cases hr with rfl | ⟨hold, -⟩
  · cases Option.some.inj hc
    rcases h.mem_cases hr' with rfl | ⟨hold', -⟩
    · exact absurd rfl hne
    · exact absurd hc' (h.ne_new hold')
  · rcases h.mem_cases hr' with rfl | ⟨hold', -⟩
    · cases Option.some.inj hc'
      exact absurd hc (h.ne_new hold)
    · exact ⟨r, hold, r', hold', hne, hc, hc'⟩

/-- A row that gives up an identity which another row keeps. -/
theorem repairs (h : Recopied env shared new row db db') (hfresh : FreshKeys env db)
    {first : MediaRow} (hfirst : first ∈ db.media)
    (hshared : first.hiddenCopyIdentity = some shared)
    (hne : first.id ≠ row.id) : Repairs env db db' where
  fresh := by
    intro n scope hhas
    have hkept : ∀ c ∈ db.activeIdentities, c ∈ db'.activeIdentities := by
      intro c hc
      obtain ⟨r, hr, hidentity⟩ := Db.mem_activeIdentities.mp hc
      by_cases hid : r.id = row.id
      · rw [db.row_eq hr h.mem hid, h.identity, ← hshared] at hidentity
        exact Db.mem_activeIdentities.mpr ⟨first, h.mem_of_ne hfirst hne, hidentity⟩
      · exact Db.mem_activeIdentities.mpr ⟨r, h.mem_of_ne hr hid, hidentity⟩
    rcases (h.hasKey scope _).mp hhas with hold | ⟨htext, -⟩
    · exact hkept _ (hfresh n scope hold)
    · rw [← CopyIdentity.ext htext]
      exact Db.mem_activeIdentities.mpr ⟨_, h.mem_new, rfl⟩
  hiddenAt := h.hiddenAt hfresh
  collides := fun c => h.collides
  kept := by
    intro c hc
    obtain ⟨r, hr, hidentity⟩ := Db.mem_activeIdentities.mp hc
    by_cases hid : r.id = row.id
    · rw [db.row_eq hr h.mem hid, h.identity, ← hshared] at hidentity
      exact ⟨first, hfirst, h.mem_of_ne hfirst hne, hidentity⟩
    · exact ⟨r, hr, h.mem_of_ne hr hid, hidentity⟩
  old := by
    intro r hr c hc hidentity
    rcases h.mem_cases hr with rfl | ⟨hold, -⟩
    · cases Option.some.inj hidentity
      exact absurd hc h.not_active
    · exact hold

end Recopied

namespace Repairs

variable {db db' db'' : Db}

theorem refl (hfresh : FreshKeys env db) : Repairs env db db where
  fresh := hfresh
  hiddenAt := fun _ => rfl
  collides := fun _ h => h
  kept := by
    intro c hc
    obtain ⟨r, hr, hidentity⟩ := Db.mem_activeIdentities.mp hc
    exact ⟨r, hr, hr, hidentity⟩
  old := fun r hr _ _ _ => hr

theorem active (h : Repairs env db db') {c : CopyIdentity} (hc : c ∈ db.activeIdentities) :
    c ∈ db'.activeIdentities := by
  obtain ⟨r, -, hr, hidentity⟩ := h.kept c hc
  exact Db.mem_activeIdentities.mpr ⟨r, hr, hidentity⟩

theorem trans (h : Repairs env db db') (h' : Repairs env db' db'') : Repairs env db db'' where
  fresh := h'.fresh
  hiddenAt := fun scope => (h'.hiddenAt scope).trans (h.hiddenAt scope)
  collides := fun c hcollides => h.collides c (h'.collides c hcollides)
  kept := by
    intro c hc
    obtain ⟨r, hr, hr', hidentity⟩ := h'.kept c (h.active hc)
    exact ⟨r, h.old r hr c hc hidentity, hr', hidentity⟩
  old := fun r hr c hc hidentity =>
    h.old r (h'.old r hr c (h.active hc) hidentity) c hc hidentity

end Repairs

/-- What `repairRow` does to the tables. -/
theorem repairRow_spec {users : List HiddenKey} {everyone : Option HiddenKey} {s s' : State}
    {row : MediaRow} {shared : CopyIdentity} (hrow : row ∈ s.db.media)
    (hidentity : row.hiddenCopyIdentity = some shared)
    (hrecords : ∀ scope, s.db.HasKey scope shared.text ↔
      (∃ record ∈ users, record.scope = scope) ∨ ∃ record ∈ everyone.toList, record.scope = scope)
    (h : repairRow env users everyone s row = .ok s') :
    ∃ new, Recopied env shared new row s.db s'.db := by
  rw [repairRow] at h
  obtain ⟨hsame, hnew, n, hn⟩ := newHiddenCopyIdentity_spec env s s.db.activeIdentities
  generalize newHiddenCopyIdentity env s s.db.activeIdentities = new at h hsame hnew hn
  obtain ⟨looked, hlook, h⟩ := Except.bind_eq_ok_iff.mp h
  have hdb : looked.db = s.db := (State.look_eq hlook).trans hsame
  obtain ⟨⟨payload, resolved⟩, hpayload, h⟩ := Except.bind_eq_ok_iff.mp h
  rw [resolveHiddenCopyIdentityPayload] at hpayload
  obtain ⟨⟨identity, resolved'⟩, hresolve, hpayload⟩ := Except.bind_eq_ok_iff.mp hpayload
  obtain ⟨rfl, rfl⟩ := Prod.mk.inj (Except.ok.inj hpayload)
  obtain ⟨rfl, hmedia, hitems, hkeys⟩ :=
    resolve_resolved (Or.inl ⟨new.1, rfl⟩) hresolve
  dsimp only at hmedia hitems hkeys
  rw [hdb] at hmedia hitems hkeys
  obtain ⟨copied, hcopy, h⟩ := Except.bind_eq_ok_iff.mp h
  obtain ⟨copied', hcopy', h⟩ := Except.bind_eq_ok_iff.mp h
  obtain ⟨hmedia₁, hitems₁, hkeys₁⟩ := copyRecords_spec env hcopy
  obtain ⟨hmedia₂, hitems₂, hkeys₂⟩ := copyRecords_spec env hcopy'
  obtain ⟨hmedia₃, hitems₃, hkeys₃⟩ := recordAliases_spec h
  refine ⟨new.1, hrow, hidentity, hnew, ⟨n, hn⟩, ?_, ?_, fun scope key => ?_⟩
  · rw [hmedia₃, hmedia₂, hmedia₁, hmedia]
  · rw [hitems₃, hitems₂, hitems₁, hitems]
    rfl
  · have hfirst : resolved'.db.HasKey scope key ↔ s.db.HasKey scope key := by
      rw [Db.HasKey, hkeys]
      rfl
    have hlast : s'.db.HasKey scope key ↔ copied'.db.HasKey scope key := by
      rw [Db.HasKey, hkeys₃, Db.HasKey]
    have hpayloadKey : (payloadOf env (row.withIdentity new.1) new.1).movieKey = new.1.text := rfl
    rw [hlast, hkeys₂, hkeys₁, hfirst, hrecords scope, hpayloadKey, or_assoc, ← and_or_left]

/-! ### The rows of one identity -/

/-- The rows after the first, one after the other. -/
theorem repairRows_spec {users : List HiddenKey} {everyone : Option HiddenKey}
    {shared : CopyIdentity} {first : MediaRow} {rows : List MediaRow} {s s' : State}
    (hfresh : FreshKeys env s.db) (hfirst : first ∈ s.db.media)
    (hshared : first.hiddenCopyIdentity = some shared)
    (hrows : ∀ r ∈ rows, r ∈ s.db.media ∧ r.hiddenCopyIdentity = some shared)
    (hnodup : ((first :: rows).map MediaRow.id).Nodup)
    (hrecords : ∀ scope, s.db.HasKey scope shared.text ↔
      (∃ record ∈ users, record.scope = scope) ∨ ∃ record ∈ everyone.toList, record.scope = scope)
    (h : rows.foldlM (repairRow env users everyone) s = .ok s') :
    Repairs env s.db s'.db ∧ first ∈ s'.db.media ∧
      ∀ r ∈ s'.db.media, r.hiddenCopyIdentity = some shared → r ∈ s.db.media ∧ r ∉ rows := by
  induction rows generalizing s with
  | nil =>
    rw [← Except.ok.inj h]
    exact ⟨Repairs.refl hfresh, hfirst, fun r hr _ => ⟨hr, List.not_mem_nil⟩⟩
  | cons row rest ih =>
    rw [List.foldlM_cons] at h
    obtain ⟨next, hstep, h⟩ := Except.bind_eq_ok_iff.mp h
    obtain ⟨hrow, hidentity⟩ := hrows row (List.mem_cons_self ..)
    obtain ⟨new, hrecopied⟩ := repairRow_spec hrow hidentity hrecords hstep
    simp only [List.map_cons, List.nodup_cons, List.mem_cons, not_or] at hnodup
    obtain ⟨⟨hne, hfirstRest⟩, hrowRest, hrest⟩ := hnodup
    have hrepairs := hrecopied.repairs hfresh hfirst hshared hne
    have hsharedNew : new ≠ shared := by
      rintro rfl
      exact hrecopied.ne_new hrow hidentity
    have hrecords' : ∀ scope, next.db.HasKey scope shared.text ↔
        (∃ record ∈ users, record.scope = scope) ∨
          ∃ record ∈ everyone.toList, record.scope = scope := by
      intro scope
      rw [← hrecords scope, hrecopied.hasKey scope shared.text]
      refine or_iff_left fun hnew => ?_
      exact hsharedNew (CopyIdentity.ext hnew.1)
    have hrows' : ∀ r ∈ rest, r ∈ next.db.media ∧ r.hiddenCopyIdentity = some shared := by
      intro r hr
      obtain ⟨hmem, hsharedRow⟩ := hrows r (List.mem_cons_of_mem _ hr)
      have hid : r.id ≠ row.id := fun heq => hrowRest (heq ▸ List.mem_map_of_mem hr)
      exact ⟨hrecopied.mem_of_ne hmem hid, hsharedRow⟩
    obtain ⟨hafter, hfirst', hleft⟩ := ih hrepairs.fresh (hrecopied.mem_of_ne hfirst hne) hrows'
      (List.nodup_cons.mpr ⟨hfirstRest, hrest⟩) hrecords' h
    refine ⟨hrepairs.trans hafter, hfirst', fun r hr hsharedRow => ?_⟩
    obtain ⟨hnext, hnotRest⟩ := hleft r hr hsharedRow
    rcases hrecopied.mem_cases hnext with rfl | ⟨hold, hid⟩
    · exact absurd (Option.some.inj hsharedRow) hsharedNew
    · refine ⟨hold, fun hmem => ?_⟩
      rcases List.mem_cons.mp hmem with rfl | hmem
      · exact hid rfl
      · exact hnotRest hmem

/-- Two elements of a list. -/
theorem one_lt_length_of_ne {α : Type} {l : List α} {a b : α} (ha : a ∈ l) (hb : b ∈ l)
    (hne : a ≠ b) : 1 < l.length := by
  rcases l with _ | ⟨x, _ | ⟨y, l⟩⟩
  · cases ha
  · exact absurd ((List.mem_singleton.mp ha).trans (List.mem_singleton.mp hb).symm) hne
  · rw [List.length_cons, List.length_cons]
    omega

/-- After its repair an identity is that of one row. -/
theorem repairGroup_spec {summary summary' : RepairSummary} {shared : CopyIdentity} {s s' : State}
    (hfresh : FreshKeys env s.db)
    (h : repairGroup env summary s shared = .ok (summary', s')) :
    Repairs env s.db s'.db ∧ ¬s'.db.Collides shared := by
  rw [repairGroup] at h
  set rows := (s.db.media.filter fun r =>
    decide (r.hiddenCopyIdentity = some shared)).insertionSort fun a b => a.id ≤ b.id with hdef
  have hperm : List.Perm rows (s.db.media.filter fun r =>
      decide (r.hiddenCopyIdentity = some shared)) := List.perm_insertionSort _ _
  have hmem : ∀ r, r ∈ rows ↔ r ∈ s.db.media ∧ r.hiddenCopyIdentity = some shared := by
    intro r
    rw [hperm.mem_iff, List.mem_filter, decide_eq_true_eq]
  have hnodup : (rows.map MediaRow.id).Nodup :=
    ((hperm.map MediaRow.id).nodup_iff).mpr
      (s.db.ids_nodup.sublist ((List.filter_sublist).map MediaRow.id))
  clear_value rows
  dsimp only at h
  split at h
  · next hshort =>
    obtain ⟨-, hstate⟩ := Prod.mk.inj (Except.ok.inj h)
    subst hstate
    refine ⟨Repairs.refl hfresh, ?_⟩
    rintro ⟨r, hr, r', hr', hne, hc, hc'⟩
    exact absurd (one_lt_length_of_ne ((hmem r).mpr ⟨hr, hc⟩) ((hmem r').mpr ⟨hr', hc'⟩) hne)
      (Nat.not_lt.mpr (Nat.lt_succ_iff.mp hshort))
  · next hlong =>
    obtain ⟨looked, hlook, h⟩ := Except.bind_eq_ok_iff.mp h
    obtain ⟨repaired, hfold, h⟩ := Except.bind_eq_ok_iff.mp h
    obtain ⟨-, hstate⟩ := Prod.mk.inj (Except.ok.inj h)
    subst hstate
    have hdb := State.look_eq hlook
    rcases hrows : rows with _ | ⟨first, rest⟩
    · rw [hrows] at hlong
      exact absurd (Nat.zero_lt_succ 1) hlong
    rw [hrows] at hfold hnodup
    have hfirst := (hmem first).mp (hrows ▸ List.mem_cons_self ..)
    have hrest : ∀ r ∈ rest, r ∈ s.db.media ∧ r.hiddenCopyIdentity = some shared := fun r hr =>
      (hmem r).mp (hrows ▸ List.mem_cons_of_mem _ hr)
    rw [← hdb] at hfresh hfirst hrest
    obtain ⟨hrepairs, -, hleft⟩ := repairRows_spec hfresh hfirst.1 hfirst.2 hrest hnodup
      (fun scope => by rw [hdb]; exact hasKey_iff_records scope) hfold
    rw [hdb] at hrepairs hleft
    refine ⟨hrepairs, ?_⟩
    -- only the first row has kept the identity
    have honly : ∀ r ∈ repaired.db.media, r.hiddenCopyIdentity = some shared → r = first := by
      intro r hr hshared
      obtain ⟨hold, hnot⟩ := hleft r hr hshared
      have hin := (hmem r).mpr ⟨hold, hshared⟩
      rw [hrows] at hin
      rcases List.mem_cons.mp hin with rfl | hin
      · rfl
      · exact absurd hin hnot
    rintro ⟨r, hr, r', hr', hne, hc, hc'⟩
    exact hne ((honly r hr hc).trans (honly r' hr' hc').symm)

/-! ### All identities -/

theorem repairGroupsFrom_spec {identities : List CopyIdentity} {summary summary' : RepairSummary}
    {s s' : State} (hfresh : FreshKeys env s.db)
    (h : identities.foldlM (fun (summary, s) shared => repairGroup env summary s shared)
      (summary, s) = .ok (summary', s')) :
    Repairs env s.db s'.db ∧ ∀ c ∈ identities, ¬s'.db.Collides c := by
  induction identities generalizing summary s with
  | nil =>
    obtain ⟨-, hstate⟩ := Prod.mk.inj (Except.ok.inj h)
    subst hstate
    refine ⟨Repairs.refl hfresh, fun c hc => ?_⟩
    cases hc
  | cons shared rest ih =>
    rw [List.foldlM_cons] at h
    obtain ⟨⟨summary₁, next⟩, hgroup, h⟩ := Except.bind_eq_ok_iff.mp h
    obtain ⟨hrepairs, hnot⟩ := repairGroup_spec hfresh hgroup
    obtain ⟨hafter, hrest⟩ := ih hrepairs.fresh h
    refine ⟨hrepairs.trans hafter, fun c hc => ?_⟩
    rcases List.mem_cons.mp hc with rfl | hc
    · exact fun hcollides => hnot (hafter.collides c hcollides)
    · exact hrest c hc

/-- An identity of two rows is among the ones that are repaired. -/
theorem mem_duplicateIdentities {db : Db} {c : CopyIdentity} (h : db.Collides c) :
    c ∈ duplicateIdentities db := by
  obtain ⟨r, hr, r', hr', hne, hc, hc'⟩ := h
  rw [duplicateIdentities, List.mem_insertionSort, List.mem_filter, List.mem_eraseDups]
  refine ⟨Db.mem_activeIdentities.mpr ⟨r, hr, hc⟩, decide_eq_true ?_⟩
  have hdup : 1 < (db.media.filter fun q => decide (q.hiddenCopyIdentity = some c)).length :=
    one_lt_length_of_ne (List.mem_filter.mpr ⟨hr, decide_eq_true hc⟩)
      (List.mem_filter.mpr ⟨hr', decide_eq_true hc'⟩) hne
  have hcount : db.activeIdentities.count c =
      (db.media.filter fun q => decide (q.hiddenCopyIdentity = some c)).length := by
    rw [Db.activeIdentities, List.count_filterMap, ← List.countP_eq_length_filter]
    refine List.countP_congr fun q _ => ?_
    rw [beq_iff_eq, decide_eq_true_eq]
  omega

theorem Db.distinctIdentities_iff {db : Db} : db.DistinctIdentities ↔ ∀ c, ¬db.Collides c := by
  constructor
  · rintro hdistinct c ⟨r, hr, r', hr', hne, hc, hc'⟩
    exact hne (hdistinct r hr r' hr' c hc hc')
  · intro h r hr r' hr' c hc hc'
    by_contra hne
    exact h c ⟨r, hr, r', hr', hne, hc, hc'⟩

/-- **Repairing collisions keeps what everyone sees.**  When the repair returns, the copy identities
are distinct, each that was shared is still that of one of its rows, and at every scope the same
items are hidden; when it raises, nothing has changed. -/
theorem repair_keeps_visibility (env : Env) (s : State) (hfresh : FreshKeys env s.db) :
    match repairHiddenCopyIdentityCollisions env s with
    | (.ok _, s') =>
      s'.db.DistinctIdentities ∧
        (∀ c, s.db.Collides c →
          ∃ r ∈ s.db.media, r ∈ s'.db.media ∧ r.hiddenCopyIdentity = some c) ∧
        ∀ scope, s'.db.HiddenAt env scope = s.db.HiddenAt env scope
    | (.error _, s') => s'.db = s.db := by
  rw [repairHiddenCopyIdentityCollisions]
  rcases hgroups : repairGroups env s with e | ⟨summary, s'⟩
  · rfl
  · rw [repairGroups] at hgroups
    obtain ⟨hrepairs, hnot⟩ := repairGroupsFrom_spec hfresh hgroups
    refine ⟨Db.distinctIdentities_iff.mpr fun c hcollides => ?_, fun c hcollides => ?_,
      hrepairs.hiddenAt⟩
    · exact hnot c (mem_duplicateIdentities (hrepairs.collides c hcollides)) hcollides
    · obtain ⟨r, hr, -, -, -, hidentity, -⟩ := hcollides
      exact hrepairs.kept c (Db.mem_activeIdentities.mpr ⟨r, hr, hidentity⟩)

/-- Two rows with one identity, and a record of user 7 for a key that no row has any more. -/
def collidingLibrary : Db where
  media :=
    [cloudRow 1 "Up" 2009 "Up.mkv" "abc" (some (copyIdentity "01")),
     cloudRow 2 "Up" 2009 "Up.mkv" "def" (some (copyIdentity "01"))]
  items := []
  keys := [⟨.user 7, (cloudEnv.token 1).text, "Up", 2009, "standard", none, 7,
    "2025-05-05T00:00:00+00:00"⟩]
  aliases := []
  ids_nodup := by decide

/-- A new identity that the record happens to have for its key hides the second row. -/
theorem repair_stale_key : ∃ summary s',
    repairHiddenCopyIdentityCollisions cloudEnv ⟨collidingLibrary, 0⟩ = (.ok summary, s') ∧
      2 ∉ collidingLibrary.HiddenAt cloudEnv (.user 7) ∧
      2 ∈ s'.db.HiddenAt cloudEnv (.user 7) := by
  refine ⟨_, _, rfl, ?_, ?_⟩
  · decide +kernel
  · decide +kernel

/-- The library with the record at the identity of the two rows. -/
def sharedLibrary : Db where
  media := collidingLibrary.media
  items := []
  keys := [⟨.user 7, (copyIdentity "01").text, "Up", 2009, "standard", some 1, 7,
    "2025-05-05T00:00:00+00:00"⟩]
  aliases := []
  ids_nodup := by decide

theorem sharedLibrary_freshKeys : FreshKeys cloudEnv sharedLibrary := by
  rintro n scope ⟨key, hkey, -, htext⟩
  rw [List.mem_singleton.mp hkey] at htext
  rw [← CopyIdentity.ext htext]
  decide +kernel

theorem repair_keeps_visibility_sharedLibrary :
    match repairHiddenCopyIdentityCollisions cloudEnv ⟨sharedLibrary, 0⟩ with
    | (.ok _, s') =>
      s'.db.DistinctIdentities ∧
        (∀ c, sharedLibrary.Collides c →
          ∃ r ∈ sharedLibrary.media, r ∈ s'.db.media ∧ r.hiddenCopyIdentity = some c) ∧
        ∀ scope, s'.db.HiddenAt cloudEnv scope = sharedLibrary.HiddenAt cloudEnv scope
    | (.error _, s') => s'.db = sharedLibrary :=
  repair_keeps_visibility cloudEnv ⟨sharedLibrary, 0⟩ sharedLibrary_freshKeys

end HiddenKeys
