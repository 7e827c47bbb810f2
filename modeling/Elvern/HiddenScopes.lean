/-
Changing the scope of a hidden item (`library_hidden_service.py`).

An item that is hidden somewhere is to be hidden at one scope only: for the actor,
or for everyone.  The call replaces the legacy keys of the item at both scopes, and
then writes the records of the item at one of them and removes those at the other,
unless the records stand so already.

* `setHiddenMediaItemScope` -- the call;
* `scopeSet_spec` -- what it writes, from a prepared state;
* `prepare_again` -- the next call finds nothing to replace;
* `scope_change_moves_one_item` -- what is hidden after it, and after the next call.
-/
import Elvern.HideShow

namespace HiddenKeys

variable (env : Env)

/-! ### The call -/

/-- `target_scope` -/
inductive TargetScope where
  | personal
  | global
  deriving DecidableEq

namespace TargetScope

/-- The scope that the item is hidden at afterwards. -/
def scope (actorUserId : ℕ) : TargetScope → Scope
  | .personal => .user actorUserId
  | .global => .everyone

/-- The scope that it is shown at. -/
def otherScope (actorUserId : ℕ) : TargetScope → Scope
  | .personal => .everyone
  | .global => .user actorUserId

theorem scope_ne (target : TargetScope) (actorUserId : ℕ) :
    target.scope actorUserId ≠ target.otherScope actorUserId := by
  cases target <;> exact Scope.noConfusion

theorem scope_mem (target : TargetScope) (actorUserId : ℕ) :
    target.scope actorUserId ∈ coverageScopes (some actorUserId) true
      ∧ target.otherScope actorUserId ∈ coverageScopes (some actorUserId) true := by
  cases target <;> simp [scope, otherScope, coverageScopes]

end TargetScope

/-- `SELECT hidden_at` of the record of an item at a scope. -/
def Db.itemHiddenAt (db : Db) (scope : Scope) (itemId : ℕ) : Option String :=
  (db.items.find? fun item => decide (item.scope = scope ∧ item.mediaItemId = itemId)).map
    HiddenItem.hiddenAt

/-- `SELECT hidden_at` of the record of a key at a scope. -/
def Db.keyHiddenAt (db : Db) (scope : Scope) (movieKey : String) : Option String :=
  (db.keys.find? fun key => decide (key.scope = scope ∧ key.movieKey = movieKey)).map
    HiddenKey.hiddenAt

/-- The values of `_hidden_scope_state`. -/
structure HiddenScopeState where
  personalItem : Option String
  personalKey : Option String
  globalItem : Option String
  globalKey : Option String

/-- `_hidden_scope_state` -/
def hiddenScopeState (s : State) (userId itemId : ℕ) (movieIdentity : Option Payload) :
    Except DbError (HiddenScopeState × State) := do
  let s ← s.look env
  let personalItem := s.db.itemHiddenAt (.user userId) itemId
  let s ← s.look env
  let globalItem := s.db.itemHiddenAt .everyone itemId
  match movieIdentity with
  | none => return (⟨personalItem, none, globalItem, none⟩, s)
  | some payload =>
    let s ← s.look env
    let personalKey := s.db.keyHiddenAt (.user userId) payload.movieKey
    let s ← s.look env
    let globalKey := s.db.keyHiddenAt .everyone payload.movieKey
    return (⟨personalItem, personalKey, globalItem, globalKey⟩, s)

/-- `_scope_is_exact` -/
def scopeIsExact (state : HiddenScopeState) (target : TargetScope) (hasMovieKey : Bool) : Bool :=
  let personalComplete := state.personalItem.isSome && (!hasMovieKey || state.personalKey.isSome)
  let personalAbsent := state.personalItem.isNone && (!hasMovieKey || state.personalKey.isNone)
  let globalComplete := state.globalItem.isSome && (!hasMovieKey || state.globalKey.isSome)
  let globalAbsent := state.globalItem.isNone && (!hasMovieKey || state.globalKey.isNone)
  match target with
  | .global => globalComplete && personalAbsent
  | .personal => personalComplete && globalAbsent

/-- `_scope_hidden_at` -/
def scopeHiddenAt (state : HiddenScopeState) (target : TargetScope) (now : String) : String :=
  match target with
  | .global => (state.globalItem.or state.globalKey).getD now
  | .personal => (state.personalItem.or state.personalKey).getD now

/-- `_set_hidden_scope_in_connection` -/
def setHiddenScopeInConnection (s : State) (actorUserId itemId : ℕ) (target : TargetScope)
    (movieIdentity : Option Payload) : Except DbError ((Bool × String) × State) := do
  let (state, s) ← hiddenScopeState env s actorUserId itemId movieIdentity
  let hiddenAt := scopeHiddenAt state target (env.now s.tick)
  if scopeIsExact state target movieIdentity.isSome then return ((false, hiddenAt), s)
  else
    let s ← hideInConnection env s (target.scope actorUserId) actorUserId itemId movieIdentity
      hiddenAt
    let s ← showInConnection env s (target.otherScope actorUserId) itemId movieIdentity
    return ((true, hiddenAt), s)

/-- What `set_hidden_media_item_scope` returns. -/
structure ScopeResult where
  itemId : ℕ
  targetScope : TargetScope
  changed : Bool
  hiddenAt : String
  message : String
  deriving DecidableEq

/-- `message` -/
def scopeMessage : TargetScope → String
  | .global => "This movie is hidden for everyone."
  | .personal => "This movie is now hidden only for your account."

/-- A transaction with a result: an exception rolls everything back. -/
def committed {α : Type} (s : State) (body : Except DbError (α × State)) :
    Except DbError α × State :=
  match body with
  | .ok (result, s') => (.ok result, s')
  | .error e => (.error e, s)

/-- The audit event of a call that has changed something. -/
def auditScope (s : State) (changed : Bool) : Except DbError State :=
  if changed then s.look env else .ok s

/-- The statements of `set_hidden_media_item_scope`; the last look commits them. -/
def scopeStatements (s : State) (actorUserId itemId : ℕ) (target : TargetScope) :
    Except DbError (ScopeResult × State) := do
  let (item, s) ← prepare env s itemId (some actorUserId) true
  if item.1 = none then throw .notFound
  let ((changed, hiddenAt), s) ← setHiddenScopeInConnection env s actorUserId itemId target item.2
  let s ← auditScope env s changed
  let s ← s.look env
  return (⟨itemId, target, changed, hiddenAt, scopeMessage target⟩, s)

/-- `set_hidden_media_item_scope` -/
def setHiddenMediaItemScope (s : State) (actorUserId itemId : ℕ) (target : TargetScope) :
    Except DbError ScopeResult × State :=
  committed s (scopeStatements env s actorUserId itemId target)

/-! ### Reading the records -/

variable {env}

theorem Db.itemHiddenAt_isSome {db : Db} {scope : Scope} {itemId : ℕ} :
    (db.itemHiddenAt scope itemId).isSome = true ↔ db.HasItem scope itemId := by
  rw [Db.itemHiddenAt, Option.isSome_map, List.find?_isSome]
  simp only [Db.HasItem, decide_eq_true_eq]

theorem Db.keyHiddenAt_isSome {db : Db} {scope : Scope} {movieKey : String} :
    (db.keyHiddenAt scope movieKey).isSome = true ↔ db.HasKey scope movieKey := by
  rw [Db.keyHiddenAt, Option.isSome_map, List.find?_isSome]
  simp only [Db.HasKey, decide_eq_true_eq]

/-- The state of the scopes, as the tables have it. -/
def Db.scopeState (db : Db) (userId itemId : ℕ) (payload : Payload) : HiddenScopeState :=
  ⟨db.itemHiddenAt (.user userId) itemId, db.keyHiddenAt (.user userId) payload.movieKey,
    db.itemHiddenAt .everyone itemId, db.keyHiddenAt .everyone payload.movieKey⟩

theorem hiddenScopeState_spec {s s' : State} {userId itemId : ℕ} {payload : Payload}
    {state : HiddenScopeState}
    (h : hiddenScopeState env s userId itemId (some payload) = .ok (state, s')) :
    s'.db = s.db ∧ state = s.db.scopeState userId itemId payload := by
  rw [hiddenScopeState] at h
  obtain ⟨s₁, h₁, h⟩ := Except.bind_eq_ok_iff.mp h
  obtain ⟨s₂, h₂, h⟩ := Except.bind_eq_ok_iff.mp h
  obtain ⟨s₃, h₃, h⟩ := Except.bind_eq_ok_iff.mp h
  obtain ⟨s₄, h₄, h⟩ := Except.bind_eq_ok_iff.mp h
  have hdb₁ := State.look_eq h₁
  have hdb₂ := State.look_eq h₂
  have hdb₃ := State.look_eq h₃
  have hdb₄ := State.look_eq h₄
  obtain ⟨hstate, rfl⟩ := Prod.mk.inj (Except.ok.inj h)
  rw [← hstate, hdb₄, hdb₃, hdb₂, hdb₁]
  exact ⟨rfl, rfl⟩

/-- The records stand at the target scope only. -/
theorem scopeIsExact_iff {db : Db} {actorUserId itemId : ℕ} {target : TargetScope}
    {payload : Payload} :
    scopeIsExact (db.scopeState actorUserId itemId payload) target true = true
      ↔ (db.HasItem (target.scope actorUserId) itemId
          ∧ db.HasKey (target.scope actorUserId) payload.movieKey)
        ∧ ¬ db.HasItem (target.otherScope actorUserId) itemId
        ∧ ¬ db.HasKey (target.otherScope actorUserId) payload.movieKey := by
  have hitem : ∀ scope, (db.itemHiddenAt scope itemId).isNone = true ↔
      ¬ db.HasItem scope itemId := by
    intro scope
    rw [← Db.itemHiddenAt_isSome, Option.isNone_iff_eq_none, Option.not_isSome_iff_eq_none]
  have hkey : ∀ scope, (db.keyHiddenAt scope payload.movieKey).isNone = true
      ↔ ¬ db.HasKey scope payload.movieKey := by
    intro scope
    rw [← Db.keyHiddenAt_isSome, Option.isNone_iff_eq_none, Option.not_isSome_iff_eq_none]
  cases target <;>
    simp only [scopeIsExact, Db.scopeState, TargetScope.scope, TargetScope.otherScope,
      Bool.not_true, Bool.false_or, Bool.and_eq_true, Db.itemHiddenAt_isSome,
      Db.keyHiddenAt_isSome, hitem, hkey]

/-- The time of the record of the item at the target scope, of the key, or the clock's. -/
theorem scopeHiddenAt_eq {db : Db} {actorUserId itemId : ℕ} {target : TargetScope}
    {payload : Payload} {now : String} :
    scopeHiddenAt (db.scopeState actorUserId itemId payload) target now
      = ((db.itemHiddenAt (target.scope actorUserId) itemId).or
          (db.keyHiddenAt (target.scope actorUserId) payload.movieKey)).getD now := by
  cases target <;> rfl

/-! ### Writing the records -/

theorem hideInConnection_items {s s' : State} {scope : Scope} {hiddenByUserId itemId : ℕ}
    {payload : Payload} {hiddenAt : String}
    (h : hideInConnection env s scope hiddenByUserId itemId (some payload) hiddenAt = .ok s') :
    s'.db.itemHiddenAt scope itemId
      = some ((s.db.itemHiddenAt scope itemId).getD hiddenAt) := by
  rw [hideInConnection] at h
  obtain ⟨looked, hlook, h⟩ := Except.bind_eq_ok_iff.mp h
  obtain ⟨looked', hlook', h⟩ := Except.bind_eq_ok_iff.mp h
  have hdb := State.look_eq hlook
  have hdb' := State.look_eq hlook'
  rw [← Except.ok.inj h]
  simp only [Db.itemHiddenAt, hdb', hdb]
  by_cases hknown : (s.db.items.any fun item =>
      decide (item.scope = scope ∧ item.mediaItemId = itemId)) = true
  · rw [if_pos hknown]
    obtain ⟨item, hitem⟩ := Option.isSome_iff_exists.mp
      (List.find?_isSome.mpr (List.any_eq_true.mp hknown))
    rw [hitem, Option.map_some, Option.getD_some]
  · have hnone : s.db.items.find? (fun item =>
        decide (item.scope = scope ∧ item.mediaItemId = itemId)) = none := by
      refine List.find?_eq_none.mpr fun item hitem hsame => hknown ?_
      exact List.any_eq_true.mpr ⟨item, hitem, hsame⟩
    rw [if_neg hknown, List.find?_append, hnone, Option.none_or, List.find?_singleton]
    simp

theorem showInConnection_items {s s' : State} {scope scope' : Scope} {itemId : ℕ}
    {movieIdentity : Option Payload} (hne : scope' ≠ scope)
    (h : showInConnection env s scope itemId movieIdentity = .ok s') :
    s'.db.itemHiddenAt scope' itemId = s.db.itemHiddenAt scope' itemId := by
  rw [showInConnection] at h
  obtain ⟨looked, hlook, h⟩ := Except.bind_eq_ok_iff.mp h
  have hdb := State.look_eq hlook
  have hitems : s'.db.items = s.db.items.filter fun item =>
      !decide (item.scope = scope ∧ item.mediaItemId = itemId) := by
    rcases movieIdentity with _ | payload
    · rw [← Except.ok.inj h, hdb]
    · rw [(deleteKey_spec h).2.1, hdb]
  rw [Db.itemHiddenAt, Db.itemHiddenAt, hitems, List.find?_filter]
  congr 2
  funext item
  by_cases hsame : item.scope = scope' ∧ item.mediaItemId = itemId
  · have hother : ¬ (item.scope = scope ∧ item.mediaItemId = itemId) := fun hscope =>
      hne (hsame.1.symm.trans hscope.1)
    simp [hsame, hne]
  · simp [hsame]

/-- What is written from a prepared state: the item is hidden at the target scope, and
then shown at the other. -/
structure ScopeSet (db mid db' : Db) (target other : Scope) (itemId : ℕ)
    (movieKey hiddenAt : String) : Prop where
  hideMedia : mid.media = db.media
  hideItem : ∀ scope i, mid.HasItem scope i ↔ db.HasItem scope i ∨ target = scope ∧ itemId = i
  hideKey : ∀ scope key, mid.HasKey scope key ↔ db.HasKey scope key ∨
    target = scope ∧ movieKey = key
  showMedia : db'.media = mid.media
  showItem : ∀ scope i, db'.HasItem scope i ↔ mid.HasItem scope i ∧ ¬(scope = other ∧ i = itemId)
  showKey : ∀ scope key, db'.HasKey scope key
    ↔ mid.HasKey scope key ∧ ¬(scope = other ∧ key = movieKey)
  time : db'.itemHiddenAt target itemId = some hiddenAt

theorem scopeSet_spec {s s' : State} {actorUserId itemId : ℕ} {target : TargetScope}
    {payload : Payload} {changed : Bool} {hiddenAt : String}
    (h : setHiddenScopeInConnection env s actorUserId itemId target (some payload)
      = .ok ((changed, hiddenAt), s')) :
    (∃ mid, ScopeSet s.db mid s'.db (target.scope actorUserId) (target.otherScope actorUserId)
      itemId payload.movieKey hiddenAt)
      ∧ (scopeIsExact (s.db.scopeState actorUserId itemId payload) target true = true →
        changed = false ∧ s'.db = s.db) := by
  rw [setHiddenScopeInConnection] at h
  obtain ⟨⟨state, looked⟩, hlook, h⟩ := Except.bind_eq_ok_iff.mp h
  obtain ⟨hdb, rfl⟩ := hiddenScopeState_spec hlook
  dsimp only [Option.isSome_some] at h
  by_cases hexact : scopeIsExact (s.db.scopeState actorUserId itemId payload) target true = true
  · rw [if_pos hexact] at h
    obtain ⟨hresult, rfl⟩ := Prod.mk.inj (Except.ok.inj h)
    obtain ⟨rfl, rfl⟩ := Prod.mk.inj hresult
    obtain ⟨⟨hitem, hkey⟩, hnoItem, hnoKey⟩ := scopeIsExact_iff.mp hexact
    refine ⟨⟨s.db, ?_⟩, fun _ => ⟨rfl, hdb⟩⟩
    -- the records stand so already
    constructor
    · rfl
    · refine fun scope i => ⟨Or.inl, ?_⟩
      rintro (hhas | ⟨rfl, rfl⟩)
      · exact hhas
      · exact hitem
    · refine fun scope key => ⟨Or.inl, ?_⟩
      rintro (hhas | ⟨rfl, rfl⟩)
      · exact hhas
      · exact hkey
    · rw [hdb]
    · refine fun scope i => ⟨fun hhas => ⟨hdb ▸ hhas, ?_⟩, fun hhas => hdb ▸ hhas.1⟩
      rintro ⟨rfl, rfl⟩
      exact hnoItem (hdb ▸ hhas)
    · refine fun scope key => ⟨fun hhas => ⟨hdb ▸ hhas, ?_⟩, fun hhas => hdb ▸ hhas.1⟩
      rintro ⟨rfl, rfl⟩
      exact hnoKey (hdb ▸ hhas)
    · obtain ⟨time, htime⟩ := Option.isSome_iff_exists.mp (Db.itemHiddenAt_isSome.mpr hitem)
      rw [hdb, scopeHiddenAt_eq, htime, Option.some_or, Option.getD_some]
  · rw [if_neg hexact] at h
    obtain ⟨hidden, hhide, h⟩ := Except.bind_eq_ok_iff.mp h
    obtain ⟨shown, hshow, h⟩ := Except.bind_eq_ok_iff.mp h
    obtain ⟨hresult, rfl⟩ := Prod.mk.inj (Except.ok.inj h)
    obtain ⟨rfl, rfl⟩ := Prod.mk.inj hresult
    obtain ⟨hhideMedia, hhideItem, hhideKey⟩ := hideInConnection_spec hhide
    obtain ⟨hshowMedia, hshowItem, hshowKey⟩ := showInConnection_spec hshow
    have htime := hideInConnection_items hhide
    rw [hdb] at hhideMedia hhideItem hhideKey htime
    refine ⟨⟨hidden.db, hhideMedia, hhideItem, hhideKey, hshowMedia, hshowItem, ?_, ?_⟩,
      fun hyes => absurd hyes hexact⟩
    · intro scope key
      rw [hshowKey scope key]
      refine and_congr_right fun _ => ⟨fun hall => hall payload rfl, fun hnot payload' hsome => ?_⟩
      cases hsome
      exact hnot
    · rw [showInConnection_items (target.scope_ne actorUserId) hshow, htime, scopeHiddenAt_eq]
      rcases s.db.itemHiddenAt (target.scope actorUserId) itemId with _ | time
      · rfl
      · rfl

section ScopeSet

variable {db mid db' : Db} {actorUserId itemId : ℕ} {target : TargetScope} {payload : Payload}
  {time : String} {row : MediaRow} {c : CopyIdentity}

/-- What is hidden then: the item at the target scope and not at the other, and the rest
as before. -/
theorem ScopeSet.hiddenAt
    (h : ScopeSet db mid db' (target.scope actorUserId) (target.otherScope actorUserId) itemId
      payload.movieKey time)
    (hdistinct : db.DistinctIdentities)
    (hcleared : Cleared env db itemId (coverageScopes (some actorUserId) true))
    (hrow : row ∈ db.media) (hid : row.id = itemId) (hc : row.hiddenCopyIdentity = some c)
    (htext : payload.movieKey = c.text) (scope : Scope) :
    db'.HiddenAt env scope =
      if scope = target.scope actorUserId then db.HiddenAt env scope ∪ {itemId}
      else if scope = target.otherScope actorUserId then db.HiddenAt env scope \ {itemId}
      else db.HiddenAt env scope := by
  have hne := target.scope_ne actorUserId
  have hmidDistinct : mid.DistinctIdentities := by
    rw [Db.DistinctIdentities, h.hideMedia]
    exact hdistinct
  have hmidCleared : ∀ r ∈ mid.media, r.id = itemId → ∀ key ∈ legacyHiddenKeysForRow env r,
      ¬ mid.HasKey (target.otherScope actorUserId) key := by
    intro r hr hrid key hkey hhas
    rcases (h.hideKey _ _).mp hhas with hold | ⟨hscope, -⟩
    · exact hcleared r (h.hideMedia ▸ hr) hrid _ (target.scope_mem actorUserId).2 key hkey hold
    · exact hne hscope
  have hhide : mid.HiddenAt env scope =
      if scope = target.scope actorUserId then db.HiddenAt env scope ∪ {row.id}
      else db.HiddenAt env scope :=
    hiddenAt_hide hdistinct hrow hc h.hideMedia (by rw [hid]; exact h.hideItem)
      (by rw [← htext]; exact h.hideKey) scope
  have hkeys : ∀ scope' key, db'.HasKey scope' key ↔ mid.HasKey scope' key
      ∧ ∀ payload', some payload = some payload' →
        ¬(scope' = target.otherScope actorUserId ∧ key = payload'.movieKey) := by
    intro scope' key
    rw [h.showKey scope' key]
    refine and_congr_right fun _ => ⟨fun hnot payload' hsome => ?_, fun hall => hall payload rfl⟩
    cases hsome
    exact hnot
  have hshow : db'.HiddenAt env scope =
      if scope = target.otherScope actorUserId then mid.HiddenAt env scope \ {itemId}
      else mid.HiddenAt env scope :=
    hiddenAt_show hmidDistinct h.showMedia hmidCleared
      (Or.inr ⟨row, h.hideMedia ▸ hrow, hid, c, payload, hc, rfl, htext⟩) h.showItem hkeys scope
  rw [hid] at hhide
  rw [hshow, hhide]
  -- the two scopes differ, so the item is not removed where it was added
  by_cases htarget : scope = target.scope actorUserId
  · have hother : scope ≠ target.otherScope actorUserId := fun heq => hne (htarget.symm.trans heq)
    rw [if_neg hother, if_pos htarget, if_pos htarget]
  · rw [if_neg htarget, if_neg htarget]

/-- No legacy key of the item is left. -/
theorem ScopeSet.cleared
    (h : ScopeSet db mid db' (target.scope actorUserId) (target.otherScope actorUserId) itemId
      payload.movieKey time)
    (hcleared : Cleared env db itemId (coverageScopes (some actorUserId) true))
    (htext : payload.movieKey = c.text) :
    Cleared env db' itemId (coverageScopes (some actorUserId) true) := by
  intro r hr hid scope hscope key hkey hhas
  rcases (h.hideKey _ _).mp ((h.showKey _ _).mp hhas).1 with hold | ⟨-, hmovie⟩
  · exact hcleared r (h.hideMedia ▸ h.showMedia ▸ hr) hid scope hscope key hkey hold
  · have hcopy := not_isCopyKey_of_mem_legacy env hkey
    rw [← hmovie, htext, c.isCopyKey_text] at hcopy
    cases hcopy

/-- The records stand at the target scope only. -/
theorem ScopeSet.exact
    (h : ScopeSet db mid db' (target.scope actorUserId) (target.otherScope actorUserId) itemId
      payload.movieKey time) :
    scopeIsExact (db'.scopeState actorUserId itemId payload) target true = true := by
  have hne := target.scope_ne actorUserId
  refine scopeIsExact_iff.mpr ⟨⟨?_, ?_⟩, fun hhas => ?_, fun hhas => ?_⟩
  · exact (h.showItem _ _).mpr ⟨(h.hideItem _ _).mpr (Or.inr ⟨rfl, rfl⟩), fun heq => hne heq.1⟩
  · exact (h.showKey _ _).mpr ⟨(h.hideKey _ _).mpr (Or.inr ⟨rfl, rfl⟩), fun heq => hne heq.1⟩
  · exact ((h.showItem _ _).mp hhas).2 ⟨rfl, rfl⟩
  · exact ((h.showKey _ _).mp hhas).2 ⟨rfl, rfl⟩

end ScopeSet

/-! ### The next call -/

section Again

variable {s s' : State} {actorUserId itemId : ℕ} {target : TargetScope} {row : MediaRow}
  {c : CopyIdentity}

/-- There is nothing to replace. -/
theorem materialize_cleared
    (hcleared : Cleared env s.db itemId (coverageScopes (some actorUserId) true)) :
    materializeLegacyHiddenCoverageForItem env s itemId (some actorUserId) true = .ok s := by
  rw [materializeLegacyHiddenCoverageForItem]
  split
  · rfl
  · next selected hfind =>
    have hselected := List.mem_of_find?_eq_some hfind
    have hselectedId : selected.id = itemId := by
      have hfound := List.find?_some hfind
      exact of_decide_eq_true hfound
    refine if_pos (List.filter_eq_nil_iff.mpr fun scope hscope hany => ?_)
    obtain ⟨key, hkey, hhas⟩ := List.any_eq_true.mp hany
    exact hcleared selected hselected hselectedId scope hscope key hkey (of_decide_eq_true hhas)

/-- The item is found as it is. -/
theorem find_row (hrow : row ∈ s.db.media) (hid : row.id = itemId) :
    s.db.media.find? (fun r => decide (r.id = itemId)) = some row := by
  have hsome : (s.db.media.find? fun r => decide (r.id = itemId)).isSome = true :=
    List.find?_isSome.mpr ⟨row, hrow, decide_eq_true hid⟩
  obtain ⟨found, hfound⟩ := Option.isSome_iff_exists.mp hsome
  have hfoundId : found.id = itemId := by
    have hfits := List.find?_some hfound
    exact of_decide_eq_true hfits
  rw [hfound, s.db.row_eq (List.mem_of_find?_eq_some hfound) hrow (hfoundId.trans hid.symm)]

/-- The next call starts from the tables as they are. -/
theorem prepare_again {found : Option MediaRow × Option Payload} (hrow : row ∈ s.db.media)
    (hid : row.id = itemId) (hc : row.hiddenCopyIdentity = some c)
    (hcleared : Cleared env s.db itemId (coverageScopes (some actorUserId) true))
    (h : prepare env s itemId (some actorUserId) true = .ok (found, s')) :
    s'.db.items = s.db.items ∧ s'.db.keys = s.db.keys
      ∧ ∃ payload, found = (some row, some payload) ∧ payload.movieKey = c.text := by
  rw [prepare, materialize_cleared hcleared] at h
  change loadHiddenMediaIdentity env s itemId = .ok (found, s') at h
  rw [loadHiddenMediaIdentity, find_row hrow hid] at h
  obtain ⟨⟨payload, resolved⟩, hpayload, h⟩ := Except.bind_eq_ok_iff.mp h
  obtain ⟨rfl, rfl⟩ := Prod.mk.inj (Except.ok.inj h)
  rw [resolveHiddenCopyIdentityPayload] at hpayload
  obtain ⟨⟨identity, resolved'⟩, hresolve, hpayload⟩ := Except.bind_eq_ok_iff.mp hpayload
  obtain ⟨rfl, rfl⟩ := Prod.mk.inj (Except.ok.inj hpayload)
  obtain ⟨hidentity, -, hitems, hkeys⟩ := resolve_resolved (Or.inl ⟨c, hc⟩) hresolve
  rw [hidentity, hc]
  exact ⟨hitems, hkeys, payloadOf env row c, rfl, rfl⟩

/-- The next call finds the records that the first one left. -/
theorem scopeState_again {db db' : Db} {payload payload' : Payload} (hitems : db'.items = db.items)
    (hkeys : db'.keys = db.keys) (htext : payload'.movieKey = payload.movieKey) :
    db'.scopeState actorUserId itemId payload' = db.scopeState actorUserId itemId payload := by
  simp only [Db.scopeState, Db.itemHiddenAt, Db.keyHiddenAt, hitems, hkeys, htext]

theorem committed_eq_ok {α : Type} {body : Except DbError (α × State)} {result : α} :
    committed s body = (.ok result, s') ↔ body = .ok (result, s') := by
  rcases body with e | ⟨returned, after⟩
  · simp [committed]
  · simp [committed]

/-- What a call that returns has done. -/
theorem setHiddenMediaItemScope_ok {result : ScopeResult}
    (h : setHiddenMediaItemScope env s actorUserId itemId target = (.ok result, s')) :
    ∃ found prepared written,
      prepare env s itemId (some actorUserId) true = .ok (found, prepared) ∧ found.1 ≠ none
        ∧ setHiddenScopeInConnection env prepared actorUserId itemId target found.2
          = .ok ((result.changed, result.hiddenAt), written)
        ∧ s'.db = written.db := by
  obtain ⟨⟨found, prepared⟩, hprepare, h⟩ := Except.bind_eq_ok_iff.mp (committed_eq_ok.mp h)
  dsimp only at h
  split at h
  · cases h
  next hfound =>
  obtain ⟨⟨⟨changed, hiddenAt⟩, written⟩, hset, h⟩ := Except.bind_eq_ok_iff.mp h
  obtain ⟨audited, haudit, h⟩ := Except.bind_eq_ok_iff.mp h
  obtain ⟨looked, hcommit, h⟩ := Except.bind_eq_ok_iff.mp h
  obtain ⟨rfl, rfl⟩ := Prod.mk.inj (Except.ok.inj h)
  refine ⟨found, prepared, written, hprepare, hfound, hset, ?_⟩
  rw [State.look_eq hcommit]
  cases changed
  · cases haudit
    rfl
  · exact State.look_eq haudit

/-- No statement fails from here on. -/
def Quiet (env : Env) (s : State) : Prop := ∀ tick, s.tick ≤ tick → env.fault tick = false

theorem Quiet.look (h : Quiet env s) :
    ∃ s', s.look env = .ok s' ∧ s'.db = s.db ∧ Quiet env s' := by
  refine ⟨{ s with tick := s.tick + 1 }, ?_, rfl, fun tick htick => h tick (by
    have hstep : s.tick + 1 ≤ tick := htick
    omega)⟩
  rw [State.look, h s.tick le_rfl]
  rfl

theorem Quiet.recordAliases (h : Quiet env s) (row : MediaRow) (identity : CopyIdentity) :
    ∃ s', recordLocalCopyIdentityAliases env s row identity = .ok s' ∧ Quiet env s' := by
  rw [recordLocalCopyIdentityAliases.eq_def]
  dsimp only
  rcases localLocatorHash env row with _ | locatorHash
  · exact ⟨s, rfl, h⟩
  · obtain ⟨looked, hlook, -, hquiet⟩ := h.look
    rw [hlook]
    exact ⟨_, rfl, fun tick htick => hquiet tick htick⟩

theorem Quiet.prepare (h : Quiet env s) (hrow : row ∈ s.db.media) (hid : row.id = itemId)
    (hc : row.hiddenCopyIdentity = some c)
    (hcleared : Cleared env s.db itemId (coverageScopes (some actorUserId) true)) :
    ∃ found s', HiddenKeys.prepare env s itemId (some actorUserId) true = .ok (found, s')
      ∧ Quiet env s' := by
  obtain ⟨recorded, hrecord, hquiet⟩ := h.recordAliases row c
  have hresolve : resolveHiddenCopyIdentity env s row = .ok (some c, recorded) := by
    rw [resolveHiddenCopyIdentity.eq_def, hc]
    exact Except.bind_eq_ok_iff.mpr ⟨recorded, hrecord, rfl⟩
  have hpayload : resolveHiddenCopyIdentityPayload env s row
      = .ok (some (payloadOf env row c), recorded) :=
    Except.bind_eq_ok_iff.mpr ⟨_, hresolve, rfl⟩
  refine ⟨(some row, some (payloadOf env row c)), recorded, ?_, hquiet⟩
  refine Except.bind_eq_ok_iff.mpr ⟨s, materialize_cleared hcleared, ?_⟩
  rw [loadHiddenMediaIdentity, find_row hrow hid]
  exact Except.bind_eq_ok_iff.mpr ⟨_, hpayload, rfl⟩

theorem Quiet.hiddenScopeState (h : Quiet env s) (actorUserId itemId : ℕ) (payload : Payload) :
    ∃ state s', HiddenKeys.hiddenScopeState env s actorUserId itemId (some payload)
      = .ok (state, s') ∧ Quiet env s' := by
  obtain ⟨s₁, h₁, -, hquiet₁⟩ := h.look
  obtain ⟨s₂, h₂, -, hquiet₂⟩ := hquiet₁.look
  obtain ⟨s₃, h₃, -, hquiet₃⟩ := hquiet₂.look
  obtain ⟨s₄, h₄, -, hquiet₄⟩ := hquiet₃.look
  refine ⟨⟨s₁.db.itemHiddenAt (.user actorUserId) itemId,
    s₃.db.keyHiddenAt (.user actorUserId) payload.movieKey, s₂.db.itemHiddenAt .everyone itemId,
    s₄.db.keyHiddenAt .everyone payload.movieKey⟩, s₄, ?_, hquiet₄⟩
  refine Except.bind_eq_ok_iff.mpr ⟨s₁, h₁, Except.bind_eq_ok_iff.mpr ⟨s₂, h₂, ?_⟩⟩
  exact Except.bind_eq_ok_iff.mpr ⟨s₃, h₃, Except.bind_eq_ok_iff.mpr ⟨s₄, h₄, rfl⟩⟩

/-- Where the records stand at the target scope only, the statements return. -/
theorem Quiet.setHiddenScope (h : Quiet env s) {payload : Payload}
    (hexact : scopeIsExact (s.db.scopeState actorUserId itemId payload) target true = true) :
    ∃ time s', setHiddenScopeInConnection env s actorUserId itemId target (some payload)
      = .ok ((false, time), s') ∧ Quiet env s' := by
  obtain ⟨state, looked, hlook, hquiet⟩ := h.hiddenScopeState actorUserId itemId payload
  obtain ⟨-, rfl⟩ := hiddenScopeState_spec hlook
  refine ⟨scopeHiddenAt (s.db.scopeState actorUserId itemId payload) target (env.now looked.tick),
    looked, Except.bind_eq_ok_iff.mpr ⟨_, hlook, ?_⟩, hquiet⟩
  exact if_pos hexact

end Again

/-- Changing the scope of an item moves it there.  When the call returns, the item is
hidden at the target scope and shown at the other one; every other item and scope is as
before, besides the rows that were given an identity that was hidden.  The next call, which
can only fail where a statement does, finds nothing to change and returns the same time.
When the call raises, nothing has changed. -/
theorem scope_change_moves_one_item (env : Env) (s : State) (hdistinct : s.db.DistinctIdentities)
    (hderivable : ∀ row ∈ s.db.media, ¬ Underivable env row) (actorUserId itemId : ℕ)
    (target : TargetScope) :
    match setHiddenMediaItemScope env s actorUserId itemId target with
    | (.ok result, s') =>
      (∀ scope, s'.db.HiddenAt env scope =
        if scope = target.scope actorUserId then
          (s.db.HiddenAt env scope ∪ Gained s.db s'.db scope) ∪ {itemId}
        else if scope = target.otherScope actorUserId then
          (s.db.HiddenAt env scope ∪ Gained s.db s'.db scope) \ {itemId}
        else s.db.HiddenAt env scope ∪ Gained s.db s'.db scope)
      ∧ (∀ result' s'', setHiddenMediaItemScope env s' actorUserId itemId target
          = (.ok result', s'') →
        result'.changed = false ∧ result'.hiddenAt = result.hiddenAt)
      ∧ (Quiet env s' → ∃ result' s'', setHiddenMediaItemScope env s' actorUserId itemId target
          = (.ok result', s''))
    | (.error _, s') => s'.db = s.db := by
  rcases hcall : setHiddenMediaItemScope env s actorUserId itemId target with ⟨outcome, s'⟩
  rcases outcome with e | result
  · dsimp only
    rw [setHiddenMediaItemScope, committed.eq_def] at hcall
    split at hcall
    · cases hcall
    · rw [← (Prod.mk.inj hcall).2]
  dsimp only
  obtain ⟨found, prepared, written, hprepare, hfound, hset, hdb⟩ := setHiddenMediaItemScope_ok hcall
  have hprepared := prepare_spec hderivable hprepare
  rcases hprepared.found with ⟨hnone, -⟩ | ⟨row, hrow, hid, c, payload, hc, -, hpayload, htext⟩
  · exact absurd hnone hfound
  rw [hpayload] at hset
  obtain ⟨⟨mid, hwritten⟩, -⟩ := scopeSet_spec hset
  rw [← hdb] at hwritten
  have hmedia : s'.db.media = prepared.db.media := hwritten.showMedia.trans hwritten.hideMedia
  have hcleared := hwritten.cleared hprepared.cleared htext
  have hrow' : row ∈ s'.db.media := hmedia ▸ hrow
  refine ⟨fun scope => ?_, fun result' s'' hagain => ?_, fun hquiet => ?_⟩
  · have hgained : Gained s.db s'.db scope = Gained s.db prepared.db scope := by
      rw [Gained, Gained, hmedia]
    rw [hwritten.hiddenAt (hprepared.distinct hdistinct) hprepared.cleared hrow hid
      hc htext, hgained, hprepared.hiddenAt hdistinct]
  · obtain ⟨found', prepared', written', hprepare', -, hset', -⟩ :=
      setHiddenMediaItemScope_ok hagain
    obtain ⟨hitems, hkeys, payload', rfl, htext'⟩ :=
      prepare_again hrow' hid hc hcleared hprepare'
    have hexact : scopeIsExact (prepared'.db.scopeState actorUserId itemId payload') target true
        = true := by
      rw [scopeState_again hitems hkeys (htext'.trans htext.symm)]
      exact hwritten.exact
    obtain ⟨⟨mid', hwritten'⟩, hunchanged⟩ := scopeSet_spec hset'
    obtain ⟨hchanged, hsame⟩ := hunchanged hexact
    refine ⟨hchanged, Option.some.inj ?_⟩
    rw [← hwritten'.time, ← hwritten.time, hsame, Db.itemHiddenAt, Db.itemHiddenAt, hitems]
  · obtain ⟨found', prepared', hprepare', hquiet'⟩ := hquiet.prepare hrow' hid hc hcleared
    obtain ⟨hitems, hkeys, payload', rfl, htext'⟩ :=
      prepare_again hrow' hid hc hcleared hprepare'
    have hexact : scopeIsExact (prepared'.db.scopeState actorUserId itemId payload') target true
        = true := by
      rw [scopeState_again hitems hkeys (htext'.trans htext.symm)]
      exact hwritten.exact
    obtain ⟨time, set, hset', hquiet''⟩ := hquiet'.setHiddenScope hexact
    obtain ⟨last, hcommit, -, -⟩ := hquiet''.look
    have hstatements : scopeStatements env s' actorUserId itemId target
        = .ok (⟨itemId, target, false, time, scopeMessage target⟩, last) :=
      Except.bind_eq_ok_iff.mpr ⟨_, hprepare', Except.bind_eq_ok_iff.mpr ⟨_, hset',
        Except.bind_eq_ok_iff.mpr ⟨set, rfl, Except.bind_eq_ok_iff.mpr ⟨last, hcommit, rfl⟩⟩⟩⟩
    exact ⟨_, last, committed_eq_ok.mpr hstatements⟩

/-- Giving the film of user 7 a scope of its own hides it for user 8 as well. -/
theorem scope_change_hides_for_another :
    recreatedLibrary.DistinctIdentities ∧
      (∀ row ∈ recreatedLibrary.media, ¬ Underivable cloudEnv row) ∧
      ∃ result s', setHiddenMediaItemScope cloudEnv ⟨recreatedLibrary, 0⟩ 7 1 .personal
          = (.ok result, s') ∧
        1 ∉ recreatedLibrary.HiddenAt cloudEnv (.user 8) ∧
        1 ∈ s'.db.HiddenAt cloudEnv (.user 8) := by
  refine ⟨Db.distinctIdentities_of_nodup (by decide +kernel), by decide +kernel, _, _, rfl, ?_, ?_⟩
  · decide +kernel
  · decide +kernel

/-- The two copies that a legacy key hides for user 7: one of them is hidden for everyone. -/
theorem scope_change_legacyLibrary :
    ∃ result s', setHiddenMediaItemScope cloudEnv ⟨legacyLibrary, 0⟩ 7 2 .global = (.ok result, s')
      ∧ ∀ result' s'', setHiddenMediaItemScope cloudEnv s' 7 2 .global = (.ok result', s'') →
        result'.changed = false ∧ result'.hiddenAt = result.hiddenAt := by
  refine ⟨_, _, rfl, ?_⟩
  exact (scope_change_moves_one_item cloudEnv ⟨legacyLibrary, 0⟩
    (Db.distinctIdentities_of_nodup (by decide +kernel)) (by decide +kernel) 7 2 .global).2.1

end HiddenKeys
