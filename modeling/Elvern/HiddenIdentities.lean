/-
What resolving copy identities leaves alone.

`Resolves db db'` says that a run gave copy identities to rows that had none and touched no
hidden record.  Everything is hidden afterwards that was hidden before, and besides that the
rows whose new identity was a stored key already (`Gained`).

* `resolve_spec`, `loadIdentityRows_spec` — one row, and all rows of the library;
* `Resolves.hiddenAt` — what is hidden after a resolution.
-/
import Mathlib.Data.List.Pairwise
import Mathlib.Algebra.Order.BigOperators.Group.List
import Mathlib.Algebra.Order.Group.Nat
import Elvern.HiddenTables

namespace HiddenKeys

variable (env : Env)

/-- `r'` is `r`, or `r` had no identity and has got one. -/
def Filled (r r' : MediaRow) : Prop :=
  r' = r ∨ r.hiddenCopyIdentity = none ∧ ∃ c, r' = r.withIdentity c

/-- The row has no copy identity, and none can be made for it. -/
def Underivable (row : MediaRow) : Prop :=
  row.hiddenCopyIdentity = none ∧ (localSourceScope env row).1 ≠ "local" ∧
    deriveHiddenCopyIdentity env row = none

/-- Resolving the row changes nothing any more. -/
def Resolved (row : MediaRow) : Prop :=
  (∃ c, row.hiddenCopyIdentity = some c) ∨ Underivable env row

/-- `db'` is `db` with identities for some of the rows that had none. -/
structure Resolves (db db' : Db) : Prop where
  items : db'.items = db.items
  keys : db'.keys = db.keys
  media : ∃ g, db'.media = db.media.map g ∧ ∀ r ∈ db.media, Filled r (g r)
  distinct : db.DistinctIdentities → db'.DistinctIdentities

/-- The items that had no identity and were given one that is a key of the scope. -/
def Gained (db db' : Db) (scope : Scope) : Set ℕ :=
  {i | ∃ r ∈ db.media, ∃ r' ∈ db'.media, r.id = i ∧ r'.id = i ∧ r.hiddenCopyIdentity = none ∧
    ∃ c, r'.hiddenCopyIdentity = some c ∧ db.HasKey scope c.text}

variable {env}

/-! ### Filling -/

theorem Filled.id_eq {r r' : MediaRow} (h : Filled r r') : r'.id = r.id := by
  obtain rfl | ⟨-, c, rfl⟩ := h
  · rfl
  · rfl

theorem Filled.trans {r r' r'' : MediaRow} (h : Filled r r') (h' : Filled r' r'') :
    Filled r r'' := by
  obtain rfl | ⟨hnone, c, rfl⟩ := h
  · exact h'
  · obtain rfl | ⟨hsome, c', rfl⟩ := h'
    · exact Or.inr ⟨hnone, c, rfl⟩
    · exact Or.inr ⟨hnone, c', rfl⟩

theorem Filled.identity {r r' : MediaRow} (h : Filled r r') {c : CopyIdentity}
    (hc : r.hiddenCopyIdentity = some c) : r'.hiddenCopyIdentity = some c := by
  obtain rfl | ⟨hnone, -⟩ := h
  · exact hc
  · rw [hnone] at hc
    cases hc

theorem Filled.resolved {r r' : MediaRow} (h : Filled r r') (hr : Resolved env r) :
    Resolved env r' := by
  obtain rfl | ⟨-, c, rfl⟩ := h
  · exact hr
  · exact Or.inl ⟨c, rfl⟩

/-- The identity of a row has nothing to do with its legacy keys. -/
theorem legacyHiddenKeys_withIdentity (r : MediaRow) (c : CopyIdentity) :
    legacyHiddenKeysForRow env (r.withIdentity c) = legacyHiddenKeysForRow env r := rfl

theorem Filled.legacy {r r' : MediaRow} (h : Filled r r') :
    legacyHiddenKeysForRow env r' = legacyHiddenKeysForRow env r := by
  obtain rfl | ⟨-, c, rfl⟩ := h
  · rfl
  · exact legacyHiddenKeys_withIdentity r c

/-- A row of the table is determined by its id. -/
theorem Db.row_eq (db : Db) {r r' : MediaRow} (hr : r ∈ db.media) (hr' : r' ∈ db.media)
    (h : r.id = r'.id) : r = r' :=
  List.inj_on_of_nodup_map db.ids_nodup hr hr' h

namespace Resolves

variable {db db' db'' : Db}

theorem refl (db : Db) : Resolves db db where
  items := rfl
  keys := rfl
  media := ⟨id, by rw [List.map_id], fun _ _ => Or.inl rfl⟩
  distinct := id

theorem trans (h : Resolves db db') (h' : Resolves db' db'') : Resolves db db'' where
  items := h'.items.trans h.items
  keys := h'.keys.trans h.keys
  media := by
    obtain ⟨g, hg, hfilled⟩ := h.media
    obtain ⟨g', hg', hfilled'⟩ := h'.media
    refine ⟨g' ∘ g, by rw [hg', hg, List.map_map], fun r hr => ?_⟩
    exact (hfilled r hr).trans (hfilled' (g r) (hg ▸ List.mem_map_of_mem hr))
  distinct := fun hdistinct => h'.distinct (h.distinct hdistinct)

/-- A change of neither rows nor records. -/
theorem of_eq (hmedia : db'.media = db.media) (hitems : db'.items = db.items)
    (hkeys : db'.keys = db.keys) : Resolves db db' where
  items := hitems
  keys := hkeys
  media := ⟨id, by rw [List.map_id, hmedia], fun _ _ => Or.inl rfl⟩
  distinct := by
    intro hdistinct
    rw [Db.DistinctIdentities, hmedia]
    exact hdistinct

/-- Every row goes to one with its id, -/
theorem row (h : Resolves db db') {r : MediaRow} (hr : r ∈ db.media) :
    ∃ r' ∈ db'.media, Filled r r' := by
  obtain ⟨g, hg, hfilled⟩ := h.media
  exact ⟨g r, hg ▸ List.mem_map_of_mem hr, hfilled r hr⟩

/-- and every row comes from one. -/
theorem row_of (h : Resolves db db') {r' : MediaRow} (hr' : r' ∈ db'.media) :
    ∃ r ∈ db.media, Filled r r' := by
  obtain ⟨g, hg, hfilled⟩ := h.media
  rw [hg] at hr'
  obtain ⟨r, hr, rfl⟩ := List.mem_map.mp hr'
  exact ⟨r, hr, hfilled r hr⟩

theorem hasItem_iff (h : Resolves db db') {scope : Scope} {i : ℕ} :
    db'.HasItem scope i ↔ db.HasItem scope i := by
  rw [Db.HasItem, Db.HasItem, h.items]

theorem hasKey_iff (h : Resolves db db') {scope : Scope} {key : String} :
    db'.HasKey scope key ↔ db.HasKey scope key := by
  rw [Db.HasKey, Db.HasKey, h.keys]

/-- After a resolution everything is hidden that was hidden, and the rows that it gave an identity
that was hidden. -/
theorem hiddenAt (h : Resolves db db') (scope : Scope) :
    db'.HiddenAt env scope = db.HiddenAt env scope ∪ Gained db db' scope := by
  ext i
  constructor
  · rintro ⟨r', hr', rfl, hhidden⟩
    obtain ⟨r, hr, hfilled⟩ := h.row_of hr'
    rcases hhidden with hitem | ⟨key, hkey, hhas⟩
    · refine Or.inl ⟨r, hr, hfilled.id_eq.symm, Or.inl ?_⟩
      rw [← hfilled.id_eq]
      exact h.hasItem_iff.mp hitem
    · rw [h.hasKey_iff] at hhas
      rcases (mem_hiddenKeyCandidates env).mp hkey with ⟨c, hc, rfl⟩ | hlegacy
      · rcases hold : r.hiddenCopyIdentity with _ | c'
        · exact Or.inr ⟨r, hr, r', hr', hfilled.id_eq.symm, rfl, hold, c, hc, hhas⟩
        · have hsame := hfilled.identity hold
          rw [hc] at hsame
          refine Or.inl ⟨r, hr, hfilled.id_eq.symm, Or.inr ⟨c.text, ?_, hhas⟩⟩
          exact (mem_hiddenKeyCandidates env).mpr (Or.inl ⟨c', hold, by rw [Option.some.inj hsame]⟩)
      · rw [hfilled.legacy] at hlegacy
        exact Or.inl ⟨r, hr, hfilled.id_eq.symm, Or.inr ⟨key,
          (mem_hiddenKeyCandidates env).mpr (Or.inr hlegacy), hhas⟩⟩
  · rintro (⟨r, hr, rfl, hhidden⟩ | ⟨r, hr, r', hr', rfl, hid, -, c, hc, hhas⟩)
    · obtain ⟨r', hr', hfilled⟩ := h.row hr
      refine ⟨r', hr', hfilled.id_eq, ?_⟩
      rcases hhidden with hitem | ⟨key, hkey, hhas⟩
      · left
        rw [hfilled.id_eq]
        exact h.hasItem_iff.mpr hitem
      · refine Or.inr ⟨key, ?_, h.hasKey_iff.mpr hhas⟩
        rcases (mem_hiddenKeyCandidates env).mp hkey with ⟨c, hc, rfl⟩ | hlegacy
        · exact (mem_hiddenKeyCandidates env).mpr (Or.inl ⟨c, hfilled.identity hc, rfl⟩)
        · rw [← hfilled.legacy] at hlegacy
          exact (mem_hiddenKeyCandidates env).mpr (Or.inr hlegacy)
    · exact ⟨r', hr', hid, Or.inr ⟨c.text,
        (mem_hiddenKeyCandidates env).mpr (Or.inl ⟨c, hc, rfl⟩), h.hasKey_iff.mpr hhas⟩⟩

end Resolves

/-! ### One row -/

theorem Db.activeIdentityOwner_eq_false {db : Db} {identity : CopyIdentity} {i : ℕ} :
    db.activeIdentityOwner identity i = false ↔
      ∀ r ∈ db.media, r.hiddenCopyIdentity = some identity → r.id = i := by
  rw [Db.activeIdentityOwner, List.any_eq_false]
  constructor
  · intro h r hr hidentity
    by_contra hid
    exact h r hr (decide_eq_true ⟨hidentity, hid⟩)
  · intro h r hr hfound
    obtain ⟨hidentity, hid⟩ := of_decide_eq_true hfound
    exact hid (h r hr hidentity)

/-- Giving a row without an identity one that no other row has. -/
theorem Db.resolves_setIdentity {db : Db} {row : MediaRow} {identity : CopyIdentity}
    (hrow : row ∈ db.media) (hnone : row.hiddenCopyIdentity = none)
    (hfree : db.activeIdentityOwner identity row.id = false) :
    Resolves db (db.setIdentity identity row.id) where
  items := rfl
  keys := rfl
  media := by
    refine ⟨_, rfl, fun r hr => ?_⟩
    split
    · next hid =>
      rw [db.row_eq hr hrow hid]
      exact Or.inr ⟨hnone, identity, rfl⟩
    · exact Or.inl rfl
  distinct := by
    intro hdistinct
    have hother := Db.activeIdentityOwner_eq_false.mp hfree
    rintro r₁ h₁ r₂ h₂ c hc₁ hc₂
    obtain ⟨q₁, hq₁, rfl⟩ := List.mem_map.mp h₁
    obtain ⟨q₂, hq₂, rfl⟩ := List.mem_map.mp h₂
    by_cases hid₁ : q₁.id = row.id
    · by_cases hid₂ : q₂.id = row.id
      · rw [db.row_eq hq₁ hq₂ (hid₁.trans hid₂.symm)]
      · rw [if_pos hid₁] at hc₁
        rw [if_neg hid₂] at hc₂
        cases Option.some.inj hc₁
        exact absurd (hother q₂ hq₂ hc₂) hid₂
    · by_cases hid₂ : q₂.id = row.id
      · rw [if_neg hid₁] at hc₁
        rw [if_pos hid₂] at hc₂
        cases Option.some.inj hc₂
        exact absurd (hother q₁ hq₁ hc₁) hid₁
      · rw [if_neg hid₁] at hc₁
        rw [if_neg hid₂] at hc₂
        rw [hdistinct q₁ hq₁ q₂ hq₂ c hc₁ hc₂]

theorem State.look_eq {s s' : State} (h : s.look env = .ok s') : s'.db = s.db := by
  rw [State.look] at h
  split at h
  · cases h
  · rw [← Except.ok.inj h]

/-- Recording aliases touches neither rows nor hidden records. -/
theorem recordAliases_spec {s s' : State} {row : MediaRow} {identity : CopyIdentity}
    (h : recordLocalCopyIdentityAliases env s row identity = .ok s') :
    s'.db.media = s.db.media ∧ s'.db.items = s.db.items ∧ s'.db.keys = s.db.keys := by
  rw [recordLocalCopyIdentityAliases] at h
  split at h
  · rw [← Except.ok.inj h]
    exact ⟨rfl, rfl, rfl⟩
  · obtain ⟨looked, hlook, h⟩ := Except.bind_eq_ok_iff.mp h
    rw [← Except.ok.inj h]
    have hdb := State.look_eq hlook
    exact ⟨by rw [hdb], by rw [hdb], by rw [hdb]⟩

/-- A new identity is not in use. -/
theorem newHiddenCopyIdentity_spec (env : Env) (s : State) (active : List CopyIdentity) :
    (newHiddenCopyIdentity env s active).2.db = s.db ∧
      (newHiddenCopyIdentity env s active).1 ∉ active ∧
      ∃ n, (newHiddenCopyIdentity env s active).1 = env.token n :=
  ⟨rfl, (Nat.find_spec (env.token_eventually active s.tick)).2, _, rfl⟩

/-- The identity of a local row is not that of another row. -/
theorem newLocalIdentity_spec {s s' : State} {row : MediaRow} {identity : CopyIdentity}
    (h : newLocalIdentity env s row = .ok (identity, s')) :
    s'.db = s.db ∧ s.db.activeIdentityOwner identity row.id = false := by
  rw [newLocalIdentity] at h
  obtain ⟨looked, hlook, h⟩ := Except.bind_eq_ok_iff.mp h
  have hdb := State.look_eq hlook
  split at h
  · next candidate hcandidates =>
    obtain ⟨rfl, rfl⟩ := Prod.mk.inj (Except.ok.inj h)
    refine ⟨hdb, ?_⟩
    have hmem := hcandidates ▸ List.mem_singleton_self candidate
    exact of_decide_eq_true (List.mem_filter.mp hmem).2
  · have hnew := Except.ok.inj h
    set others := (looked.db.media.filter fun r => decide (r.id ≠ row.id)).filterMap
      MediaRow.hiddenCopyIdentity with hothers
    obtain ⟨hsame, hfresh, -⟩ := newHiddenCopyIdentity_spec env looked others
    rw [hnew] at hsame hfresh
    refine ⟨hsame.trans hdb, Db.activeIdentityOwner_eq_false.mpr fun r hr hidentity => ?_⟩
    by_contra hid
    rw [hothers, hdb] at hfresh
    exact hfresh (List.mem_filterMap.mpr ⟨r, List.mem_filter.mpr ⟨hr, decide_eq_true hid⟩,
      hidentity⟩)

/-- What `resolve_hidden_copy_identity` does: it returns the identity of the row, or there is none
to be made, or it has stored one that no other row has. -/
theorem resolve_spec {s s' : State} {row : MediaRow} {identity : Option CopyIdentity}
    (h : resolveHiddenCopyIdentity env s row = .ok (identity, s')) :
    s'.db.items = s.db.items ∧ s'.db.keys = s.db.keys ∧
      (((∃ c, row.hiddenCopyIdentity = some c ∧ identity = some c) ∨
          Underivable env row ∧ identity = none) ∧ s'.db.media = s.db.media ∨
        ∃ c, row.hiddenCopyIdentity = none ∧ ¬Underivable env row ∧ identity = some c ∧
          s.db.activeIdentityOwner c row.id = false ∧
          s'.db.media = (s.db.setIdentity c row.id).media) := by
  rw [resolveHiddenCopyIdentity] at h
  split at h
  · next existing hexisting =>
    obtain ⟨recorded, hrecord, h⟩ := Except.bind_eq_ok_iff.mp h
    obtain ⟨rfl, rfl⟩ := Prod.mk.inj (Except.ok.inj h)
    obtain ⟨hmedia, hitems, hkeys⟩ := recordAliases_spec hrecord
    exact ⟨hitems, hkeys, Or.inl ⟨Or.inl ⟨existing, hexisting, rfl⟩, hmedia⟩⟩
  next hnone =>
  split at h
  · next hlocal =>
    obtain ⟨⟨c, minted⟩, hnew, h⟩ := Except.bind_eq_ok_iff.mp h
    obtain ⟨looked, hlook, h⟩ := Except.bind_eq_ok_iff.mp h
    obtain ⟨recorded, hrecord, h⟩ := Except.bind_eq_ok_iff.mp h
    obtain ⟨rfl, rfl⟩ := Prod.mk.inj (Except.ok.inj h)
    obtain ⟨hdb, hfree⟩ := newLocalIdentity_spec hnew
    have hlooked : looked.db = s.db := (State.look_eq hlook).trans hdb
    obtain ⟨hmedia, hitems, hkeys⟩ := recordAliases_spec hrecord
    dsimp only at hmedia hitems hkeys
    rw [hlooked] at hmedia hitems hkeys
    exact ⟨hitems, hkeys, Or.inr ⟨c, hnone, fun hunder => hunder.2.1 hlocal, rfl, hfree, hmedia⟩⟩
  next hremote =>
  split at h
  · next hderive =>
    obtain ⟨rfl, rfl⟩ := Prod.mk.inj (Except.ok.inj h)
    exact ⟨rfl, rfl, Or.inl ⟨Or.inr ⟨⟨hnone, hremote, hderive⟩, rfl⟩, rfl⟩⟩
  · next c hderive =>
    obtain ⟨looked, hlook, h⟩ := Except.bind_eq_ok_iff.mp h
    have hlooked := State.look_eq hlook
    split at h
    · cases h
    · next howner =>
      obtain ⟨recorded, hrecord, h⟩ := Except.bind_eq_ok_iff.mp h
      obtain ⟨rfl, rfl⟩ := Prod.mk.inj (Except.ok.inj h)
      obtain ⟨hmedia, hitems, hkeys⟩ := recordAliases_spec hrecord
      dsimp only at hmedia hitems hkeys
      rw [hlooked] at hmedia hitems hkeys
      rw [hlooked, Bool.not_eq_true] at howner
      refine ⟨hitems, hkeys, Or.inr ⟨c, hnone, fun hunder => ?_, rfl, howner, hmedia⟩⟩
      rw [hunder.2.2] at hderive
      cases hderive

/-- A row that has been resolved already. -/
theorem resolve_resolved {s s' : State} {row : MediaRow} {identity : Option CopyIdentity}
    (hrow : Resolved env row) (h : resolveHiddenCopyIdentity env s row = .ok (identity, s')) :
    identity = row.hiddenCopyIdentity ∧ s'.db.media = s.db.media ∧ s'.db.items = s.db.items ∧
      s'.db.keys = s.db.keys := by
  obtain ⟨hitems, hkeys, ⟨hcase, hmedia⟩ | ⟨c, hnone, hnot, -⟩⟩ := resolve_spec h
  · refine ⟨?_, hmedia, hitems, hkeys⟩
    rcases hcase with ⟨c, hrow, hidentity⟩ | ⟨hunder, hidentity⟩
    · rw [hrow, hidentity]
    · rw [hunder.1, hidentity]
  · rcases hrow with ⟨c', hc'⟩ | hunder
    · rw [hnone] at hc'
      cases hc'
    · exact absurd hunder hnot

/-- A row of the table. -/
theorem resolve_resolves {s s' : State} {row : MediaRow} {identity : Option CopyIdentity}
    (hrow : row ∈ s.db.media) (h : resolveHiddenCopyIdentity env s row = .ok (identity, s')) :
    Resolves s.db s'.db ∧
      ∃ r' ∈ s'.db.media, Filled row r' ∧ Resolved env r' ∧ r'.hiddenCopyIdentity = identity := by
  obtain ⟨hitems, hkeys, ⟨hcase, hmedia⟩ | ⟨c, hnone, hnot, rfl, hfree, hmedia⟩⟩ := resolve_spec h
  · refine ⟨Resolves.of_eq hmedia hitems hkeys, row, hmedia ▸ hrow, Or.inl rfl, ?_⟩
    rcases hcase with ⟨c, hsome, hidentity⟩ | ⟨hunder, hidentity⟩
    · exact ⟨Or.inl ⟨c, hsome⟩, by rw [hsome, hidentity]⟩
    · exact ⟨Or.inr hunder, by rw [hunder.1, hidentity]⟩
  · have hset := Db.resolves_setIdentity hrow hnone hfree
    have hafter : Resolves (s.db.setIdentity c row.id) s'.db := Resolves.of_eq hmedia hitems hkeys
    refine ⟨hset.trans hafter, row.withIdentity c, ?_, Or.inr ⟨hnone, c, rfl⟩, Or.inl ⟨c, rfl⟩, rfl⟩
    rw [hmedia]
    refine List.mem_map.mpr ⟨row, hrow, if_pos rfl⟩

/-! ### All rows -/

/-- Resolving some rows of the table one after the other. -/
theorem resolveRows_spec {rows : List MediaRow} {s s' : State}
    (hrows : ∀ r ∈ rows, r ∈ s.db.media) (hnodup : (rows.map MediaRow.id).Nodup)
    (h : rows.foldlM (resolveRow env) s = .ok s') :
    Resolves s.db s'.db ∧
      ∀ r ∈ rows, ∃ r' ∈ s'.db.media, Filled r r' ∧ Resolved env r' := by
  induction rows generalizing s with
  | nil =>
    rw [← Except.ok.inj h]
    refine ⟨Resolves.refl _, fun r hr => ?_⟩
    cases hr
  | cons row rest ih =>
    rw [List.foldlM_cons] at h
    obtain ⟨next, hstep, h⟩ := Except.bind_eq_ok_iff.mp h
    rw [resolveRow] at hstep
    obtain ⟨⟨identity, resolved⟩, hresolve, hnext⟩ := Except.bind_eq_ok_iff.mp hstep
    have hnext := Except.ok.inj hnext
    subst hnext
    obtain ⟨hresolves, r₀, hr₀, hfilled, hresolved, -⟩ :=
      resolve_resolves (hrows row (List.mem_cons_self ..)) hresolve
    obtain ⟨hid, hrest⟩ := List.nodup_cons.mp hnodup
    -- the rows that are still to come have not changed
    have hkept : ∀ r ∈ rest, r ∈ resolved.db.media := by
      intro r hr
      have hne : r.id ≠ row.id := fun heq => hid (heq ▸ List.mem_map_of_mem hr)
      have hmem := hrows r (List.mem_cons_of_mem _ hr)
      obtain ⟨-, -, ⟨-, hmedia⟩ | ⟨c, -, -, -, -, hmedia⟩⟩ := resolve_spec hresolve
      · rw [hmedia]
        exact hmem
      · rw [hmedia]
        exact List.mem_map.mpr ⟨r, hmem, if_neg hne⟩
    obtain ⟨hafter, hall⟩ := ih hkept hrest h
    refine ⟨hresolves.trans hafter, fun r hr => ?_⟩
    rcases List.mem_cons.mp hr with rfl | hr
    · obtain ⟨r', hr', hfilled'⟩ := hafter.row hr₀
      exact ⟨r', hr', hfilled.trans hfilled', hfilled'.resolved hresolved⟩
    · exact hall r hr

/-- `_load_identity_rows` returns the rows of the table, each of them resolved. -/
theorem loadIdentityRows_spec {s s' : State} {rows : List MediaRow}
    (h : loadIdentityRows env s = .ok (rows, s')) :
    Resolves s.db s'.db ∧ rows = s'.db.media ∧ ∀ r ∈ rows, Resolved env r := by
  rw [loadIdentityRows] at h
  obtain ⟨resolved, hfold, h⟩ := Except.bind_eq_ok_iff.mp h
  obtain ⟨hrows, hstate⟩ := Prod.mk.inj (Except.ok.inj h)
  subst hstate
  obtain ⟨hresolves, hall⟩ := resolveRows_spec (fun r hr => hr) s.db.ids_nodup hfold
  refine ⟨hresolves, hrows.symm, fun r' hr' => ?_⟩
  rw [← hrows] at hr'
  obtain ⟨r, hr, hfilled⟩ := hresolves.row_of hr'
  obtain ⟨r'', hr'', hfilled', hresolved⟩ := hall r hr
  have hsame : r' = r'' := resolved.db.row_eq hr' hr'' (hfilled.id_eq.trans hfilled'.id_eq.symm)
  rw [hsame]
  exact hresolved

/-! ### A library in the cloud -/

section Decidable

variable (env : Env) (db : Db) (scope : Scope)

instance (i : ℕ) : Decidable (db.HasItem scope i) :=
  inferInstanceAs (Decidable (∃ item ∈ db.items, item.scope = scope ∧ item.mediaItemId = i))

instance (key : String) : Decidable (db.HasKey scope key) :=
  inferInstanceAs (Decidable (∃ k ∈ db.keys, k.scope = scope ∧ k.movieKey = key))

instance (row : MediaRow) : Decidable (db.RowHidden env scope row) :=
  inferInstanceAs (Decidable (db.HasItem scope row.id ∨
    ∃ key ∈ hiddenKeyCandidatesForRow env row, db.HasKey scope key))

instance (i : ℕ) : Decidable (i ∈ db.HiddenAt env scope) :=
  inferInstanceAs (Decidable (∃ row ∈ db.media, row.id = i ∧ db.RowHidden env scope row))

end Decidable

/-- Identities that are distinct as a list. -/
theorem Db.distinctIdentities_of_nodup {db : Db} (h : db.activeIdentities.Nodup) :
    db.DistinctIdentities := by
  intro r hr r' hr' c hc hc'
  by_contra hne
  have hsymm : Std.Symm fun a b : MediaRow =>
      ∀ d, a.hiddenCopyIdentity = some d → ∀ e, b.hiddenCopyIdentity = some e → d ≠ e :=
    ⟨fun a b hab d hd e he heq => hab e he d hd heq.symm⟩
  have hpairs := List.pairwise_filterMap.mp h
  exact List.Pairwise.forall hpairs hr hr' hne c hc c hc' rfl

theorem isCopyKey_append (text : String) :
    isCopyKey (hiddenCopyIdentityPrefix ++ text) = true := by
  rw [isCopyKey, List.isPrefixOf_iff_prefix, String.toList_append]
  exact List.prefix_append _ _

def copyIdentity (digest : String) : CopyIdentity :=
  ⟨hiddenCopyIdentityPrefix ++ digest, isCopyKey_append digest⟩

/-- Plain titles, no local files, and tokens of more and more zeros. -/
def cloudEnv : Env where
  uni :=
    { isSpace := fun c => decide (c = ' ')
      isDigit := fun c => c.isDigit
      lower := fun c => [c.toLower] }
  resolveTitleMetadata := fun title _ _ => (some title, some "standard")
  extractEditionIdentityAnywhere := fun _ _ => "standard"
  normalizeTitleKey := fun s => String.ofList ((s.toList.map Char.toLower).filter (· ≠ '-'))
  normalizeTitleSource := fun s => String.ofList (s.toList.takeWhile (· ≠ '.'))
  normpath := id
  derivedDigest := fun _ =>
    copyIdentity "b78928ccf9e69b344274fae33fb2f77d388cbbea81fe290bfcc6dd62c2c1e263"
  locatorDigest := fun _ _ _ => ""
  evidence := fun _ _ => []
  token := fun n => copyIdentity (String.ofList (List.replicate n '0'))
  now := fun _ => "2026-01-02T03:04:05+00:00"
  fault := fun _ => false
  normalizeTitleKey_dash := by
    intro s hdash
    rw [String.toList_ofList] at hdash
    exact absurd rfl (of_decide_eq_true (List.mem_filter.mp hdash).2)
  token_eventually := by
    intro active n
    refine ⟨n + (active.map fun c => c.text.length).sum, Nat.le_add_right _ _, fun hmem => ?_⟩
    have hle := List.le_sum_of_mem (List.mem_map_of_mem (f := fun c => c.text.length) hmem)
    simp only [copyIdentity, hiddenCopyIdentityPrefix, String.length_append, String.length_ofList,
      List.length_replicate] at hle
    have hstarts : "copy-v2:".length = 8 := rfl
    omega

def cloudRow (id : ℕ) (title : String) (year : ℤ) (originalFilename externalMediaId : String)
    (hiddenCopyIdentity : Option CopyIdentity) : MediaRow where
  id := id
  title := title
  year := some year
  originalFilename := originalFilename
  filePath := externalMediaId
  sourceKind := "cloud"
  librarySourceId := some 3
  externalMediaId := some externalMediaId
  cloudResourceKey := none
  hiddenCopyIdentity := hiddenCopyIdentity

end HiddenKeys
