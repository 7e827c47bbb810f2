/-
The row triggers behind the library revision counters.

A trigger specification names a table, the layer its rows belong to, the scope
of a row (the whole library, or the user that a column of the row names) and the
columns that are tracked.  A change of a row fires for the scope of the new
row when a tracked column changed, and for the old scope when the row moved
from one user to another.

* `triggerSpecs` — the specifications, as the schema installs them;
* `Change.fires` — the scopes and layers that one change of a row fires for;
* `TriggerSpec.content_effect` — a change that does not fire for a scope and
  layer leaves its tracked columns as they were.
-/
import Mathlib.Data.Rat.Defs
import Mathlib.Logic.Function.Basic

namespace LibraryRevision

/-- A stored value. -/
inductive Value : Type where
  | null
  | integer (n : ℤ)
  | real (x : ℚ)
  | text (s : String)
deriving DecidableEq

/-- `int(scope_id)` of a column that holds integers only. -/
def Value.toInt : Value → ℤ
  | .integer n => n
  | _ => 0

/-- The tables with triggers. -/
inductive Table : Type where
  | mediaItems
  | mediaItemTechnicalMetadata
  | mediaGenreGroups
  | librarySources
  | mediaAgeRequirements
  | mediaAgeManualGroupLinks
  | globalHiddenMediaItems
  | globalHiddenMovieKeys
  | users
  | userSettings
  | userHiddenLibrarySources
  | userHiddenMediaItems
  | userHiddenMovieKeys
  | playbackProgress
deriving DecidableEq

inductive Layer : Type where
  | catalog
  | permission
  | presentation
  | userOverlay
  | progress
deriving DecidableEq

inductive ScopeKind : Type where
  | global
  | user
deriving DecidableEq

/-- The primary key of `library_revision_counters`. -/
structure Key : Type where
  scopeKind : ScopeKind
  scopeId : ℤ
  layer : Layer
deriving DecidableEq

/-- One entry of `trigger_specs`. -/
structure TriggerSpec : Type where
  table : Table
  layer : Layer
  /-- `{alias}.id` or `{alias}.user_id` for the scope `user`, and none for the
  scope `global`, whose id is 0. -/
  scope : Option String
  /-- The columns that `OLD` and `NEW` are compared in. -/
  columns : List String
  /-- The values of `key` that the triggers of `user_settings` look for. -/
  keys : Option (List String)

/-- `trigger_specs` of `_library_revision_trigger_statements`. -/
def triggerSpecs : List TriggerSpec :=
  [⟨.mediaItems, .catalog, none,
    ["title", "original_filename", "file_path", "source_kind", "library_source_id",
      "external_media_id", "cloud_mime_type", "cloud_resource_key", "series_folder_key",
      "series_folder_name", "library_category", "library_category_path",
      "library_category_name", "library_folder_role", "library_folder_path",
      "library_folder_name", "file_size", "file_mtime", "duration_seconds", "width",
      "height", "video_codec", "audio_codec", "container", "year"], none⟩,
   ⟨.mediaItemTechnicalMetadata, .catalog, none,
    ["metadata_version", "source_fingerprint", "container", "duration_seconds", "bit_rate",
      "video_codec", "video_profile", "video_level", "pixel_format", "bit_depth", "width",
      "height", "color_transfer", "color_primaries", "color_space", "hdr_detected",
      "dolby_vision_detected", "audio_codec", "audio_profile", "audio_channels",
      "audio_channel_layout", "audio_sample_rate", "subtitle_count"], none⟩,
   ⟨.mediaGenreGroups, .catalog, none, ["display_title", "year", "genres_json"], none⟩,
   ⟨.librarySources, .catalog, none,
    ["provider", "google_drive_account_id", "resource_type", "resource_id", "display_name",
      "local_path"], none⟩,
   ⟨.librarySources, .permission, none, ["owner_user_id", "is_shared"], none⟩,
   ⟨.mediaAgeRequirements, .permission, none,
    ["display_title", "year", "age_requirement"], none⟩,
   ⟨.mediaAgeManualGroupLinks, .permission, none, ["age_group_key", "media_item_id"], none⟩,
   ⟨.globalHiddenMediaItems, .permission, none, ["media_item_id"], none⟩,
   ⟨.globalHiddenMovieKeys, .permission, none,
    ["movie_key", "display_title", "year", "edition_identity", "representative_media_item_id"],
    none⟩,
   ⟨.users, .permission, some "id", ["id", "role", "enabled", "age_credential"], none⟩,
   ⟨.userSettings, .presentation, some "user_id", ["value", "key", "user_id"],
    some ["hide_duplicate_movies", "hide_recently_added", "poster_card_appearance",
      "poster_card_display_max_width"]⟩,
   ⟨.userHiddenLibrarySources, .userOverlay, some "user_id",
    ["user_id", "library_source_id"], none⟩,
   ⟨.userHiddenMediaItems, .userOverlay, some "user_id", ["user_id", "media_item_id"], none⟩,
   ⟨.userHiddenMovieKeys, .userOverlay, some "user_id",
    ["user_id", "movie_key", "display_title", "year", "edition_identity",
      "representative_media_item_id"], none⟩,
   ⟨.playbackProgress, .progress, some "user_id",
    ["user_id", "media_item_id", "position_seconds", "duration_seconds", "completed"], none⟩]

/-- A row of a table with triggers.  The columns that name a user are
`INTEGER NOT NULL`. -/
structure Row : Type where
  table : Table
  cells : String → Value
  owned : ∀ spec ∈ triggerSpecs, spec.table = table →
    ∀ c ∈ spec.scope, ∃ n, cells c = .integer n

/-- Every specification compares the column that names the scope, and the
column `key` where it looks at it. -/
theorem columns_of_mem_triggerSpecs {spec : TriggerSpec} (h : spec ∈ triggerSpecs) :
    (∀ c ∈ spec.scope, c ∈ spec.columns) ∧ (spec.keys ≠ none → "key" ∈ spec.columns) := by
  simp only [triggerSpecs, List.mem_cons, List.not_mem_nil, or_false] at h
  rcases h with rfl | rfl | rfl | rfl | rfl | rfl | rfl | rfl | rfl | rfl | rfl | rfl | rfl |
    rfl | rfl <;> simp

namespace TriggerSpec

variable (spec : TriggerSpec)

def scopeKind : ScopeKind := if spec.scope = none then .global else .user

/-- The scope id of the trigger's `alias`. -/
def scopeId (row : Row) : ℤ :=
  match spec.scope with
  | none => 0
  | some c => (row.cells c).toInt

/-- The counter of a row. -/
def key (row : Row) : Key := ⟨spec.scopeKind, spec.scopeId row, spec.layer⟩

/-- `key IN (…)`, for the specification that looks at it. -/
def listed (row : Row) : Prop := ∀ ks ∈ spec.keys, row.cells "key" ∈ ks.map Value.text

instance (row : Row) : Decidable (spec.listed row) :=
  inferInstanceAs (Decidable (∀ ks ∈ spec.keys, row.cells "key" ∈ ks.map Value.text))

/-- `_changed_columns`. -/
def changed (old new : Row) : Prop := ∃ c ∈ spec.columns, old.cells c ≠ new.cells c

instance (old new : Row) : Decidable (spec.changed old new) :=
  inferInstanceAs (Decidable (∃ c ∈ spec.columns, old.cells c ≠ new.cells c))

/-- `OLD.user_id IS NOT NEW.user_id`, on the column of the scope. -/
def scopeChanged (old new : Row) : Prop := ∃ c ∈ spec.scope, old.cells c ≠ new.cells c

instance (old new : Row) : Decidable (spec.scopeChanged old new) :=
  inferInstanceAs (Decidable (∃ c ∈ spec.scope, old.cells c ≠ new.cells c))

/-- The `insert` trigger. -/
def insertFires (new : Row) : List Key := if spec.listed new then [spec.key new] else []

/-- The `delete` trigger. -/
def deleteFires (old : Row) : List Key := if spec.listed old then [spec.key old] else []

/-- The `update` trigger, and `update_old_scope`. -/
def updateFires (old new : Row) : List Key :=
  (if (spec.listed old ∨ spec.listed new) ∧ spec.changed old new then [spec.key new] else []) ++
    (if spec.scopeChanged old new ∧ (spec.listed old ∨ spec.listed new) then [spec.key old]
      else [])

/-- What the counter `κ` is about in a row: its tracked columns, when the row
is one of its scope and layer. -/
def content (κ : Key) : Option Row → Option (List Value)
  | none => none
  | some row =>
    if row.table = spec.table ∧ spec.listed row ∧ spec.key row = κ
    then some (spec.columns.map row.cells) else none

end TriggerSpec

/-- The rows of the tables with triggers, each under a name of its own that an
update keeps. -/
abbrev Rows : Type := ℕ → Option Row

/-- The change of one row, by a statement or by a foreign key action. -/
inductive Change : Type where
  | insert (n : ℕ) (new : Row)
  | update (n : ℕ) (new : Row)
  | delete (n : ℕ)

namespace Change

/-- The row that is changed. -/
def row : Change → ℕ
  | .insert n _ => n
  | .update n _ => n
  | .delete n => n

/-- The row after the change, where `old` stood before.  A row is inserted under
a name that is free and updated within its table. -/
def become (old : Option Row) : Change → Option Row
  | .insert _ new => if old = none then some new else old
  | .update _ new => old.map fun o => if new.table = o.table then new else o
  | .delete _ => none

/-- The specifications whose triggers fire on a table. -/
def specsOf (t : Table) : List TriggerSpec := triggerSpecs.filter fun spec => spec.table = t

/-- The counters that the triggers ask for, where `old` stood before.  Triggers
of one event fire in no particular order; here it is that of `triggerSpecs`. -/
def fires (old : Option Row) : Change → List Key
  | .insert _ new =>
    if old = none then (specsOf new.table).flatMap fun spec => spec.insertFires new else []
  | .update _ new =>
    match old with
    | none => []
    | some o =>
      if new.table = o.table then (specsOf o.table).flatMap fun spec => spec.updateFires o new
      else []
  | .delete _ =>
    match old with
    | none => []
    | some o => (specsOf o.table).flatMap fun spec => spec.deleteFires o

theorem mem_specsOf {spec : TriggerSpec} {t : Table} (h : spec ∈ triggerSpecs)
    (ht : t = spec.table) : spec ∈ specsOf t :=
  List.mem_filter.2 ⟨h, decide_eq_true ht.symm⟩

end Change

namespace TriggerSpec

variable {spec : TriggerSpec} {κ : Key} {old new : Row}

theorem content_none (row : Row)
    (h : ¬ (row.table = spec.table ∧ spec.listed row ∧ spec.key row = κ)) :
    spec.content κ (some row) = none := if_neg h

/-- A row of another scope: the column that names the scope differs. -/
theorem scopeChanged_of_key_ne (h : spec.key old ≠ spec.key new) : spec.scopeChanged old new := by
  by_contra hno
  refine h ?_
  have hid : spec.scopeId old = spec.scopeId new := by
    unfold scopeId
    cases hs : spec.scope with
    | none => rfl
    | some c =>
        have hc : old.cells c = new.cells c := by
          by_contra hne
          exact hno ⟨c, hs, hne⟩
        simp only [hc]
  rw [key, key, hid]

/-- Rows that agree on the tracked columns are looked at in the same way. -/
theorem content_congr (h : spec ∈ triggerSpecs) (ht : new.table = old.table)
    (hc : ¬ spec.changed old new) : spec.content κ (some new) = spec.content κ (some old) := by
  obtain ⟨hscope, hkey⟩ := columns_of_mem_triggerSpecs h
  have heq : ∀ c ∈ spec.columns, new.cells c = old.cells c := by
    intro c hmem
    by_contra hne
    exact hc ⟨c, hmem, Ne.symm hne⟩
  have hk : spec.key new = spec.key old := by
    by_contra hne
    obtain ⟨c, hmem, hne'⟩ := scopeChanged_of_key_ne hne
    exact hne' (heq c (hscope c hmem))
  have hl : spec.listed new ↔ spec.listed old := by
    refine forall_congr' fun ks => forall_congr' fun hks => ?_
    rw [heq "key" (hkey (by rw [hks]; exact Option.some_ne_none ks))]
  have hmap : spec.columns.map new.cells = spec.columns.map old.cells := List.map_congr_left heq
  unfold content
  simp only [ht, hl, hk, hmap]

/-- An update that does not fire for `κ` leaves its columns of the row. -/
theorem content_update (h : spec ∈ triggerSpecs) (ht : new.table = old.table)
    (hκ : old.table = spec.table → κ ∉ spec.updateFires old new) :
    spec.content κ (some new) = spec.content κ (some old) := by
  by_cases hc : spec.changed old new
  · by_cases htab : old.table = spec.table
    · have hfires := hκ htab
      rw [updateFires, List.mem_append, not_or] at hfires
      obtain ⟨hnew, hold⟩ := hfires
      -- the new row is not one of the scope: its own trigger would have fired
      have hnew' : ¬ (new.table = spec.table ∧ spec.listed new ∧ spec.key new = κ) := by
        rintro ⟨-, hl, hk⟩
        rw [if_pos ⟨Or.inr hl, hc⟩] at hnew
        exact hnew (List.mem_singleton.2 hk.symm)
      -- nor is the old one: either trigger would have fired
      have hold' : ¬ (old.table = spec.table ∧ spec.listed old ∧ spec.key old = κ) := by
        rintro ⟨-, hl, hk⟩
        by_cases hkk : spec.key old = spec.key new
        · rw [if_pos ⟨Or.inl hl, hc⟩] at hnew
          exact hnew (List.mem_singleton.2 (hk.symm.trans hkk))
        · rw [if_pos ⟨scopeChanged_of_key_ne hkk, Or.inl hl⟩] at hold
          exact hold (List.mem_singleton.2 hk.symm)
      rw [content_none new hnew', content_none old hold']
    · rw [content_none new fun hn => htab (ht ▸ hn.1), content_none old fun ho => htab ho.1]
  · exact content_congr h ht hc

/-- A change that does not fire for a scope and layer leaves its columns. -/
theorem content_become (h : spec ∈ triggerSpecs) {row : Option Row} {ch : Change}
    (hκ : κ ∉ ch.fires row) : spec.content κ (ch.become row) = spec.content κ row := by
  cases ch with
  | insert n new =>
      cases row with
      | some o => rfl
      | none =>
          refine content_none new ?_
          rintro ⟨ht, hl, hk⟩
          refine hκ (List.mem_flatMap.2 ⟨spec, Change.mem_specsOf h ht, ?_⟩)
          rw [insertFires, if_pos hl]
          exact List.mem_singleton.2 hk.symm
  | delete n =>
      cases row with
      | none => rfl
      | some o =>
          refine (content_none o ?_).symm
          rintro ⟨ht, hl, hk⟩
          refine hκ (List.mem_flatMap.2 ⟨spec, Change.mem_specsOf h ht, ?_⟩)
          rw [deleteFires, if_pos hl]
          exact List.mem_singleton.2 hk.symm
  | update n new =>
      cases row with
      | none => rfl
      | some o =>
          by_cases ht : new.table = o.table
          · simp only [Change.fires, if_pos ht] at hκ
            simp only [Change.become, Option.map_some, if_pos ht]
            refine content_update h ht fun htab hmem => hκ ?_
            exact List.mem_flatMap.2 ⟨spec, Change.mem_specsOf h htab, hmem⟩
          · simp only [Change.become, Option.map_some, if_neg ht]

end TriggerSpec

namespace Rows

/-- The rows after a change. -/
def change (rows : Rows) (ch : Change) : Rows :=
  Function.update rows ch.row (ch.become (rows ch.row))

/-- The tracked columns of a scope and layer are the same. -/
def SameTracked (κ : Key) (rows rows' : Rows) : Prop :=
  ∀ spec ∈ triggerSpecs, ∀ n, spec.content κ (rows' n) = spec.content κ (rows n)

theorem SameTracked.refl (κ : Key) (rows : Rows) : SameTracked κ rows rows :=
  fun _ _ _ => rfl

theorem SameTracked.trans {κ : Key} {rows rows' rows'' : Rows} (h : SameTracked κ rows rows')
    (h' : SameTracked κ rows' rows'') : SameTracked κ rows rows'' :=
  fun spec hs n => (h' spec hs n).trans (h spec hs n)

theorem sameTracked_change {κ : Key} {rows : Rows} {ch : Change}
    (h : κ ∉ ch.fires (rows ch.row)) : SameTracked κ rows (rows.change ch) := by
  intro spec hs n
  by_cases hn : n = ch.row
  · subst hn
    rw [change, Function.update_self]
    exact TriggerSpec.content_become hs h
  · rw [change, Function.update_of_ne hn]

end Rows

end LibraryRevision
