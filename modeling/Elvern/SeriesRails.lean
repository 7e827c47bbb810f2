/-
The rails of movie series (`library_home_curation_service.py`).

Rows of one folder that share a heading make a rail; folders with the same heading share it.  How
titles are read (tokens, keys, the heading of a folder name) are parameters; which rows come
together, and in which order, is here.

* `grouped` — a dictionary of lists, filled row by row;
* `Reading.extractHeading`, `Reading.folderHeading` — the heading of a folder, of its name or of
  what the titles begin with;
* `seriesRails` — the rails;
* `series_rails` — every row with a heading is in the one rail of its heading, once, unless it would
  be alone there.
-/
import Elvern.ContinueWatching
import Mathlib.Order.OrderDual

namespace SeriesRails

open ContinueWatching (sortedDesc perm_sortedDesc pairwise_sortedDesc)

/-! ### Dictionaries of lists -/

section Grouped

variable {κ α : Type} [DecidableEq κ]

/-- `setdefault(key, [])` and `append`; a dictionary keeps the order of its first insertions. -/
def put (key : κ) (a : α) : List (κ × List α) → List (κ × List α)
  | [] => [(key, [a])]
  | g :: rest => if g.1 = key then (g.1, g.2 ++ [a]) :: rest else g :: put key a rest

/-- The rows with a key, put one after the other. -/
def grouped (keyOf : α → Option κ) (rows : List α) : List (κ × List α) :=
  rows.foldl (fun groups row => match keyOf row with
    | none => groups
    | some key => put key row groups) []

variable {keyOf : α → Option κ} {rows : List α} {groups : List (κ × List α)} {key : κ} {a : α}

/-- The rows of a key. -/
def rowsOf (keyOf : α → Option κ) (rows : List α) (key : κ) : List α :=
  rows.filter fun row => decide (keyOf row = some key)

theorem mem_rowsOf : a ∈ rowsOf keyOf rows key ↔ a ∈ rows ∧ keyOf a = some key := by
  rw [rowsOf, List.mem_filter, decide_eq_true_eq]

theorem mem_keys_put : ∀ {groups : List (κ × List α)} {k : κ},
    k ∈ (put key a groups).map Prod.fst ↔ k = key ∨ k ∈ groups.map Prod.fst := by
  intro groups k
  induction groups with
  | nil => simp [put]
  | cons g rest ih =>
    rw [put]
    split
    · next hkey =>
      simp only [List.map_cons, List.mem_cons, hkey]
      tauto
    · simp only [List.map_cons, List.mem_cons, ih]
      tauto

theorem nodup_put (h : (groups.map Prod.fst).Nodup) : ((put key a groups).map Prod.fst).Nodup := by
  induction groups with
  | nil => simp [put]
  | cons g rest ih =>
    rw [List.map_cons, List.nodup_cons] at h
    rw [put]
    split
    · rw [List.map_cons, List.nodup_cons]
      exact h
    · next hkey =>
      rw [List.map_cons, List.nodup_cons, mem_keys_put, not_or]
      exact ⟨⟨hkey, h.1⟩, ih h.2⟩

/-- What a dictionary with the rows of each key becomes. -/
theorem mem_put {f : κ → List α} (hnodup : (groups.map Prod.fst).Nodup)
    (hgroups : ∀ g ∈ groups, g.2 = f g.1) (hmissing : key ∉ groups.map Prod.fst → f key = []) :
    ∀ g ∈ put key a groups, g.2 = if g.1 = key then f key ++ [a] else f g.1 := by
  induction groups with
  | nil =>
    intro g hg
    rw [put, List.mem_singleton] at hg
    rw [hg, if_pos rfl, hmissing (by simp), List.nil_append]
  | cons first rest ih =>
    rw [List.map_cons, List.nodup_cons] at hnodup
    intro g hg
    rw [put] at hg
    split at hg
    · next hkey =>
      rcases List.mem_cons.mp hg with rfl | hg
      · dsimp only
        rw [if_pos hkey, hgroups first (List.mem_cons_self ..), hkey]
      · have hother : g.1 ≠ key := by
          rintro heq
          exact hnodup.1 (hkey ▸ heq ▸ List.mem_map_of_mem hg)
        rw [if_neg hother]
        exact hgroups g (List.mem_cons_of_mem _ hg)
    · next hkey =>
      rcases List.mem_cons.mp hg with rfl | hg
      · rw [if_neg hkey]
        exact hgroups _ (List.mem_cons_self ..)
      · refine ih hnodup.2 (fun g hg => hgroups g (List.mem_cons_of_mem _ hg))
          (fun hnot => hmissing ?_) g hg
        rw [List.map_cons, List.mem_cons, not_or]
        exact ⟨Ne.symm hkey, hnot⟩

/-- The dictionary has each key of a row once, with the rows of this key in their order. -/
theorem grouped_spec (keyOf : α → Option κ) (rows : List α) :
    ((grouped keyOf rows).map Prod.fst).Nodup ∧
    (∀ g ∈ grouped keyOf rows, g.2 = rowsOf keyOf rows g.1) ∧
      ∀ key, key ∈ (grouped keyOf rows).map Prod.fst ↔ ∃ row ∈ rows, keyOf row = some key := by
  induction rows using List.reverseRecOn with
  | nil => simp [grouped]
  | append_singleton rows row ih =>
    obtain ⟨hnodup, hgroups, hkeys⟩ := ih
    have hstep : grouped keyOf (rows ++ [row]) = match keyOf row with
        | none => grouped keyOf rows
        | some key => put key row (grouped keyOf rows) := by
      rw [grouped, List.foldl_append]
      rfl
    rw [hstep]
    cases hkey : keyOf row with
    | none =>
      refine ⟨hnodup, fun g hg => ?_, fun key => ?_⟩
      · rw [hgroups g hg]
        simp [rowsOf, hkey]
      · rw [hkeys key]
        simp [hkey]
    | some new =>
      refine ⟨nodup_put hnodup, fun g hg => ?_, fun key => ?_⟩
      · -- A key that is not there yet has no rows so far.
        have hmissing : new ∉ (grouped keyOf rows).map Prod.fst → rowsOf keyOf rows new = [] := by
          intro hnot
          rw [rowsOf, List.filter_eq_nil_iff]
          intro old hold heq
          exact hnot ((hkeys new).mpr ⟨old, hold, of_decide_eq_true heq⟩)
        rw [mem_put hnodup hgroups hmissing g hg]
        split
        · next heq => simp [rowsOf, hkey, heq]
        · next hne => simp [rowsOf, hkey, Ne.symm hne]
      · rw [mem_keys_put, hkeys key]
        simp only [List.mem_append, List.mem_singleton]
        constructor
        · rintro (rfl | ⟨old, hold, heq⟩)
          · exact ⟨row, .inr rfl, hkey⟩
          · exact ⟨old, .inl hold, heq⟩
        · rintro ⟨old, hold | rfl, heq⟩
          · exact .inr ⟨old, hold, heq⟩
          · exact .inl (Option.some.inj (heq.symm.trans hkey))

end Grouped

/-! ### The rails -/

/-- What is read from rows and texts: `_series_folder_key`, the title without its year,
`_series_row_sort_key`, `_series_prefix_tokens`, `_series_token_key`,
`SERIES_PREFIX_TRAILING_TOKENS`, `_prettify_series_heading`, `_clean_series_folder_heading`, and
`normalize_title_key`. -/
structure Reading (ρ σ μ : Type) where
  id : ρ → ℕ
  folder : ρ → Option (String × String)
  title : ρ → String
  rowSortKey : ρ → σ
  tokens : String → List String
  tokenKey : String → String
  isTrailing : String → Bool
  joined : List String → String
  prettify : String → String
  lower : String → String
  cleanFolderHeading : String → Option String
  normalizeTitleKey : String → String
  railSortKey : String → String → μ

/-- `or`, between texts. -/
def orElse (text other : String) : String := if text = "" then other else text

/-- A text that is not empty. -/
def nonempty (text : String) : Option String := if text = "" then none else some text

structure Rail (ρ : Type) where
  key : String
  title : String
  rows : List ρ

/-- A folder with its heading and its sorted rows. -/
structure Folder (ρ : Type) where
  railKey : String
  heading : String
  rows : List ρ

variable {ρ σ μ : Type} [LinearOrder σ] (rd : Reading ρ σ μ)

/-- `sorted` with a key. -/
def sortedAsc {α β : Type} [LinearOrder β] (key : α → β) (rows : List α) : List α :=
  sortedDesc (fun row => OrderDual.toDual (key row)) rows

namespace Reading

/-- The columns of `zip(*token_lists)` with one key, as long as there are any. -/
def commonTokens : List String → List (List String) → List String
  | [], _ => []
  | token :: rest, others =>
    if others.all fun other => other.head?.any fun candidate =>
        rd.tokenKey candidate == rd.tokenKey token then
      token :: commonTokens rest (others.map List.tail)
    else []

/-- `_extract_series_heading_from_titles` -/
def extractHeading (titles : List String) : Option String :=
  match (titles.map rd.tokens).filter (· ≠ []) with
  | first :: second :: rest =>
    let tokens := rd.commonTokens first (second :: rest)
    nonempty (rd.joined (tokens.reverse.dropWhile fun token =>
      rd.isTrailing (rd.tokenKey token)).reverse)
  | _ => none

/-- `_series_heading_matches_titles` -/
def headingMatchesTitles (heading : String) (titles : List String) : Bool :=
  let headingTokens := (rd.tokens heading).map rd.tokenKey
  headingTokens ≠ [] && titles.all fun title =>
    ((rd.tokens title).map rd.tokenKey).take headingTokens.length == headingTokens

/-- The heading of a folder. -/
def folderHeading (folderName : String) (titles : List String) : Option String :=
  match ((rd.cleanFolderHeading folderName).bind nonempty).filter fun heading =>
      rd.headingMatchesTitles heading titles with
  | some heading => some heading
  | none => ((rd.extractHeading titles).map rd.prettify).bind nonempty

/-- The group of a folder, with the name that its first row gives it. -/
def folderOf (folderKey : String) (rows : List ρ) : Option (Folder ρ) := do
  let row ← rows.head?
  let (_, folderName) ← rd.folder row
  let sortedRows := sortedAsc rd.rowSortKey rows
  let heading ← rd.folderHeading folderName (sortedRows.map rd.title)
  some
    { railKey := orElse (rd.normalizeTitleKey heading)
        (orElse (rd.normalizeTitleKey folderName) folderKey)
      heading
      rows := sortedRows }

/-- `coalesce_key` -/
def coalesceKey (railKey heading : String) : String × String :=
  (railKey, orElse (rd.normalizeTitleKey heading) (rd.lower heading))

/-- The values of a dictionary that each row with a new id is put into. -/
def rowsById (rows : List ρ) : List ρ :=
  rows.foldl (fun kept row => if kept.any fun other => rd.id other == rd.id row then
    kept else kept ++ [row]) []

/-- The rail of a bucket, if it has two rows. -/
def railOf (folders : List (Folder ρ)) : Option (Rail ρ) :=
  match folders with
  | [] => none
  | first :: _ =>
    let sortedRows := sortedAsc rd.rowSortKey (rd.rowsById (folders.flatMap Folder.rows))
    if sortedRows.length < 2 then none
    else some { key := first.railKey, title := first.heading, rows := sortedRows }

/-- The folders that have a heading. -/
def folders (rows : List ρ) : List (Folder ρ) :=
  (grouped (fun row => (rd.folder row).map Prod.fst) rows).filterMap fun g => rd.folderOf g.1 g.2

end Reading

/-- `_build_series_rail_plans` -/
def seriesRails [LinearOrder μ] (rows : List ρ) : List (Rail ρ) :=
  let buckets := grouped (fun f => some (rd.coalesceKey f.railKey f.heading)) (rd.folders rows)
  sortedAsc (fun rail => rd.railSortKey rail.title rail.key)
    (buckets.filterMap fun b => rd.railOf b.2)

/-! ### What they show -/

variable {rd} {rows : List ρ} {row : ρ} {rail : Rail ρ} {folder : Folder ρ}

theorem perm_sortedAsc {α β : Type} [LinearOrder β] (key : α → β) (rows : List α) :
    List.Perm (sortedAsc key rows) rows :=
  perm_sortedDesc ..

theorem pairwise_sortedAsc {α β : Type} [LinearOrder β] (key : α → β) (rows : List α) :
    (sortedAsc key rows).Pairwise fun x y => key x ≤ key y :=
  pairwise_sortedDesc (fun row => OrderDual.toDual (key row)) rows

omit [LinearOrder σ] in
theorem rowsById_spec (rd : Reading ρ σ μ) (rows : List ρ) :
    ((rd.rowsById rows).map rd.id).Nodup ∧ (∀ x ∈ rd.rowsById rows, x ∈ rows) ∧
      ∀ x ∈ rows, ∃ y ∈ rd.rowsById rows, rd.id y = rd.id x := by
  induction rows using List.reverseRecOn with
  | nil => simp [Reading.rowsById]
  | append_singleton rows row ih =>
    obtain ⟨hnodup, hsub, hcover⟩ := ih
    have hstep : rd.rowsById (rows ++ [row]) =
        if (rd.rowsById rows).any fun other => rd.id other == rd.id row then rd.rowsById rows
        else rd.rowsById rows ++ [row] := by
      rw [Reading.rowsById, List.foldl_append]
      rfl
    rw [hstep]
    split
    · next hany =>
      -- The first row with this id stays for it.
      obtain ⟨old, hold, hid⟩ := List.any_eq_true.mp hany
      refine ⟨hnodup, fun x hx => List.mem_append_left _ (hsub x hx), fun x hx => ?_⟩
      rcases List.mem_append.mp hx with hx | hx
      · exact hcover x hx
      · rw [List.mem_singleton.mp hx]
        exact ⟨old, hold, beq_iff_eq.mp hid⟩
    · next hnew =>
      refine ⟨?_, fun x hx => ?_, fun x hx => ?_⟩
      · rw [List.map_append, List.nodup_append]
        refine ⟨hnodup, List.nodup_singleton _, ?_⟩
        intro i hi j hj heq
        obtain ⟨old, hold, rfl⟩ := List.mem_map.mp hi
        rw [List.map_singleton, List.mem_singleton] at hj
        exact hnew (List.any_eq_true.mpr ⟨old, hold, beq_iff_eq.mpr (heq.trans hj)⟩)
      · rcases List.mem_append.mp hx with hx | hx
        · exact List.mem_append_left _ (hsub x hx)
        · exact List.mem_append_right _ hx
      · rcases List.mem_append.mp hx with hx | hx
        · obtain ⟨y, hy, hid⟩ := hcover x hx
          exact ⟨y, List.mem_append_left _ hy, hid⟩
        · exact ⟨x, List.mem_append_right _ hx, rfl⟩

/-- The coalesce key of a row: that of its folder, if this has a heading. -/
def coalesceOf (rd : Reading ρ σ μ) (rows : List ρ) (row : ρ) : Option (String × String) := do
  let (folderKey, _) ← rd.folder row
  let folder ← rd.folderOf folderKey
    (rowsOf (fun row => (rd.folder row).map Prod.fst) rows folderKey)
  some (rd.coalesceKey folder.railKey folder.heading)

theorem mem_folderOf {folderKey : String} {group : List ρ}
    (h : rd.folderOf folderKey group = some folder) :
    ∀ x, x ∈ folder.rows ↔ x ∈ group := by
  simp only [Reading.folderOf, Option.bind_eq_bind, Option.bind_eq_some_iff] at h
  obtain ⟨_, -, ⟨_, _⟩, -, _, -, hfolder⟩ := h
  cases hfolder
  intro x
  exact (perm_sortedAsc _ _).mem_iff

/-- The folder of a row is the one of the rows with its key. -/
theorem coalesceOf_eq_some {key : String × String} : coalesceOf rd rows row = some key ↔
    ∃ folderKey folder, (rd.folder row).map Prod.fst = some folderKey ∧
      rd.folderOf folderKey (rowsOf (fun row => (rd.folder row).map Prod.fst)
        rows folderKey) = some folder ∧ rd.coalesceKey folder.railKey folder.heading = key := by
  cases hfolder : rd.folder row with
  | none => simp [coalesceOf, hfolder]
  | some f => simp [coalesceOf, hfolder, Option.bind_eq_some_iff]

/-- The folders of a key have just the rows with this coalesce key. -/
theorem mem_folders_iff (hrow : row ∈ rows) {key : String × String} :
    coalesceOf rd rows row = some key ↔
      ∃ folder ∈ rd.folders rows, rd.coalesceKey folder.railKey folder.heading = key ∧
          row ∈ folder.rows := by
  obtain ⟨hnodup, hgroups, hkeys⟩ := grouped_spec (fun row => (rd.folder row).map Prod.fst) rows
  rw [coalesceOf_eq_some]
  constructor
  · rintro ⟨folderKey, folder, hkey, hfolder, hcoalesce⟩
    obtain ⟨g, hg, rfl⟩ := List.mem_map.mp ((hkeys folderKey).mpr ⟨row, hrow, hkey⟩)
    rw [← hgroups g hg] at hfolder
    refine ⟨folder, List.mem_filterMap.mpr ⟨g, hg, hfolder⟩, hcoalesce, ?_⟩
    rw [mem_folderOf hfolder, hgroups g hg]
    exact mem_rowsOf.mpr ⟨hrow, hkey⟩
  · rintro ⟨folder, hmem, hcoalesce, hin⟩
    obtain ⟨g, hg, hfolder⟩ := List.mem_filterMap.mp hmem
    rw [mem_folderOf hfolder, hgroups g hg] at hin
    rw [hgroups g hg] at hfolder
    exact ⟨g.1, folder, (mem_rowsOf.mp hin).2, hfolder, hcoalesce⟩

theorem mem_of_folders (h : folder ∈ rd.folders rows) (hin : row ∈ folder.rows) : row ∈ rows := by
  obtain ⟨g, hg, hfolder⟩ := List.mem_filterMap.mp h
  rw [mem_folderOf hfolder, (grouped_spec _ rows).2.1 g hg] at hin
  exact (mem_rowsOf.mp hin).1

/-- What the rails of a list of rows are. -/
structure Rails [LinearOrder μ] (rd : Reading ρ σ μ) (rows : List ρ)
    (rails : List (Rail ρ)) : Prop where
  sorted : rails.Pairwise fun a b => rd.railSortKey a.title a.key ≤ rd.railSortKey b.title b.key
  apart : rails.Pairwise fun a b => rd.coalesceKey a.key a.title ≠ rd.coalesceKey b.key b.title
  rail : ∀ rail ∈ rails, 2 ≤ rail.rows.length ∧ (rail.rows.map rd.id).Nodup ∧
    rail.rows.Pairwise (fun x y => rd.rowSortKey x ≤ rd.rowSortKey y) ∧
      ∀ x ∈ rail.rows, x ∈ rows ∧ coalesceOf rd rows x = some (rd.coalesceKey rail.key rail.title)
  complete : ∀ x ∈ rows, ∀ key, coalesceOf rd rows x = some key →
    (∃ rail ∈ rails, rd.coalesceKey rail.key rail.title = key ∧ ∃ y ∈ rail.rows,
      rd.id y = rd.id x) ∨
      ∀ y ∈ rows, coalesceOf rd rows y = some key → rd.id y = rd.id x

/-- A rail and the bucket that it comes from. -/
theorem railOf_eq_some {group : List (Folder ρ)} (h : rd.railOf group = some rail) :
    (∃ first ∈ group, rail.key = first.railKey ∧ rail.title = first.heading) ∧
    2 ≤ rail.rows.length ∧
      rail.rows = sortedAsc rd.rowSortKey (rd.rowsById (group.flatMap Folder.rows)) := by
  unfold Reading.railOf at h
  split at h
  · cases h
  next first rest =>
  dsimp only at h
  split at h
  · cases h
  next hlong =>
  cases h
  exact ⟨⟨first, List.mem_cons_self .., rfl, rfl⟩, Nat.le_of_not_lt hlong, rfl⟩

theorem eq_of_length_lt_two {α : Type} {l : List α} {x y : α} (h : l.length < 2) (hx : x ∈ l)
    (hy : y ∈ l) : y = x := by
  match l, h with
  | [], _ => cases hx
  | [a], _ => rw [List.mem_singleton.mp hx, List.mem_singleton.mp hy]

/-- A bucket that is not shown has rows of one id only. -/
theorem one_of_railOf_none {group : List (Folder ρ)} (h : rd.railOf group = none) {x y : ρ}
    (hx : x ∈ group.flatMap Folder.rows) (hy : y ∈ group.flatMap Folder.rows) :
    rd.id y = rd.id x := by
  unfold Reading.railOf at h
  split at h
  · cases hx
  next first rest =>
  dsimp only at h
  split at h
  · next hshort =>
    rw [(perm_sortedAsc _ _).length_eq] at hshort
    obtain ⟨-, -, hcover⟩ := rowsById_spec rd ((first :: rest).flatMap Folder.rows)
    obtain ⟨x', hx', hidx⟩ := hcover x hx
    obtain ⟨y', hy', hidy⟩ := hcover y hy
    have hsame : y' = x' := eq_of_length_lt_two hshort hx' hy'
    rw [← hidy, ← hidx, hsame]
  · cases h

/-- **The series rails.**  They are sorted by their titles, no two of them have one heading, each
has two rows at least, of different ids and in order, and a row with a heading is in the rail of
this heading, unless all rows with the heading have its id. -/
theorem series_rails [LinearOrder μ] (rd : Reading ρ σ μ) (rows : List ρ) :
    Rails rd rows (seriesRails rd rows) := by
  obtain ⟨hnodup, hgroups, hkeys⟩ :=
    grouped_spec (fun f : Folder ρ => some (rd.coalesceKey f.railKey f.heading)) (rd.folders rows)
  generalize hbuckets : grouped (fun f : Folder ρ => some (rd.coalesceKey f.railKey f.heading))
    (rd.folders rows) = buckets at hnodup hgroups hkeys
  have hperm : List.Perm (seriesRails rd rows) (buckets.filterMap fun b => rd.railOf b.2) := by
    rw [← hbuckets]
    exact perm_sortedAsc _ _
  -- The key of a bucket is the one of its rail.
  have hkey : ∀ b ∈ buckets, ∀ rail, rd.railOf b.2 = some rail →
      rd.coalesceKey rail.key rail.title = b.1 := by
    intro b hb rail hrail
    obtain ⟨⟨first, hfirst, hrailKey, htitle⟩, -, -⟩ := railOf_eq_some hrail
    rw [hgroups b hb] at hfirst
    rw [hrailKey, htitle]
    exact Option.some.inj (mem_rowsOf.mp hfirst).2
  -- Its rows are just those with this key.
  have hrows : ∀ b ∈ buckets, ∀ x, x ∈ b.2.flatMap Folder.rows ↔ x ∈ rows ∧
      coalesceOf rd rows x = some b.1 := by
    intro b hb x
    rw [List.mem_flatMap]
    constructor
    · rintro ⟨folder, hfolder, hin⟩
      rw [hgroups b hb] at hfolder
      obtain ⟨hmem, hcoalesce⟩ := mem_rowsOf.mp hfolder
      have hx := mem_of_folders hmem hin
      exact ⟨hx, (mem_folders_iff hx).mpr ⟨folder, hmem, Option.some.inj hcoalesce, hin⟩⟩
    · rintro ⟨hx, hcoalesce⟩
      obtain ⟨folder, hmem, hfolder, hin⟩ := (mem_folders_iff hx).mp hcoalesce
      refine ⟨folder, ?_, hin⟩
      rw [hgroups b hb]
      exact mem_rowsOf.mpr ⟨hmem, congrArg some hfolder⟩
  refine ⟨pairwise_sortedAsc _ _, ?_, fun rail hrail => ?_, fun x hx key hcoalesce => ?_⟩
  · refine (hperm.pairwise_iff fun h => Ne.symm h).mpr ?_
    rw [List.pairwise_filterMap]
    have hapart : buckets.Pairwise fun b c => b.1 ≠ c.1 := List.pairwise_map.mp hnodup
    refine hapart.imp_of_mem fun {b c} hb hc hne rail hrail rail' hrail' => ?_
    rw [hkey b hb rail hrail, hkey c hc rail' hrail']
    exact hne
  · obtain ⟨b, hb, hrailOf⟩ := List.mem_filterMap.mp (hperm.mem_iff.mp hrail)
    obtain ⟨-, hlong, hsorted⟩ := railOf_eq_some hrailOf
    obtain ⟨hdistinct, hsub, -⟩ := rowsById_spec rd (b.2.flatMap Folder.rows)
    have hsame := perm_sortedAsc rd.rowSortKey (rd.rowsById (b.2.flatMap Folder.rows))
    rw [← hsorted] at hsame
    refine ⟨hlong, (hsame.map rd.id).nodup_iff.mpr hdistinct,
      hsorted ▸ pairwise_sortedAsc _ _, fun x hx => ?_⟩
    rw [hkey b hb rail hrailOf]
    exact (hrows b hb x).mp (hsub x (hsame.mem_iff.mp hx))
  · obtain ⟨folder, hmem, hfolder, -⟩ := (mem_folders_iff hx).mp hcoalesce
    obtain ⟨b, hb, rfl⟩ := List.mem_map.mp ((hkeys key).mpr ⟨folder, hmem, congrArg some hfolder⟩)
    have hin := (hrows b hb x).mpr ⟨hx, hcoalesce⟩
    rcases hrail : rd.railOf b.2 with _ | rail
    · -- The bucket is too short for a rail.
      exact .inr fun y hy hsame => one_of_railOf_none hrail hin ((hrows b hb y).mpr ⟨hy, hsame⟩)
    · left
      obtain ⟨-, -, hsorted⟩ := railOf_eq_some hrail
      obtain ⟨-, -, hcover⟩ := rowsById_spec rd (b.2.flatMap Folder.rows)
      obtain ⟨y, hy, hid⟩ := hcover x hin
      refine ⟨rail, hperm.mem_iff.mpr (List.mem_filterMap.mpr ⟨b, hb, hrail⟩),
        hkey b hb rail hrail, y, ?_, hid⟩
      rw [hsorted]
      exact (perm_sortedAsc _ _).mem_iff.mpr hy

end SeriesRails
