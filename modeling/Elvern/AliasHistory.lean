/-
What the aliases of local copies tell about files.

* `Content` — an alias gives the identity a content sample;
* `Told` — every alias was recorded for a file that a scan has seen, and an identity has one
  content;
* `Told.record` — it stays so where aliases are recorded for a file with the content;
* `Told.stable_content` — a row is stable at a file with its content, if no file has replaced
  another with its inode and times;
* `Told.classify` — the classification of a scan keeps it.
-/
import Elvern.ScanRemoval

namespace MediaScan

/-- An alias gives the identity the content. -/
def Content (aliases : List Alias) (identity : ℕ) (content : ContentSample) : Prop :=
  ∃ a ∈ aliases, a.identity = identity ∧ ∃ source, a.evidence = .sample source content

/-- The file is a regular one with the content. -/
structure ScannedFile.Has (f : ScannedFile) (content : ContentSample) : Prop where
  regular : f.stat.regular = true
  sample : f.sample = some content

/-- Every alias was recorded for a file seen, and identities have one content each. -/
structure Told (shared : ℕ) (seen : List ScannedFile) (aliases : List Alias) : Prop where
  known : ∀ a ∈ aliases, a.source = shared ∧ ∃ f ∈ seen, ∃ content, f.Has content ∧
    a.locator = f.path ∧ a.evidence ∈ localCopyEvidenceHashes shared f true ∧
    Content aliases a.identity content
  one : ∀ identity content content', Content aliases identity content →
    Content aliases identity content' → content = content'

/-- Where a file stands at the place of another and has its device, inode, size and times, it is the
same file. -/
def Unreplaced (seen : List ScannedFile) : Prop :=
  ∀ f ∈ seen, ∀ g ∈ seen, f.path = g.path → f.stat.dev = g.stat.dev → f.stat.ino = g.stat.ino →
    f.stat.size = g.stat.size → f.stat.mtimeNs = g.stat.mtimeNs → f.stat.ctimeNs = g.stat.ctimeNs →
    f.sample = g.sample

section Evidence

variable {source : ℕ} {f g : ScannedFile} {content : ContentSample} {sampled : Bool} {e : Evidence}

/-- The pieces of evidence of a file. -/
theorem mem_evidence : e ∈ localCopyEvidenceHashes source f sampled ↔
    f.stat.regular = true ∧
      ((0 < f.stat.ino ∧ (e = .inodeV2 source f.stat.dev f.stat.ino f.stat.size f.stat.mtimeNs
          f.stat.ctimeNs ∨ e = .inodeV1 source f.stat.dev f.stat.ino)) ∨
        (sampled = true ∧ ∃ content, f.sample = some content ∧ e = .sample source content)) := by
  have hinode : e ∈ (if 0 < f.stat.ino then
      [Evidence.inodeV2 source f.stat.dev f.stat.ino f.stat.size f.stat.mtimeNs f.stat.ctimeNs,
        .inodeV1 source f.stat.dev f.stat.ino] else []) ↔
      0 < f.stat.ino ∧ (e = .inodeV2 source f.stat.dev f.stat.ino f.stat.size f.stat.mtimeNs
        f.stat.ctimeNs ∨ e = .inodeV1 source f.stat.dev f.stat.ino) := by
    by_cases hino : 0 < f.stat.ino
    · rw [if_pos hino, and_iff_right hino, List.mem_cons, List.mem_singleton]
    · rw [if_neg hino]
      exact ⟨fun he => absurd he List.not_mem_nil, fun h => absurd h.1 hino⟩
  have hsample : e ∈
      (if sampled = true then (f.sample.map (Evidence.sample source)).toList else []) ↔
      sampled = true ∧ ∃ content, f.sample = some content ∧ e = .sample source content := by
    by_cases hsampled : sampled = true
    · rw [if_pos hsampled, and_iff_right hsampled, Option.mem_toList, Option.map_eq_some_iff]
      exact exists_congr fun content => and_congr_right fun _ => eq_comm
    · rw [if_neg hsampled]
      exact ⟨fun he => absurd he List.not_mem_nil, fun h => absurd h.1 hsampled⟩
  rw [localCopyEvidenceHashes]
  by_cases hregular : f.stat.regular = true
  · rw [if_pos hregular, and_iff_right hregular, ← hinode, ← hsample]
    exact List.mem_append
  · rw [if_neg hregular]
    exact ⟨fun he => absurd he List.not_mem_nil, fun h => absurd h.1 hregular⟩

theorem ScannedFile.Has.evidence (h : f.Has content) :
    .sample source content ∈ localCopyEvidenceHashes source f true :=
  mem_evidence.2 ⟨h.regular, Or.inr ⟨rfl, content, h.sample, rfl⟩⟩

theorem ScannedFile.Has.content_eq (h : f.Has content)
    (he : e ∈ localCopyEvidenceHashes source f sampled) (hsample : e.isSample = true) :
    e = .sample source content := by
  obtain ⟨-, ⟨-, rfl | rfl⟩ | ⟨-, c, hc, rfl⟩⟩ := mem_evidence.1 he
  · cases hsample
  · cases hsample
  · rw [h.sample] at hc
    cases hc
    rfl

end Evidence

section Aliases

variable {shared identity : ℕ} {seen seen' : List ScannedFile} {aliases : List Alias}
  {f : ScannedFile} {content : ContentSample} {row : MediaItem}

theorem Content.mono {aliases' : List Alias} (h : Content aliases identity content)
    (hsub : ∀ a ∈ aliases, a ∈ aliases') : Content aliases' identity content := by
  obtain ⟨a, ha, hid, he⟩ := h
  exact ⟨a, hsub a ha, hid, he⟩

theorem told_nil : Told shared seen [] :=
  ⟨fun a ha => absurd ha List.not_mem_nil, fun _ _ _ h => by
    obtain ⟨a, ha, -⟩ := h
    exact absurd ha List.not_mem_nil⟩

theorem Told.see (h : Told shared seen aliases) (hsub : ∀ f ∈ seen, f ∈ seen') :
    Told shared seen' aliases where
  known a ha := by
    obtain ⟨hsource, f, hf, hrest⟩ := h.known a ha
    exact ⟨hsource, f, hsub f hf, hrest⟩
  one := h.one

/-- The aliases of a file are recorded for an identity that has its content, or none yet. -/
theorem Told.record (h : Told shared seen aliases) (hf : f ∈ seen) (hhas : f.Has content)
    (hfits : ∀ content', Content aliases identity content' → content' = content) :
    Told shared seen (recordLocalCopyIdentityAliases aliases shared f identity true) ∧
      Content (recordLocalCopyIdentityAliases aliases shared f identity true) identity content ∧
      ∀ a ∈ aliases, a ∈ recordLocalCopyIdentityAliases aliases shared f identity true := by
  have hsub : ∀ a ∈ aliases, a ∈ recordLocalCopyIdentityAliases aliases shared f identity true :=
    fun a ha => mem_recordAliases.2 (Or.inl ha)
  have hnew : Content (recordLocalCopyIdentityAliases aliases shared f identity true)
      identity content :=
    ⟨⟨identity, shared, f.path, .sample shared content⟩,
      mem_recordAliases.2 (Or.inr ⟨_, hhas.evidence, rfl⟩), rfl, shared, rfl⟩
  -- what is new has the content
  have hcases : ∀ i c, Content (recordLocalCopyIdentityAliases aliases shared f identity true) i c →
      Content aliases i c ∨ i = identity ∧ c = content := by
    rintro i c ⟨a, ha, hid, source, he⟩
    rcases mem_recordAliases.1 ha with ha | ⟨e, hmem, rfl⟩
    · exact Or.inl ⟨a, ha, hid, source, he⟩
    · have hsample := hhas.content_eq hmem (by rw [show e = _ from he]; rfl)
      rw [show e = _ from he] at hsample
      cases hsample
      exact Or.inr ⟨hid.symm, rfl⟩
  refine ⟨⟨fun a ha => ?_, fun i c c' hc hc' => ?_⟩, hnew, hsub⟩
  · rcases mem_recordAliases.1 ha with ha | ⟨e, hmem, rfl⟩
    · obtain ⟨hsource, g, hg, c, hhas', hlocator, he, hc⟩ := h.known a ha
      exact ⟨hsource, g, hg, c, hhas', hlocator, he, hc.mono hsub⟩
    · exact ⟨rfl, f, hf, content, hhas, rfl, hmem, hnew⟩
  · rcases hcases i c hc with hc | ⟨rfl, rfl⟩ <;> rcases hcases _ c' hc' with hc' | ⟨hi, rfl⟩
    · exact h.one i c c' hc hc'
    · exact hfits c (hi ▸ hc)
    · exact (hfits c' hc').symm
    · rfl

/-- The content of a file is that of the identities that its sample is known by. -/
theorem Told.candidate_content (hhas : f.Has content) {lookup : Lookup}
    (hlookup : lookup.includeContentSample = true)
    (hc : identity ∈ findLocalCopyIdentityCandidates aliases shared f lookup) :
    Content aliases identity content := by
  obtain ⟨-, -, hsufficient⟩ := mem_findCandidates.1 hc
  rw [hlookup] at hsufficient
  have hany : (localCopyEvidenceHashes shared f true).any Evidence.isSample = true :=
    List.any_eq_true.2 ⟨_, hhas.evidence, rfl⟩
  rw [sufficient] at hsufficient
  simp only [hany, if_true] at hsufficient
  obtain ⟨a, ha, hp⟩ := List.any_eq_true.1 hsufficient
  rw [Bool.and_eq_true, decide_eq_true_eq] at hp
  obtain ⟨hmem, -, he, -⟩ := mem_matchingAliases.1 ha
  rw [hlookup] at he
  exact ⟨a, hmem, hp.1, shared, hhas.content_eq he hp.2⟩

/-- An identity with the content of a file is a candidate for it, anywhere. -/
theorem Told.candidate_of_content (h : Told shared seen aliases) (hhas : f.Has content)
    (hc : Content aliases identity content) :
    identity ∈ findLocalCopyIdentityCandidates aliases shared f .anywhere := by
  obtain ⟨a, ha, hid, source, he⟩ := hc
  obtain ⟨hsource, g, -, c, hhas', -, hmem, -⟩ := h.known a ha
  have heq := hhas'.content_eq hmem (by rw [he]; rfl)
  rw [he] at heq
  have hshared : source = shared := (Evidence.sample.inj heq).1
  have hany : (localCopyEvidenceHashes shared f true).any Evidence.isSample = true :=
    List.any_eq_true.2 ⟨_, hhas.evidence, rfl⟩
  have hfound : a ∈ matchingAliases aliases shared f .anywhere := by
    refine mem_matchingAliases.2 ⟨ha, hsource, ?_, fun hl => by cases hl⟩
    rw [he, hshared]
    exact hhas.evidence
  refine mem_findCandidates.2 ⟨fun _ => hany, ⟨a, hfound, hid⟩, ?_⟩
  rw [show Lookup.anywhere.includeContentSample = true from rfl, sufficient]
  simp only [hany, if_true]
  exact List.any_eq_true.2
    ⟨a, hfound, by rw [Bool.and_eq_true]; exact ⟨decide_eq_true hid, by rw [he]; rfl⟩⟩

/-- What is known at a place by inode and times is known of the file, if no other has replaced
it. -/
theorem Told.inPlace_content (h : Told shared seen aliases) (hseen : ∀ g ∈ seen, g ∈ seen')
    (hunreplaced : Unreplaced seen') (hf : f ∈ seen') (hhas : f.Has content)
    (hc : identity ∈ findLocalCopyIdentityCandidates aliases shared f .inPlace) :
    Content aliases identity content := by
  obtain ⟨-, ⟨a, ha, hid⟩, hsufficient⟩ := mem_findCandidates.1 hc
  obtain ⟨-, -, he, -⟩ := mem_matchingAliases.1 ha
  -- the file has an inode, and both versions of it are known
  have hino : 0 < f.stat.ino := by
    obtain ⟨-, ⟨hino, -⟩ | ⟨hsampled, -⟩⟩ := mem_evidence.1 he
    · exact hino
    · cases hsampled
  have hv2 : Evidence.inodeV2 shared f.stat.dev f.stat.ino f.stat.size f.stat.mtimeNs
      f.stat.ctimeNs ∈ localCopyEvidenceHashes shared f Lookup.inPlace.includeContentSample :=
    mem_evidence.2 ⟨hhas.regular, Or.inl ⟨hino, Or.inl rfl⟩⟩
  have hnosample : (localCopyEvidenceHashes shared f Lookup.inPlace.includeContentSample).any
      Evidence.isSample = false := by
    rw [List.any_eq_false]
    intro e he
    obtain ⟨-, ⟨-, rfl | rfl⟩ | ⟨hsampled, -⟩⟩ := mem_evidence.1 he
    · exact Bool.false_ne_true
    · exact Bool.false_ne_true
    · cases hsampled
  have hany : (localCopyEvidenceHashes shared f Lookup.inPlace.includeContentSample).any
      Evidence.isInodeV2 = true := List.any_eq_true.2 ⟨_, hv2, rfl⟩
  have hhasV2 : ((matchingAliases aliases shared f .inPlace).any fun a =>
      decide (a.identity = identity) && a.evidence.isInodeV2) = true := by
    by_contra hno
    rw [sufficient] at hsufficient
    simp only [hnosample, hany, Bool.eq_false_of_not_eq_true hno] at hsufficient
    simp at hsufficient
  obtain ⟨b, hb, hp⟩ := List.any_eq_true.1 hhasV2
  rw [Bool.and_eq_true, decide_eq_true_eq] at hp
  obtain ⟨hmem, -, hbe, hlocator⟩ := mem_matchingAliases.1 hb
  obtain ⟨-, g, hg, c, hhas', hplace, hge, hgc⟩ := h.known b hmem
  have hbeq : b.evidence = .inodeV2 shared f.stat.dev f.stat.ino f.stat.size f.stat.mtimeNs
      f.stat.ctimeNs := by
    obtain ⟨-, ⟨-, heq | heq⟩ | ⟨hsampled, -⟩⟩ := mem_evidence.1 hbe
    · exact heq
    · rw [heq] at hp
      cases hp.2
    · cases hsampled
  rw [hbeq] at hge
  obtain ⟨-, ⟨-, heq | heq⟩ | ⟨-, _, -, heq⟩⟩ := mem_evidence.1 hge
  · obtain ⟨-, hdev, hino, hsize, hmtime, hctime⟩ := Evidence.inodeV2.inj heq
    have hsame : f.sample = g.sample := hunreplaced f hf g (hseen g hg)
      ((hlocator rfl).symm.trans hplace) hdev hino hsize hmtime hctime
    rw [hhas.sample, hhas'.sample] at hsame
    cases hsame
    exact hp.1 ▸ hgc
  · cases heq
  · cases heq

theorem Told.stable_content (h : Told shared seen aliases) (hseen : ∀ g ∈ seen, g ∈ seen')
    (hunreplaced : Unreplaced seen') (hf : f ∈ seen') (hhas : f.Has content)
    (hsource : row.source = shared) (hidentity : row.hiddenCopyIdentity = some identity)
    (hstable : stableAt aliases row f = true) : Content aliases identity content := by
  rw [stableAt, Bool.and_eq_true] at hstable
  have hconfirmed := hstable.2
  simp only [identityConfirmed, hidentity, decide_eq_true_eq, hsource] at hconfirmed
  rcases hconfirmed with hc | hc
  · exact h.inPlace_content hseen hunreplaced hf hhas hc
  · exact Told.candidate_content hhas rfl hc

/-! ### Classification -/

theorem resolve_identified {db : Db} {sampled : Bool} {disallowed : List ℕ}
    (hidentity : row.hiddenCopyIdentity = some identity) :
    db.resolveHiddenCopyIdentity row f sampled disallowed =
      { db with
        aliases := recordLocalCopyIdentityAliases db.aliases row.source f identity sampled } := by
  rw [Db.resolveHiddenCopyIdentity, hidentity]

/-- The classification of a file records no aliases but those of its content. -/
theorem Told.classifyFile {db : Db} {rows : List MediaItem} (h : Told shared seen db.aliases)
    (hf : f ∈ seen) (hhas : f.Has content)
    (hrows : ∀ row ∈ rows, row.source = shared ∧ row.hiddenCopyIdentity ≠ none) :
    ∃ aliases', (classifyFile rows shared db f).2 = { db with aliases := aliases' } ∧
      Told shared seen aliases' ∧ ∀ a ∈ db.aliases, a ∈ aliases' := by
  have hsame : ∃ aliases', db = { db with aliases := aliases' } ∧ Told shared seen aliases' ∧
      ∀ a ∈ db.aliases, a ∈ aliases' := ⟨db.aliases, rfl, h, fun _ ha => ha⟩
  rw [MediaScan.classifyFile]
  simp only
  cases hfind : rows.find? fun r => decide (r.filePath = .disk f.path) with
  | none => exact hsame
  | some row =>
    obtain ⟨hsource, hidentified⟩ := hrows row (List.mem_of_find?_eq_some hfind)
    obtain ⟨identity, hidentity⟩ := Option.ne_none_iff_exists'.1 hidentified
    simp only [hidentity]
    split
    · split
      · split
        · exact hsame
        · split
          · next hsampled =>
            rw [hsource] at hsampled
            have hcontent : Content db.aliases identity content :=
              Told.candidate_content hhas rfl hsampled
            obtain ⟨htold, -, hsub⟩ := h.record hf hhas fun content' hc' =>
              h.one identity content' content hc' hcontent
            refine ⟨_, resolve_identified hidentity, ?_, ?_⟩
            · rw [hsource]
              exact htold
            · rw [hsource]
              exact hsub
          · exact hsame
      · exact hsame
    · exact hsame

/-- The classification of the files does. -/
theorem Told.classify {rows : List MediaItem}
    (hrows : ∀ row ∈ rows, row.source = shared ∧ row.hiddenCopyIdentity ≠ none) :
    ∀ {files : List ScannedFile} {db : Db}, Told shared seen db.aliases →
      (∀ f ∈ files, f ∈ seen ∧ ∃ content, f.Has content) →
      ∃ aliases', (classify rows shared db files).2 = { db with aliases := aliases' } ∧
        Told shared seen aliases' ∧ ∀ a ∈ db.aliases, a ∈ aliases' := by
  intro files
  induction files with
  | nil => exact fun h _ => ⟨_, rfl, h, fun _ ha => ha⟩
  | cons f rest ih =>
    intro db h hfiles
    obtain ⟨hf, content, hhas⟩ := hfiles f (List.mem_cons_self ..)
    obtain ⟨aliases₁, heq₁, htold₁, hsub₁⟩ := h.classifyFile hf hhas hrows
    have hnext : Told shared seen (MediaScan.classifyFile rows shared db f).2.aliases := by
      rw [heq₁]
      exact htold₁
    obtain ⟨aliases₂, heq₂, htold₂, hsub₂⟩ := ih hnext fun g hg =>
      hfiles g (List.mem_cons_of_mem _ hg)
    refine ⟨aliases₂, ?_, htold₂, fun a ha => hsub₂ a ?_⟩
    · rw [MediaScan.classify]
      simp only
      rw [heq₂, heq₁]
    · rw [heq₁]
      exact hsub₁ a ha

end Aliases

end MediaScan
