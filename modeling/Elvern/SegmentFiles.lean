/-
The segment files of the store of shared output (`route2_shared_output_store.py`).

* `sharedSegmentFilename_injective` — a file name has one index;
* `Truthful` — each record names a file, with its size and its hash;
* `FilesKept` — no file goes, and none changes;
* `writePlans_files`, `writePlans_conflict` — the loop over the plans keeps both, and notes a plan
  with other bytes than the file;
* `segment_files_kept` — so does every run of calls, whatever fails in them.
-/
import Elvern.ConflictMemory

open ConflictEvidence SharedOutput Runs

namespace SharedStore

/-- A file name is read back as its index. -/
theorem sharedSegmentFilename_injective : Function.Injective sharedSegmentFilename := by
  intro a b h
  have hlist := congrArg String.toList h
  simp only [sharedSegmentFilename, String.toList_append, String.toList_ofList] at hlist
  have hdigits := List.append_cancel_left (List.append_cancel_right hlist)
  have hnumber := congrArg (fun l => Nat.ofDigitChars 10 l 0) hdigits
  simp only [Nat.ofDigitChars_append, Nat.ofDigitChars_replicate_zero, Nat.mul_zero,
    Nat.ofDigitChars_ten_toDigits] at hnumber
  exact hnumber

/-- The record names a file, and is right about it. -/
structure RecordTrue (sha256 : Bytes → String) (files : String → Option Bytes) (r : SegmentRecord) :
    Prop where
  filename : r.filename = sharedSegmentFilename r.index
  file : ∃ bytes, files r.filename = some bytes ∧ r.sizeBytes = bytes.length ∧
    r.sha256 = sha256 bytes

/-- Every entry of `segments.json` is right. -/
def Truthful (sha256 : Bytes → String) (d : Directory) : Prop :=
  ∀ r ∈ d.listed, RecordTrue sha256 d.files r

/-- Every file is still there, with its bytes. -/
def FilesKept (files files' : String → Option Bytes) : Prop :=
  ∀ filename bytes, files filename = some bytes → files' filename = some bytes

/-- The plan gets to the comparison with a file that is there. -/
structure Plan.Compares (plan : Plan) (index : ℕ) (staged : Bytes) : Prop where
  indexed : plan.absoluteIndex = some (index : ℤ)
  sourced : plan.sourceSegment = some staged
  unblocked : plan.hardBlockers = []
  named : ¬ (truthy plan.expectedFilename).any (·.1 ≠ sharedSegmentFilename index) = true
  copied : plan.failsAt ∉ [some .copy, some .hashStaged, some .lookUp]
  checked : plan.failsAt ∉ [some .checkRegular, some .hashFinal]

section Loop

variable {sha256 : Bytes → String} {timestamp now : Timestamp}
  {files files' : String → Option Bytes}
  {s : Writing} {records : List SegmentRecord} {r : SegmentRecord}

theorem FilesKept.refl : FilesKept files files := fun _ _ h => h

theorem FilesKept.trans {files'' : String → Option Bytes} (h : FilesKept files files')
    (h' : FilesKept files' files'') : FilesKept files files'' :=
  fun filename bytes hfile => h' filename bytes (h filename bytes hfile)

theorem RecordTrue.kept (h : RecordTrue sha256 files r) (hkept : FilesKept files files') :
    RecordTrue sha256 files' r := by
  obtain ⟨hname, bytes, hfile, hsize, hhash⟩ := h
  exact ⟨hname, bytes, hkept _ _ hfile, hsize, hhash⟩

theorem mem_putRecord {record : SegmentRecord} (h : r ∈ putRecord records record) :
    r ∈ records ∨ r = record := by
  rcases List.mem_append.1 h with h | h
  · exact Or.inl (List.mem_filter.1 h).1
  · exact Or.inr (List.mem_singleton.1 h)

theorem mem_foldl_putRecord {rest : List SegmentRecord} : ∀ {records : List SegmentRecord},
    r ∈ rest.foldl putRecord records → r ∈ records ∨ r ∈ rest := by
  induction rest with
  | nil =>
    intro records h
    exact Or.inl h
  | cons record rest ih =>
    intro records h
    rcases ih h with h | h
    · rcases mem_putRecord h with h | rfl
      · exact Or.inl h
      · exact Or.inr List.mem_cons_self
    · exact Or.inr (List.mem_cons_of_mem _ h)

/-- **One plan** keeps the files, and its record is right. -/
theorem writePlan_files (sha256 : Bytes → String) (s : Writing) (plan : Plan) (index : ℕ)
    (staged : Bytes) :
    FilesKept s.files (writePlan sha256 timestamp now s plan index staged).files ∧
      ((∀ r ∈ s.records, RecordTrue sha256 s.files r) →
        ∀ r ∈ (writePlan sha256 timestamp now s plan index staged).records,
          RecordTrue sha256 (writePlan sha256 timestamp now s plan index staged).files r) := by
  obtain heq | ⟨final, -, -, heq⟩ | ⟨final, writtenAt, hfile, heq⟩ | ⟨hnone, records,
      hrecords, heq⟩ :=
    writePlan_cases sha256 timestamp now s plan index staged
  · rw [heq]
    exact ⟨.refl, id⟩
  · rw [heq]
    exact ⟨.refl, id⟩
  · rw [heq]
    refine ⟨.refl, fun h r hr => ?_⟩
    rcases mem_putRecord hr with hr | rfl
    · exact h r hr
    · exact ⟨rfl, final, hfile, rfl, rfl⟩
  · rw [heq]
    -- the name was free, so that the new file takes the place of none
    have hkept : FilesKept s.files (Function.update s.files (sharedSegmentFilename index)
        (some staged)) := by
      intro filename bytes hbytes
      rw [Function.update_of_ne, hbytes]
      rintro rfl
      rw [hnone] at hbytes
      cases hbytes
    refine ⟨hkept, fun h r hr => ?_⟩
    rcases hrecords with rfl | rfl
    · exact (h r hr).kept hkept
    · rcases mem_putRecord hr with hr | rfl
      · exact (h r hr).kept hkept
      · exact ⟨rfl, staged, Function.update_self .., rfl, rfl⟩

/-- **The loop** keeps the files and the truth of the records, also where it is left with an
exception. -/
theorem writePlans_files (sha256 : Bytes → String) (timestamp now : Timestamp) (plans : List Plan) :
    ∀ s : Writing, FilesKept s.files (writePlans sha256 timestamp now s plans).1.files ∧
      ((∀ r ∈ s.records, RecordTrue sha256 s.files r) →
        ∀ r ∈ (writePlans sha256 timestamp now s plans).1.records,
          RecordTrue sha256 (writePlans sha256 timestamp now s plans).1.files r) := by
  induction plans with
  | nil =>
    intro s
    exact ⟨.refl, id⟩
  | cons plan rest ih =>
    intro s
    rw [writePlans]
    split
    · exact ⟨.refl, id⟩
    · split
      · exact ih s
      · split_ifs
        · exact ih s
        · exact ⟨.refl, id⟩
        · obtain ⟨hkept, htrue⟩ := writePlan_files sha256 s plan _ _
          obtain ⟨hrest, htrue'⟩ := ih _
          exact ⟨hkept.trans hrest, fun h => htrue' (htrue h)⟩

/-- A plan whose bytes are not those of the file adds its index to the conflicts, and nothing else
changes. -/
theorem writePlan_conflict (hsha : Function.Injective sha256) {plan : Plan} {index : ℕ}
    {staged final : Bytes} (hplan : plan.Compares index staged)
    (hfile : s.files (sharedSegmentFilename index) = some final) (hne : final ≠ staged) :
    index ∈ (writePlan sha256 timestamp now s plan index staged).conflicts.map
      ConflictRecord.index ∧ (writePlan sha256 timestamp now s plan index staged).files = s.files ∧
      (writePlan sha256 timestamp now s plan index staged).records = s.records := by
  have heq : writePlan sha256 timestamp now s plan index staged =
      { s with
        conflicts := mergeConflictRecords (s.conflicts.map ConflictRecord.raw ++
          [(conflictRecord sha256 timestamp index final staged).raw]) (some timestamp.1) now } := by
    rw [writePlan]
    dsimp only
    rw [if_neg hplan.named, if_neg hplan.copied, hfile]
    dsimp only
    rw [if_neg hplan.checked, if_pos fun h => hne (hsha h)]
  rw [heq]
  refine ⟨mem_mergeConflictRecords.2 ⟨_, List.mem_append_right _ (List.mem_singleton_self _), rfl⟩,
    rfl, rfl⟩

/-- Over a loop that comes to its end. -/
theorem writePlans_conflict (hsha : Function.Injective sha256) {plan : Plan} {index : ℕ}
    {staged final : Bytes} (hplan : plan.Compares index staged) (hne : final ≠ staged)
    {plans : List Plan} : ∀ {s : Writing}, plan ∈ plans →
      s.files (sharedSegmentFilename index) = some final →
      (writePlans sha256 timestamp now s plans).2 = false →
      index ∈ (writePlans sha256 timestamp now s plans).1.conflicts.map ConflictRecord.index := by
  induction plans with
  | nil =>
    intro s hmem
    cases hmem
  | cons head rest ih =>
    intro s hmem hfile hend
    rcases List.mem_cons.1 hmem with rfl | hmem
    · rw [writePlans, hplan.indexed, hplan.sourced] at hend ⊢
      dsimp only at hend ⊢
      have hblockers : ¬ plan.hardBlockers ≠ [] := fun h => h hplan.unblocked
      have hindex : ¬ (index : ℤ) < 0 := by omega
      rw [if_neg hblockers, if_neg hindex] at hend ⊢
      rw [Int.toNat_natCast]
      exact writePlans_conflicts (writePlan_conflict hsha hplan hfile hne).1
    · rw [writePlans] at hend ⊢
      split at hend
      · cases hend
      · split at hend
        · exact ih hmem hfile hend
        · split_ifs at hend ⊢
          · exact ih hmem hfile hend
          · exact ih hmem ((writePlan_files sha256 s head _ _).1 _ _ hfile) hend

end Loop

/-! ### Calls -/

section Calls

variable {sha256 : Bytes → String} {d d' : Directory}

/-- The metadata is written behind the files: they are those of the loop, and the entries those that
were there or the records of the loop. -/
theorem updateSegmentMetadata_files (call : SegmentMediaCall) (s : Writing) :
    (d.updateSegmentMetadata call s).1.files = s.files ∧
      ((d.updateSegmentMetadata call s).1.listed = d.listed ∨
        ∀ r ∈ (d.updateSegmentMetadata call s).1.listed, r ∈ s.records) := by
  have hordered : ∀ r ∈ s.records.mergeSort (fun a b => decide (a.index ≤ b.index)),
      r ∈ s.records := by
    intro r hr
    rwa [List.mem_mergeSort] at hr
  rw [Directory.updateSegmentMetadata]
  dsimp only
  split_ifs
  · exact ⟨rfl, Or.inl rfl⟩
  · exact ⟨rfl, Or.inr hordered⟩
  · exact ⟨rfl, Or.inr hordered⟩
  · exact ⟨rfl, Or.inr hordered⟩

/-- **The segment writer**, however it ends, keeps the files, and the truth of `segments.json`. -/
theorem writeSegmentMedia_files (call : SegmentMediaCall) :
    FilesKept d.files (d.writeSegmentMedia sha256 call).1.files ∧
      (Truthful sha256 d → Truthful sha256 (d.writeSegmentMedia sha256 call).1) := by
  obtain ⟨hkept, htrue⟩ := writePlans_files sha256 call.timestamp call.now call.plans
    (d.writing call)
  -- the loop starts from the entries of the document
  have hstart : Truthful sha256 d → ∀ r ∈ d.listed.foldl putRecord [],
      RecordTrue sha256 d.files r := by
    intro hd r hr
    rcases mem_foldl_putRecord hr with h | h
    · cases h
    · exact hd r h
  have hlisted : ∀ {s : Writing}, FilesKept d.files s.files → Truthful sha256 d →
      ∀ r ∈ d.listed, RecordTrue sha256 s.files r :=
    fun hkept hd r hr => (hd r hr).kept hkept
  have hupdated : ∀ s raised raised' d', writePlans sha256 call.timestamp call.now
    (d.writing call) call.plans =
      (s, raised) → d.updateSegmentMetadata call s = (d', raised') →
      FilesKept d.files d'.files ∧ (Truthful sha256 d → Truthful sha256 d') := by
    intro s raised raised' d' h hupdate
    obtain ⟨hfiles, hrecords⟩ := updateSegmentMetadata_files (d := d) call s
    rw [h] at hkept htrue
    rw [hupdate] at hfiles hrecords
    rw [hfiles]
    refine ⟨hkept, fun hd r hr => ?_⟩
    rw [hfiles]
    rcases hrecords with hsame | hmem
    · rw [hsame] at hr
      exact hlisted hkept hd r hr
    · exact htrue (hstart hd) r (hmem r hr)
  have hcourse := d.segmentCourse sha256 call
  generalize d.writeSegmentMedia sha256 call = result at hcourse ⊢
  cases hcourse with
  | unread => exact ⟨.refl, id⟩
  | blocked => exact ⟨.refl, id⟩
  | undirected => exact ⟨.refl, id⟩
  | unplanned => exact ⟨.refl, id⟩
  | raised _ s h =>
    rw [h] at hkept
    exact ⟨hkept, fun hd => hlisted hkept hd⟩
  | empty _ s h =>
    rw [h] at hkept
    exact ⟨hkept, fun hd => hlisted hkept hd⟩
  | unwritten _ s h d' hupdate => exact hupdated s false true d' h hupdate
  | written _ s h d' hupdate => exact hupdated s false false d' h hupdate

/-- **A call** does so; the other writers touch neither the files nor the entries. -/
theorem call_files (call : Call) :
    FilesKept d.files (d.call sha256 call).1.files ∧
      (Truthful sha256 d → Truthful sha256 (d.call sha256 call).1) := by
  cases call with
  | storeMetadata call =>
    show FilesKept d.files (d.writeStoreMetadata call).1.files ∧
      (Truthful sha256 d → Truthful sha256 (d.writeStoreMetadata call).1)
    rw [Directory.writeStoreMetadata]
    dsimp only
    split_ifs <;> exact ⟨.refl, id⟩
  | initMedia call =>
    show FilesKept d.files (d.writeInitMedia call).files ∧
      (Truthful sha256 d → Truthful sha256 (d.writeInitMedia call))
    rw [Directory.writeInitMedia]
    split_ifs <;> exact ⟨.refl, id⟩
  | segmentMedia call => exact writeSegmentMedia_files call

/-- **Every run** keeps the files. -/
theorem reach_files (h : Reach (Directory.step sha256) (fun _ _ => True) d d') :
    FilesKept d.files d'.files := by
  refine Reach.invariant (P := fun e => FilesKept d.files e.files) .refl ?_ h
  intro s call s' _ hs _ hstep
  cases hstep
  exact hs.trans (call_files call).1

/-- **Every run** keeps the truth of `segments.json`. -/
theorem reach_truthful (h : Reach (Directory.step sha256) (fun _ _ => True) d d')
    (hd : Truthful sha256 d) : Truthful sha256 d' := by
  refine Reach.invariant (P := Truthful sha256) hd ?_ h
  intro s call s' _ hs _ hstep
  cases hstep
  exact (call_files call).2 hs

/-! ### A conflict in a call that comes to its end -/

/-- Nothing stops the writer before its plans, and no exception comes to its outer handler. -/
structure SegmentMediaCall.Completes (d : Directory) (call : SegmentMediaCall) : Prop where
  reached : (Call.segmentMedia call).reachesStore = true
  unblocked : d.segmentsBlocked call = false
  quiet : call.raises d = false

theorem updateSegmentMetadata_lists {n : ℕ} (call : SegmentMediaCall) {s : Writing}
    (hn : n ∈ s.conflicts.map ConflictRecord.index)
    (hend : (d.updateSegmentMetadata call s).2 = false) (part : Part) :
    ∃ document ∈ (d.updateSegmentMetadata call s).1.document part, document.lists n := by
  have hmerged : n ∈ (mergeConflictRecords
      (d.documents.flatMap Document.raws ++ s.conflicts.map ConflictRecord.raw)
      (some call.timestamp.1) call.now).map ConflictRecord.index := by
    obtain ⟨r, hr, rfl⟩ := List.mem_map.1 hn
    exact mem_mergeConflictRecords.2 ⟨r.raw, List.mem_append_right _ (List.mem_map_of_mem hr), rfl⟩
  have hlists : ∀ payload present, (applyServabilityFields payload present (mergeConflictRecords
      (d.documents.flatMap Document.raws ++ s.conflicts.map ConflictRecord.raw)
      (some call.timestamp.1) call.now) call.now).lists n :=
    fun payload present => applied_sound.lists n (applied_knows.2 (Or.inr hmerged))
  rw [Directory.updateSegmentMetadata] at hend ⊢
  dsimp only at hend ⊢
  split_ifs at hend ⊢
  cases part with
  | metadata => exact ⟨_, rfl, hlists _ _⟩
  | ranges => exact ⟨_, rfl, hlists _ _⟩
  | segments => exact ⟨_, rfl, hlists _ _⟩

/-- A plan with other bytes than the file of the store: every document lists its index
afterwards. -/
theorem writeSegmentMedia_conflict (hsha : Function.Injective sha256) {call : SegmentMediaCall}
    (hcall : call.Completes d) {plan : Plan} {index : ℕ} {staged final : Bytes}
    (hmem : plan ∈ call.plans) (hplan : plan.Compares index staged)
    (hfile : d.files (sharedSegmentFilename index) = some final)
    (hne : final ≠ staged) (part : Part) :
    ∃ document ∈ (d.writeSegmentMedia sha256 call).1.document part, document.lists index := by
  obtain ⟨hreach, hblocked, hquiet⟩ := hcall
  have hplans : call.plans ≠ [] := List.ne_nil_of_mem hmem
  rw [SegmentMediaCall.raises, hblocked, List.isEmpty_eq_false_iff.2 hplans] at hquiet
  simp only [Bool.not_false, Bool.true_and, Bool.or_eq_false_iff, decide_eq_false_iff_not] at hquiet
  obtain ⟨hdirectories, ⟨hany, hduration⟩, hfails⟩ := hquiet
  have hend : (writePlans sha256 call.timestamp call.now (d.writing call)
      call.plans).2 = false := by
    rw [writePlans_raised]
    exact hany
  have hn := writePlans_conflict hsha hplan hne hmem hfile hend
  have hcourse := d.segmentCourse sha256 call
  generalize d.writeSegmentMedia sha256 call = result at hcourse ⊢
  cases hcourse with
  | unread h => exact absurd h (reads_of_reachesStore hreach)
  | blocked _ h =>
    rw [hblocked] at h
    cases h
  | undirected _ _ h => exact absurd h hdirectories
  | unplanned _ _ _ h => exact absurd h hplans
  | raised _ s h =>
    rw [h] at hend
    cases hend
  | empty _ s h hnone =>
    rw [h, hnone.2] at hn
    cases hn
  | unwritten _ s h d' hupdate =>
    have hfailed := updateSegmentMetadata_raised (d := d) call s
    rw [hupdate, decide_eq_false hduration, decide_eq_false hfails] at hfailed
    cases hfailed
  | written _ s h d' hupdate =>
    rw [h] at hn
    have hlists := updateSegmentMetadata_lists (d := d) call hn (by rw [hupdate]) part
    rw [hupdate] at hlists
    exact hlists

end Calls

/-- A segment file stays with its bytes through every sequence of calls, and each entry of
`segments.json` names a file with its index, its size and its hash. A plan with other bytes adds its
index to the conflicts of the loop and leaves the files and the records as they are; where the call
comes to its end, every document lists the index. -/
theorem segment_files_kept (sha256 : Bytes → String) (hsha : Function.Injective sha256)
    (d₀ d : Directory) (h₀ : Truthful sha256 d₀)
    (hd : Reach (Directory.step sha256) (fun _ _ => True) d₀ d) :
    (∀ r ∈ d.listed, (∃ bytes, d.files r.filename = some bytes ∧ r.sizeBytes = bytes.length ∧
      r.sha256 = sha256 bytes) ∧ ∀ n, r.filename = sharedSegmentFilename n ↔ n = r.index) ∧
    (∀ d', Reach (Directory.step sha256) (fun _ _ => True) d d' →
      ∀ filename bytes, d.files filename = some bytes → d'.files filename = some bytes) ∧
    (∀ timestamp now s plan index staged final, plan.Compares index staged →
      s.files (sharedSegmentFilename index) = some final → final ≠ staged →
      index ∈ (writePlan sha256 timestamp now s plan index staged).conflicts.map
        ConflictRecord.index ∧
        (writePlan sha256 timestamp now s plan index staged).files = s.files ∧
        (writePlan sha256 timestamp now s plan index staged).records = s.records) ∧
    ∀ call plan index staged final, call.Completes d → plan ∈ call.plans →
      plan.Compares index staged →
      d.files (sharedSegmentFilename index) = some final → final ≠ staged →
      ∀ part, ∃ document ∈ (d.call sha256 (.segmentMedia call)).1.document part,
        document.lists index := by
  refine ⟨fun r hr => ?_, fun d' hd' => reach_files hd', ?_, ?_⟩
  · obtain ⟨hname, hfile⟩ := reach_truthful hd h₀ r hr
    refine ⟨hfile, fun n => ?_⟩
    rw [hname]
    exact ⟨fun h => (sharedSegmentFilename_injective h).symm, fun h => by rw [h]⟩
  · intro timestamp now s plan index staged final hplan hfile hne
    exact writePlan_conflict hsha hplan hfile hne
  · intro call plan index staged final hcall hmem hplan hfile hne
    exact writeSegmentMedia_conflict hsha hcall hmem hplan hfile hne

theorem plainDigest_injective : Function.Injective plainDigest := by
  have hchar : ∀ b : UInt8, (Char.ofNat b.toNat).toNat = b.toNat := by
    intro b
    have hvalid : b.toNat.isValidChar := Or.inl (by have := b.toNat_lt; omega)
    rw [Char.ofNat, dif_pos hvalid]
    rfl
  intro a b h
  refine List.map_injective_iff.2 (fun x y hxy => ?_) (String.ofList_injective h)
  have hxy' := congrArg Char.toNat hxy
  rw [hchar, hchar] at hxy'
  exact UInt8.toNat_inj.1 hxy'

theorem segment_files_kept_mixedWriters :
    ∃ d, runFrom (Directory.step plainDigest) .empty mixedWriters = some d ∧
      ∀ r ∈ d.listed, ∃ bytes, d.files r.filename = some bytes ∧ r.sizeBytes = bytes.length := by
  obtain ⟨d, hd, -⟩ := mixedWriters_run
  have htruthful : Truthful plainDigest .empty := fun r hr => absurd hr List.not_mem_nil
  refine ⟨d, hd, fun r hr => ?_⟩
  obtain ⟨⟨bytes, hfile, hsize, -⟩, -⟩ :=
    (segment_files_kept plainDigest plainDigest_injective .empty d htruthful
      (reach_of_runFrom hd)).1 r hr
  exact ⟨bytes, hfile, hsize⟩

end SharedStore
