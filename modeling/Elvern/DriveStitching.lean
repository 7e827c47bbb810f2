/-
What the stitched ranges of a file deliver.

* `flatMap_range'_iff` — when segments laid end to end, each cut short somewhere, are one interval;
* `Transport.windows_bytes` — the bytes that the iterator yields are those of its windows;
* `Transport.windows_isSome` — each window starts after the one before, so the loop ends;
* `stitching_seamless_iff` — the yielded bytes are a prefix of the requested ones if and only if no
  window but the last that passes a byte on was cut short, and the first started where it should.

The iterator goes on from the announced end of a window, not from the last byte that it has read.
-/
import Mathlib.Data.List.Chain
import Mathlib.Data.List.TakeWhile
import Elvern.DriveRanges

/-! ### Segments -/

section Segments

variable {α : Type*} (start len full : α → ℕ)

/-- A nonempty segment in front of an interval. -/
theorem range'_append_iff {a k p : ℕ} (hk : k ≠ 0) {rest : List ℕ} :
    (∃ m, List.range' a k ++ rest = List.range' p m) ↔
      a = p ∧ ∃ m, rest = List.range' (p + k) m := by
  obtain ⟨k, rfl⟩ := Nat.exists_eq_succ_of_ne_zero hk
  constructor
  · rintro ⟨m, hm⟩
    have hlength : k + 1 + rest.length = m := by
      have h := congrArg List.length hm
      rwa [List.length_append, List.length_range', List.length_range'] at h
    rw [← hlength, ← List.range'_append_1] at hm
    obtain ⟨hfront, hrest⟩ := List.append_inj hm (by simp)
    have hap : a = p := by
      rw [List.range'_succ, List.range'_succ] at hfront
      exact (List.cons.inj hfront).1
    exact ⟨hap, _, hrest⟩
  · rintro ⟨rfl, m, rfl⟩
    exact ⟨k + 1 + m, by rw [← List.range'_append_1]⟩

/-- Segments behind a point `p` are an interval from `p` on. -/
theorem flatMap_range'_iff_of_le (l : List α) :
    ∀ {p p' : ℕ}, p ≤ p' → (∀ x ∈ l.head?, start x = p') →
      l.IsChain (fun x y => start y = start x + full x) → (∀ x ∈ l, len x ≤ full x) →
      ((∃ m, (l.flatMap fun x => List.range' (start x) (len x)) = List.range' p m) ↔
        ((∃ x ∈ l, len x ≠ 0) → p = p') ∧ l.Pairwise fun x y => len y ≠ 0 → len x = full x) := by
  induction l with
  | nil =>
    intro p p' _ _ _ _
    refine iff_of_true ⟨0, rfl⟩ ⟨?_, List.Pairwise.nil⟩
    rintro ⟨x, hx, -⟩
    cases hx
  | cons x l ih =>
    intro p p' hle hhead hchain hlen
    have hx : start x = p' := hhead x rfl
    have hnext : ∀ y ∈ l.head?, start y = p' + full x := by
      intro y hy
      rw [← hx]
      exact (List.isChain_cons.mp hchain).1 y hy
    have htail := (List.isChain_cons.mp hchain).2
    have hlenl : ∀ y ∈ l, len y ≤ full y := fun y hy => hlen y (List.mem_cons_of_mem x hy)
    have hlenx : len x ≤ full x := hlen x List.mem_cons_self
    rw [List.flatMap_cons, List.pairwise_cons]
    by_cases hzero : len x = 0
    · rw [hzero, List.range'_zero, List.nil_append, ih (by omega) hnext htail hlenl]
      constructor
      · rintro ⟨hstart, hpair⟩
        refine ⟨?_, fun y hy hney => ?_, hpair⟩
        · rintro ⟨y, hy, hney⟩
          rcases List.mem_cons.mp hy with rfl | hy
          · exact absurd hzero hney
          · have := hstart ⟨y, hy, hney⟩
            omega
        · have := hstart ⟨y, hy, hney⟩
          omega
      · rintro ⟨hstart, hwhole, hpair⟩
        refine ⟨?_, hpair⟩
        rintro ⟨y, hy, hney⟩
        have h1 := hstart ⟨y, List.mem_cons_of_mem x hy, hney⟩
        have h2 := hwhole y hy hney
        omega
    · rw [hx, range'_append_iff hzero]
      constructor
      · rintro ⟨rfl, hrest⟩
        obtain ⟨hstart, hpair⟩ := (ih (by omega) hnext htail hlenl).mp hrest
        refine ⟨fun _ => rfl, fun y hy hney => ?_, hpair⟩
        have := hstart ⟨y, hy, hney⟩
        omega
      · rintro ⟨hstart, hwhole, hpair⟩
        have hpp : p = p' := hstart ⟨x, List.mem_cons_self, hzero⟩
        refine ⟨hpp.symm, (ih (by omega) hnext htail hlenl).mpr ⟨?_, hpair⟩⟩
        rintro ⟨y, hy, hney⟩
        rw [hpp, hwhole y hy hney]

/-- Segments that follow each other are an interval from `s` on if and only if, apart from empty
ones at the front, the first starts at `s` and none before a nonempty one is cut short. -/
theorem flatMap_range'_iff (l : List α) (s : ℕ)
    (hchain : l.IsChain (fun x y => start y = start x + full x)) (hlen : ∀ x ∈ l, len x ≤ full x) :
    (∃ m, (l.flatMap fun x => List.range' (start x) (len x)) = List.range' s m) ↔
      (∀ x ∈ (l.dropWhile fun x => decide (len x = 0)).head?, start x = s) ∧
      (l.dropWhile fun x => decide (len x = 0)).Pairwise fun x y => len y ≠ 0 → len x = full x := by
  induction l with
  | nil => exact iff_of_true ⟨0, rfl⟩ ⟨by simp, List.Pairwise.nil⟩
  | cons x l ih =>
    have htail := (List.isChain_cons.mp hchain).2
    have hlenl : ∀ y ∈ l, len y ≤ full y := fun y hy => hlen y (List.mem_cons_of_mem x hy)
    by_cases hzero : len x = 0
    · have hdrop : ((x :: l).dropWhile fun x => decide (len x = 0)) =
          l.dropWhile fun x => decide (len x = 0) :=
        List.dropWhile_cons_of_pos (by simpa using hzero)
      rw [List.flatMap_cons, hzero, List.range'_zero, List.nil_append, ih htail hlenl, hdrop]
    · have hdrop : ((x :: l).dropWhile fun x => decide (len x = 0)) = x :: l :=
        List.dropWhile_cons_of_neg (by simpa using hzero)
      rw [List.flatMap_cons, range'_append_iff hzero, hdrop, List.pairwise_cons]
      have hnext : ∀ y ∈ l.head?, start y = start x + full x :=
        fun y hy => (List.isChain_cons.mp hchain).1 y hy
      have hlenx : len x ≤ full x := hlen x List.mem_cons_self
      constructor
      · rintro ⟨hs, hrest⟩
        obtain ⟨hstart, hpair⟩ :=
          (flatMap_range'_iff_of_le start len full l (by omega) hnext htail hlenl).mp hrest
        refine ⟨fun y hy => ?_, fun y hy hney => ?_, hpair⟩
        · rw [← Option.some.inj hy, hs]
        · have := hstart ⟨y, hy, hney⟩
          omega
      · rintro ⟨hs, hwhole, hpair⟩
        have hsx : start x = s := hs x rfl
        refine ⟨hsx, (flatMap_range'_iff_of_le start len full l (by omega) hnext htail hlenl).mpr
          ⟨?_, hpair⟩⟩
        rintro ⟨y, hy, hney⟩
        rw [hsx, hwhole y hy hney]

end Segments

namespace Drive

/-- The chunks of a window up to the first empty read. -/
def Window.delivered (w : Window) : List (List UInt8) :=
  w.reads.takeWhile fun chunk => decide (chunk ≠ [])

/-- `F[start..stop]`, both ends included -/
def announced (file : List UInt8) (start stop : ℕ) : List UInt8 :=
  (file.drop start).take (stop + 1 - start)

namespace Transport

variable (t : Transport)

/-- Every response with a `Content-Range` announces a range of the file and delivers a prefix of
it. -/
def Serves (file : List UInt8) : Prop :=
  ∀ request header upstream, t.urlopen request header = .ok upstream →
    ∀ start stop total,
      parseContentRange (upstream.headers "Content-Range") = some (start, stop, total) →
      total = file.length ∧ stop < file.length ∧
        ((upstream.read t.effectiveChunkSize).takeWhile fun chunk =>
          decide (chunk ≠ [])).flatten <+: announced file start stop

/-- Every request for a later window is answered with a range that starts where it asks, every
response delivers all that it announces, and the validator stays true. -/
structure Complete (file : List UInt8) : Prop where
  valid : ∀ call, t.valid call = true
  answers : ∀ request start, start < file.length → ∃ upstream stop,
    t.urlopen request
        (boundedGoogleDriveRange start (some file.length) t.rangeWindowSize) = .ok upstream ∧
      parseContentRange (upstream.headers "Content-Range") = some (start, stop, file.length)
  full : ∀ request header upstream, t.urlopen request header = .ok upstream →
    ∀ start stop total,
      parseContentRange (upstream.headers "Content-Range") = some (start, stop, total) →
      ((upstream.read t.effectiveChunkSize).takeWhile fun chunk => decide (chunk ≠ [])).flatten =
        announced file start stop

/-- A byte of the window is passed on. -/
def passes (w : Window) : Bool := !w.delivered.isEmpty && (t.valid w.call && t.valid (w.call + 1))

/-- The window is delivered up to its announced end, and the validator is true at each of its calls
for it. -/
def Whole (w : Window) : Prop :=
  w.delivered.flatten.length = w.stop + 1 - w.start ∧
    ∀ k < 2 * w.delivered.length, t.valid (w.call + k) = true

/-- The windows that the iterator opens, from one on. -/
def windows : ℕ → Window → Option (List Window)
  | 0, _ => none
  | rounds + 1, w =>
    match t.nextWindow w with
    | none => some [w]
    | some next => (windows rounds next).map (w :: ·)

/-- Apart from windows at the front that pass nothing on, the first starts at the requested byte,
and each that is followed by one of which a byte is passed on is whole. -/
structure Seamless (start : ℕ) (ws : List Window) : Prop where
  head : ∀ w ∈ (ws.dropWhile fun w => !t.passes w).head?, w.start = start
  whole : (ws.dropWhile fun w => !t.passes w).Pairwise fun w w' => t.passes w' = true → t.Whole w

/-! ### One response -/

/-- What is passed on of the reads of a response is at the front of what it delivers. -/
theorem iterUpstreamResponse_prefix (reads : List (List UInt8)) (call : ℕ) :
    (t.iterUpstreamResponse reads call).1 <+: reads.takeWhile fun chunk => decide (chunk ≠ []) := by
  induction reads generalizing call with
  | nil => exact List.prefix_rfl
  | cons chunk reads ih =>
    rw [iterUpstreamResponse]
    split
    · exact List.nil_prefix
    split
    · exact List.nil_prefix
    split
    · exact List.nil_prefix
    · next hchunk _ =>
      rw [List.takeWhile_cons_of_pos (by simpa using hchunk)]
      exact (List.prefix_cons_inj chunk).mpr (ih _)

/-- All that is delivered is passed on if and only if the validator stays true. -/
theorem iterUpstreamResponse_eq_iff (reads : List (List UInt8)) (call : ℕ) :
    (t.iterUpstreamResponse reads call).1 = (reads.takeWhile fun chunk => decide (chunk ≠ [])) ↔
      ∀ k < 2 * (reads.takeWhile fun chunk => decide (chunk ≠ [])).length,
        t.valid (call + k) = true := by
  induction reads generalizing call with
  | nil => simp [iterUpstreamResponse]
  | cons chunk reads ih =>
    by_cases hchunk : chunk = []
    · rw [iterUpstreamResponse, if_pos hchunk]
      have htake : ((chunk :: reads).takeWhile fun chunk => decide (chunk ≠ [])) = [] :=
        List.takeWhile_cons_of_neg (by simpa using hchunk)
      rw [htake]
      refine iff_of_true ?_ (by simp)
      split <;> rfl
    · have htake : ((chunk :: reads).takeWhile fun chunk => decide (chunk ≠ [])) =
          chunk :: reads.takeWhile fun chunk => decide (chunk ≠ []) :=
        List.takeWhile_cons_of_pos (by simpa using hchunk)
      rw [iterUpstreamResponse, if_neg hchunk, htake, List.length_cons]
      by_cases hfirst : t.valid call = false
      · rw [if_pos hfirst]
        refine iff_of_false (by simp) fun h => ?_
        have := h 0 (by omega)
        rw [Nat.add_zero, hfirst] at this
        cases this
      by_cases hsecond : t.valid (call + 1) = false
      · rw [if_neg hfirst, if_pos hsecond]
        refine iff_of_false (by simp) fun h => ?_
        have := h 1 (by omega)
        rw [hsecond] at this
        cases this
      · rw [if_neg hfirst, if_neg hsecond, List.cons.injEq, eq_self, true_and, ih]
        rw [Bool.not_eq_false] at hfirst hsecond
        constructor
        · intro h k hk
          rcases k with _ | _ | k
          · exact hfirst
          · exact hsecond
          · have := h k (by omega)
            rwa [Nat.add_assoc, Nat.add_comm 2] at this
        · intro h k hk
          have := h (k + 2) (by omega)
          rwa [Nat.add_assoc, Nat.add_comm 2]

theorem passedOn_prefix (w : Window) : t.passedOn w <+: w.delivered :=
  t.iterUpstreamResponse_prefix w.reads w.call

theorem passedOn_eq_iff (w : Window) : t.passedOn w = w.delivered ↔
    ∀ k < 2 * w.delivered.length, t.valid (w.call + k) = true :=
  t.iterUpstreamResponse_eq_iff w.reads w.call

theorem ne_nil_of_mem_delivered {w : Window} {chunk : List UInt8} (h : chunk ∈ w.delivered) :
    chunk ≠ [] := by
  simpa using List.mem_takeWhile_imp h

/-- A window passes a byte on if and only if its first chunk gets through. -/
theorem passes_eq_true_iff (w : Window) : t.passes w = true ↔ t.passedOn w ≠ [] := by
  rw [passes, passedOn, Window.delivered]
  rcases hreads : w.reads with _ | ⟨chunk, reads⟩
  · simp [iterUpstreamResponse]
  by_cases hchunk : chunk = []
  · have htake : ((chunk :: reads).takeWhile fun chunk => decide (chunk ≠ [])) = [] :=
      List.takeWhile_cons_of_neg (by simpa using hchunk)
    rw [htake, iterUpstreamResponse, if_pos hchunk]
    refine iff_of_false (by simp) fun h => h ?_
    split <;> rfl
  · have htake : ((chunk :: reads).takeWhile fun chunk => decide (chunk ≠ [])) =
        chunk :: reads.takeWhile fun chunk => decide (chunk ≠ []) :=
      List.takeWhile_cons_of_pos (by simpa using hchunk)
    rw [htake, iterUpstreamResponse, if_neg hchunk]
    rcases hfirst : t.valid w.call <;> rcases hsecond : t.valid (w.call + 1) <;> simp

/-- The number of bytes that a window passes on. -/
def passedLength (w : Window) : ℕ := (t.passedOn w).flatten.length

theorem passedLength_eq_zero_iff (w : Window) : t.passedLength w = 0 ↔ t.passes w = false := by
  rw [← Bool.not_eq_true, passes_eq_true_iff, not_not, passedLength, List.length_eq_zero_iff,
    List.flatten_eq_nil_iff]
  constructor
  · intro h
    rw [List.eq_nil_iff_forall_not_mem]
    intro chunk hchunk
    exact ne_nil_of_mem_delivered ((t.passedOn_prefix w).subset hchunk) (h chunk hchunk)
  · intro h chunk hchunk
    rw [h] at hchunk
    cases hchunk

/-- A window passes all of its announced range on if and only if it is whole. -/
theorem passedLength_eq_iff {w : Window}
    (hle : w.delivered.flatten.length ≤ w.stop + 1 - w.start) :
    t.passedLength w = w.stop + 1 - w.start ↔ t.Whole w := by
  rw [Whole, ← passedOn_eq_iff, passedLength]
  obtain ⟨rest, hrest⟩ := t.passedOn_prefix w
  have hsum : (t.passedOn w).flatten.length + rest.flatten.length = w.delivered.flatten.length := by
    rw [← hrest, List.flatten_append, List.length_append]
  constructor
  · intro h
    have hzero : rest.flatten = [] := List.length_eq_zero_iff.mp (by omega)
    have hnil : rest = [] := by
      rw [List.eq_nil_iff_forall_not_mem]
      intro chunk hchunk
      have hmem : chunk ∈ w.delivered := hrest ▸ List.mem_append_right _ hchunk
      exact ne_nil_of_mem_delivered hmem (List.flatten_eq_nil_iff.mp hzero chunk hchunk)
    rw [hnil, List.append_nil] at hrest
    exact ⟨by rw [← hrest]; exact h, hrest⟩
  · rintro ⟨hlength, heq⟩
    rw [heq]
    exact hlength

/-! ### The run of the iterator -/

/-- A range that is accepted is not empty. -/
theorem parseContentRange_le {value : Option String} {start stop total : ℕ}
    (h : parseContentRange value = some (start, stop, total)) : start ≤ stop := by
  rw [parseContentRange.eq_def] at h
  dsimp only at h
  split at h
  · split at h
    · split at h
      · split at h
        · split at h
          · cases h
          · next hnot =>
            cases h
            omega
        · cases h
      · cases h
    · cases h
  · cases h

variable {t}

/-- What the iterator can come to after a window. -/
theorem nextWindow_eq_some {w next : Window} (h : t.nextWindow w = some next) :
    next.start = w.stop + 1 ∧ w.stop + 1 < w.total ∧
      ∃ request header upstream, t.urlopen request header = .ok upstream ∧
        parseContentRange (upstream.headers "Content-Range") =
          some (next.start, next.stop, next.total) ∧
        next.reads = upstream.read t.effectiveChunkSize := by
  rw [nextWindow] at h
  split at h
  · cases h
  split at h
  · cases h
  split at h
  · cases h
  · next hmore _ upstream hopen =>
    split at h
    · cases h
    · next start stop total hparse =>
      split at h
      · cases h
      · next hstart =>
        cases h
        exact ⟨not_not.mp hstart, not_le.mp hmore, _, _, upstream, hopen, hparse, rfl⟩

/-- The iterator yields what its windows pass on. -/
theorem iterStitched_eq_windows (rounds : ℕ) (w : Window) :
    t.iterStitchedGoogleDriveRanges rounds w =
      (t.windows rounds w).map fun ws => (ws.flatMap t.passedOn) := by
  induction rounds generalizing w with
  | zero => rfl
  | succ rounds ih =>
    rw [iterStitchedGoogleDriveRanges, windows]
    rcases t.nextWindow w with _ | next
    · simp
    · simp only [ih, Option.map_map]
      congr 1

/-- A window as the iterator opens it. -/
structure Opened (file : List UInt8) (w : Window) : Prop where
  le : w.start ≤ w.stop
  lt : w.stop < file.length
  total : w.total = file.length
  delivered : w.delivered.flatten <+: announced file w.start w.stop

theorem nextWindow_opened {file : List UInt8} (hserves : t.Serves file) {w next : Window}
    (h : t.nextWindow w = some next) : Opened file next := by
  obtain ⟨-, -, request, header, upstream, hopen, hparse, hreads⟩ := nextWindow_eq_some h
  obtain ⟨htotal, hstop, hstarts⟩ := hserves request header upstream hopen _ _ _ hparse
  exact ⟨parseContentRange_le hparse, hstop, htotal, by rwa [Window.delivered, hreads]⟩

/-- The windows follow each other, so there are no more of them than bytes in the file. -/
theorem windows_isSome {file : List UInt8} (hserves : t.Serves file) (rounds : ℕ) :
    ∀ w : Window, Opened file w → file.length < w.start + rounds →
      (t.windows rounds w).isSome = true := by
  induction rounds with
  | zero =>
    intro w hw hlt
    have := hw.le
    have := hw.lt
    omega
  | succ rounds ih =>
    intro w hw hlt
    rw [windows]
    rcases hnext : t.nextWindow w with _ | next
    · rfl
    · have hopened := nextWindow_opened hserves hnext
      have hstart := (nextWindow_eq_some hnext).1
      have := hw.le
      simp only [Option.isSome_map]
      exact ih next hopened (by omega)

/-- More rounds change nothing. -/
theorem windows_mono {rounds : ℕ} {w : Window} {ws : List Window}
    (h : t.windows rounds w = some ws) :
    ∀ more ≥ rounds, t.windows more w = some ws := by
  induction rounds generalizing w ws with
  | zero => cases h
  | succ rounds ih =>
    intro more hmore
    obtain ⟨more, rfl⟩ : ∃ m, more = m + 1 := ⟨more - 1, by omega⟩
    rw [windows] at h ⊢
    rcases hnext : t.nextWindow w with _ | next
    · rw [hnext] at h
      exact h
    · rw [hnext] at h
      obtain ⟨ws', hws', rfl⟩ := Option.map_eq_some_iff.mp h
      simp only [ih hws' more (by omega), Option.map_some]

/-- The windows of a run: the first is the one it began with, each is opened, and each starts
right after the announced end of the one before. -/
theorem windows_spec {file : List UInt8} (hserves : t.Serves file) {rounds : ℕ} :
    ∀ {w : Window} {ws : List Window}, Opened file w → t.windows rounds w = some ws →
      ws.head? = some w ∧ (∀ x ∈ ws, Opened file x) ∧
        ws.IsChain fun x y => y.start = x.start + (x.stop + 1 - x.start) ∧ x.stop < y.stop := by
  induction rounds with
  | zero => exact fun _ h => nomatch h
  | succ rounds ih =>
    intro w ws hw h
    rw [windows] at h
    rcases hnext : t.nextWindow w with _ | next
    · rw [hnext] at h
      cases h
      exact ⟨rfl, fun x hx => List.mem_singleton.mp hx ▸ hw, List.IsChain.singleton w⟩
    · rw [hnext] at h
      obtain ⟨ws', hws', rfl⟩ := Option.map_eq_some_iff.mp h
      obtain ⟨hhead, hopened, hchain⟩ := ih (nextWindow_opened hserves hnext) hws'
      refine ⟨rfl, ?_, List.isChain_cons.mpr ⟨?_, hchain⟩⟩
      · intro x hx
        rcases List.mem_cons.mp hx with rfl | hx
        · exact hw
        · exact hopened x hx
      · intro y hy
        rw [hhead] at hy
        cases hy
        have := (nextWindow_eq_some hnext).1
        have := (nextWindow_opened hserves hnext).le
        have := hw.le
        omega

/-! ### Bytes and positions -/

/-- The positions of the file whose bytes are passed on, in their order. -/
def positions (t : Transport) (ws : List Window) : List ℕ :=
  ws.flatMap fun w => List.range' w.start (t.passedLength w)

theorem take_drop_eq_map_range' (file : List UInt8) {start k : ℕ}
    (hk : k = 0 ∨ start + k ≤ file.length) :
    (file.drop start).take k = (List.range' start k).map fun i => file.getD i 0 := by
  refine List.ext_getElem? fun i => ?_
  rw [List.getElem?_take, List.getElem?_map]
  by_cases hi : i < k
  · have hlt : start + i < file.length := by omega
    rw [if_pos hi, List.getElem?_drop, List.getElem?_range' hi, Option.map_some, Nat.one_mul,
      List.getD_eq_getElem?_getD, List.getElem?_eq_getElem hlt, Option.getD_some]
  · rw [if_neg hi, List.getElem?_eq_none (by simpa using hi), Option.map_none]

variable {file : List UInt8}

theorem passedLength_le (w : Window) : t.passedLength w ≤ w.delivered.flatten.length := by
  obtain ⟨rest, hrest⟩ := t.passedOn_prefix w
  rw [passedLength, ← hrest, List.flatten_append, List.length_append]
  omega

theorem Opened.delivered_le {w : Window} (hw : Opened file w) :
    w.delivered.flatten.length ≤ w.stop + 1 - w.start := by
  refine hw.delivered.length_le.trans ?_
  rw [announced, List.length_take]
  omega

/-- What a window passes on are the bytes of the file from its start on. -/
theorem Opened.passedOn_eq {w : Window} (hw : Opened file w) :
    (t.passedOn w).flatten =
      (List.range' w.start (t.passedLength w)).map fun i => file.getD i 0 := by
  have hstarts : (t.passedOn w).flatten <+: announced file w.start w.stop := by
    obtain ⟨rest, hrest⟩ := t.passedOn_prefix w
    refine List.IsPrefix.trans ?_ hw.delivered
    rw [← hrest, List.flatten_append]
    exact List.prefix_append _ _
  have hle : t.passedLength w ≤ _ := passedLength_le w
  have hle' := hw.delivered_le
  have := hw.le
  have := hw.lt
  rw [← take_drop_eq_map_range' file (.inr (by omega))]
  rw [List.prefix_iff_eq_take.mp hstarts, announced, List.take_take]
  congr 1
  rw [passedLength] at hle ⊢
  omega

/-- The bytes of a run are those of its positions. -/
theorem windows_bytes {ws : List Window} (hws : ∀ w ∈ ws, Opened file w) :
    (ws.flatMap t.passedOn).flatten = (positions t ws).map fun i => file.getD i 0 := by
  induction ws with
  | nil => rfl
  | cons w ws ih =>
    have htail := ih fun x hx => hws x (List.mem_cons_of_mem w hx)
    rw [positions, List.flatMap_cons, List.flatMap_cons, List.flatten_append, List.map_append,
      (hws w List.mem_cons_self).passedOn_eq, htail, positions]

theorem lt_of_mem_positions {ws : List Window} (hws : ∀ w ∈ ws, Opened file w) {i : ℕ}
    (hi : i ∈ positions t ws) : i < file.length := by
  obtain ⟨w, hw, hmem⟩ := List.mem_flatMap.mp hi
  have hopened := hws w hw
  have hle : t.passedLength w ≤ _ := passedLength_le w
  have hle' := hopened.delivered_le
  have := hopened.lt
  have := hopened.le
  obtain ⟨hlow, hhigh⟩ := List.mem_range'_1.mp hmem
  omega

/-- Positions without a gap from `start` on give a prefix of the rest of the file. -/
theorem bytes_prefix {ws : List Window} (hws : ∀ w ∈ ws, Opened file w) {start m : ℕ}
    (hpositions : positions t ws = List.range' start m) :
    (ws.flatMap t.passedOn).flatten <+: file.drop start := by
  have hm : m = 0 ∨ start + m ≤ file.length := by
    rcases m with _ | m
    · exact .inl rfl
    · refine .inr ?_
      have hlast : start + m ∈ positions t ws := by
        rw [hpositions, List.mem_range'_1]
        omega
      have := lt_of_mem_positions hws hlast
      omega
  rw [windows_bytes hws, hpositions, ← take_drop_eq_map_range' file hm]
  exact List.take_prefix _ _

theorem positions_iff {ws : List Window} (hws : ∀ w ∈ ws, Opened file w)
    (hchain : ws.IsChain fun x y => y.start = x.start + (x.stop + 1 - x.start)) (start : ℕ) :
    (∃ m, positions t ws = List.range' start m) ↔ t.Seamless start ws := by
  have hzero : ∀ w : Window, decide (t.passedLength w = 0) = !t.passes w := by
    intro w
    rw [Bool.eq_iff_iff, decide_eq_true_eq, passedLength_eq_zero_iff, Bool.not_eq_true']
  have hlen : ∀ w ∈ ws, t.passedLength w ≤ w.stop + 1 - w.start := fun w hw =>
    (passedLength_le w).trans (hws w hw).delivered_le
  rw [positions, flatMap_range'_iff Window.start t.passedLength (fun w => w.stop + 1 - w.start) ws
    start hchain hlen]
  simp only [hzero]
  have hmem : ∀ w ∈ ws.dropWhile (fun w => !t.passes w), w ∈ ws := fun w hw =>
    (List.dropWhile_sublist _).subset hw
  constructor
  · rintro ⟨hhead, hpair⟩
    refine ⟨hhead, hpair.imp_of_mem fun hx _ h hpass => ?_⟩
    refine (t.passedLength_eq_iff (hws _ (hmem _ hx)).delivered_le).mp (h ?_)
    rw [Ne, passedLength_eq_zero_iff, hpass]
    exact Bool.noConfusion
  · rintro ⟨hhead, hpair⟩
    refine ⟨hhead, hpair.imp_of_mem fun hx _ h hne => ?_⟩
    refine (t.passedLength_eq_iff (hws _ (hmem _ hx)).delivered_le).mpr (h ?_)
    rwa [Ne, passedLength_eq_zero_iff, Bool.not_eq_false] at hne

/-- With a complete upstream the iterator reaches the end of the file. -/
theorem windows_complete (hserves : t.Serves file) (hcomplete : t.Complete file) {rounds : ℕ} :
    ∀ {w : Window} {ws : List Window}, Opened file w →
      w.delivered.flatten = announced file w.start w.stop → t.windows rounds w = some ws →
        (ws.flatMap t.passedOn).flatten = file.drop w.start := by
  induction rounds with
  | zero => exact fun _ _ h => nomatch h
  | succ rounds ih =>
    intro w ws hw hfull h
    have hpassed : (t.passedOn w).flatten = announced file w.start w.stop := by
      rw [(t.passedOn_eq_iff w).mpr fun k _ => hcomplete.valid _, hfull]
    rw [windows] at h
    rcases hnext : t.nextWindow w with _ | next
    · rw [hnext] at h
      cases h
      have hlast : file.length ≤ w.stop + 1 := by
        -- nothing else stops a complete run
        by_contra hmore
        obtain ⟨upstream, stop, hopen, hparse⟩ :=
          hcomplete.answers w.request (w.stop + 1) (by omega)
        rw [nextWindow, hw.total, hopen] at hnext
        simp only [hcomplete.valid, hparse, ne_eq, not_true_eq_false, if_false] at hnext
        rw [if_neg (by simp), if_neg (by omega)] at hnext
        cases hnext
      rw [List.flatMap_cons, List.flatMap_nil, List.append_nil, hpassed, announced]
      refine List.take_of_length_le ?_
      rw [List.length_drop]
      omega
    · rw [hnext] at h
      obtain ⟨ws', hws', rfl⟩ := Option.map_eq_some_iff.mp h
      obtain ⟨hstart, -, request, header, upstream, hopen, hparse, hreads⟩ :=
        nextWindow_eq_some hnext
      have hnextFull : next.delivered.flatten = announced file next.start next.stop := by
        rw [Window.delivered, hreads]
        exact hcomplete.full request header upstream hopen _ _ _ hparse
      have hrest := ih (nextWindow_opened hserves hnext) hnextFull hws'
      have hsplit : w.stop + 1 = w.start + (w.stop + 1 - w.start) := by
        have := hw.le
        omega
      rw [List.flatMap_cons, List.flatten_append, hpassed, hrest, hstart, announced, hsplit,
        ← List.drop_drop, Nat.add_sub_cancel_left, List.take_append_drop]

end Transport

/-- What the stitched reply to a request for the bytes from `start` on is to be, where the iterator
opens these windows: the bytes of `F[start..]` in their order and without a hole, all of them if the
upstream is complete, under headers that describe `F[start..]`, from windows that advance. -/
structure Delivers (t : Transport) (file : List UInt8) (start : ℕ) (ws : List Window)
    (reply : StreamingResponse) : Prop where
  ends : ∀ rounds > file.length, reply.body rounds = some (ws.flatMap t.passedOn)
  bytes : (ws.flatMap t.passedOn).flatten = (t.positions ws).map fun i => file.getD i 0
  inOrder : ∃ m, t.positions ws = List.range' start m
  isPrefix : (ws.flatMap t.passedOn).flatten <+: file.drop start
  complete : t.Complete file → (ws.flatMap t.passedOn).flatten = file.drop start
  advances : ws.Pairwise fun w w' => w.stop + 1 < w'.stop + 1
  contentLength : reply.header "Content-Length" = some (toString (file.drop start).length)
  contentRange : reply.header "Content-Range" =
    some ("bytes " ++ toString start ++ "-" ++ toString (file.length - 1) ++ "/" ++
      toString file.length)

/-- The stitched reply delivers what it announces if and only if the windows follow each other
without a seam. -/
theorem stitching_seamless_iff (t : Transport) (file : List UInt8) (hserves : t.Serves file)
    (rangeHeader : Option String) (start : ℕ)
    (hstart : parseOpenEndedByteRange rangeHeader = some start) (upstream : Response)
    (hopen : t.urlopen 0 (boundedGoogleDriveRange start none t.rangeWindowSize) = .ok upstream)
    (firstStart firstStop total : ℕ)
    (hrange : parseContentRange (upstream.headers "Content-Range") =
      some (firstStart, firstStop, total)) :
    ∃ reply ws, proxyGoogleDriveFileResponse t rangeHeader = .ok reply ∧
      (∀ rounds > file.length, t.windows rounds
        ⟨firstStart, firstStop, total, upstream.read t.effectiveChunkSize, 1, 0⟩ = some ws) ∧
      (Delivers t file start ws reply ↔ t.Seamless start ws) := by
  obtain ⟨htotal, hstop, hstarts⟩ := hserves 0 _ upstream hopen _ _ _ hrange
  set first : Window := ⟨firstStart, firstStop, total, upstream.read t.effectiveChunkSize, 1, 0⟩
    with hfirst
  have hopened : Transport.Opened file first :=
    ⟨Transport.parseContentRange_le hrange, hstop, htotal, hstarts⟩
  obtain ⟨ws, hws⟩ := Option.isSome_iff_exists.mp
    (Transport.windows_isSome hserves (file.length + 1) first hopened (by omega))
  obtain ⟨hhead, hall, hchain⟩ := Transport.windows_spec hserves hopened hws
  have hreply : ∃ reply, proxyGoogleDriveFileResponse t rangeHeader = .ok reply ∧
      reply.body = (fun rounds => t.iterStitchedGoogleDriveRanges rounds first) ∧
      reply.header "Content-Length" = some (toString (total - start)) ∧
      reply.header "Content-Range" = some ("bytes " ++ toString start ++ "-" ++
        toString (total - 1) ++ "/" ++ toString total) := by
    rw [proxyGoogleDriveFileResponse, hstart]
    simp only [hopen, bind, Except.bind, hrange, pure, Except.pure]
    exact ⟨_, rfl, rfl, rfl, rfl⟩
  obtain ⟨reply, hproxy, hbody, hlength, hcontentRange⟩ := hreply
  refine ⟨reply, ws, hproxy, fun rounds h => Transport.windows_mono hws rounds h, ?_⟩
  rw [← Transport.positions_iff hall (hchain.imp fun _ _ h => h.1)]
  refine ⟨fun h => h.inOrder, fun hpositions => ?_⟩
  obtain ⟨m, hm⟩ := hpositions
  refine ⟨fun rounds h => ?_, Transport.windows_bytes hall, ⟨m, hm⟩, Transport.bytes_prefix hall hm,
    fun hcomplete => ?_, ?_, ?_, ?_⟩
  · rw [hbody]
    dsimp only
    rw [Transport.iterStitched_eq_windows, Transport.windows_mono hws rounds h, Option.map_some]
  · have hfull : first.delivered.flatten = announced file first.start first.stop :=
      hcomplete.full 0 _ upstream hopen _ _ _ hrange
    rw [Transport.windows_complete hserves hcomplete hopened hfull hws]
    -- the first window passes its first byte on, which is the first position
    have hpassed : t.passedLength first ≠ 0 := by
      rw [Transport.passedLength, (t.passedOn_eq_iff first).mpr fun k _ => hcomplete.valid _, hfull,
        announced, List.length_take, List.length_drop]
      have := hopened.le
      have := hopened.lt
      omega
    obtain ⟨rest, rfl⟩ : ∃ rest, ws = first :: rest := by
      rcases ws with _ | ⟨w, rest⟩
      · cases hhead
      · exact ⟨rest, by rw [Option.some.inj hhead]⟩
    rw [Transport.positions, List.flatMap_cons] at hm
    rw [((range'_append_iff hpassed).mp ⟨m, hm⟩).1]
  · have hincreasing : ws.IsChain fun w w' => w.stop < w'.stop := hchain.imp fun _ _ h => h.2
    have htrans : Trans (fun w w' : Window => w.stop < w'.stop)
        (fun w w' : Window => w.stop < w'.stop) (fun w w' : Window => w.stop < w'.stop) :=
      ⟨fun h h' => h.trans h'⟩
    exact (List.isChain_iff_pairwise.mp hincreasing).imp fun h => Nat.succ_lt_succ h
  · rw [hlength, htotal, List.length_drop]
  · rw [hcontentRange, htotal]

/-- An upstream that answers first with one range of the file and then with another. -/
def twoRanges (first second : String × List (List UInt8)) : Transport where
  urlopen := fun request _ =>
    let answer := if request = 0 then first else second
    .ok
      { status := 206
        headers := fun name => if name = "Content-Range" then some answer.1 else none
        read := fun _ => answer.2 }
  streamValidator := none
  chunkSize := 4
  validatedChunkSize := none
  guessedType := none

/-- Two ranges of a file that are delivered at least in part. -/
theorem twoRanges_serves {file : List UInt8} {first second : String × List (List UInt8)}
    {range range' : ℕ × ℕ × ℕ} (hfirst : parseContentRange (some first.1) = some range)
    (hsecond : parseContentRange (some second.1) = some range')
    (h : ∀ x ∈ [(range, first.2), (range', second.2)],
      x.1.2.2 = file.length ∧ x.1.2.1 < file.length ∧
        (x.2.takeWhile fun chunk => decide (chunk ≠ [])).flatten <+:
          announced file x.1.1 x.1.2.1) :
    (twoRanges first second).Serves file := by
  intro request header upstream hopen start stop total hparse
  cases hopen
  by_cases hrequest : request = 0
  · simp only [hrequest, if_true, hfirst] at hparse ⊢
    cases hparse
    exact h _ List.mem_cons_self
  · simp only [hrequest, if_true, if_false, hsecond] at hparse ⊢
    cases hparse
    exact h _ (List.mem_cons_of_mem _ List.mem_cons_self)

theorem stitching_seamless_two_ranges : ∃ reply ws,
    proxyGoogleDriveFileResponse (twoRanges ("bytes 0-1/4", [[1], [2]]) ("bytes 2-3/4", [[3, 4]]))
      (some "bytes=0-") = .ok reply ∧
    (∀ rounds > 4, (twoRanges ("bytes 0-1/4", [[1], [2]]) ("bytes 2-3/4", [[3, 4]])).windows rounds
      ⟨0, 1, 4, [[1], [2]], 1, 0⟩ = some ws) ∧
    (Delivers (twoRanges ("bytes 0-1/4", [[1], [2]]) ("bytes 2-3/4", [[3, 4]])) [1, 2, 3, 4] 0 ws
        reply ↔
      (twoRanges ("bytes 0-1/4", [[1], [2]]) ("bytes 2-3/4", [[3, 4]])).Seamless 0 ws) :=
  stitching_seamless_iff (twoRanges ("bytes 0-1/4", [[1], [2]]) ("bytes 2-3/4", [[3, 4]]))
    [1, 2, 3, 4]
    (twoRanges_serves (by decide +kernel : _ = some (0, 1, 4))
      (by decide +kernel : _ = some (2, 3, 4)) (by decide))
    (some "bytes=0-") 0 (by decide +kernel) _ rfl 0 1 4 (by decide +kernel)

/-- The first range is announced as two bytes and ends after one; the iterator goes on at the third,
and the second is missing from what it yields. -/
theorem short_read_leaves_hole :
    (twoRanges ("bytes 0-1/4", [[1]]) ("bytes 2-3/4", [[3, 4]])).Serves [1, 2, 3, 4] ∧
    ∃ reply, proxyGoogleDriveFileResponse
        (twoRanges ("bytes 0-1/4", [[1]]) ("bytes 2-3/4", [[3, 4]])) (some "bytes=0-") = .ok reply ∧
      reply.body 5 = some [[1], [3, 4]] ∧
      ¬([[1], [3, 4]] : List (List UInt8)).flatten <+: ([1, 2, 3, 4] : List UInt8).drop 0 := by
  refine ⟨twoRanges_serves (by decide +kernel : _ = some (0, 1, 4))
    (by decide +kernel : _ = some (2, 3, 4)) (by decide), ?_⟩
  have hreply : ((proxyGoogleDriveFileResponse
      (twoRanges ("bytes 0-1/4", [[1]]) ("bytes 2-3/4", [[3, 4]])) (some "bytes=0-")).toOption.bind
        fun reply => reply.body 5) = some [[1], [3, 4]] := by decide +kernel
  rcases hcall : proxyGoogleDriveFileResponse
      (twoRanges ("bytes 0-1/4", [[1]]) ("bytes 2-3/4", [[3, 4]])) (some "bytes=0-") with e | reply
  · rw [hcall] at hreply
    cases hreply
  · rw [hcall] at hreply
    exact ⟨reply, rfl, hreply, by decide⟩

end Drive
