/-
Reconciling age credentials that are due (`user_age_credential_service.py`).

The next increment is stored as an ISO text and compared as one; a run takes
the rows that are due, computes their schedules anew from the anchor, and
writes them back under a guard.  The stored date is the first anniversary after
the last run that covered the row, so what a row holds depends only on the date
of that run.

* `Date.isoformat_lt_iff` -- ISO texts are ordered as their dates;
* `Scheduled.later` -- a schedule holds until its next increment is due;
* `reconcile_follow` -- what a run does to one row;
* `Follows.reconcile`, `follows_runs` -- the invariant, over a run and over many;
* `age_credentials_path_independent` -- the schedule, and the rows over any runs.
-/
import Mathlib.Data.List.Pairwise
import Elvern.AgeAnniversaries

namespace AgeCredentials

/-! ### ISO texts -/

def digit (n : ℕ) : Char := Char.ofNat (48 + n)

/-- The last digits of a number, that many of them. -/
def padded : ℕ → ℕ → List Char
  | 0, _ => []
  | width + 1, n => digit (n / 10 ^ width) :: padded width (n % 10 ^ width)

/-- `date.isoformat()` -/
def Date.isoformat (date : Date) : List Char :=
  padded 4 date.year ++ '-' :: (padded 2 date.month ++ '-' :: padded 2 date.day)

/-- `<=` on texts, by the codes of their characters. -/
def textLe (a b : List Char) : Bool := !decide (b < a)

theorem digit_lt_iff {a b : ℕ} (ha : a < 10) (hb : b < 10) : digit a < digit b ↔ a < b := by
  have hall : ∀ a < 10, ∀ b < 10, digit a < digit b ↔ a < b := by decide
  exact hall a ha b hb

theorem digit_inj {a b : ℕ} (ha : a < 10) (hb : b < 10) : digit a = digit b ↔ a = b := by
  have hall : ∀ a < 10, ∀ b < 10, digit a = digit b ↔ a = b := by decide
  exact hall a ha b hb

theorem length_padded (width n : ℕ) : (padded width n).length = width := by
  induction width generalizing n with
  | zero => rfl
  | succ width ih => rw [padded, List.length_cons, ih]

theorem padded_inj {width a b : ℕ} (ha : a < 10 ^ width) (hb : b < 10 ^ width) :
    padded width a = padded width b ↔ a = b := by
  induction width generalizing a b with
  | zero =>
    rw [Nat.pow_zero] at ha hb
    simp only [padded, true_iff]
    omega
  | succ width ih =>
    have hpos : 0 < 10 ^ width := Nat.pow_pos (by omega)
    have hdiva : a / 10 ^ width < 10 := Nat.div_lt_of_lt_mul (by rwa [Nat.pow_succ] at ha)
    have hdivb : b / 10 ^ width < 10 := Nat.div_lt_of_lt_mul (by rwa [Nat.pow_succ] at hb)
    rw [padded, padded, List.cons.injEq, digit_inj hdiva hdivb,
      ih (Nat.mod_lt _ hpos) (Nat.mod_lt _ hpos)]
    constructor
    · rintro ⟨hdiv, hmod⟩
      rw [← Nat.div_add_mod a (10 ^ width), ← Nat.div_add_mod b (10 ^ width), hdiv, hmod]
    · rintro rfl
      exact ⟨rfl, rfl⟩

theorem padded_lt_iff {width a b : ℕ} (ha : a < 10 ^ width) (hb : b < 10 ^ width) :
    padded width a < padded width b ↔ a < b := by
  induction width generalizing a b with
  | zero =>
    rw [Nat.pow_zero] at ha hb
    have hnot : ¬ ([] : List Char) < [] := List.lt_irrefl []
    simp only [padded, hnot, false_iff]
    omega
  | succ width ih =>
    have hpos : 0 < 10 ^ width := Nat.pow_pos (by omega)
    have hdiva : a / 10 ^ width < 10 := Nat.div_lt_of_lt_mul (by rwa [Nat.pow_succ] at ha)
    have hdivb : b / 10 ^ width < 10 := Nat.div_lt_of_lt_mul (by rwa [Nat.pow_succ] at hb)
    rw [padded, padded, List.cons_lt_cons_iff, digit_lt_iff hdiva hdivb, digit_inj hdiva hdivb,
      ih (Nat.mod_lt _ hpos) (Nat.mod_lt _ hpos)]
    have hadiv := Nat.div_add_mod a (10 ^ width)
    have hbdiv := Nat.div_add_mod b (10 ^ width)
    have hamod := Nat.mod_lt a hpos
    have hbmod := Nat.mod_lt b hpos
    constructor
    · rintro (hlt | ⟨heq, hlt⟩)
      · exact Nat.lt_of_div_lt_div hlt
      · rw [← hadiv, ← hbdiv, heq]
        omega
    · intro hlt
      obtain hdiv | hdiv := Nat.lt_or_eq_of_le (Nat.div_le_div_right (c := 10 ^ width) hlt.le)
      · exact Or.inl hdiv
      · refine Or.inr ⟨hdiv, ?_⟩
        rw [← hadiv, ← hbdiv, hdiv] at hlt
        omega

/-- Texts with first parts of one length are ordered by these first. -/
theorem append_lt_append_iff {a b c d : List Char} (hlength : a.length = b.length) :
    a ++ c < b ++ d ↔ a < b ∨ a = b ∧ c < d := by
  induction a generalizing b with
  | nil =>
    have hnil : b = [] := List.length_eq_zero_iff.mp hlength.symm
    have hnot : ¬ ([] : List Char) < [] := List.lt_irrefl []
    rw [hnil]
    simp only [List.nil_append, hnot, false_or, true_and]
  | cons x a ih =>
    cases b with
    | nil => cases hlength
    | cons y b =>
      rw [List.length_cons, List.length_cons, Nat.add_right_cancel_iff] at hlength
      rw [List.cons_append, List.cons_append, List.cons_lt_cons_iff, List.cons_lt_cons_iff,
        ih hlength, List.cons.injEq]
      tauto

/-- ISO texts are ordered as their dates. -/
theorem Date.isoformat_lt_iff (a b : Date) : a.isoformat < b.isoformat ↔ a < b := by
  obtain ⟨-, hyear, -, hmonth, -, hday⟩ := a.valid
  obtain ⟨-, hyear', -, hmonth', -, hday'⟩ := b.valid
  have hdays := daysInMonth_le a.year a.month
  have hdays' := daysInMonth_le b.year b.month
  have hlength : ∀ width n m, (padded width n).length = (padded width m).length := by
    intro width n m
    rw [length_padded, length_padded]
  have hdash : ¬ '-' < '-' := by decide
  rw [Date.lt_iff, Date.key_lt_iff, isoformat, isoformat,
    append_lt_append_iff (hlength 4 _ _), List.cons_lt_cons_iff,
    append_lt_append_iff (hlength 2 _ _), List.cons_lt_cons_iff,
    padded_lt_iff (by omega) (by omega), padded_inj (by omega) (by omega),
    padded_lt_iff (by omega) (by omega), padded_inj (by omega) (by omega),
    padded_lt_iff (by omega) (by omega)]
  simp only [hdash, false_or, true_and]

theorem textLe_isoformat (a b : Date) : textLe a.isoformat b.isoformat = true ↔ a ≤ b := by
  rw [textLe, Bool.not_eq_true', decide_eq_false_iff_not, Date.isoformat_lt_iff, Date.lt_iff,
    Date.le_iff]
  omega

/-! ### The users -/

/-- The columns of a user that are read and written.  The anchor date stands as
`date.fromisoformat` reads it, `none` where that raises. -/
structure User where
  id : ℕ
  username : String
  ageCredential : Option ℤ
  anchorAge : Option ℤ
  anchorDate : Option Date
  nextIncrementOn : Option (List Char)
  updatedAt : String

/-- The table of the users, whose ids are distinct. -/
structure Users where
  rows : List User
  distinct : rows.Pairwise fun a b => a.id ≠ b.id

/-- An `UPDATE` that keeps the ids. -/
def Users.update (users : Users) (f : User → User) (hid : ∀ user, (f user).id = user.id) :
    Users where
  rows := users.rows.map f
  distinct := by
    rw [List.pairwise_map]
    exact users.distinct.imp fun hne => by rwa [hid, hid]

/-- The users, and the session tokens with the users they belong to. -/
structure Database where
  users : Users
  sessions : List (String × ℕ)

/-- Whom a run is for. -/
inductive Selector where
  | everyone
  | userId (id : ℕ)
  | username (name : String)
  | sessionTokenHash (hash : String)

def Selector.covers (sessions : List (String × ℕ)) (user : User) : Selector → Bool
  | everyone => true
  | userId id => decide (user.id = id)
  | username name => decide (user.username = name)
  | sessionTokenHash hash => sessions.any fun s => decide (s.2 = user.id ∧ s.1 = hash)

/-- The conditions on the age and on the next increment. -/
def due (today : Date) (user : User) : Bool :=
  decide (user.ageCredential.getD 18 < 18) &&
    user.nextIncrementOn.any fun next => textLe next today.isoformat

/-- `int(row["age_credential"] or MAX_AGE_CREDENTIAL)` -/
def previousAge (user : User) : ℤ :=
  match user.ageCredential with
  | some age => if age = 0 then maxAgeCredential else age
  | none => maxAgeCredential

/-- The schedule that a run computes for a row; a row whose anchor is not
readable is anchored anew. -/
def rowSchedule (today : Date) (user : User) : Option Schedule :=
  match user.anchorDate, user.anchorAge with
  | some anchorDate, some anchorAge => calculateAgeCredentialSchedule anchorAge anchorDate today
  | _, _ => calculateAgeCredentialSchedule (previousAge user) today today

/-- The columns that the `UPDATE` sets. -/
def written (schedule : Schedule) (now : String) (user : User) : User :=
  { user with
    ageCredential := some schedule.age
    anchorAge := some schedule.anchorAge
    anchorDate := some schedule.anchorDate
    nextIncrementOn := schedule.nextIncrementOn.map Date.isoformat
    updatedAt := if user.ageCredential.any fun age => decide (age ≠ schedule.age) then now
      else user.updatedAt }

/-- The guard of the `UPDATE`. -/
def guarded (today : Date) (row user : User) : Bool :=
  decide (user.id = row.id) && decide (user.ageCredential.getD 18 = previousAge row) &&
    user.nextIncrementOn.any fun next => textLe next today.isoformat

/-- The `UPDATE` of one row, and what it adds to the results. -/
def reconcileRow (today : Date) (now : String) (state : Users × List (ℕ × ℤ)) (row : User) :
    Option (Users × List (ℕ × ℤ)) :=
  (rowSchedule today row).map fun schedule =>
    (state.1.update (fun user => if guarded today row user then written schedule now user else user)
        (by intro user; split <;> rfl),
      if state.1.rows.countP (guarded today row) = 1 then state.2 ++ [(row.id, schedule.age)]
      else state.2)

/-- A call of `reconcile_due_age_credentials`, with the clock. -/
structure Call where
  selector : Selector
  today : Date
  now : String

/-- `reconcile_due_age_credentials`: the database afterwards, and the results;
`none` is a `ValueError`, before the commit. -/
def reconcile (db : Database) (call : Call) : Option (Database × List (ℕ × ℤ)) :=
  let rows := db.users.rows.filter fun user =>
    due call.today user && call.selector.covers db.sessions user
  (rows.foldlM (reconcileRow call.today call.now) (db.users, [])).map fun after =>
    ({ db with users := after.1 }, after.2)

/-- Many runs, one after the other. -/
def reconcileAll (db : Database) (calls : List Call) : Option Database :=
  calls.foldlM (fun db call => (reconcile db call).map Prod.fst) db

/-! ### Schedules of later dates -/

section Later

variable {anchor today after : Date} {anchorAge : ℤ} {schedule schedule' : Schedule}

theorem Date.eq_of_key {a b : Date} (h : a.key = b.key) : a = b := by
  obtain ⟨-, -, -, hmonth, -, hday⟩ := a.valid
  obtain ⟨-, -, -, hmonth', -, hday'⟩ := b.valid
  have hdays := daysInMonth_le a.year a.month
  have hdays' := daysInMonth_le b.year b.month
  obtain ⟨y, m, d, hvalid⟩ := a
  obtain ⟨y', m', d', hvalid'⟩ := b
  simp only [key] at *
  have hyear : y = y' := by omega
  have hmonths : m = m' := by omega
  have hdaysEq : d = d' := by omega
  subst hyear hmonths hdaysEq
  rfl

theorem reached_mono {year : ℕ} (hle : today ≤ after) (h : Reached anchor today year = true) :
    Reached anchor after year = true := by
  obtain ⟨date, hdate, htoday⟩ := reached_iff.mp h
  refine reached_iff.mpr ⟨date, hdate, ?_⟩
  rw [Date.le_iff] at hle htoday ⊢
  omega

theorem anniversariesBy_mono (hle : today ≤ after) :
    anniversariesBy anchor today ≤ anniversariesBy anchor after :=
  List.countP_mono_left fun _ _ h => reached_mono hle h

/-- A date has one schedule. -/
theorem Scheduled.unique (h : Scheduled anchorAge anchor today schedule)
    (h' : Scheduled anchorAge anchor today schedule') : schedule = schedule' := by
  have hage : schedule.age = schedule'.age := h.age.trans h'.age.symm
  have hnext : schedule.nextIncrementOn = schedule'.nextIncrementOn := by
    cases hcase : schedule.nextIncrementOn with
    | none => exact (h'.none_iff.mpr (hage ▸ h.none_iff.mp hcase)).symm
    | some next =>
      cases hcase' : schedule'.nextIncrementOn with
      | none =>
        have hnone := h.none_iff.mpr (hage ▸ h'.none_iff.mp hcase')
        rw [hcase] at hnone
        cases hnone
      | some next' =>
        obtain ⟨htoday, ⟨year, hyear, hdate⟩, hfirst⟩ := h.next next hcase
        obtain ⟨htoday', ⟨year', hyear', hdate'⟩, hfirst'⟩ := h'.next next' hcase'
        have hle := hfirst year' next' hyear' hdate' htoday'
        have hle' := hfirst' year next hyear hdate htoday
        rw [Date.le_iff] at hle hle'
        rw [Date.eq_of_key (Nat.le_antisymm hle hle')]
  have hanchorAge : schedule.anchorAge = schedule'.anchorAge :=
    h.anchorAge.trans h'.anchorAge.symm
  have hanchorDate : schedule.anchorDate = schedule'.anchorDate :=
    h.anchorDate.trans h'.anchorDate.symm
  cases schedule
  cases schedule'
  cases hage
  cases hnext
  cases hanchorAge
  cases hanchorDate
  rfl

/-- A schedule holds until its next increment is due. -/
theorem Scheduled.later (h : Scheduled anchorAge anchor today schedule) (hle : today ≤ after)
    (hnext : ∀ next, schedule.nextIncrementOn = some next → after < next) :
    Scheduled anchorAge anchor after schedule := by
  have hmono : anniversariesBy anchor today ≤ anniversariesBy anchor after :=
    anniversariesBy_mono hle
  cases hcase : schedule.nextIncrementOn with
  | none =>
    have hage := h.none_iff.mp hcase
    refine ⟨?_, h.anchorAge, h.anchorDate, h.none_iff, ?_⟩
    · have hages := h.age
      omega
    · intro next hsome
      rw [hcase] at hsome
      cases hsome
  | some next =>
    obtain ⟨htoday, ⟨year, hyear, hdate⟩, hfirst⟩ := h.next next hcase
    have hlater := hnext next hcase
    -- no anniversary comes between the two dates
    have hsame : anniversariesBy anchor after = anniversariesBy anchor today := by
      apply List.countP_congr
      intro other hother
      have hpast : anchor.year < other := (List.mem_range'_1.mp hother).1
      constructor
      · intro hreached
        obtain ⟨date, hotherDate, hby⟩ := reached_iff.mp hreached
        refine reached_iff.mpr ⟨date, hotherDate, ?_⟩
        by_contra hnot
        rw [Date.le_iff] at hnot
        have hle' := hfirst other date hpast hotherDate (Date.lt_iff.mpr (by omega))
        rw [Date.le_iff] at hle' hby
        rw [Date.lt_iff] at hlater
        omega
      · exact reached_mono hle
    refine ⟨by rw [hsame]; exact h.age, h.anchorAge, h.anchorDate, h.none_iff, ?_⟩
    intro other hother
    rw [hcase] at hother
    cases hother
    refine ⟨hlater, ⟨year, hyear, hdate⟩, ?_⟩
    intro otherYear date hpast hotherDate hafter
    apply hfirst otherYear date hpast hotherDate
    rw [Date.lt_iff] at hafter ⊢
    rw [Date.le_iff] at hle
    omega

theorem normalizedAge_idem (age : ℤ) : normalizedAge (normalizedAge age) = normalizedAge age := by
  simp only [normalizedAge, maxAgeCredential]
  omega

theorem calculate_normalized (anchorAge : ℤ) (anchor today : Date) :
    calculateAgeCredentialSchedule (normalizedAge anchorAge) anchor today =
      calculateAgeCredentialSchedule anchorAge anchor today := by
  simp only [calculateAgeCredentialSchedule, normalizedAge_idem]

/-- No anniversary has come on the anchor date itself. -/
theorem anniversariesBy_anchor (anchor : Date) : anniversariesBy anchor anchor = 0 := by
  rw [anniversariesBy, List.countP_eq_zero]
  intro year hyear hreached
  have hpast : anchor.year < year := (List.mem_range'_1.mp hyear).1
  obtain ⟨date, hdate, hle⟩ := reached_iff.mp hreached
  have hdateYear := anniversary_year hdate
  have hlt : anchor < date := (Date.key_lt_iff anchor date).mpr (Or.inl (by omega))
  rw [Date.lt_iff] at hlt
  rw [Date.le_iff] at hle
  omega

/-- A new credential has the schedule of its anchor date. -/
theorem newAge_scheduled {age : ℤ} (h : newAgeCredentialSchedule age anchor = some schedule) :
    Scheduled age anchor anchor schedule := by
  have hnormalized := normalizedAge_le age
  have hzero := anniversariesBy_anchor anchor
  by_cases hfull : maxAgeCredential ≤ normalizedAge age
  · simp only [newAgeCredentialSchedule, if_pos hfull, Option.some.injEq] at h
    simp only [maxAgeCredential] at hfull
    cases h
    refine ⟨?_, rfl, rfl, ⟨fun _ => ?_, fun _ => rfl⟩, fun next hnext => (by cases hnext)⟩
    · show normalizedAge age = min 18 _
      omega
    · show normalizedAge age = 18
      omega
  · simp only [newAgeCredentialSchedule, if_neg hfull, Option.map_eq_some_iff] at h
    simp only [maxAgeCredential] at hfull
    obtain ⟨next, hnext, rfl⟩ := h
    have hyear := anniversary_year hnext
    refine ⟨?_, rfl, rfl, ⟨fun hnone => (by cases hnone), fun hage => ?_⟩, fun other hother => ?_⟩
    · show normalizedAge age = min 18 _
      omega
    · replace hage : normalizedAge age = 18 := hage
      omega
    · cases hother
      refine ⟨?_, ⟨_, by omega, hnext⟩, ?_⟩
      · exact (Date.key_lt_iff anchor next).mpr (Or.inl (by omega))
      · intro year date hpast hdate hafter
        exact le_of_next hpast (Nat.zero_le _) hnext hdate hafter

end Later

/-! ### One row through a run -/

section Rows

variable {today : Date} {now : String} {user row : User}

/-- Rows with other ids do not change a row. -/
theorem foldlM_other {selected : List User} {state state' : Users × List (ℕ × ℤ)}
    (hfold : selected.foldlM (reconcileRow today now) state = some state')
    (hother : ∀ row ∈ selected, row.id ≠ user.id) (huser : user ∈ state.1.rows) :
    user ∈ state'.1.rows := by
  induction selected generalizing state with
  | nil =>
    cases hfold
    exact huser
  | cons row selected ih =>
    rw [List.foldlM_cons] at hfold
    obtain ⟨middle, hmiddle, hrest⟩ := Option.bind_eq_some_iff.mp hfold
    refine ih hrest (fun row hrow => hother row (List.mem_cons_of_mem _ hrow)) ?_
    obtain ⟨schedule, -, rfl⟩ := Option.map_eq_some_iff.mp hmiddle
    have hunguarded : guarded today row user = false := by
      rw [guarded, decide_eq_false (Ne.symm (hother row List.mem_cons_self)), Bool.false_and,
        Bool.false_and]
    exact List.mem_map.mpr ⟨user, huser, by rw [hunguarded]; rfl⟩

/-- What a run does to a row: it is written under its guard if it is selected,
else it stays. -/
theorem foldlM_follow {selected : List User} {state state' : Users × List (ℕ × ℤ)}
    (hfold : selected.foldlM (reconcileRow today now) state = some state')
    (hdistinct : selected.Pairwise fun a b => a.id ≠ b.id)
    (hsame : ∀ row ∈ selected, row.id = user.id → row = user) (huser : user ∈ state.1.rows)
    (hguarded : user ∈ selected → guarded today user user = true) :
    (user ∈ selected → ∃ schedule, rowSchedule today user = some schedule
        ∧ written schedule now user ∈ state'.1.rows)
      ∧ (user ∉ selected → user ∈ state'.1.rows) := by
  induction selected generalizing state with
  | nil =>
    cases hfold
    exact ⟨fun h => absurd h List.not_mem_nil, fun _ => huser⟩
  | cons row selected ih =>
    rw [List.foldlM_cons] at hfold
    obtain ⟨middle, hmiddle, hrest⟩ := Option.bind_eq_some_iff.mp hfold
    obtain ⟨hhead, htail⟩ := List.pairwise_cons.mp hdistinct
    obtain ⟨schedule, hschedule, rfl⟩ := Option.map_eq_some_iff.mp hmiddle
    by_cases hid : row.id = user.id
    · -- the turn of the row itself; no later turn writes it again
      have hrow : row = user := hsame row List.mem_cons_self hid
      subst hrow
      have hwritten : written schedule now row ∈ (state.1.update (fun other =>
          if guarded today row other then written schedule now other else other)
          (by intro other; split <;> rfl)).rows :=
        List.mem_map.mpr ⟨row, huser, by rw [hguarded List.mem_cons_self]; rfl⟩
      refine ⟨fun _ => ⟨schedule, hschedule, ?_⟩, fun hout => absurd List.mem_cons_self hout⟩
      exact foldlM_other hrest (fun other hother => (hhead other hother).symm) hwritten
    · -- the turn of another row leaves it as it is
      have hunguarded : guarded today row user = false := by
        rw [guarded, decide_eq_false (Ne.symm hid), Bool.false_and, Bool.false_and]
      have hmem := ih hrest htail (fun other hother => hsame other (List.mem_cons_of_mem _ hother))
        (List.mem_map.mpr ⟨user, huser, by rw [hunguarded]; rfl⟩)
        (fun hin => hguarded (List.mem_cons_of_mem _ hin))
      have hne : user ≠ row := fun heq => hid (by rw [heq])
      constructor
      · intro hin
        exact hmem.1 ((List.mem_cons.mp hin).resolve_left hne)
      · intro hout
        exact hmem.2 fun hin => hout (List.mem_cons_of_mem _ hin)

theorem eq_of_id {users : Users} (huser : user ∈ users.rows) (hrow : row ∈ users.rows)
    (hid : row.id = user.id) : row = user := by
  by_contra hne
  have hsymm : Std.Symm fun a b : User => a.id ≠ b.id := ⟨fun _ _ h => h.symm⟩
  exact users.distinct.forall hrow huser hne hid

/-- A run and one row of it. -/
theorem reconcile_follow {db db' : Database} {call : Call} {results : List (ℕ × ℤ)}
    (hrun : reconcile db call = some (db', results)) (huser : user ∈ db.users.rows)
    (hage : user.ageCredential ≠ some 0) :
    (due call.today user = true ∧ call.selector.covers db.sessions user = true →
      ∃ schedule, rowSchedule call.today user = some schedule
        ∧ written schedule call.now user ∈ db'.users.rows)
    ∧ (¬ (due call.today user = true ∧ call.selector.covers db.sessions user = true) →
      user ∈ db'.users.rows)
    ∧ db'.sessions = db.sessions := by
  obtain ⟨⟨users', added⟩, hfold, heq⟩ := Option.map_eq_some_iff.mp hrun
  cases heq
  have hselected : ∀ row ∈ db.users.rows.filter fun user =>
      due call.today user && call.selector.covers db.sessions user, row ∈ db.users.rows :=
    fun row hrow => (List.mem_filter.mp hrow).1
  have hmem : user ∈ (db.users.rows.filter fun user =>
      due call.today user && call.selector.covers db.sessions user) ↔
      due call.today user = true ∧ call.selector.covers db.sessions user = true := by
    rw [List.mem_filter, Bool.and_eq_true]
    exact and_iff_right huser
  have hguarded : due call.today user = true → guarded call.today user user = true := by
    intro hdue
    have hprevious : user.ageCredential.getD 18 = previousAge user := by
      rw [previousAge]
      cases hcase : user.ageCredential with
      | none => rfl
      | some age =>
        have hne : age ≠ 0 := fun hzero => hage (by rw [hcase, hzero])
        exact (if_neg hne).symm
    rw [guarded, decide_eq_true rfl, decide_eq_true hprevious, Bool.true_and]
    exact (Bool.and_eq_true _ _ ▸ hdue).2
  obtain ⟨hin, hout⟩ := foldlM_follow hfold (db.users.distinct.filter _)
    (fun row hrow hid => eq_of_id huser (hselected row hrow) hid) huser
    (fun hin => hguarded (hmem.mp hin).1)
  exact ⟨fun h => hin (hmem.mpr h), fun h => hout (fun hin => h (hmem.mp hin)), rfl⟩

end Rows

/-! ### Runs -/

section Following

variable {anchor today : Date} {anchorAge : ℤ} {user : User} {db db' : Database}

/-- The row holds the schedule of the date. -/
structure Follows (anchorAge : ℤ) (anchor today : Date) (user : User) : Prop where
  exists_schedule : ∃ schedule, Scheduled anchorAge anchor today schedule
    ∧ user.ageCredential = some schedule.age ∧ user.anchorAge = some schedule.anchorAge
    ∧ user.anchorDate = some schedule.anchorDate
    ∧ user.nextIncrementOn = schedule.nextIncrementOn.map Date.isoformat

theorem Scheduled.age_pos {schedule : Schedule} (h : Scheduled anchorAge anchor today schedule) :
    1 ≤ schedule.age := by
  have hage := h.age
  simp only [normalizedAge, maxAgeCredential] at hage
  omega

theorem Scheduled.age_le {schedule : Schedule} (h : Scheduled anchorAge anchor today schedule) :
    schedule.age ≤ 18 := by
  have hage := h.age
  omega

theorem follows_written {schedule : Schedule} (h : Scheduled anchorAge anchor today schedule)
    (now : String) : Follows anchorAge anchor today (written schedule now user) :=
  ⟨schedule, h, rfl, rfl, rfl, rfl⟩

/-- The row is due when an anniversary has come since it was written. -/
theorem Follows.due_iff (after : Date) {schedule : Schedule}
    (h : Scheduled anchorAge anchor today schedule)
    (hage : user.ageCredential = some schedule.age)
    (hnext : user.nextIncrementOn = schedule.nextIncrementOn.map Date.isoformat) :
    due after user = true ↔ ∃ next, schedule.nextIncrementOn = some next ∧ next ≤ after := by
  rw [due, hage, hnext, Option.getD_some, Bool.and_eq_true, decide_eq_true_eq]
  cases hcase : schedule.nextIncrementOn with
  | none =>
    simp only [Option.map_none, Option.any_none, Bool.false_eq_true, and_false, false_iff]
    rintro ⟨next, hsome, -⟩
    cases hsome
  | some next =>
    have hlt : schedule.age < 18 := by
      have hne : schedule.age ≠ 18 := by
        intro hfull
        rw [h.none_iff.mpr hfull] at hcase
        cases hcase
      have hle := h.age_le
      omega
    rw [Option.map_some, Option.any_some, textLe_isoformat]
    constructor
    · rintro ⟨-, hle⟩
      exact ⟨next, rfl, hle⟩
    · rintro ⟨other, hother, hle⟩
      cases hother
      exact ⟨hlt, hle⟩

/-- A run that covers a row brings it to the schedule of its date; another run
leaves it. -/
theorem Follows.reconcile {call : Call} {results : List (ℕ × ℤ)}
    (h : Follows anchorAge anchor today user) (hrun : reconcile db call = some (db', results))
    (huser : user ∈ db.users.rows) (hle : today ≤ call.today) :
    ∃ user' ∈ db'.users.rows, user'.id = user.id ∧ user'.username = user.username
      ∧ (call.selector.covers db.sessions user = true → Follows anchorAge anchor call.today user')
      ∧ (call.selector.covers db.sessions user = false → Follows anchorAge anchor today user') := by
  obtain ⟨schedule, hscheduled, hage, hanchorAge, hanchorDate, hnext⟩ := h.exists_schedule
  have hpos := hscheduled.age_pos
  have hnonzero : user.ageCredential ≠ some 0 := by
    rw [hage, Ne, Option.some.injEq]
    omega
  obtain ⟨hin, hout, -⟩ := reconcile_follow hrun huser hnonzero
  have hdue := Follows.due_iff call.today hscheduled hage hnext
  by_cases hcovered : call.selector.covers db.sessions user = true
  · by_cases hisDue : due call.today user = true
    · obtain ⟨new, hnew, hwritten⟩ := hin ⟨hisDue, hcovered⟩
      rw [rowSchedule, hanchorAge, hanchorDate, hscheduled.anchorAge, hscheduled.anchorDate] at hnew
      simp only [calculate_normalized] at hnew
      have hnewScheduled := (calculate_spec anchorAge anchor call.today).1 new hnew
      refine ⟨_, hwritten, rfl, rfl, fun _ => follows_written hnewScheduled call.now, ?_⟩
      intro huncovered
      rw [hcovered] at huncovered
      cases huncovered
    · refine ⟨user, hout fun hboth => hisDue hboth.1, rfl, rfl, fun _ => ?_, fun _ => h⟩
      refine ⟨schedule, hscheduled.later hle ?_, hage, hanchorAge, hanchorDate, hnext⟩
      intro next hsome
      by_contra hnot
      rw [Date.lt_iff] at hnot
      exact hisDue (hdue.mpr ⟨next, hsome, Date.le_iff.mpr (by omega)⟩)
  · refine ⟨user, hout fun hboth => hcovered hboth.2, rfl, rfl, fun hyes => absurd hyes hcovered,
      fun _ => h⟩

theorem covers_congr {sessions : List (String × ℕ)} {user' : User} (hid : user'.id = user.id)
    (hname : user'.username = user.username) (selector : Selector) :
    selector.covers sessions user' = selector.covers sessions user := by
  cases selector with
  | everyone => rfl
  | userId id => rw [Selector.covers, Selector.covers, hid]
  | username name => rw [Selector.covers, Selector.covers, hname]
  | sessionTokenHash hash => rw [Selector.covers, Selector.covers, hid]

/-- The date of the last run that covered the row, or the date it was written. -/
def lastCovered (sessions : List (String × ℕ)) (user : User) (calls : List Call) (today : Date) :
    Date :=
  calls.foldl (fun last call => if call.selector.covers sessions user then call.today else last)
    today

theorem lastCovered_congr {sessions : List (String × ℕ)} {user' : User} (hid : user'.id = user.id)
    (hname : user'.username = user.username) (calls : List Call) (today : Date) :
    lastCovered sessions user' calls today = lastCovered sessions user calls today := by
  simp only [lastCovered, covers_congr hid hname]

/-- **Path independence**: after any runs a row holds the schedule of the last
date that covered it. -/
theorem follows_runs {calls : List Call} (hruns : reconcileAll db calls = some db')
    (h : Follows anchorAge anchor today user) (huser : user ∈ db.users.rows)
    (hsorted : calls.Pairwise fun a b => a.today ≤ b.today)
    (hstart : ∀ call ∈ calls, today ≤ call.today) :
    ∃ user' ∈ db'.users.rows, user'.id = user.id
      ∧ Follows anchorAge anchor (lastCovered db.sessions user calls today) user' := by
  induction calls generalizing db user today with
  | nil =>
    cases hruns
    exact ⟨user, huser, rfl, h⟩
  | cons call calls ih =>
    rw [reconcileAll, List.foldlM_cons] at hruns
    obtain ⟨middle, hmiddle, hrest⟩ := Option.bind_eq_some_iff.mp hruns
    obtain ⟨⟨db₁, results⟩, hrun, rfl⟩ := Option.map_eq_some_iff.mp hmiddle
    obtain ⟨hhead, htail⟩ := List.pairwise_cons.mp hsorted
    have hle := hstart call List.mem_cons_self
    have hsessions : db₁.sessions = db.sessions := by
      obtain ⟨after, -, heq⟩ := Option.map_eq_some_iff.mp hrun
      cases heq
      rfl
    obtain ⟨user₁, huser₁, hid, hname, hcovered, huncovered⟩ := h.reconcile hrun huser hle
    have hlast : lastCovered db.sessions user (call :: calls) today =
        lastCovered db.sessions user calls
          (if call.selector.covers db.sessions user then call.today else today) := rfl
    rw [hlast]
    cases hcase : call.selector.covers db.sessions user with
    | true =>
      obtain ⟨user₂, huser₂, hid₂, hfollows⟩ := ih hrest (hcovered hcase) huser₁ htail hhead
      rw [hsessions, lastCovered_congr hid hname] at hfollows
      exact ⟨user₂, huser₂, hid₂.trans hid, hfollows⟩
    | false =>
      obtain ⟨user₂, huser₂, hid₂, hfollows⟩ := ih hrest (huncovered hcase) huser₁ htail
        fun other hother => hstart other (List.mem_cons_of_mem _ hother)
      rw [hsessions, lastCovered_congr hid hname] at hfollows
      exact ⟨user₂, huser₂, hid₂.trans hid, hfollows⟩

end Following

/-! ### Runs that return -/

section Returning

variable {anchor today : Date}

theorem anniversariesBy_eq_all :
    anniversariesBy anchor today = 9999 - anchor.year ↔
      ∀ year, anchor.year < year → year ≤ 9999 → Reached anchor today year = true := by
  have hlength := @List.countP_eq_length _
    (List.range' (anchor.year + 1) (9999 - anchor.year)) (Reached anchor today)
  rw [List.length_range'] at hlength
  rw [anniversariesBy, hlength]
  constructor
  · intro h year hpast hlast
    exact h year (List.mem_range'_1.mpr (by omega))
  · intro h year hyear
    have hbounds := List.mem_range'_1.mp hyear
    exact h year (by omega) (by omega)

/-- Before the last year of the calendar there is a next anniversary. -/
theorem exists_calculate (anchorAge : ℤ) (hanchor : anchor.year < 9999)
    (htoday : today.year < 9999) :
    ∃ schedule, calculateAgeCredentialSchedule anchorAge anchor today = some schedule := by
  cases h : calculateAgeCredentialSchedule anchorAge anchor today with
  | some schedule => exact ⟨schedule, rfl⟩
  | none =>
    exfalso
    have hall := ((calculate_spec anchorAge anchor today).2.mp h).1
    obtain ⟨date, hdate, hle⟩ :=
      reached_iff.mp (anniversariesBy_eq_all.mp hall 9999 hanchor (Nat.le_refl _))
    have hyear := anniversary_year hdate
    have hlt : today < date := (Date.key_lt_iff today date).mpr (Or.inl (by omega))
    rw [Date.lt_iff] at hlt
    rw [Date.le_iff] at hle
    omega

theorem lastCovered_year {sessions : List (String × ℕ)} {user : User} {calls : List Call}
    (htoday : today.year < 9999) (hcalls : ∀ call ∈ calls, call.today.year < 9999) :
    (lastCovered sessions user calls today).year < 9999 := by
  induction calls generalizing today with
  | nil => exact htoday
  | cons call calls ih =>
    have hrest : ∀ other ∈ calls, other.today.year < 9999 :=
      fun other hother => hcalls other (List.mem_cons_of_mem _ hother)
    rw [lastCovered, List.foldl_cons]
    cases call.selector.covers sessions user with
    | true => exact ih (hcalls call List.mem_cons_self) hrest
    | false => exact ih htoday hrest

/-- Every anchor date is before the last year of the calendar. -/
def Early (rows : List User) : Prop :=
  ∀ user ∈ rows, ∀ date, user.anchorDate = some date → date.year < 9999

theorem exists_rowSchedule {row : User} (htoday : today.year < 9999)
    (hrow : ∀ date, row.anchorDate = some date → date.year < 9999) :
    ∃ schedule, rowSchedule today row = some schedule ∧ schedule.anchorDate.year < 9999 := by
  have hcalculated : ∀ (anchorAge : ℤ) (anchor : Date), anchor.year < 9999 →
      ∃ schedule, calculateAgeCredentialSchedule anchorAge anchor today = some schedule
        ∧ schedule.anchorDate.year < 9999 := by
    intro anchorAge anchor hanchor
    obtain ⟨schedule, hschedule⟩ := exists_calculate anchorAge hanchor htoday
    have hscheduled := (calculate_spec anchorAge anchor today).1 schedule hschedule
    exact ⟨schedule, hschedule, by rw [hscheduled.anchorDate]; exact hanchor⟩
  rw [rowSchedule]
  split
  · next date age hdate _ => exact hcalculated age date (hrow date hdate)
  · exact hcalculated _ _ htoday

theorem exists_foldlM (now : String) {selected : List User} {state : Users × List (ℕ × ℤ)}
    (htoday : today.year < 9999) (hselected : Early selected) (hstate : Early state.1.rows) :
    ∃ state', selected.foldlM (reconcileRow today now) state = some state'
      ∧ Early state'.1.rows := by
  induction selected generalizing state with
  | nil => exact ⟨state, rfl, hstate⟩
  | cons row selected ih =>
    obtain ⟨schedule, hschedule, hyear⟩ :=
      exists_rowSchedule htoday (hselected row List.mem_cons_self)
    rw [List.foldlM_cons, reconcileRow, hschedule]
    apply ih (fun other hother => hselected other (List.mem_cons_of_mem _ hother))
    intro user huser date hdate
    obtain ⟨before, hbefore, rfl⟩ := List.mem_map.mp huser
    by_cases hguarded : guarded today row before = true
    · rw [if_pos hguarded] at hdate
      cases hdate
      exact hyear
    · rw [if_neg hguarded] at hdate
      exact hstate before hbefore date hdate

/-- Runs before the last year of the calendar return. -/
theorem exists_reconcileAll {db : Database} {calls : List Call} (hdb : Early db.users.rows)
    (hcalls : ∀ call ∈ calls, call.today.year < 9999) :
    ∃ db', reconcileAll db calls = some db' := by
  induction calls generalizing db with
  | nil => exact ⟨db, rfl⟩
  | cons call calls ih =>
    have hselected : Early (db.users.rows.filter fun user =>
        due call.today user && call.selector.covers db.sessions user) :=
      fun user huser => hdb user (List.mem_filter.mp huser).1
    obtain ⟨state, hstate, hearly⟩ := @exists_foldlM call.today call.now _ (db.users, [])
      (hcalls call List.mem_cons_self) hselected hdb
    have hrun : reconcile db call = some ({ db with users := state.1 }, state.2) := by
      rw [reconcile, hstate]
      rfl
    rw [reconcileAll, List.foldlM_cons, hrun]
    exact @ih { db with users := state.1 } hearly
      fun other hother => hcalls other (List.mem_cons_of_mem _ hother)

end Returning

/-- The row that a new credential writes. -/
def newUser (user : User) (schedule : Schedule) : User :=
  { user with
    ageCredential := some schedule.age
    anchorAge := some schedule.anchorAge
    anchorDate := some schedule.anchorDate
    nextIncrementOn := schedule.nextIncrementOn.map Date.isoformat }

/-- **Age credentials.**  The schedule of a date has the age that the
anniversaries give, which grows with the date, and the first anniversary still
to come unless the age is 18; it fails only past the last year of the calendar.
A row that was written anew holds, after any runs in the order of their dates,
the schedule of the last date that covered it; and the runs return as long as
no date is in the last year. -/
theorem age_credentials_path_independent :
    (∀ (anchorAge : ℤ) (anchor today : Date),
      (∀ schedule, calculateAgeCredentialSchedule anchorAge anchor today = some schedule →
        schedule.age = min 18 (max 1 anchorAge + anniversariesBy anchor today)
          ∧ (schedule.nextIncrementOn = none ↔ schedule.age = 18)
          ∧ ∀ next, schedule.nextIncrementOn = some next →
            today < next ∧ (∃ year, anchor.year < year ∧ anniversary anchor year = some next)
              ∧ ∀ year date, anchor.year < year → anniversary anchor year = some date →
                today < date → next ≤ date)
      ∧ (calculateAgeCredentialSchedule anchorAge anchor today = none ↔
        (∀ year, anchor.year < year → year ≤ 9999 → Reached anchor today year = true)
          ∧ max 1 anchorAge + anniversariesBy anchor today < 18)
      ∧ ∀ after schedule schedule', today ≤ after →
        calculateAgeCredentialSchedule anchorAge anchor today = some schedule →
        calculateAgeCredentialSchedule anchorAge anchor after = some schedule' →
        schedule.age ≤ schedule'.age)
    ∧ (∀ (db : Database) (user : User) (age : ℤ) (anchor : Date) (schedule : Schedule)
        (calls : List Call),
      newAgeCredentialSchedule age anchor = some schedule →
      newUser user schedule ∈ db.users.rows →
      (calls.Pairwise fun a b => a.today ≤ b.today) → (∀ call ∈ calls, anchor ≤ call.today) →
      Early db.users.rows → (∀ call ∈ calls, call.today.year < 9999) →
      ∃ db' user' schedule', reconcileAll db calls = some db' ∧ user' ∈ db'.users.rows
        ∧ user'.id = user.id
        ∧ calculateAgeCredentialSchedule age anchor
            (lastCovered db.sessions (newUser user schedule) calls anchor) = some schedule'
        ∧ newUser user' schedule' = user') := by
  refine ⟨?_, ?_⟩
  · intro anchorAge anchor today
    have hspec := calculate_spec anchorAge anchor today
    have hage : ∀ n : ℕ, min 18 (normalizedAge anchorAge + n) =
        min 18 (max 1 anchorAge + (n : ℤ)) := by
      intro n
      simp only [normalizedAge, maxAgeCredential]
      omega
    refine ⟨?_, hspec.2.trans ?_, ?_⟩
    · intro schedule hschedule
      have hscheduled := hspec.1 schedule hschedule
      exact ⟨by rw [hscheduled.age, hage], hscheduled.none_iff, hscheduled.next⟩
    · have hlt : ∀ n : ℕ, normalizedAge anchorAge + n < 18 ↔ max 1 anchorAge + (n : ℤ) < 18 := by
        intro n
        simp only [normalizedAge, maxAgeCredential]
        omega
      rw [anniversariesBy_eq_all, hlt]
    · intro after schedule schedule' hle hschedule hschedule'
      have hmono : anniversariesBy anchor today ≤ anniversariesBy anchor after :=
        anniversariesBy_mono hle
      rw [(hspec.1 schedule hschedule).age,
        ((calculate_spec anchorAge anchor after).1 schedule' hschedule').age]
      omega
  · intro db user age anchor schedule calls hnew huser hsorted hstart hearly hcalls
    have hscheduled := newAge_scheduled hnew
    obtain ⟨db', hruns⟩ := exists_reconcileAll hearly hcalls
    have hfollows : Follows age anchor anchor (newUser user schedule) :=
      ⟨schedule, hscheduled, rfl, rfl, rfl, rfl⟩
    obtain ⟨user', huser', hid, hend⟩ := follows_runs hruns hfollows huser hsorted hstart
    obtain ⟨last, hlast, hage, hanchorAge, hanchorDate, hnext⟩ := hend.exists_schedule
    have hanchor : anchor.year < 9999 :=
      hearly _ huser anchor (by rw [newUser, hscheduled.anchorDate])
    obtain ⟨schedule', hschedule'⟩ := exists_calculate age hanchor
      (lastCovered_year hanchor hcalls)
    have heq := ((calculate_spec age anchor _).1 schedule' hschedule').unique hlast
    subst heq
    refine ⟨db', user', schedule', hruns, huser', hid, hschedule', ?_⟩
    rw [newUser, ← hage, ← hanchorAge, ← hanchorDate, ← hnext]

/-- A leap day. -/
def leapDay : Date := ⟨2024, 2, 29, by decide⟩

/-- The first day of the last year. -/
def lastYear : Date := ⟨9999, 1, 1, by decide⟩

/-- An anchor age of 0 is raised to 1, and there is no anniversary of a date of
the year 9999. -/
theorem calculate_age_zero :
    (∃ schedule, calculateAgeCredentialSchedule 0 leapDay leapDay = some schedule
      ∧ schedule.age ≠ min 18 (0 + anniversariesBy leapDay leapDay))
    ∧ calculateAgeCredentialSchedule 1 lastYear lastYear = none := by
  obtain ⟨schedule, hschedule⟩ :=
    @exists_calculate leapDay leapDay 0 (by decide) (by decide)
  have hage := ((calculate_spec 0 leapDay leapDay).1 schedule hschedule).age
  rw [anniversariesBy_anchor] at hage
  refine ⟨⟨schedule, hschedule, ?_⟩, by decide⟩
  rw [hage, anniversariesBy_anchor]
  decide

/-- A user of ten, made on a leap day. -/
def leapDayUser : User :=
  ⟨1, "u", some 10, some 10, some leapDay, some "2025-02-28".toList, ""⟩

theorem age_credentials_leap_day :
    ∃ db' user' schedule',
      reconcileAll ⟨⟨[leapDayUser], List.pairwise_singleton _ _⟩, []⟩
          [⟨.everyone, ⟨2025, 2, 28, by decide⟩, "now"⟩] = some db'
        ∧ user' ∈ db'.users.rows ∧ user'.id = 1
        ∧ calculateAgeCredentialSchedule 10 leapDay ⟨2025, 2, 28, by decide⟩ = some schedule'
        ∧ newUser user' schedule' = user' := by
  have hnew : newAgeCredentialSchedule 10 leapDay =
      some ⟨10, 10, leapDay, some ⟨2025, 2, 28, by decide⟩⟩ := by decide
  have huser : newUser leapDayUser ⟨10, 10, leapDay, some ⟨2025, 2, 28, by decide⟩⟩ ∈
      [leapDayUser] := List.mem_singleton.mpr rfl
  exact age_credentials_path_independent.2 ⟨⟨[leapDayUser], List.pairwise_singleton _ _⟩, []⟩
    leapDayUser 10 leapDay _ [⟨.everyone, ⟨2025, 2, 28, by decide⟩, "now"⟩] hnew huser
    (List.pairwise_singleton _ _)
    (by
      intro call hcall
      rw [List.mem_singleton.mp hcall]
      decide)
    (by
      intro user hmem date hdate
      rw [List.mem_singleton.mp hmem] at hdate
      cases hdate
      decide)
    (by
      intro call hcall
      rw [List.mem_singleton.mp hcall]
      decide)

end AgeCredentials
