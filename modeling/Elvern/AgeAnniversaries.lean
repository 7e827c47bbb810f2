/-
The schedule of an age credential (`user_age_credential_service.py`).

A credential grows by one on each anniversary of its anchor date until it is
18.  The anniversary of Feb 29 is Feb 28 in the years that have no leap day.
Dates are Python's: the years 1 to 9999 of the proleptic Gregorian calendar.

* `anniversary`, `calculateAgeCredentialSchedule`, `newAgeCredentialSchedule` --
  the functions;
* `anniversary_strictMono` -- a later year has a later anniversary;
* `countFrom_spec` -- what the loop over the years counts;
* `calculate_spec` -- the age, and the next increment.
-/
import Mathlib.Algebra.Order.Ring.Int
import Mathlib.Data.List.Count
import Mathlib.Tactic.Common

namespace AgeCredentials

/-! ### Dates -/

def leapYear (year : ℕ) : Bool :=
  decide (year % 4 = 0 ∧ year % 100 ≠ 0 ∨ year % 400 = 0)

def daysInMonth (year month : ℕ) : ℕ :=
  if month = 2 then if leapYear year then 29 else 28
  else if month = 4 ∨ month = 6 ∨ month = 9 ∨ month = 11 then 30
  else 31

/-- What the constructor of `date` checks. -/
def ValidDate (year month day : ℕ) : Prop :=
  1 ≤ year ∧ year ≤ 9999 ∧ 1 ≤ month ∧ month ≤ 12 ∧ 1 ≤ day ∧ day ≤ daysInMonth year month

instance (year month day : ℕ) : Decidable (ValidDate year month day) :=
  inferInstanceAs (Decidable (_ ∧ _))

/-- A date. -/
structure Date where
  year : ℕ
  month : ℕ
  day : ℕ
  valid : ValidDate year month day
  deriving DecidableEq

/-- `date(year, month, day)`; `none` is the `ValueError`. -/
def Date.make (year month day : ℕ) : Option Date :=
  if h : ValidDate year month day then some ⟨year, month, day, h⟩ else none

/-- The digits of a date as one number, which orders the dates. -/
def Date.key (date : Date) : ℕ := date.year * 10000 + date.month * 100 + date.day

instance : LE Date := ⟨fun a b => a.key ≤ b.key⟩

instance : LT Date := ⟨fun a b => a.key < b.key⟩

instance : DecidableLE Date := fun a b => inferInstanceAs (Decidable (a.key ≤ b.key))

instance : DecidableLT Date := fun a b => inferInstanceAs (Decidable (a.key < b.key))

theorem Date.le_iff {a b : Date} : a ≤ b ↔ a.key ≤ b.key := Iff.rfl

theorem Date.lt_iff {a b : Date} : a < b ↔ a.key < b.key := Iff.rfl

theorem daysInMonth_le (year month : ℕ) : daysInMonth year month ≤ 31 := by
  rw [daysInMonth]
  split_ifs <;> omega

/-- The order of the keys is the order of the years, months and days. -/
theorem Date.key_lt_iff (a b : Date) :
    a.key < b.key ↔ a.year < b.year ∨ a.year = b.year ∧
      (a.month < b.month ∨ a.month = b.month ∧ a.day < b.day) := by
  obtain ⟨-, -, -, hmonth, -, hday⟩ := a.valid
  obtain ⟨-, -, -, hmonth', -, hday'⟩ := b.valid
  have hdays := daysInMonth_le a.year a.month
  have hdays' := daysInMonth_le b.year b.month
  rw [key, key]
  omega

/-! ### The schedule -/

/-- `MAX_AGE_CREDENTIAL` -/
def maxAgeCredential : ℤ := 18

/-- `AgeCredentialSchedule` -/
structure Schedule where
  age : ℤ
  anchorAge : ℤ
  anchorDate : Date
  nextIncrementOn : Option Date
  deriving DecidableEq

/-- `_anniversary`: a Feb 29 anchor advances on Feb 28 in the years without it.
`none` is the `ValueError` of a year past 9999. -/
def anniversary (anchor : Date) (year : ℕ) : Option Date :=
  match Date.make year anchor.month anchor.day with
  | some date => some date
  | none => Date.make year 2 28

/-- `max(1, min(MAX_AGE_CREDENTIAL, int(age)))` -/
def normalizedAge (age : ℤ) : ℤ := max 1 (min maxAgeCredential age)

/-- The loop over the years from a candidate year on, with the increments that
are left: how many it counts. -/
def countFrom (anchor today : Date) : ℕ → ℕ → Option ℕ
  | 0, _ => some 0
  | left + 1, candidateYear =>
    match anniversary anchor candidateYear with
    | none => none
    | some date =>
      if today < date then some 0
      else (countFrom anchor today left (candidateYear + 1)).map (· + 1)

/-- `calculate_age_credential_schedule`; `none` is the `ValueError` of
`_anniversary`. -/
def calculateAgeCredentialSchedule (anchorAge : ℤ) (anchorDate today : Date) : Option Schedule :=
  let normalized := normalizedAge anchorAge
  if maxAgeCredential ≤ normalized then
    some ⟨maxAgeCredential, normalized, anchorDate, none⟩
  else
    match countFrom anchorDate today (maxAgeCredential - normalized).toNat
        (anchorDate.year + 1) with
    | none => none
    | some elapsed =>
      let age := min maxAgeCredential (normalized + elapsed)
      if maxAgeCredential ≤ age then some ⟨age, normalized, anchorDate, none⟩
      else
        (anniversary anchorDate (anchorDate.year + 1 + elapsed)).map fun next =>
          ⟨age, normalized, anchorDate, some next⟩

/-- `new_age_credential_schedule` -/
def newAgeCredentialSchedule (age : ℤ) (today : Date) : Option Schedule :=
  let normalized := normalizedAge age
  if maxAgeCredential ≤ normalized then some ⟨normalized, normalized, today, none⟩
  else
    (anniversary today (today.year + 1)).map fun next => ⟨normalized, normalized, today, some next⟩

/-! ### Anniversaries -/

section Anniversaries

variable {anchor today : Date} {year : ℕ}

theorem Date.make_eq_some {month day : ℕ} {date : Date} :
    Date.make year month day = some date ↔
      date.year = year ∧ date.month = month ∧ date.day = day := by
  rw [Date.make]
  split_ifs with h
  · constructor
    · intro heq
      cases heq
      exact ⟨rfl, rfl, rfl⟩
    · obtain ⟨y, m, d, hvalid⟩ := date
      rintro ⟨rfl, rfl, rfl⟩
      rfl
  · constructor
    · intro heq
      cases heq
    · rintro ⟨rfl, rfl, rfl⟩
      exact absurd date.valid h

theorem anniversary_year {date : Date} (h : anniversary anchor year = some date) :
    date.year = year := by
  rw [anniversary] at h
  split at h
  · next found hfound =>
    cases h
    exact (Date.make_eq_some.mp hfound).1
  · exact (Date.make_eq_some.mp h).1

/-- There is an anniversary in every year of the calendar. -/
theorem exists_anniversary (hyear : 1 ≤ year) (hlast : year ≤ 9999) :
    ∃ date, anniversary anchor year = some date := by
  rw [anniversary]
  split
  · exact ⟨_, rfl⟩
  · have hvalid : ValidDate year 2 28 := by
      refine ⟨hyear, hlast, by omega, by omega, by omega, ?_⟩
      rw [daysInMonth, if_pos rfl]
      split <;> omega
    exact ⟨⟨year, 2, 28, hvalid⟩, by rw [Date.make, dif_pos hvalid]⟩

/-- A later year has a later anniversary. -/
theorem anniversary_strictMono {year' : ℕ} {date date' : Date} (hlt : year < year')
    (h : anniversary anchor year = some date) (h' : anniversary anchor year' = some date') :
    date < date' := by
  have hyear := anniversary_year h
  have hyear' := anniversary_year h'
  exact (Date.key_lt_iff date date').mpr (Or.inl (by omega))

/-- The anniversary of a year has come by the date. -/
def Reached (anchor today : Date) (year : ℕ) : Bool :=
  (anniversary anchor year).any fun date => decide (date ≤ today)

/-- How many anniversaries have come by the date. -/
def anniversariesBy (anchor today : Date) : ℕ :=
  (List.range' (anchor.year + 1) (9999 - anchor.year)).countP (Reached anchor today)

theorem reached_iff : Reached anchor today year = true ↔
    ∃ date, anniversary anchor year = some date ∧ date ≤ today := by
  rw [Reached]
  cases anniversary anchor year with
  | none => simp
  | some date => simp

theorem reached_of_not_lt {date : Date} (hdate : anniversary anchor year = some date)
    (htoday : ¬ today < date) : Reached anchor today year = true := by
  refine reached_iff.mpr ⟨date, hdate, ?_⟩
  rw [Date.lt_iff] at htoday
  rw [Date.le_iff]
  omega

theorem not_reached_of_lt {date : Date} (hdate : anniversary anchor year = some date)
    (htoday : today < date) : Reached anchor today year = false := by
  rw [Reached, hdate, Option.any_some, decide_eq_false_iff_not, Date.le_iff]
  rw [Date.lt_iff] at htoday
  omega

/-- The anniversaries that have come are those up to some year. -/
theorem reached_of_le {year' : ℕ} (hyear : 1 ≤ year) (hle : year ≤ year')
    (h : Reached anchor today year' = true) : Reached anchor today year = true := by
  obtain ⟨date', hdate', htoday⟩ := reached_iff.mp h
  have hlast : year' ≤ 9999 := by
    rw [← anniversary_year hdate']
    exact date'.valid.2.1
  obtain ⟨date, hdate⟩ := exists_anniversary hyear (Nat.le_trans hle hlast)
  refine reached_iff.mpr ⟨date, hdate, ?_⟩
  obtain hlt | heq := Nat.lt_or_eq_of_le hle
  · have hdates := anniversary_strictMono hlt hdate hdate'
    rw [Date.lt_iff] at hdates
    rw [Date.le_iff] at htoday ⊢
    omega
  · subst heq
    rw [hdate] at hdate'
    cases hdate'
    exact htoday

theorem countP_reached_eq_zero (hyear : 1 ≤ year) (h : Reached anchor today year = false) (n : ℕ) :
    (List.range' year n).countP (Reached anchor today) = 0 := by
  rw [List.countP_eq_zero]
  intro other hother hreached
  have hle : year ≤ other := (List.mem_range'_1.mp hother).1
  rw [reached_of_le hyear hle hreached] at h
  cases h

/-- What the loop over the years counts. -/
theorem countFrom_spec (left : ℕ) (hyear : 1 ≤ year) :
    (∀ count, countFrom anchor today left year = some count →
      count = min left ((List.range' year (10000 - year)).countP (Reached anchor today))
        ∧ (count < left → ∃ date, anniversary anchor (year + count) = some date ∧ today < date))
    ∧ (countFrom anchor today left year = none →
      (List.range' year (10000 - year)).countP (Reached anchor today) = 10000 - year
        ∧ 10000 - year < left) := by
  induction left generalizing year with
  | zero =>
    refine ⟨fun count h => ?_, fun h => by cases h⟩
    cases h
    exact ⟨by rw [Nat.zero_min], fun hlt => absurd hlt (Nat.lt_irrefl 0)⟩
  | succ left ih =>
    rw [countFrom]
    cases hdate : anniversary anchor year with
    | none =>
      have hpast : 10000 - year = 0 := by
        by_contra hpast
        obtain ⟨date, hsome⟩ := @exists_anniversary anchor year hyear (by omega)
        rw [hsome] at hdate
        cases hdate
      refine ⟨fun count h => (by cases h), fun _ => ?_⟩
      rw [hpast]
      exact ⟨rfl, Nat.succ_pos left⟩
    | some date =>
      have hyear' := anniversary_year hdate
      have hlast := date.valid.2.1
      obtain ⟨n, hn⟩ : ∃ n, 10000 - year = n + 1 := ⟨9999 - year, by omega⟩
      have hn' : n = 10000 - (year + 1) := by omega
      by_cases htoday : today < date
      · -- the loop stops, and no later anniversary has come either
        have hunreached := not_reached_of_lt hdate htoday
        refine ⟨fun count h => ?_, fun h => ?_⟩
        · simp only [htoday, if_true, Option.some.injEq] at h
          rw [← h, countP_reached_eq_zero hyear hunreached]
          exact ⟨by omega, fun _ => ⟨date, hdate, htoday⟩⟩
        · simp only [htoday, if_true] at h
          cases h
      · have hreached := reached_of_not_lt hdate htoday
        have hcount : (List.range' year (10000 - year)).countP (Reached anchor today) =
            (List.range' (year + 1) (10000 - (year + 1))).countP (Reached anchor today) + 1 := by
          rw [hn, List.range'_succ, List.countP_cons_of_pos hreached, hn']
        obtain ⟨hsome, hnone⟩ := @ih (year + 1) (by omega)
        refine ⟨fun count h => ?_, fun h => ?_⟩
        · simp only [htoday, if_false, Option.map_eq_some_iff] at h
          obtain ⟨rest, hrest, rfl⟩ := h
          obtain ⟨heq, hnext⟩ := hsome rest hrest
          refine ⟨by omega, fun hlt => ?_⟩
          obtain ⟨next, hnext, hafter⟩ := hnext (by omega)
          exact ⟨next, by rw [← hnext, Nat.add_comm rest 1, Nat.add_assoc], hafter⟩
        · simp only [htoday, if_false, Option.map_eq_none_iff] at h
          have hall := hnone h
          omega

end Anniversaries

/-! ### What the schedule says -/

section Schedules

variable {anchor today : Date} {anchorAge : ℤ} {schedule : Schedule}

/-- The schedule of a date: the age, and the first anniversary that has not
come, if the age can still grow. -/
structure Scheduled (anchorAge : ℤ) (anchor today : Date) (schedule : Schedule) : Prop where
  age : schedule.age = min 18 (normalizedAge anchorAge + anniversariesBy anchor today)
  anchorAge : schedule.anchorAge = normalizedAge anchorAge
  anchorDate : schedule.anchorDate = anchor
  none_iff : schedule.nextIncrementOn = none ↔ schedule.age = 18
  next : ∀ next, schedule.nextIncrementOn = some next →
    today < next ∧ (∃ year, anchor.year < year ∧ anniversary anchor year = some next)
      ∧ ∀ year date, anchor.year < year → anniversary anchor year = some date → today < date →
        next ≤ date

theorem normalizedAge_le (age : ℤ) : normalizedAge age ≤ 18 := by
  simp only [normalizedAge, maxAgeCredential]
  omega

theorem anniversariesBy_eq :
    anniversariesBy anchor today =
      (List.range' (anchor.year + 1) (10000 - (anchor.year + 1))).countP
          (Reached anchor today) := by
  rw [anniversariesBy, show 10000 - (anchor.year + 1) = 9999 - anchor.year by omega]

/-- The first anniversary that the loop does not count comes first of all that
are still to come. -/
theorem le_of_next {year count : ℕ} {next date : Date} (hyear : anchor.year < year)
    (hcount : count ≤ anniversariesBy anchor today)
    (hnext : anniversary anchor (anchor.year + 1 + count) = some next)
    (hdate : anniversary anchor year = some date) (htoday : today < date) : next ≤ date := by
  have hlast := anniversary_year hdate
  have hle := date.valid.2.1
  -- an earlier year would be one of those that are counted
  have hlater : anchor.year + 1 + count ≤ year := by
    by_contra hlt
    have hunreached := not_reached_of_lt hdate htoday
    have hsplit : anniversariesBy anchor today =
        (List.range' (anchor.year + 1) (year - (anchor.year + 1))).countP
            (Reached anchor today) := by
      rw [anniversariesBy_eq,
        show 10000 - (anchor.year + 1) = (year - (anchor.year + 1)) + (10000 - year) by omega,
        ← List.range'_append_1, List.countP_append,
        show anchor.year + 1 + (year - (anchor.year + 1)) = year by omega,
        countP_reached_eq_zero (by omega) hunreached, Nat.add_zero]
    have hbound : (List.range' (anchor.year + 1) (year - (anchor.year + 1))).countP
        (Reached anchor today) ≤ year - (anchor.year + 1) := by
      refine List.countP_le_length.trans ?_
      rw [List.length_range']
    omega
  obtain hlt | heq := Nat.lt_or_eq_of_le hlater
  · have hdates := anniversary_strictMono hlt hnext hdate
    rw [Date.lt_iff] at hdates
    rw [Date.le_iff]
    omega
  · rw [heq, hdate] at hnext
    cases hnext
    exact Date.le_iff.mpr (Nat.le_refl _)

section Outcomes

variable {elapsed : ℕ} {next : Date}

/-! How `calculate_age_credential_schedule` ends: before the loop, in it, and
after it in two ways. -/

theorem calculate_of_full (hfull : normalizedAge anchorAge = 18) :
    calculateAgeCredentialSchedule anchorAge anchor today
      = some ⟨18, normalizedAge anchorAge, anchor, none⟩ := by
  simp only [calculateAgeCredentialSchedule, maxAgeCredential, hfull]
  rfl

theorem calculate_of_raised (hyoung : normalizedAge anchorAge < 18)
    (hcount : countFrom anchor today (18 - normalizedAge anchorAge).toNat
      (anchor.year + 1) = none) :
    calculateAgeCredentialSchedule anchorAge anchor today = none := by
  simp only [calculateAgeCredentialSchedule, maxAgeCredential, hcount]
  exact if_neg (not_le.mpr hyoung)

theorem calculate_of_done (hyoung : normalizedAge anchorAge < 18)
    (hcount : countFrom anchor today (18 - normalizedAge anchorAge).toNat (anchor.year + 1)
      = some elapsed)
    (hdone : 18 ≤ normalizedAge anchorAge + elapsed) :
    calculateAgeCredentialSchedule anchorAge anchor today
      = some ⟨18, normalizedAge anchorAge, anchor, none⟩ := by
  simp only [calculateAgeCredentialSchedule, maxAgeCredential, if_neg (not_le.mpr hyoung), hcount,
    min_eq_left hdone]
  exact if_pos (le_refl 18)

theorem calculate_of_next (hyoung : normalizedAge anchorAge < 18)
    (hcount : countFrom anchor today (18 - normalizedAge anchorAge).toNat (anchor.year + 1)
      = some elapsed)
    (hgrows : normalizedAge anchorAge + elapsed < 18)
    (hnext : anniversary anchor (anchor.year + 1 + elapsed) = some next) :
    calculateAgeCredentialSchedule anchorAge anchor today
      = some ⟨normalizedAge anchorAge + elapsed, normalizedAge anchorAge, anchor, some next⟩ := by
  simp only [calculateAgeCredentialSchedule, maxAgeCredential, if_neg (not_le.mpr hyoung), hcount,
    min_eq_right hgrows.le, if_neg (not_le.mpr hgrows), hnext, Option.map_some]

end Outcomes

/-- A schedule that has come to its end. -/
theorem scheduled_full (hage : 18 ≤ normalizedAge anchorAge + anniversariesBy anchor today) :
    Scheduled anchorAge anchor today ⟨18, normalizedAge anchorAge, anchor, none⟩ where
  age := (min_eq_left hage).symm
  anchorAge := rfl
  anchorDate := rfl
  none_iff := ⟨fun _ => rfl, fun _ => rfl⟩
  next := by
    intro next h
    cases h

/-- A schedule that still grows: its next date is the first anniversary that is not counted. -/
theorem scheduled_next {next : Date}
    (hgrows : normalizedAge anchorAge + anniversariesBy anchor today < 18)
    (hnext : anniversary anchor (anchor.year + 1 + anniversariesBy anchor today) = some next)
    (htoday : today < next) :
    Scheduled anchorAge anchor today
      ⟨normalizedAge anchorAge + anniversariesBy anchor today, normalizedAge anchorAge, anchor,
        some next⟩ where
  age := (min_eq_right hgrows.le).symm
  anchorAge := rfl
  anchorDate := rfl
  none_iff := ⟨fun h => (by cases h), fun h => absurd h hgrows.ne⟩
  next := by
    intro other h
    cases h
    refine ⟨htoday, ⟨_, by omega, hnext⟩, ?_⟩
    intro year date hafter hdate hlater
    exact le_of_next hafter (Nat.le_refl _) hnext hdate hlater

/-- What `calculate_age_credential_schedule` returns is the schedule of the
date.  It raises only when all anniversaries to the year 9999 have come and the
age can still grow. -/
theorem calculate_spec (anchorAge : ℤ) (anchor today : Date) :
    (∀ schedule, calculateAgeCredentialSchedule anchorAge anchor today = some schedule →
      Scheduled anchorAge anchor today schedule)
    ∧ (calculateAgeCredentialSchedule anchorAge anchor today = none ↔
      anniversariesBy anchor today = 9999 - anchor.year
        ∧ normalizedAge anchorAge + anniversariesBy anchor today < 18) := by
  have hnormalized := normalizedAge_le anchorAge
  have hanchor := anchor.valid.2.1
  obtain ⟨hsome, hnone⟩ := @countFrom_spec anchor today (anchor.year + 1)
    (18 - normalizedAge anchorAge).toNat (by omega)
  rw [← anniversariesBy_eq] at hsome hnone
  obtain hyoung | hfull := lt_or_eq_of_le hnormalized
  · cases hcount : countFrom anchor today (18 - normalizedAge anchorAge).toNat
        (anchor.year + 1) with
    | none =>
      rw [calculate_of_raised hyoung hcount]
      refine ⟨fun schedule h => (by cases h), ⟨fun _ => ?_, fun _ => rfl⟩⟩
      obtain ⟨hall, hlt⟩ := hnone hcount
      omega
    | some elapsed =>
      obtain ⟨helapsed, hfirst⟩ := hsome elapsed hcount
      by_cases hdone : 18 ≤ normalizedAge anchorAge + elapsed
      · rw [calculate_of_done hyoung hcount hdone]
        refine ⟨fun schedule h => ?_, ⟨fun h => (by cases h), fun h => (by omega)⟩⟩
        cases h
        exact scheduled_full (by omega)
      · -- the loop stopped at an anniversary that has not come
        obtain ⟨next, hnext, htoday⟩ := hfirst (by omega)
        have hyear := anniversary_year hnext
        have hlast := next.valid.2.1
        have hall : elapsed = anniversariesBy anchor today := by omega
        rw [calculate_of_next hyoung hcount (by omega) hnext]
        refine ⟨fun schedule h => ?_, ⟨fun h => (by cases h), fun h => (by omega)⟩⟩
        cases h
        rw [hall] at hnext ⊢
        exact scheduled_next (by omega) hnext htoday
  · rw [calculate_of_full hfull]
    refine ⟨fun schedule h => ?_, ⟨fun h => (by cases h), fun h => (by omega)⟩⟩
    cases h
    exact scheduled_full (by omega)

end Schedules

end AgeCredentials
