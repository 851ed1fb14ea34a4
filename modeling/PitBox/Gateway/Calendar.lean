import PitBox.Gateway.Timestamp

/-!
# The order of timestamps

Timestamps count the seconds from the beginning of 1970: the next second of a
valid time has the next timestamp. Times are ordered by their fields, from the
year to the second, and so are the texts that are accepted and the timestamps.
-/

namespace PitBox.Gateway

open PitBox.Runtime Chars Checked

/-! ### Lengths of years and months -/

def daysInYear (year : ℕ) : ℕ := if isLeapYear year then 366 else 365

theorem roundUp_succ {k : ℕ} (hk : 0 < k) (year : ℕ) :
    (year + 1 + (k - 1)) / k = (year + (k - 1)) / k + if year % k = 0 then 1 else 0 := by
  have hnext : year + 1 + (k - 1) = year + (k - 1) + 1 := by omega
  have hdvd : k ∣ year + (k - 1) + 1 ↔ year % k = 0 := by
    rw [← hnext, add_assoc, Nat.add_sub_cancel' hk, Nat.dvd_add_left dvd_rfl,
      Nat.dvd_iff_mod_eq_zero]
  rw [hnext, Nat.succ_div]
  simp only [hdvd]

namespace CivilTime

theorem daysBeforeYear_succ (year : ℕ) :
    daysBeforeYear (year + 1) = daysBeforeYear year + daysInYear year := by
  have h4 := roundUp_succ (k := 4) (by decide) year
  have h100 := roundUp_succ (k := 100) (by decide) year
  have h400 := roundUp_succ (k := 400) (by decide) year
  have hle : (year + 99) / 100 ≤ (year + 3) / 4 := by omega
  have hdvd : (year % 400 = 0 → year % 100 = 0) ∧ (year % 100 = 0 → year % 4 = 0) := by omega
  simp only [Nat.reduceSub] at h4 h100 h400
  simp only [daysBeforeYear, daysInYear, isLeapYear, Bool.and_eq_true, Bool.or_eq_true,
    beq_iff_eq, bne_iff_ne, h4, h100, h400]
  generalize (year + 3) / 4 = fours at *
  generalize (year + 99) / 100 = hundreds at *
  clear h4 h100 h400
  split_ifs <;> omega

theorem daysBeforeMonth_succ (year : ℕ) {month : ℕ} (h : 1 ≤ month) :
    daysBeforeMonth year (month + 1) = daysBeforeMonth year month + daysInMonth year month := by
  obtain ⟨k, rfl⟩ := Nat.exists_eq_add_of_le' h
  simp [daysBeforeMonth, List.range_succ]

theorem daysBeforeMonth_end (year : ℕ) : daysBeforeMonth year 13 = daysInYear year := by
  simp only [daysBeforeMonth, daysInMonth, daysInYear]
  cases isLeapYear year <;> decide

theorem daysBeforeYear_mono : Monotone daysBeforeYear :=
  monotone_nat_of_le_succ fun year => by rw [daysBeforeYear_succ]; omega

theorem daysBeforeMonth_mono (year : ℕ) : Monotone (daysBeforeMonth year) := by
  apply monotone_nat_of_le_succ
  intro month
  rcases Nat.eq_zero_or_pos month with rfl | h
  · simp [daysBeforeMonth]
  · rw [daysBeforeMonth_succ year h]
    omega

/-! ### The next second -/

/-- A second later. -/
def next (t : CivilTime) : CivilTime :=
  if t.second < 59 then { t with second := t.second + 1 }
  else if t.minute < 59 then { t with minute := t.minute + 1, second := 0 }
  else if t.hour < 23 then { t with hour := t.hour + 1, minute := 0, second := 0 }
  else if t.day < daysInMonth t.year t.month then
    ⟨t.year, t.month, t.day + 1, 0, 0, 0⟩
  else if t.month < 12 then ⟨t.year, t.month + 1, 1, 0, 0, 0⟩
  else ⟨t.year + 1, 1, 1, 0, 0, 0⟩

def days (t : CivilTime) : ℕ :=
  daysBeforeYear t.year + daysBeforeMonth t.year t.month + (t.day - 1)

def secondOfDay (t : CivilTime) : ℕ := t.hour * 3600 + t.minute * 60 + t.second

theorem unixTimestamp_eq (t : CivilTime) :
    t.unixTimestamp = ((t.days * 86400 + t.secondOfDay : ℕ) : ℤ) - 719528 * 86400 := by
  simp only [unixTimestamp, days, secondOfDay]
  push_cast
  ring

theorem Valid.month_bounds {t : CivilTime} (h : t.Valid) : 1 ≤ t.month ∧ t.month ≤ 12 := by
  simpa [validMonth] using h.month

theorem Valid.day_bounds {t : CivilTime} (h : t.Valid) :
    1 ≤ t.day ∧ t.day ≤ daysInMonth t.year t.month := by
  simpa [validDay] using h.day

theorem Valid.clock_bounds {t : CivilTime} (h : t.Valid) :
    t.hour < 24 ∧ t.minute < 60 ∧ t.second < 60 := by
  simpa [validClock, and_assoc] using h.clock

theorem days_next_month {t : CivilTime} (h : t.Valid) (hday : daysInMonth t.year t.month ≤ t.day) :
    days ⟨t.year, t.month + 1, 1, 0, 0, 0⟩ = t.days + 1 := by
  obtain ⟨hmonth, -⟩ := h.month_bounds
  obtain ⟨hfirst, hlast⟩ := h.day_bounds
  simp only [days, daysBeforeMonth_succ t.year hmonth]
  omega

theorem days_next_year {t : CivilTime} (h : t.Valid) (hday : daysInMonth t.year t.month ≤ t.day)
    (hmonth : 12 ≤ t.month) : days ⟨t.year + 1, 1, 1, 0, 0, 0⟩ = t.days + 1 := by
  have hend := days_next_month h hday
  have hyear : daysBeforeMonth t.year (t.month + 1) = daysInYear t.year := by
    rw [le_antisymm h.month_bounds.2 hmonth]
    exact daysBeforeMonth_end _
  have hjanuary : daysBeforeMonth (t.year + 1) 1 = 0 := rfl
  rw [days, hyear] at hend
  rw [days, daysBeforeYear_succ, hjanuary]
  exact hend

/-- Timestamps count seconds. -/
theorem unixTimestamp_next {t : CivilTime} (h : t.Valid) :
    t.next.unixTimestamp = t.unixTimestamp + 1 := by
  obtain ⟨hhour, hminute, hsecond⟩ := h.clock_bounds
  have hday := h.day_bounds
  suffices hsucc : t.next.days * 86400 + t.next.secondOfDay =
      t.days * 86400 + t.secondOfDay + 1 by
    rw [unixTimestamp_eq, unixTimestamp_eq, hsucc]
    push_cast
    ring
  unfold next
  split_ifs with hs hm hh hd hmonth
  · simp only [days, secondOfDay]
    omega
  · simp only [days, secondOfDay]
    omega
  · simp only [days, secondOfDay]
    omega
  · simp only [days, secondOfDay]
    omega
  · rw [days_next_month h (Nat.le_of_not_lt hd)]
    simp only [secondOfDay]
    omega
  · rw [days_next_year h (Nat.le_of_not_lt hd) (Nat.le_of_not_lt hmonth)]
    simp only [secondOfDay]
    omega

/-! ### The order of times -/

def fields (t : CivilTime) : List ℕ := [t.year, t.month, t.day, t.hour, t.minute, t.second]

theorem start_add_lt {start : ℕ → ℕ} (hmono : Monotone start) {i j a b : ℕ}
    (ha : start i + a < start (i + 1)) (hij : i < j) : start i + a < start j + b := by
  have hle : start (i + 1) ≤ start j := hmono hij
  omega

theorem dayOfYear_lt {t : CivilTime} (h : t.Valid) :
    daysBeforeMonth t.year t.month + (t.day - 1) < daysBeforeMonth t.year (t.month + 1) := by
  obtain ⟨hfirst, hlast⟩ := h.day_bounds
  rw [daysBeforeMonth_succ t.year h.month_bounds.1]
  omega

theorem days_lt {t : CivilTime} (h : t.Valid) :
    daysBeforeYear t.year + (daysBeforeMonth t.year t.month + (t.day - 1)) <
      daysBeforeYear (t.year + 1) := by
  have hday := dayOfYear_lt h
  have hmonth : daysBeforeMonth t.year (t.month + 1) ≤ daysInYear t.year := by
    rw [← daysBeforeMonth_end]
    exact daysBeforeMonth_mono t.year (Nat.succ_le_succ h.month_bounds.2)
  rw [daysBeforeYear_succ]
  omega

/-- Later fields, a later timestamp. -/
theorem unixTimestamp_lt {t u : CivilTime} (ht : t.Valid) (hu : u.Valid)
    (h : t.fields < u.fields) : t.unixTimestamp < u.unixTimestamp := by
  have hclock := ht.clock_bounds
  have hclock' := hu.clock_bounds
  have hdays : t.days < u.days ∨ t.days = u.days ∧ t.secondOfDay < u.secondOfDay := by
    simp only [fields, List.cons_lt_cons_iff, List.lt_irrefl, and_false, or_false] at h
    simp only [days, add_assoc, secondOfDay]
    rcases h with hyear | ⟨hyear, hmonth | ⟨hmonth, hday | ⟨hday, hrest⟩⟩⟩
    · exact .inl (start_add_lt daysBeforeYear_mono (days_lt ht) hyear)
    · have hbefore := start_add_lt (b := u.day - 1) (daysBeforeMonth_mono t.year)
        (dayOfYear_lt ht) hmonth
      rw [hyear] at hbefore ⊢
      omega
    · have hfirst := ht.day_bounds.1
      rw [hyear, hmonth]
      omega
    · rw [hyear, hmonth, hday]
      omega
  have hseconds : t.secondOfDay < 86400 ∧ u.secondOfDay < 86400 := by
    simp only [secondOfDay]
    omega
  rw [unixTimestamp_eq, unixTimestamp_eq]
  omega

theorem fields_injective : Function.Injective fields := by
  rintro ⟨⟩ ⟨⟩ h
  simpa [fields] using h

theorem unixTimestamp_lt_iff {t u : CivilTime} (ht : t.Valid) (hu : u.Valid) :
    t.unixTimestamp < u.unixTimestamp ↔ t.fields < u.fields := by
  constructor
  · intro h
    rcases lt_trichotomy t.fields u.fields with hlt | heq | hgt
    · exact hlt
    · rw [fields_injective heq] at h
      exact absurd h (lt_irrefl _)
    · exact absurd (unixTimestamp_lt hu ht hgt) (lt_asymm h)
  · exact unixTimestamp_lt ht hu

theorem amzText_lt_iff {t u : CivilTime} (ht : t.Valid) (hu : u.Valid) :
    t.amzText < u.amzText ↔ t.fields < u.fields := by
  obtain ⟨hmonth, hday, hhour, hminute, hsecond⟩ := ht.lt
  obtain ⟨hmonth', hday', hhour', hminute', hsecond'⟩ := hu.lt
  have hyear : t.year < 10 ^ 4 := ht.year
  have hyear' : u.year < 10 ^ 4 := hu.year
  simp only [amzText, fields]
  rw [Decimal.pad_append_lt hyear hyear', Decimal.pad_append_lt hmonth hmonth',
    Decimal.pad_append_lt hday hday', List.cons_lt_cons_iff, Decimal.pad_append_lt hhour hhour',
    Decimal.pad_append_lt hminute hminute', Decimal.pad_append_lt hsecond hsecond']
  simp only [List.cons_lt_cons_iff, lt_irrefl, and_false, or_false, false_or, true_and]

end CivilTime

/-- A timestamp is read without a panic, from the texts of valid times and from
no others. It counts the seconds from the beginning of 1970, and the order of
timestamps is that of their texts. -/
theorem parseAmzTimestamp_spec :
    (∀ value, ¬ (parseAmzTimestamp value).Panics) ∧
    (∀ value timestamp, (parseAmzTimestamp value).Yields timestamp ↔
      ∃ t : CivilTime, t.Valid ∧ value = t.amzText ∧ timestamp = t.unixTimestamp) ∧
    (CivilTime.unixTimestamp ⟨1970, 1, 1, 0, 0, 0⟩ = 0 ∧
      ∀ t : CivilTime, t.Valid → t.next.unixTimestamp = t.unixTimestamp + 1) ∧
    ∀ a b m n, (parseAmzTimestamp a).Yields m → (parseAmzTimestamp b).Yields n →
      (a < b ↔ m < n) := by
  refine ⟨fun _ => not_panics_parseAmzTimestamp, fun _ _ => yields_parseAmzTimestamp,
    ⟨by decide, fun _ => CivilTime.unixTimestamp_next⟩, ?_⟩
  intro a b m n ha hb
  obtain ⟨t, ht, rfl, rfl⟩ := yields_parseAmzTimestamp.mp ha
  obtain ⟨u, hu, rfl, rfl⟩ := yields_parseAmzTimestamp.mp hb
  rw [CivilTime.amzText_lt_iff ht hu, CivilTime.unixTimestamp_lt_iff ht hu]

end PitBox.Gateway
