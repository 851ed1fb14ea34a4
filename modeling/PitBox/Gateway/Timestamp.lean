import PitBox.Foundations.Chars
import PitBox.Foundations.Checked
import PitBox.Foundations.Decimal
import PitBox.Runtime.Artifact

/-!
# The timestamp of a signed request

`x-amz-date` is read by byte offsets. Slicing between characters would panic,
which is the outcome `none`. The civil calendar is that of the `time` crate.
-/

namespace PitBox.Gateway

open PitBox.Runtime Chars Checked

/-! ### The civil calendar -/

def isLeapYear (year : ℕ) : Bool := year % 4 == 0 && (year % 100 != 0 || year % 400 == 0)

def daysInMonth (year month : ℕ) : ℕ :=
  if month = 2 then if isLeapYear year then 29 else 28
  else if month ∈ [4, 6, 9, 11] then 30
  else 31

def validMonth (month : ℕ) : Bool := 1 ≤ month && month ≤ 12

def validDay (year month day : ℕ) : Bool := 1 ≤ day && day ≤ daysInMonth year month

def validClock (hour minute second : ℕ) : Bool := hour < 24 && minute < 60 && second < 60

/-- A point in time, to the second. -/
structure CivilTime where
  year : ℕ
  month : ℕ
  day : ℕ
  hour : ℕ
  minute : ℕ
  second : ℕ
  deriving DecidableEq, Repr

namespace CivilTime

/-- A date of a year of four digits and a time of day. -/
structure Valid (t : CivilTime) : Prop where
  year : t.year < 10000
  month : validMonth t.month
  day : validDay t.year t.month t.day
  clock : validClock t.hour t.minute t.second

def daysBeforeMonth (year month : ℕ) : ℕ :=
  ((List.range (month - 1)).map fun k => daysInMonth year (k + 1)).sum

def daysBeforeYear (year : ℕ) : ℕ :=
  365 * year + (year + 3) / 4 - (year + 99) / 100 + (year + 399) / 400

def unixTimestamp (t : CivilTime) : ℤ :=
  let days := daysBeforeYear t.year + daysBeforeMonth t.year t.month + (t.day - 1)
  ((days : ℤ) - 719528) * 86400 + t.hour * 3600 + t.minute * 60 + t.second

def amzText (t : CivilTime) : Text :=
  Decimal.pad 4 t.year ++ (Decimal.pad 2 t.month ++ (Decimal.pad 2 t.day ++ 'T' ::
    (Decimal.pad 2 t.hour ++ (Decimal.pad 2 t.minute ++ (Decimal.pad 2 t.second ++ ['Z'])))))

end CivilTime

example : CivilTime.unixTimestamp ⟨2026, 9, 8, 12, 0, 0⟩ = 1788868800 := by decide

/-! ### Parsing -/

/-- A slice of a `str`. -/
def slice (s : Text) (start stop : ℕ) : Checked String Text := orPanic (slice? s start stop)

def shapeError : String := "x-amz-date must use YYYYMMDDTHHMMSSZ"

/-- The number that a text of digits spells. -/
def parseDigits (s : Text) : Option ℕ :=
  if s ≠ [] ∧ s.all Char.isDigit then some (Decimal.value s) else none

/-- `parse` of a `u8`. -/
def parseU8 (s : Text) : Option ℕ := (parseDigits s).filter (· < 256)

def number (value : Text) (start stop : ℕ) : Checked String ℕ := do
  require (parseU8 (← slice value start stop)) "x-amz-date contains an invalid number"

def parseAmzTimestamp (value : Text) : Checked String ℤ := do
  let bytes := utf8 value
  ensure (bytes.length = 16 ∧ bytes[8]? = some 0x54 ∧ bytes[15]? = some 0x5a) shapeError
  ensure ((← slice value 0 8).all Char.isDigit) shapeError
  ensure ((← slice value 9 15).all Char.isDigit) shapeError
  let year ← require (parseDigits (← slice value 0 4)) "x-amz-date contains an invalid year"
  let month ← number value 4 6
  ensure (validMonth month) "x-amz-date contains an invalid month"
  let day ← number value 6 8
  ensure (validDay year month day) "x-amz-date contains an invalid day"
  let hour ← number value 9 11
  let minute ← number value 11 13
  let second ← number value 13 15
  ensure (validClock hour minute second) "x-amz-date contains an invalid time"
  return CivilTime.unixTimestamp ⟨year, month, day, hour, minute, second⟩

/-! ### What is accepted -/

section Accepted

variable {value : Text} {t : CivilTime} {start stop n : ℕ} {timestamp : ℤ}

theorem yields_slice {text : Text} :
    (slice value start stop).Yields text ↔ slice? value start stop = some text :=
  yields_orPanic

theorem parseDigits_eq_some {s : Text} :
    parseDigits s = some n ↔ s ≠ [] ∧ (∀ c ∈ s, c.isDigit) ∧ Decimal.value s = n := by
  simp [parseDigits, and_assoc]

theorem parseDigits_pad {k width : ℕ} (hwidth : width ≠ 0) (hk : k < 10 ^ width) :
    parseDigits (Decimal.pad width k) = some k := by
  rw [parseDigits_eq_some]
  refine ⟨?_, fun _ => Decimal.isDigit_of_mem_pad, Decimal.value_pad hk⟩
  intro hnil
  have hlength := Decimal.length_pad (n := width) (k := k)
  simp [hnil] at hlength
  exact hwidth hlength.symm

theorem lt_of_isDigit {c : Char} (h : c.isDigit) : c.toNat < 128 := by
  have hbounds : 48 ≤ c.toNat ∧ c.toNat ≤ 57 := by
    simpa [Char.isDigit, UInt32.le_iff_toNat_le] using h
  omega

theorem CivilTime.length_amzText (t : CivilTime) : t.amzText.length = 16 := by
  simp [amzText, Decimal.length_pad]

theorem CivilTime.mem_amzText {c : Char} (h : c ∈ t.amzText) : c.isDigit ∨ c = 'T' ∨ c = 'Z' := by
  simp only [amzText, List.mem_append, List.mem_cons, List.not_mem_nil, or_false] at h
  rcases h with h | h | h | h | h | h | h | h
  · exact .inl (Decimal.isDigit_of_mem_pad h)
  · exact .inl (Decimal.isDigit_of_mem_pad h)
  · exact .inl (Decimal.isDigit_of_mem_pad h)
  · exact .inr (.inl h)
  · exact .inl (Decimal.isDigit_of_mem_pad h)
  · exact .inl (Decimal.isDigit_of_mem_pad h)
  · exact .inl (Decimal.isDigit_of_mem_pad h)
  · exact .inr (.inr h)

theorem CivilTime.amzText_ascii (t : CivilTime) : ∀ c ∈ t.amzText, c.toNat < 128 := by
  intro c hc
  rcases mem_amzText hc with h | rfl | rfl
  · exact lt_of_isDigit h
  · decide
  · decide

theorem length_utf8_pad (n k : ℕ) : (utf8 (Decimal.pad n k)).length = n := by
  rw [length_utf8_ascii fun _ hc => lt_of_isDigit (Decimal.isDigit_of_mem_pad hc),
    Decimal.length_pad]

theorem slice_pad {a b : Text} {k : ℕ} (hvalue : value = a ++ (Decimal.pad n k ++ b))
    (hstart : (utf8 a).length = start) (hstop : start + n = stop) :
    slice? value start stop = some (Decimal.pad n k) := by
  rw [hvalue, ← List.append_assoc]
  exact slice_append hstart (by rw [length_utf8_pad, hstop])

theorem slice_after {before rest text : Text} (hvalue : value = before ++ rest)
    (hstart : (utf8 before).length = start) (h : slice? value start stop = some text) :
    ∃ after, rest = text ++ after ∧ start + (utf8 text).length = stop := by
  obtain ⟨first, after, heq, hfirst, hstop⟩ := slice_spec h
  rw [hvalue, List.append_assoc] at heq
  obtain ⟨rfl, hrest⟩ := append_inj_utf8 heq (hstart.trans hfirst.symm)
  exact ⟨after, hrest, by rw [← hstop, hstart]⟩

theorem parseDigits_after {a rest text : Text} (hvalue : value = a ++ rest)
    (hstart : (utf8 a).length = start) (h : slice? value start (start + n) = some text)
    {k : ℕ} (hk : parseDigits text = some k) :
    ∃ after, rest = Decimal.pad n k ++ after ∧ k < 10 ^ n := by
  obtain ⟨after, rfl, hstop⟩ := slice_after hvalue hstart h
  obtain ⟨-, hdigits, rfl⟩ := parseDigits_eq_some.mp hk
  have hlength : text.length = n := by
    rw [length_utf8_ascii fun c hc => lt_of_isDigit (hdigits c hc)] at hstop
    omega
  subst hlength
  exact ⟨after, by rw [Decimal.pad_value hdigits], Decimal.value_lt hdigits⟩

theorem parseU8_eq_some {text : Text} {k : ℕ} :
    parseU8 text = some k ↔ parseDigits text = some k ∧ k < 256 := by
  simp only [parseU8, Option.filter_eq_some_iff, decide_eq_true_eq]

theorem char_after {before rest : Text} (hvalue : value = before ++ rest)
    (hstart : (utf8 before).length = start) {b : UInt8} (h : (utf8 value)[start]? = some b)
    (hb : b.toNat < 128) {c : Char} (hc : Char.ofNat b.toNat = c) :
    ∃ after, rest = c :: after := by
  subst hc
  rw [hvalue, utf8_append, ← hstart, List.getElem?_append_right le_rfl, Nat.sub_self,
    ← List.head?_eq_getElem?] at h
  obtain ⟨tail, htail⟩ := List.head?_eq_some_iff.mp h
  exact eq_cons_of_utf8 htail hb

theorem utf8_cons_T (s : Text) : utf8 ('T' :: s) = 0x54 :: utf8 s := rfl

theorem utf8_cons_Z (s : Text) : utf8 ('Z' :: s) = 0x5a :: utf8 s := rfl

theorem byte_at {a b : Text} {c : Char} (hvalue : value = a ++ c :: b)
    (hstart : (utf8 a).length = start) (hc : c.toNat < 128) :
    (utf8 value)[start]? = some (UInt8.ofNat c.toNat) := by
  rw [hvalue, utf8_append, ← hstart, List.getElem?_append_right le_rfl, Nat.sub_self, utf8_cons,
    utf8EncodeChar_ascii hc]
  rfl

theorem daysInMonth_le (year month : ℕ) : daysInMonth year month ≤ 31 := by
  unfold daysInMonth
  split_ifs <;> decide

theorem CivilTime.Valid.lt (h : t.Valid) :
    t.month < 100 ∧ t.day < 100 ∧ t.hour < 100 ∧ t.minute < 100 ∧ t.second < 100 := by
  have hmonth := h.month
  have hday := h.day
  have hclock := h.clock
  have hdays := daysInMonth_le t.year t.month
  simp only [validMonth, validDay, validClock, Bool.and_eq_true, decide_eq_true_eq] at *
  omega

/-- The fields of a time where they stand in its text. -/
theorem CivilTime.slices_amzText (t : CivilTime) :
    slice? t.amzText 0 4 = some (Decimal.pad 4 t.year) ∧
      slice? t.amzText 4 6 = some (Decimal.pad 2 t.month) ∧
      slice? t.amzText 6 8 = some (Decimal.pad 2 t.day) ∧
      (utf8 t.amzText)[8]? = some 0x54 ∧
      slice? t.amzText 9 11 = some (Decimal.pad 2 t.hour) ∧
      slice? t.amzText 11 13 = some (Decimal.pad 2 t.minute) ∧
      slice? t.amzText 13 15 = some (Decimal.pad 2 t.second) ∧
      (utf8 t.amzText)[15]? = some 0x5a := by
  have h : t.amzText = [] ++ t.amzText := rfl
  conv at h => rhs; rw [amzText]
  have hyear : slice? t.amzText 0 4 = _ := slice_pad h rfl rfl
  rw [List.nil_append] at h
  have hmonth : slice? t.amzText 4 6 = _ := slice_pad h (length_utf8_pad 4 t.year) rfl
  rw [← List.append_assoc] at h
  have hday : slice? t.amzText 6 8 = _ :=
    slice_pad h (by simp [utf8_append, length_utf8_pad]) rfl
  rw [← List.append_assoc] at h
  have hT : (utf8 t.amzText)[8]? = _ :=
    byte_at h (by simp [utf8_append, length_utf8_pad]) (by decide)
  rw [List.append_cons] at h
  have hhour : slice? t.amzText 9 11 = _ :=
    slice_pad h (by simp [utf8_append, length_utf8_pad, utf8_cons_T]) rfl
  rw [← List.append_assoc] at h
  have hminute : slice? t.amzText 11 13 = _ :=
    slice_pad h (by simp [utf8_append, length_utf8_pad, utf8_cons_T]) rfl
  rw [← List.append_assoc] at h
  have hsecond : slice? t.amzText 13 15 = _ :=
    slice_pad h (by simp [utf8_append, length_utf8_pad, utf8_cons_T]) rfl
  rw [← List.append_assoc] at h
  have hZ : (utf8 t.amzText)[15]? = _ :=
    byte_at h (by simp [utf8_append, length_utf8_pad, utf8_cons_T]) (by decide)
  exact ⟨hyear, hmonth, hday, hT, hhour, hminute, hsecond, hZ⟩

/-- The date and the time of day are digits. -/
theorem CivilTime.halves_amzText (t : CivilTime) :
    (∃ date, slice? t.amzText 0 8 = some date ∧ date.all Char.isDigit) ∧
      ∃ clock, slice? t.amzText 9 15 = some clock ∧ clock.all Char.isDigit := by
  have hdigits {n k : ℕ} : (Decimal.pad n k).all Char.isDigit :=
    List.all_eq_true.mpr fun _ => Decimal.isDigit_of_mem_pad
  have hdate : slice? t.amzText 0 8 =
      some (Decimal.pad 4 t.year ++ (Decimal.pad 2 t.month ++ Decimal.pad 2 t.day)) := by
    have htext : t.amzText = [] ++ (Decimal.pad 4 t.year ++ (Decimal.pad 2 t.month ++
        Decimal.pad 2 t.day)) ++ 'T' :: (Decimal.pad 2 t.hour ++ (Decimal.pad 2 t.minute ++
          (Decimal.pad 2 t.second ++ ['Z']))) := by
      simp [amzText]
    rw [htext]
    exact slice_append rfl (by simp [utf8_append, length_utf8_pad])
  have hclock : slice? t.amzText 9 15 =
      some (Decimal.pad 2 t.hour ++ (Decimal.pad 2 t.minute ++ Decimal.pad 2 t.second)) := by
    have htext : t.amzText = (Decimal.pad 4 t.year ++ (Decimal.pad 2 t.month ++
        (Decimal.pad 2 t.day ++ ['T']))) ++ (Decimal.pad 2 t.hour ++ (Decimal.pad 2 t.minute ++
          Decimal.pad 2 t.second)) ++ ['Z'] := by
      simp [amzText]
    rw [htext]
    exact slice_append (by simp [utf8_append, length_utf8_pad, utf8_cons_T])
      (by simp [utf8_append, length_utf8_pad])
  exact ⟨⟨_, hdate, by simp [hdigits]⟩, _, hclock, by simp [hdigits]⟩

/-- Accepted are the texts of valid times, with their timestamps. -/
theorem yields_parseAmzTimestamp : (parseAmzTimestamp value).Yields timestamp ↔
    ∃ t : CivilTime, t.Valid ∧ value = t.amzText ∧ timestamp = t.unixTimestamp := by
  unfold parseAmzTimestamp
  simp only [number, yields_bind, yields_ensure, yields_slice, yields_require, yields_pure,
    exists_const, decide_eq_true_eq, parseU8_eq_some]
  constructor
  · rintro ⟨⟨hlength, hT, hZ⟩, -, -, -, -, -, -, y, hy, year, hyear, month,
      ⟨mo, hmo, hmonth, -⟩, hvalidMonth, day, ⟨d, hd, hday, -⟩, hvalidDay, hour,
      ⟨h, hh, hhour, -⟩, minute, ⟨mi, hmi, hminute, -⟩, second, ⟨s, hs, hsecond, -⟩, hclock, rfl⟩
    obtain ⟨r, h₁, hyearLt⟩ := parseDigits_after (a := []) (n := 4) rfl rfl hy hyear
    obtain ⟨r, rfl, hmonthLt⟩ := parseDigits_after (n := 2) h₁ (length_utf8_pad 4 year) hmo hmonth
    rw [← List.append_assoc] at h₁
    obtain ⟨r, rfl, hdayLt⟩ := parseDigits_after (n := 2) h₁
      (by simp [utf8_append, length_utf8_pad]) hd hday
    rw [← List.append_assoc] at h₁
    obtain ⟨r, rfl⟩ := char_after (c := 'T') h₁ (by simp [utf8_append, length_utf8_pad]) hT
      (by decide) rfl
    rw [List.append_cons] at h₁
    obtain ⟨r, rfl, hhourLt⟩ := parseDigits_after (n := 2) h₁
      (by simp [utf8_append, length_utf8_pad, utf8_cons_T]) hh hhour
    rw [← List.append_assoc] at h₁
    obtain ⟨r, rfl, hminuteLt⟩ := parseDigits_after (n := 2) h₁
      (by simp [utf8_append, length_utf8_pad, utf8_cons_T]) hmi hminute
    rw [← List.append_assoc] at h₁
    obtain ⟨r, rfl, hsecondLt⟩ := parseDigits_after (n := 2) h₁
      (by simp [utf8_append, length_utf8_pad, utf8_cons_T]) hs hsecond
    rw [← List.append_assoc] at h₁
    obtain ⟨r, rfl⟩ := char_after (c := 'Z') h₁
      (by simp [utf8_append, length_utf8_pad, utf8_cons_T]) hZ (by decide) rfl
    obtain rfl : r = [] := by
      rw [h₁] at hlength
      simp [utf8_append, length_utf8_pad, utf8_cons_T, utf8_cons_Z] at hlength
      exact utf8_eq_nil.mp (List.length_eq_zero_iff.mp (by omega))
    refine ⟨⟨year, month, day, hour, minute, second⟩, ⟨hyearLt, hvalidMonth, hvalidDay, hclock⟩,
      ?_, rfl⟩
    simpa [CivilTime.amzText] using h₁
  · rintro ⟨t, ht, rfl, rfl⟩
    obtain ⟨hmonth, hday, hhour, hminute, hsecond⟩ := ht.lt
    obtain ⟨hyear, hmonthText, hdayText, hT, hhourText, hminuteText, hsecondText, hZ⟩ :=
      t.slices_amzText
    obtain ⟨⟨date, hdate, hdateDigits⟩, time, htime, htimeDigits⟩ := t.halves_amzText
    have hlength : (utf8 t.amzText).length = 16 := by
      rw [length_utf8_ascii t.amzText_ascii, t.length_amzText]
    have hnumber {k : ℕ} (hk : k < 100) : parseDigits (Decimal.pad 2 k) = some k ∧ k < 256 :=
      ⟨parseDigits_pad (by decide) hk, by omega⟩
    exact ⟨⟨hlength, hT, hZ⟩, date, hdate, hdateDigits, time, htime, htimeDigits, _, hyear, t.year,
      parseDigits_pad (by decide) ht.year, t.month, ⟨_, hmonthText, hnumber hmonth⟩, ht.month,
      t.day, ⟨_, hdayText, hnumber hday⟩, ht.day, t.hour, ⟨_, hhourText, hnumber hhour⟩, t.minute,
      ⟨_, hminuteText, hnumber hminute⟩, t.second, ⟨_, hsecondText, hnumber hsecond⟩, ht.clock,
      rfl⟩

/-! ### No panics -/

theorem not_panics_slice {text : Text} (h : slice? value start stop = some text) :
    ¬ (slice value start stop).Panics :=
  (yields_slice.mpr h).not_panics

/-- The slices of ASCII text are where its characters are. -/
theorem slice_ascii {a d b : Text} {i j : ℕ} (hd : ∀ c ∈ d, c.toNat < 128)
    (hstart : (utf8 a).length = start) (hij : i ≤ j) (hj : j ≤ d.length) :
    ∃ text, slice? (a ++ d ++ b) (start + i) (start + j) = some text := by
  have hparts : a ++ d ++ b = a ++ d.take i ++ (d.take j).drop i ++ (d.drop j ++ b) := by
    have htake : d.take i ++ (d.take j).drop i = d.take j := by
      have hsplit := List.take_append_drop i (d.take j)
      rwa [List.take_take, min_eq_left hij] at hsplit
    simp only [List.append_assoc]
    rw [← List.append_assoc (d.take i), htake, ← List.append_assoc (d.take j),
      List.take_append_drop]
  have hbefore : (utf8 (d.take i)).length = i := by
    rw [length_utf8_ascii fun c hc => hd c (List.mem_of_mem_take hc), List.length_take]
    omega
  have htext : (utf8 ((d.take j).drop i)).length = j - i := by
    rw [length_utf8_ascii fun c hc => hd c (List.mem_of_mem_take (List.mem_of_mem_drop hc)),
      List.length_drop, List.length_take]
    omega
  rw [hparts]
  exact ⟨_, slice_append (by rw [utf8_append, List.length_append, hstart, hbefore])
    (by rw [htext]; omega)⟩

/-- The parts of a text of the right shape. -/
theorem exists_halves (hlength : (utf8 value).length = 16) (hT : (utf8 value)[8]? = some 0x54)
    (hZ : (utf8 value)[15]? = some 0x5a) :
    ∃ date clock, value = date ++ 'T' :: (clock ++ ['Z']) ∧ (utf8 date).length = 8 ∧
      (utf8 clock).length = 6 := by
  obtain ⟨date, rest, rfl, hdate⟩ := exists_split_of_ascii hT (by decide)
  change (utf8 (date ++ 'T' :: rest)).length = 16 at hlength
  change (utf8 (date ++ 'T' :: rest))[15]? = some 0x5a at hZ
  rw [utf8_append, utf8_cons_T] at hlength hZ
  rw [List.getElem?_append_right (by omega), hdate] at hZ
  obtain ⟨clock, after, rfl, hclock⟩ := exists_split_of_ascii (n := 6) hZ (by decide)
  change (utf8 date ++ 0x54 :: utf8 (clock ++ 'Z' :: after)).length = 16 at hlength
  have hafter : after = [] := by
    simp only [utf8_append, utf8_cons_Z, List.length_append, List.length_cons] at hlength
    exact utf8_eq_nil.mp (List.length_eq_zero_iff.mp (by omega))
  subst hafter
  exact ⟨date, clock, rfl, hdate, hclock⟩

theorem not_panics_number {text : Text} (h : slice? value start stop = some text) :
    ¬ (number value start stop).Panics :=
  not_panics_bind (not_panics_slice h) fun _ _ => not_panics_require

/-- Every slice that is taken is between characters. -/
theorem not_panics_parseAmzTimestamp : ¬ (parseAmzTimestamp value).Panics := by
  unfold parseAmzTimestamp
  apply not_panics_bind not_panics_ensure
  intro _ hshape
  rw [yields_ensure, decide_eq_true_eq] at hshape
  obtain ⟨date, clock, rfl, hdate, hclock⟩ := exists_halves hshape.1 hshape.2.1 hshape.2.2
  set value := date ++ 'T' :: (clock ++ ['Z']) with hvalue
  have hfirst : value = [] ++ date ++ 'T' :: (clock ++ ['Z']) := rfl
  have hsecond : value = date ++ ['T'] ++ clock ++ ['Z'] := by simp [hvalue]
  have hstart : (utf8 (date ++ ['T'])).length = 9 := by
    simp [utf8_append, utf8_cons_T, hdate]
  have hdateSlice : slice? value 0 8 = some date := by
    rw [hfirst]
    exact slice_append rfl (by rw [hdate])
  have hclockSlice : slice? value 9 15 = some clock := by
    rw [hsecond]
    exact slice_append hstart (by rw [hclock])
  apply not_panics_bind (not_panics_slice hdateSlice)
  intro text htext
  obtain rfl : date = text := Option.some.inj (hdateSlice.symm.trans (yields_slice.mp htext))
  apply not_panics_bind not_panics_ensure
  intro _ hdateDigits
  rw [yields_ensure, List.all_eq_true] at hdateDigits
  apply not_panics_bind (not_panics_slice hclockSlice)
  intro text htext
  obtain rfl : clock = text := Option.some.inj (hclockSlice.symm.trans (yields_slice.mp htext))
  apply not_panics_bind not_panics_ensure
  intro _ hclockDigits
  rw [yields_ensure, List.all_eq_true] at hclockDigits
  have hdateAscii (c : Char) (hc : c ∈ date) : c.toNat < 128 := lt_of_isDigit (hdateDigits c hc)
  have hclockAscii (c : Char) (hc : c ∈ clock) : c.toNat < 128 := lt_of_isDigit (hclockDigits c hc)
  rw [length_utf8_ascii hdateAscii] at hdate
  rw [length_utf8_ascii hclockAscii] at hclock
  have hdatePart {i j : ℕ} (hij : i ≤ j) (hj : j ≤ 8) : ∃ text, slice? value i j = some text := by
    have hpart : ∃ text, slice? ([] ++ date ++ 'T' :: (clock ++ ['Z'])) (0 + i) (0 + j) =
        some text := slice_ascii hdateAscii rfl hij (by rwa [hdate])
    rwa [Nat.zero_add, Nat.zero_add] at hpart
  have hclockPart {i j : ℕ} (hij : i ≤ j) (hj : j ≤ 6) :
      ∃ text, slice? value (9 + i) (9 + j) = some text := by
    rw [hsecond]
    exact slice_ascii hclockAscii hstart hij (by rwa [hclock])
  obtain ⟨year, hyear⟩ := hdatePart (i := 0) (j := 4) (by decide) (by decide)
  obtain ⟨month, hmonth⟩ := hdatePart (i := 4) (j := 6) (by decide) (by decide)
  obtain ⟨day, hday⟩ := hdatePart (i := 6) (j := 8) (by decide) (by decide)
  obtain ⟨hour, hhour⟩ := hclockPart (i := 0) (j := 2) (by decide) (by decide)
  obtain ⟨minute, hminute⟩ := hclockPart (i := 2) (j := 4) (by decide) (by decide)
  obtain ⟨second, hsecond⟩ := hclockPart (i := 4) (j := 6) (by decide) (by decide)
  apply not_panics_bind (not_panics_slice hyear)
  intro _ _
  apply not_panics_bind not_panics_require
  intro _ _
  apply not_panics_bind (not_panics_number hmonth)
  intro _ _
  apply not_panics_bind not_panics_ensure
  intro _ _
  apply not_panics_bind (not_panics_number hday)
  intro _ _
  apply not_panics_bind not_panics_ensure
  intro _ _
  apply not_panics_bind (not_panics_number hhour)
  intro _ _
  apply not_panics_bind (not_panics_number hminute)
  intro _ _
  apply not_panics_bind (not_panics_number hsecond)
  intro _ _
  apply not_panics_bind not_panics_ensure
  intro _ _
  exact not_panics_pure

end Accepted

end PitBox.Gateway
