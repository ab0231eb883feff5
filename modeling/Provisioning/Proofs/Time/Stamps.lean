-- Times as text. A time of the years 0 to 9999 has 32 bytes of one form, and byte by byte
-- the texts sort as the times do, to the microsecond.
import Mathlib.Algebra.Group.Int.Defs
import Provisioning.Proofs.Text.Fields
import Provisioning.Proofs.Time.Calendar

namespace Provisioning.Timestamp

variable {t u : Timestamp}

/-! ## What a text shows -/

/-- Is there such a time, in a year of at most four digits? -/
structure IsWritable (t : Timestamp) : Prop where
  valid : t.isValid = true
  year_nonneg : 0 ≤ t.date.year
  year_le : t.date.year ≤ 9999

/-- The microseconds past the second, a leap second's among them. -/
def micros (t : Timestamp) : Nat := t.nanos / 1000

/-- Is a time before another, to the microsecond? -/
def Before (t u : Timestamp) : Prop :=
  t.seconds < u.seconds ∨ t.seconds = u.seconds ∧ t.micros < u.micros

/-- The second that a time is shown in, and the nanoseconds past that one. What a second holds
too much counts to the next one, unless it is a leap second. -/
def carried (t : Timestamp) : Timestamp :=
  if t.isOverfull then ⟨t.seconds + 1, t.nanos - 1_000_000_000⟩ else t

/-- What a clock shows. -/
structure Clock where
  hour : Nat
  minute : Nat
  second : Nat
  micros : Nat
deriving DecidableEq, Repr

/-- Does a clock show this? The second 60 is a leap second. -/
structure Clock.IsValid (c : Clock) : Prop where
  hour_lt : c.hour < 24
  minute_lt : c.minute < 60
  second_le : c.second ≤ 60
  micros_lt : c.micros < 1_000_000

/-- What the clock shows at a time. -/
def clock (t : Timestamp) : Clock where
  hour := t.secondOfDay / 3600
  minute := t.secondOfDay / 60 % 60
  second := t.secondOfDay % 60 + t.nanos / 1_000_000_000
  micros := t.nanos % 1_000_000_000 / 1000

/-- A date and a clock show a time: its minute, counted from 1970, and in the minute its
second and microsecond. -/
structure Shows (t : Timestamp) (d : Date) (c : Clock) : Prop where
  date : d.IsValid
  clock : c.IsValid
  minutes : t.seconds / 60 = (d.toDay - epochDay) * 1440 + (c.hour * 60 + c.minute : Nat)
  micros : t.seconds % 60 * 1_000_000 + t.micros = (c.second * 1_000_000 + c.micros : Nat)

theorem isValid_iff : t.isValid = true ↔
    t.nanos < 2_000_000_000 ∧ yearInRange t.date.year = true := by
  simp only [isValid, Bool.and_eq_true, decide_eq_true_eq]

theorem isOverfull_iff : t.isOverfull = true ↔ 1_000_000_000 ≤ t.nanos ∧ t.secondOfDay % 60 ≠ 59 := by
  simp only [isOverfull, Bool.and_eq_true, decide_eq_true_eq, bne_iff_ne]

/-- The date and the clock of a time show it. -/
theorem shows (h : t.isValid = true) : t.Shows t.date t.clock where
  date := Date.isValid_ofDay t.day
  clock := by
    have hnanos := (isValid_iff.mp h).1
    constructor <;> simp only [clock, secondOfDay, secondsPerDay] <;> omega
  minutes := by
    simp only [date, Date.toDay_ofDay, day, clock, secondOfDay, secondsPerDay]
    omega
  micros := by
    simp only [micros, clock, secondOfDay, secondsPerDay]
    omega

/-! ### Seconds that hold too much -/

theorem carried_of_overfull (h : t.isOverfull = true) :
    t.carried = ⟨t.seconds + 1, t.nanos - 1_000_000_000⟩ := if_pos h

@[simp]
theorem carried_of_regular (h : t.isOverfull = false) : t.carried = t :=
  if_neg (by simp [h])

/-- The second that follows one that holds too much is in the same minute. -/
theorem date_carried (t : Timestamp) : t.carried.date = t.date := by
  cases hover : t.isOverfull with
  | false => rw [carried_of_regular hover]
  | true =>
    have hlast := (isOverfull_iff.mp hover).2
    have hday : (t.seconds + 1) / secondsPerDay = t.seconds / secondsPerDay := by
      simp only [secondOfDay, secondsPerDay] at hlast ⊢
      omega
    rw [carried_of_overfull hover, date, date, day, day, hday]

/-- Either a time stays as it is, and runs over its second only at the end of a minute, or its
next second is in the same minute and takes what is too much. -/
theorem carried_cases (t : Timestamp) :
    t.carried.seconds = t.seconds ∧ t.carried.nanos = t.nanos ∧
        (t.nanos < 1_000_000_000 ∨ t.seconds % 60 = 59) ∨
      t.carried.seconds = t.seconds + 1 ∧ t.carried.nanos = t.nanos - 1_000_000_000 ∧
        1_000_000_000 ≤ t.nanos ∧ t.seconds % 60 ≠ 59 := by
  have hover := isOverfull_iff (t := t)
  simp only [secondOfDay, secondsPerDay] at hover
  cases h : t.isOverfull with
  | false =>
    rw [carried_of_regular h]
    left
    refine ⟨rfl, rfl, ?_⟩
    have hfits := mt hover.mpr (by simp [h])
    omega
  | true =>
    rw [carried_of_overfull h]
    right
    refine ⟨rfl, rfl, ?_⟩
    have hfull := hover.mp h
    omega

/-- Nothing is left to carry. -/
theorem isOverfull_carried (h : t.isValid = true) : t.carried.isOverfull = false := by
  cases hover : t.isOverfull with
  | false => rwa [carried_of_regular hover]
  | true =>
    have hnanos := (isValid_iff.mp h).1
    rw [carried_of_overfull hover, Bool.eq_false_iff, ne_eq, isOverfull_iff]
    dsimp only
    omega

theorem IsWritable.carried (h : t.IsWritable) : t.carried.IsWritable where
  valid := by
    obtain ⟨hnanos, hyear⟩ := isValid_iff.mp h.valid
    rw [isValid_iff, date_carried]
    refine ⟨?_, hyear⟩
    unfold Timestamp.carried
    split
    · exact Nat.lt_of_le_of_lt (Nat.sub_le _ _) hnanos
    · exact hnanos
  year_nonneg := by
    rw [date_carried]
    exact h.year_nonneg
  year_le := by
    rw [date_carried]
    exact h.year_le

/-! ## The fields -/

/-- The fields of a text, the largest unit first. -/
def fields : List Field :=
  [⟨'Y', 4, ['-']⟩, ⟨'M', 2, ['-']⟩, ⟨'D', 2, ['T']⟩, ⟨'H', 2, [':']⟩, ⟨'M', 2, [':']⟩,
    ⟨'S', 2, ['.']⟩, ⟨'f', 6, "+00:00".toList⟩]

/-- The letters that stand for digits. -/
def letters : List Char := "YMDHSf".toList

/-- The form of a text. -/
def form : List Char := "YYYY-MM-DDTHH:MM:SS.ffffff+00:00".toList

theorem form_fields : Field.form fields = form := by decide

theorem ascii_form : ∀ l ∈ form, l.toNat < 128 := by
  have hall : form.all (fun l => l.toNat < 128) = true := by decide
  simpa using hall

theorem notMem_letters_after : ∀ f ∈ fields, ∀ c ∈ f.after, c ∉ letters := by
  have hall : fields.all (fun f => f.after.all fun c => c ∉ letters) = true := by decide
  simpa using hall

/-- The numbers in the fields. -/
def numbers (d : Date) (c : Clock) : List Nat :=
  [d.year.toNat, d.month, d.day, c.hour, c.minute, c.second, c.micros]

theorem hold_numbers {d : Date} {c : Clock} (hd : d.IsValid) (hc : c.IsValid)
    (hyear : d.year ≤ 9999) : Field.Hold fields (numbers d c) := by
  have hmonth := hd.month_le
  have hday := hd.day_le_longest
  obtain ⟨hhour, hminute, hsecond, hmicros⟩ := hc
  simp only [Field.Hold, fields, numbers, List.forall₂_cons, List.forall₂_nil_left_iff, and_true]
  omega

/-- A text has the date and the clock in its fields. -/
theorem toList_text (h : t.IsWritable) :
    t.text.toList = Field.filled fields (numbers t.date t.clock) := by
  have hyear : yearText t.date.year = padded 4 t.date.year.toNat :=
    if_pos ⟨h.year_nonneg, h.year_le⟩
  simp only [text, hyear, String.toList_ofList, fields, numbers, clock, Field.filled,
    List.zipWith_cons_cons, List.zipWith_nil_left, List.flatten_cons, List.flatten_nil,
    List.append_assoc, List.cons_append, List.nil_append, List.append_nil]

/-! ## The order -/

/-- Is a clock before another, on one day? -/
def Clock.Before (c c' : Clock) : Prop :=
  c.hour < c'.hour ∨ c.hour = c'.hour ∧ (c.minute < c'.minute ∨ c.minute = c'.minute ∧
    (c.second < c'.second ∨ c.second = c'.second ∧ c.micros < c'.micros))

theorem numbers_lt_iff {d d' : Date} {c c' : Clock} (hyear : 0 ≤ d.year) (hyear' : 0 ≤ d'.year) :
    numbers d c < numbers d' c' ↔ d.Before d' ∨ d = d' ∧ c.Before c' := by
  obtain ⟨y, m, n⟩ := d
  obtain ⟨y', m', n'⟩ := d'
  simp only at hyear hyear'
  simp only [numbers, List.cons_lt_cons_iff, List.not_lt_nil, and_false, or_false, Date.Before,
    Date.mk.injEq, Clock.Before]
  omega

/-- The second and the microsecond decide within a minute as the times do, once what is too
much has been carried over. -/
theorem before_iff (ht : t.isValid = true) (hu : u.isValid = true) :
    t.carried.Before u.carried ↔
      t.seconds / 60 < u.seconds / 60 ∨ t.seconds / 60 = u.seconds / 60 ∧
        t.seconds % 60 * 1_000_000 + t.micros < u.seconds % 60 * 1_000_000 + u.micros := by
  have hnanos := (isValid_iff.mp ht).1
  have hnanos' := (isValid_iff.mp hu).1
  have hcarried := t.carried_cases
  have hcarried' := u.carried_cases
  -- Only the last second of a minute still runs over, and in its minute no other comes after it.
  unfold Before micros
  omega

/-- What is shown of two times is in their order. -/
theorem Shows.before_iff {d d' : Date} {c c' : Clock} (hd : t.Shows d c) (hd' : u.Shows d' c')
    (ht : t.isValid = true) (hu : u.isValid = true) :
    d.Before d' ∨ d = d' ∧ c.Before c' ↔ t.carried.Before u.carried := by
  obtain ⟨hdate, ⟨hhour, hminute, hsecond, hmicros⟩, hminutes, htail⟩ := hd
  obtain ⟨hdate', ⟨hhour', hminute', hsecond', hmicros'⟩, hminutes', htail'⟩ := hd'
  rw [Timestamp.before_iff ht hu, hdate.before_iff hdate', hdate.eq_iff hdate', hminutes, hminutes',
    htail, htail']
  unfold Clock.Before
  omega

theorem toList_text_lt_iff (ht : t.IsWritable) (hu : u.IsWritable) :
    t.text.toList < u.text.toList ↔ t.carried.Before u.carried := by
  have hshows := shows ht.valid
  have hshows' := shows hu.valid
  rw [toList_text ht, toList_text hu,
    Field.filled_lt_iff (hold_numbers hshows.date hshows.clock ht.year_le)
      (hold_numbers hshows'.date hshows'.clock hu.year_le),
    numbers_lt_iff ht.year_nonneg hu.year_nonneg, hshows.before_iff hshows' ht.valid hu.valid]

/-! ## The text -/

theorem fits_text (h : t.IsWritable) : Field.Fits letters form t.text.toList := by
  have hshows := shows h.valid
  rw [toList_text h, ← form_fields]
  exact Field.fits_filled (by decide) notMem_letters_after
    (hold_numbers hshows.date hshows.clock h.year_le)

theorem ascii_text (h : t.IsWritable) : ∀ c ∈ t.text.toList, c.toNat < 128 :=
  (fits_text h).ascii ascii_form

theorem text_lt_iff (ht : t.IsWritable) (hu : u.IsWritable) :
    utf8Bytes t.text < utf8Bytes u.text ↔ t.carried.Before u.carried := by
  rw [utf8Bytes_lt_iff (ascii_text ht) (ascii_text hu), toList_text_lt_iff ht hu]

/-- A text stands for one microsecond. -/
theorem text_eq_iff (ht : t.IsWritable) (hu : u.IsWritable) :
    t.text = u.text ↔ t.carried.seconds = u.carried.seconds ∧ t.carried.micros = u.carried.micros := by
  rw [← String.toList_inj, eq_iff_not_lt, toList_text_lt_iff ht hu, toList_text_lt_iff hu ht]
  unfold Before
  omega

/-! ## Cutting off -/

/-- A time without what is below its microsecond. -/
def cut (t : Timestamp) : Timestamp := ⟨t.seconds, t.micros * 1000⟩

/-- Is a time no later than another, to the nanosecond? -/
def AtMost (t u : Timestamp) : Prop :=
  t.seconds < u.seconds ∨ t.seconds = u.seconds ∧ t.nanos ≤ u.nanos

@[simp]
theorem micros_cut (t : Timestamp) : t.cut.micros = t.micros :=
  Nat.mul_div_cancel t.micros (by decide)

theorem nanos_cut_le (t : Timestamp) : t.cut.nanos ≤ t.nanos := Nat.div_mul_le_self t.nanos 1000

theorem atMost_cut_iff : t.cut.AtMost u ↔ ¬ u.Before t := by
  simp only [AtMost, Before, cut, micros]
  omega

theorem isOverfull_cut (h : t.isOverfull = false) : t.cut.isOverfull = false := by
  have hle := t.nanos_cut_le
  rw [Bool.eq_false_iff, ne_eq, isOverfull_iff] at h ⊢
  intro hcut
  exact h ⟨Nat.le_trans hcut.1 hle, hcut.2⟩

theorem IsWritable.cut (h : t.IsWritable) : t.cut.IsWritable where
  valid := by
    obtain ⟨hnanos, hyear⟩ := isValid_iff.mp h.valid
    rw [isValid_iff]
    exact ⟨Nat.lt_of_le_of_lt t.nanos_cut_le hnanos, hyear⟩
  year_nonneg := h.year_nonneg
  year_le := h.year_le

/-! ## The law -/

/-- A time as text: 32 bytes of the form, with a date and a clock that show the time. The
text is that of the time cut off to its microsecond, which is no later than the time and
the first of all that have the text. What a second holds too much is carried over. -/
structure IsWritten (t : Timestamp) : Prop where
  fits : Field.Fits letters form t.text.toList
  bytes : (utf8Bytes t.text).length = 32
  shown : ∃ d c, t.Shows d c ∧ t.text.toList = Field.filled fields (numbers d c)
  carried_text : t.carried.IsWritable ∧ t.carried.text = t.text
  cut_text : t.carried.cut.IsWritable ∧ t.carried.cut.text = t.text
  cut_atMost : t.carried.cut.AtMost t.carried
  cut_first : ∀ s : Timestamp, s.IsWritable → s.text = t.text → t.carried.cut.AtMost s.carried

/-- Two times as texts: their bytes are in the order of the times, to the microsecond, and
the texts are the same just when the times are, to the microsecond. -/
structure SortAsTexts (t u : Timestamp) : Prop where
  first : t.IsWritten
  second : u.IsWritten
  order : utf8Bytes t.text < utf8Bytes u.text ↔ t.carried.Before u.carried
  same : t.text = u.text ↔ t.carried.seconds = u.carried.seconds ∧ t.carried.micros = u.carried.micros

theorem IsWritable.isWritten (h : t.IsWritable) : t.IsWritten := by
  have hregular := isOverfull_carried h.valid
  refine ⟨fits_text h, ?_, ⟨t.date, t.clock, shows h.valid, toList_text h⟩, ⟨h.carried, ?_⟩,
    ⟨h.carried.cut, ?_⟩, ?_, ?_⟩
  · rw [length_utf8Bytes (ascii_text h), ← (fits_text h).length_eq]
    rfl
  · rw [text_eq_iff h.carried h, carried_of_regular hregular]
    exact ⟨rfl, rfl⟩
  · rw [text_eq_iff h.carried.cut h, carried_of_regular (isOverfull_cut hregular)]
    exact ⟨rfl, micros_cut t.carried⟩
  · rw [atMost_cut_iff]
    unfold Before
    omega
  · intro s hs hsame
    rw [atMost_cut_iff, Before]
    have hmicros := (text_eq_iff hs h).mp hsame
    omega

/-- Times of the years 0 to 9999, leap seconds among them, sort as their texts, once what their
seconds hold too much has been carried over. -/
theorem times_sort_as_texts (ht : t.IsWritable) (hu : u.IsWritable) : SortAsTexts t u where
  first := ht.isWritten
  second := hu.isWritten
  order := text_lt_iff ht hu
  same := text_eq_iff ht hu

/-- The end of a leap second comes before the new year that starts with it over, as a time
and as a text. -/
theorem leap_second_sorts_before_new_year :
    (IsWritable ⟨1483228799, 1999999999⟩ ∧ IsWritable ⟨1483228800, 0⟩) ∧
      SortAsTexts ⟨1483228799, 1999999999⟩ ⟨1483228800, 0⟩ ∧
      utf8Bytes (text ⟨1483228799, 1999999999⟩) < utf8Bytes (text ⟨1483228800, 0⟩) := by
  have hleap : IsWritable ⟨1483228799, 1999999999⟩ := ⟨by decide, by decide, by decide⟩
  have hnext : IsWritable ⟨1483228800, 0⟩ := ⟨by decide, by decide, by decide⟩
  have hsort := times_sort_as_texts hleap hnext
  exact ⟨⟨hleap, hnext⟩, hsort, hsort.order.mpr (Or.inl (by decide))⟩

/-- The second 60 of a leap second is its own, and the microseconds are cut off. -/
example : text ⟨1483228799, 1999999999⟩ = "2016-12-31T23:59:60.999999+00:00" := by decide +kernel

/-- A second in the midst of its minute that holds a third too much is shown as a third of the
next one, so an earlier time may have the text of a later one. -/
theorem overfull_second_has_the_text_of_the_next :
    (IsWritable ⟨1433202964, 1333333333⟩ ∧ IsWritable ⟨1433202965, 333333333⟩) ∧
      Before ⟨1433202964, 1333333333⟩ ⟨1433202965, 333333333⟩ ∧
      text ⟨1433202964, 1333333333⟩ = text ⟨1433202965, 333333333⟩ := by
  have hfull : IsWritable ⟨1433202964, 1333333333⟩ := ⟨by decide, by decide, by decide⟩
  have hnext : IsWritable ⟨1433202965, 333333333⟩ := ⟨by decide, by decide, by decide⟩
  refine ⟨⟨hfull, hnext⟩, Or.inl (by decide), ?_⟩
  rw [text_eq_iff hfull hnext]
  decide

end Provisioning.Timestamp
