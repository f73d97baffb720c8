import FileRoutes.Proofs.Clock.Calendar
import FileRoutes.Proofs.Text.Decimal

/-! # Written times

A time is written in **fields of fixed width** (`Instant.write`), each with a mark behind it. Such
fields are read back (`Instant.read?_write`), and are in the order of their numbers
(`Instant.write_lt_write`). The fields of a second in universal time are its date and its time of
day (`Instant.timeFields`). Later seconds have greater fields (`Instant.timeFields_lt`), and the
fields name the second (`Instant.secondOf?_timeFields`). What the clocks of all zones show at a
moment is written as one text, which is read as the second of the moment, and later moments have no
lesser texts (`ZonedTime.text_of_shows`). -/

namespace FileRoutes

namespace Instant

open Text

/-! ## Fields of fixed width -/

/-- Writes numbers in fields: each with as many digits as the field is wide, and the mark of the
field behind them. -/
def write : (layout : List (Nat × Char)) → List Nat → List Char
  | (width, mark) :: layout, value :: values =>
    decimalDigits width value ++ mark :: write layout values
  | _, _ => []

/-- Reads the numbers in fields; `none` when a field has other characters than digits, another mark
or another width, and when something stands behind the last field. -/
def read? : (layout : List (Nat × Char)) → List Char → Option (List Nat)
  | [], text => if text.isEmpty then some [] else none
  | (width, mark) :: layout, text =>
    if (text.take width).all Char.isDigit ∧ text[width]? = some mark then
      (read? layout (text.drop (width + 1))).map (Nat.ofDigitChars 10 (text.take width) 0 :: ·)
    else none

/-- Numbers **fit** into fields when they have no more digits than these are wide. -/
def Fit (layout : List (Nat × Char)) (values : List Nat) : Prop :=
  List.Forall₂ (fun field value => value < 10 ^ field.1) layout values

section Fields

variable {layout : List (Nat × Char)} {values others : List Nat}

/-- **Numbers that fit are read back** from their fields. -/
theorem read?_write (fit : Fit layout values) :
    read? layout (write layout values) = some values := by
  induction fit with
  | nil => rfl
  | @cons field value layout values fits _ ih =>
    obtain ⟨width, mark⟩ := field
    have front : (decimalDigits width value ++ mark :: write layout values).take width =
        decimalDigits width value := by
      rw [List.take_append_of_le_length (by simp), List.take_of_length_le (by simp)]
    have behind : (decimalDigits width value ++ mark :: write layout values).drop (width + 1) =
        write layout values := by
      rw [List.drop_append, length_decimalDigits, Nat.add_sub_cancel_left, List.drop_succ_cons,
        List.drop_zero, List.drop_of_length_le (by simp), List.nil_append]
    rw [write, read?, front, behind, ih, ofDigitChars_decimalDigits fits,
      if_pos ⟨all_isDigit_decimalDigits width value, by simp⟩, Option.map_some]

/-- **Fields are in the order of their numbers.** -/
theorem write_lt_write (fit : Fit layout values) (fit' : Fit layout others)
    (less : values < others) : write layout values < write layout others := by
  induction fit generalizing others with
  | nil =>
    cases fit'
    exact absurd less (List.lt_irrefl [])
  | @cons field value layout values _ _ ih =>
    obtain ⟨width, mark⟩ := field
    cases fit' with
    | @cons _ other _ others fits' fit' =>
      rw [write, write]
      rcases List.cons_lt_cons_iff.1 less with here | ⟨rfl, behind⟩
      · exact decimalDigits_lt_decimalDigits here fits' _ _
      · exact List.append_left_lt (List.cons_lt_cons_iff.2 (.inr ⟨rfl, ih fit' behind⟩))

end Fields

/-! ## The fields of a time -/

/-- The fields of a written time: year, month, day, hour, minute and second. -/
def layout : List (Nat × Char) :=
  [(4, '-'), (2, '-'), (2, 'T'), (2, ':'), (2, ':'), (2, 'Z')]

/-- Year, month, day, hour, minute and second of a second in universal time, counted from the start
of 1970. -/
def timeFields (seconds : Int) : List Nat :=
  let date := Date.ofDayNumber (seconds / secondsOfDay)
  let time := (seconds % secondsOfDay).toNat
  [date.year.toNat, date.month, date.day, time / 3600, time / 60 % 60, time % 60]

/-- The second, counted from the start of 1970, of a date and a time of day in universal time;
`none` when there is no such date or time. -/
def secondOf? : List Nat → Option Int
  | [year, month, day, hour, minute, second] =>
    let date : Date := ⟨year, month, day⟩
    if date.IsValid ∧ hour < 24 ∧ minute < 60 ∧ second < 60 then
      some (date.dayNumber * secondsOfDay + (hour * 3600 + minute * 60 + second : Nat))
    else none
  | _ => none

/-- The second that a text names as date and time in universal time. -/
def second? (text : String) : Option Int :=
  (read? layout text.toList).bind secondOf?

section Seconds

variable {seconds later : Int}

/-- The seconds of a day are counted from 0 on. -/
theorem timeOfDay_bounds (seconds : Int) :
    0 ≤ seconds % secondsOfDay ∧ (seconds % secondsOfDay).toNat < 86400 := by
  simp only [secondsOfDay]
  omega

/-- A number of at most two digits is written with two. -/
theorem toList_twoDigits {value : Nat} (fit : value < 100) :
    (twoDigits value).toList = decimalDigits 2 value := by
  unfold twoDigits
  split
  next small =>
    rw [String.toList_append, Nat.toString_eq_repr, Nat.toList_repr,
      Nat.toDigits_of_lt_base small]
    simp [decimalDigits, Nat.div_eq_of_lt small, Nat.mod_eq_of_lt small]
  next large =>
    rw [Nat.toString_eq_repr, Nat.toList_repr]
    exact toDigits_eq_decimalDigits (Nat.not_lt.1 large) fit

/-- A year of four digits is written with them. -/
theorem toList_toString {year : Int} (low : 1000 ≤ year) (high : year ≤ 9999) :
    (toString year).toList = decimalDigits 4 year.toNat := by
  obtain ⟨value, rfl⟩ := Int.eq_ofNat_of_zero_le (show 0 ≤ year by omega)
  rw [Int.toNat_natCast, ← toDigits_eq_decimalDigits (by omega) (by omega), ← Nat.toList_repr]
  rfl

/-- The parts of a date and of a time of day have at most two digits, but for the year. -/
theorem fit_timeFields (high : (Date.ofDayNumber (seconds / secondsOfDay)).year ≤ 9999) :
    Fit layout (timeFields seconds) := by
  obtain ⟨⟨-, lastMonth⟩, -, lastDay⟩ := Date.isValid_ofDayNumber (seconds / secondsOfDay)
  have longest := Date.daysIn_le (Date.ofDayNumber (seconds / secondsOfDay)).year
    (Date.ofDayNumber (seconds / secondsOfDay)).month
  have bound := (timeOfDay_bounds seconds).2
  simp only [Fit, layout, timeFields, List.forall₂_cons, List.Forall₂.nil, and_true]
  omega

/-- **A time is written in its fields.** -/
theorem toList_text {instant : Instant}
    (low : 1000 ≤ (Date.ofDayNumber (instant / 1000 / secondsOfDay)).year)
    (high : (Date.ofDayNumber (instant / 1000 / secondsOfDay)).year ≤ 9999) :
    (text instant).toList = write layout (timeFields (instant / 1000)) := by
  have fit := fit_timeFields high
  simp only [Fit, layout, timeFields, List.forall₂_cons, List.Forall₂.nil, and_true] at fit
  obtain ⟨-, month, day, hour, minute, second⟩ := fit
  simp only [text, String.toList_append, toList_toString low high, toList_twoDigits month,
    toList_twoDigits day, toList_twoDigits hour, toList_twoDigits minute, toList_twoDigits second]
  simp [timeFields, layout, write]

/-- **The fields of a second name it.** -/
theorem secondOf?_timeFields (low : 0 ≤ (Date.ofDayNumber (seconds / secondsOfDay)).year) :
    secondOf? (timeFields seconds) = some seconds := by
  obtain ⟨nonneg, bound⟩ := timeOfDay_bounds seconds
  have whole := Int.ediv_mul_add_emod seconds secondsOfDay
  have valid := Date.isValid_ofDayNumber (seconds / secondsOfDay)
  have number := Date.dayNumber_ofDayNumber (seconds / secondsOfDay)
  simp only [timeFields]
  generalize Date.ofDayNumber (seconds / secondsOfDay) = date at *
  obtain ⟨year, month, day⟩ := date
  rw [secondOf?, Int.toNat_of_nonneg low, if_pos ⟨valid, by omega⟩, number]
  congr 1
  omega

/-- **Later seconds have greater fields.** -/
theorem timeFields_lt (low : 0 ≤ (Date.ofDayNumber (seconds / secondsOfDay)).year)
    (order : seconds < later) : timeFields seconds < timeFields later := by
  simp only [timeFields, List.cons_lt_cons_iff]
  rcases Int.lt_or_eq_of_le (Int.ediv_le_ediv (show 0 < secondsOfDay by decide) order.le)
    with earlier | same
  · rcases Date.precedes_ofDayNumber earlier with years | ⟨sameYear, months | ⟨sameMonth, days⟩⟩
    · exact .inl (by omega)
    · exact .inr ⟨by rw [sameYear], .inl months⟩
    · exact .inr ⟨by rw [sameYear], .inr ⟨sameMonth, .inl days⟩⟩
  · -- On one day the later second has the later time of day.
    have time : (seconds % secondsOfDay).toNat < (later % secondsOfDay).toNat := by
      simp only [secondsOfDay] at same ⊢
      omega
    rw [same]
    omega

end Seconds

end Instant

/-! ## The text of a moment -/

namespace ZonedTime

/-- A clock **shows** a moment with an offset from universal time when its date exists, its time of
day is one of a day, and its day and time are as many microseconds after the start of 1970 as the
moment and the offset together. -/
structure Shows (time : ZonedTime) (moment offset : Int) : Prop where
  /-- The clock is ahead by the offset. -/
  ahead : time.offset = offset
  /-- The date exists. -/
  date : time.date.IsValid
  /-- The time of day is one of a day. -/
  ofDay : time.sinceMidnight < microsecondsOfDay
  /-- Day and time are those of the moment, moved by the offset. -/
  shown : time.date.dayNumber * microsecondsOfDay + time.sinceMidnight = moment + offset

/-- The year of a moment in universal time has **four digits**. -/
def HasFourDigitYear (moment : Int) : Prop :=
  ∃ time : ZonedTime, time.Shows moment 0 ∧ 1000 ≤ time.date.year ∧ time.date.year ≤ 9999

section Shows

variable {time : ZonedTime} {moment later offset : Int}

/-- **What a clock shows** at a moment is determined by its offset. -/
theorem shows_iff : time.Shows moment offset ↔ time = ofMoment moment offset := by
  have nonneg := Int.emod_nonneg (moment + offset) (show microsecondsOfDay ≠ 0 by decide)
  have below := Int.emod_lt_of_pos (moment + offset) (show 0 < microsecondsOfDay by decide)
  have whole := Int.ediv_mul_add_emod (moment + offset) microsecondsOfDay
  constructor
  · rintro ⟨rfl, valid, ofDay, shown⟩
    have day : (moment + time.offset) / microsecondsOfDay = time.date.dayNumber := by
      simp only [microsecondsOfDay, Instant.secondsOfDay] at *
      omega
    have rest : (moment + time.offset) % microsecondsOfDay = time.sinceMidnight := by
      simp only [microsecondsOfDay, Instant.secondsOfDay] at *
      omega
    rw [ofMoment, day, rest, Date.ofDayNumber_dayNumber valid, Int.toNat_natCast]
  · rintro rfl
    refine ⟨rfl, Date.isValid_ofDayNumber _, ?_, ?_⟩
    · rw [ofMoment, Int.toNat_of_nonneg nonneg]
      exact below
    · rw [ofMoment, Int.toNat_of_nonneg nonneg, Date.dayNumber_ofDayNumber]
      exact whole

/-- What a clock shows at a moment is a time of that moment. -/
theorem Shows.moment_eq (isShown : time.Shows moment offset) : time.moment = moment := by
  obtain ⟨rfl, -, -, shown⟩ := isShown
  rw [ZonedTime.moment, shown, Int.add_sub_cancel]

/-- The year of a moment is the one that its second is in. -/
theorem HasFourDigitYear.year_bounds (fourDigits : HasFourDigitYear moment) :
    1000 ≤ (Date.ofDayNumber (moment / 1000 / 1000 / Instant.secondsOfDay)).year ∧
      (Date.ofDayNumber (moment / 1000 / 1000 / Instant.secondsOfDay)).year ≤ 9999 := by
  obtain ⟨time, isShown, bounds⟩ := fourDigits
  have day : moment / 1000 / 1000 / Instant.secondsOfDay = (moment + 0) / microsecondsOfDay := by
    simp only [microsecondsOfDay, Instant.secondsOfDay]
    omega
  rw [shows_iff.1 isShown] at bounds
  rwa [day]

/-- **What the clocks of all zones show at a moment is written as one text**, which is read as the
second of the moment; no later moment has a lesser text. -/
theorem text_of_shows (fourDigits : HasFourDigitYear moment) :
    Date.IsDayCount Date.dayNumber ∧ (∀ offset, ∃! time : ZonedTime, time.Shows moment offset) ∧
    (∀ (offset : Int) (time : ZonedTime), time.Shows moment offset →
      time.text = Instant.text (moment / 1000)) ∧
    Instant.second? (Instant.text (moment / 1000)) = some (moment / 1000000) ∧
    ∀ later, HasFourDigitYear later → moment ≤ later →
      ∀ (offset : Int) (time : ZonedTime), time.Shows later offset →
        Instant.text (moment / 1000) ≤ time.text := by
  obtain ⟨low, high⟩ := fourDigits.year_bounds
  refine ⟨Date.isDayCount_dayNumber,
    fun offset => ⟨ofMoment moment offset, shows_iff.2 rfl, fun _ => shows_iff.1⟩, ?_, ?_, ?_⟩
  · intro offset time isShown
    rw [ZonedTime.text, isShown.moment_eq]
  · have second : moment / 1000 / 1000 = moment / 1000000 := by omega
    rw [Instant.second?, Instant.toList_text low high,
      Instant.read?_write (Instant.fit_timeFields high), Option.bind_some,
      Instant.secondOf?_timeFields (by omega), second]
  · intro later fourDigits' order offset time isShown
    obtain ⟨low', high'⟩ := fourDigits'.year_bounds
    rw [ZonedTime.text, isShown.moment_eq, String.le_iff_toList_le, Instant.toList_text low high,
      Instant.toList_text low' high']
    rcases Int.lt_or_eq_of_le (show moment / 1000 / 1000 ≤ later / 1000 / 1000 by omega)
      with before | same
    · exact (Instant.write_lt_write (Instant.fit_timeFields high) (Instant.fit_timeFields high')
        (Instant.timeFields_lt (by omega) before)).le
    · rw [same]

end Shows

/-- The last microsecond in front of a leap day, which clocks fourteen hours ahead show on that day,
and the first microsecond of the leap day. -/
theorem text_of_shows_leapDay :
    ∃ before behind : ZonedTime, before.Shows 951782399999999 50400000000 ∧
      behind.Shows 951782400000000 0 ∧ before.date = behind.date ∧
      Instant.second? before.text = some 951782399 ∧ before.text ≤ behind.text := by
  have fourDigits : HasFourDigitYear 951782399999999 :=
    ⟨ofMoment 951782399999999 0, shows_iff.2 rfl, by decide⟩
  have fourDigits' : HasFourDigitYear 951782400000000 :=
    ⟨ofMoment 951782400000000 0, shows_iff.2 rfl, by decide⟩
  obtain ⟨-, shown, written, second, ordered⟩ := text_of_shows fourDigits
  obtain ⟨before, isBefore, -⟩ := shown 50400000000
  have isBehind : (ofMoment 951782400000000 0).Shows 951782400000000 0 := shows_iff.2 rfl
  refine ⟨before, _, isBefore, isBehind, ?_, ?_, ?_⟩
  · rw [shows_iff.1 isBefore]
    decide
  · rw [written _ _ isBefore]
    exact second
  · rw [written _ _ isBefore]
    exact ordered _ fourDigits' (by decide) _ _ isBehind

end ZonedTime

end FileRoutes
