import MailFilter.Text.Line

/-
  This file defines what tells a new message apart: a text
  that no other message has, and the date.

  The unique text has 26 digits to the base 32. The first
  ones are the time, so that later texts sort after earlier
  ones. Letters that are easily taken for others are not
  used.

  The date is that of the place where the filter runs. It
  ends in how far the clocks there are ahead of universal
  time.

  Key definitions include:
    * `Stamp`
    * `Stamp.IsPlain`
    * `Stamp.digits`
    * `Stamp.uniqueAt`
    * `Stamp.Day`
    * `Stamp.zoneText`
    * `Stamp.dateAt`
    * `Stamp.Clock`
    * `Stamp.ofClock`
-/

namespace MailFilter

/- What tells a new message apart: a unique text and a date. -/
structure Stamp where
  unique : String
  date : String
deriving DecidableEq, Repr

namespace Stamp

/- Both texts fit into one line, and the date is trimmed. -/
structure IsPlain
    (stamp : Stamp) : Prop where
  unique : Text.IsOneLine stamp.unique
  date : Text.IsOneLine stamp.date
  trimmed : Text.IsTrimmed stamp.date

theorem isPlain_iff
    {stamp : Stamp} :
    stamp.IsPlain ↔
      Text.IsOneLine stamp.unique ∧
        Text.IsOneLine stamp.date ∧
        Text.IsTrimmed stamp.date :=
  ⟨fun hPlain => ⟨hPlain.unique, hPlain.date, hPlain.trimmed⟩,
    fun hParts => ⟨hParts.1, hParts.2.1, hParts.2.2⟩⟩

instance
    (stamp : Stamp) :
    Decidable stamp.IsPlain :=
  decidable_of_iff _ isPlain_iff.symm

theorem isPlain_empty : IsPlain ⟨"", ""⟩ := by decide

------------------------------------------------------------
-- Unique texts
------------------------------------------------------------

/- The digits to the base 32. -/
def alphabet : List Char :=
  "0123456789ABCDEFGHJKMNPQRSTVWXYZ".toList

/- The last `width` digits of a number, to the base 32. -/
def digits
    (number : Nat) : Nat → List Char
  | 0 => []
  | width + 1 =>
      digits (number / 32) width ++
        [alphabet.getD (number % 32) '0']

/- How many values the random part of a unique text has. -/
def randomRange : Nat :=
  Nat.pow 2 80

/- The unique text for a time in milliseconds. -/
def uniqueAt
    (milliseconds random : Nat) : String :=
  String.ofList
    (digits
      (milliseconds * randomRange + random % randomRange) 26)

theorem mem_alphabet_of_mem_digits
    {number width : Nat}
    {c : Char}
    (hMem : c ∈ digits number width) :
    c ∈ alphabet := by
  induction width generalizing number with
  | zero => cases hMem
  | succ width ih =>
      rw [digits] at hMem
      rcases List.mem_append.mp hMem with hFront | hBack
      · exact ih hFront
      · have hInside : number % 32 < alphabet.length :=
          Nat.mod_lt _ (by decide)
        rw [List.mem_singleton, List.getD_eq_getElem?_getD,
          List.getElem?_eq_getElem hInside] at hBack
        rw [hBack]
        exact List.getElem_mem hInside

theorem isOneLine_uniqueAt
    (milliseconds random : Nat) :
    Text.IsOneLine (uniqueAt milliseconds random) := by
  intro hMem
  rw [uniqueAt, String.toList_ofList] at hMem
  exact absurd (mem_alphabet_of_mem_digits hMem) (by decide)

------------------------------------------------------------
-- Dates
------------------------------------------------------------

/- A day of the calendar. -/
structure Day where
  year : Nat
  /- The number of the month, from 1 on. -/
  month : Nat
  day : Nat
deriving DecidableEq, Repr

/-
  The day that is a number of days after the first of January
  1970.

  Years are counted from March on, so that the leap day comes
  last, and in eras of 400 years, which all have the same
  number of days.
-/
def Day.ofNumber
    (number : Nat) : Day :=
  let shifted := number + 719468
  let era := shifted / 146097
  let ofEra := shifted % 146097
  let yearOfEra :=
    (ofEra - ofEra / 1460 + ofEra / 36524 - ofEra / 146096) / 365
  let ofYear :=
    ofEra - (365 * yearOfEra + yearOfEra / 4 - yearOfEra / 100)
  let fromMarch := (5 * ofYear + 2) / 153
  let month := if fromMarch < 10 then fromMarch + 3 else fromMarch - 9
  { year := yearOfEra + era * 400 + (if month ≤ 2 then 1 else 0)
    month := month
    day := ofYear - (153 * fromMarch + 2) / 5 + 1 }

/- The names of the days of the week. -/
def weekdays : List String :=
  ["Sun", "Mon", "Tue", "Wed", "Thu", "Fri", "Sat"]

/- The names of the months. -/
def months : List String :=
  ["Jan", "Feb", "Mar", "Apr", "May", "Jun",
    "Jul", "Aug", "Sep", "Oct", "Nov", "Dec"]

/- A number below 100 in two digits. -/
def twoDigits
    (number : Nat) : String :=
  if number < 10 then "0" ++ toString number else toString number

theorem isOneLine_twoDigits
    (number : Nat) :
    Text.IsOneLine (twoDigits number) := by
  unfold twoDigits
  split
  · rw [Text.isOneLine_append]
    exact ⟨by decide, Text.isOneLine_toString number⟩
  · exact Text.isOneLine_toString number

theorem isTrimmed_twoDigits
    (number : Nat) :
    Text.IsTrimmed (twoDigits number) := by
  unfold twoDigits
  split
  · exact (Text.isTrimmed_toString 0).append
      (Text.isTrimmed_toString number)
  · exact Text.isTrimmed_toString number

/-
  How far the clocks of a place are ahead of universal time,
  in hours and minutes.
-/
def zoneText
    (offset : Int) : String :=
  let minutes := (offset.natAbs + 30) / 60
  (if offset < 0 then "-" else "+") ++
    twoDigits (minutes / 60) ++ twoDigits (minutes % 60)

theorem isOneLine_zoneText
    (offset : Int) :
    Text.IsOneLine (zoneText offset) := by
  have hSign :
      Text.IsOneLine (if offset < 0 then "-" else "+") := by
    split <;> decide
  simp only [zoneText, Text.isOneLine_append, hSign,
    isOneLine_twoDigits, and_self]

theorem isTrimmed_zoneText
    (offset : Int) :
    Text.IsTrimmed (zoneText offset) := by
  have hSign :
      Text.IsTrimmed (if offset < 0 then "-" else "+") := by
    split <;> decide
  exact (hSign.append (isTrimmed_twoDigits _)).append
    (isTrimmed_twoDigits _)

theorem toList_zoneText_ne_nil
    (offset : Int) :
    (zoneText offset).toList ≠ [] := by
  rw [zoneText, String.toList_append, String.toList_append]
  split <;> simp

/-
  The date of a message for a time in seconds, at a place with
  an offset in seconds.
-/
def dateAt
    (seconds : Nat)
    (offset : Int) : String :=
  let shown := (seconds + offset).toNat
  let days := shown / 86400
  let day := Day.ofNumber days
  -- The first of January 1970 was a Thursday.
  weekdays.getD ((days + 4) % 7) "" ++ ", " ++
    toString day.day ++ " " ++
    months.getD (day.month - 1) "" ++ " " ++
    toString day.year ++ " " ++
    twoDigits (shown / 3600 % 24) ++ ":" ++
    twoDigits (shown / 60 % 60) ++ ":" ++
    twoDigits (shown % 60) ++ " " ++ zoneText offset

theorem isOneLine_dateAt
    (seconds : Nat)
    (offset : Int) :
    Text.IsOneLine (dateAt seconds offset) := by
  have hWeekday := fun place =>
    Text.isOneLine_getD weekdays (by decide) place
  have hMonth := fun place =>
    Text.isOneLine_getD months (by decide) place
  have hComma : Text.IsOneLine ", " := by decide
  have hSpace : Text.IsOneLine " " := by decide
  have hColon : Text.IsOneLine ":" := by decide
  simp only [dateAt, Text.isOneLine_append, hWeekday, hMonth,
    hComma, hSpace, hColon, Text.isOneLine_toString,
    isOneLine_twoDigits, isOneLine_zoneText, and_self]

/- The name of a weekday does not start with a blank. -/
theorem exists_weekday
    (days : Nat) :
    ∃ c rest,
      (weekdays.getD ((days + 4) % 7) "").toList = c :: rest ∧
        Text.isBlank c = false := by
  have hAll :
      ∀ place : Fin 7, ∃ c rest,
        (weekdays.getD place "").toList = c :: rest ∧
          Text.isBlank c = false := by
    intro place
    match place with
    | 0 | 1 | 2 | 3 | 4 | 5 | 6 => exact ⟨_, _, rfl, by decide⟩
  exact hAll ⟨_, Nat.mod_lt (days + 4) (by decide)⟩

/- A zone does not end with one. -/
theorem isTrimmed_dateAt
    (seconds : Nat)
    (offset : Int) :
    Text.IsTrimmed (dateAt seconds offset) := by
  constructor
  · intro c hFirst
    rcases exists_weekday ((seconds + offset).toNat / 86400) with
      ⟨first, rest, hDay, hBlank⟩
    simp only [dateAt, String.toList_append, hDay,
      List.cons_append, List.head?_cons,
      Option.some.injEq] at hFirst
    rw [← hFirst]
    exact hBlank
  · intro c hLast
    rw [dateAt, String.toList_append, List.getLast?_append]
      at hLast
    cases hEnd : (zoneText offset).toList.getLast? with
    | none =>
        exact absurd (List.getLast?_eq_none_iff.mp hEnd)
          (toList_zoneText_ne_nil offset)
    | some d =>
        rw [hEnd] at hLast
        cases hLast
        exact (isTrimmed_zoneText offset).last c hEnd

------------------------------------------------------------
-- Clocks
------------------------------------------------------------

/-
  What is read for a new message: the time in milliseconds
  and a random number for the unique text, and then the time
  in seconds for the date, with the offset of the place.
-/
structure Clock where
  milliseconds : Nat := 0
  random : Nat := 0
  seconds : Nat := 0
  offset : Int := 0
deriving DecidableEq, Repr

/- The stamp that is made of what was read. -/
def ofClock
    (clock : Clock) : Stamp :=
  ⟨uniqueAt clock.milliseconds clock.random,
    dateAt clock.seconds clock.offset⟩

/- Whatever was read, the stamp can be written in a header. -/
theorem isPlain_ofClock
    (clock : Clock) :
    (ofClock clock).IsPlain where
  unique := isOneLine_uniqueAt clock.milliseconds clock.random
  date := isOneLine_dateAt clock.seconds clock.offset
  trimmed := isTrimmed_dateAt clock.seconds clock.offset

end Stamp

end MailFilter
