import LineAssist.Text.Digit

/-!
# Dates and times

Dates of the proleptic Gregorian calendar in the years 1 to 9999, times of a day down to the
microsecond, and offsets of less than a day. A value is made only from parts that exist.
-/

namespace LineAssist.Calendar

structure Date where
  year : Nat
  month : Nat
  day : Nat
  deriving DecidableEq, Repr

structure Time where
  hour : Nat
  minute : Nat
  second : Nat
  microsecond : Nat
  deriving DecidableEq, Repr

/-- An offset from universal time in minutes. -/
abbrev Offset := Int

inductive Moment where
  | date (d : Date)
  | time (t : Time)
  | local_ (d : Date) (t : Time)
  | offset (d : Date) (t : Time) (o : Offset)
  deriving DecidableEq, Repr

def isLeap (year : Nat) : Bool :=
  year % 4 == 0 && (year % 100 != 0 || year % 400 == 0)

def daysIn (year month : Nat) : Nat :=
  match month with
  | 2 => if isLeap year then 29 else 28
  | 4 => 30
  | 6 => 30
  | 9 => 30
  | 11 => 30
  | _ => 31

def Date.exists_ (d : Date) : Bool :=
  1 ≤ d.year && d.year ≤ 9999 && 1 ≤ d.month && d.month ≤ 12 && 1 ≤ d.day &&
    d.day ≤ daysIn d.year d.month

def Time.exists_ (t : Time) : Bool :=
  t.hour < 24 && t.minute < 60 && t.second < 60 && t.microsecond < 1000000

def offsetExists (o : Offset) : Bool :=
  -1440 < o && o < 1440

/-- A number with zeros in front up to a width. -/
def padded (width n : Nat) : Text :=
  let digits := Text.ofNat n
  List.replicate (width - digits.length) '0' ++ digits

def Date.text (d : Date) : Text :=
  padded 4 d.year ++ '-' :: padded 2 d.month ++ '-' :: padded 2 d.day

def Time.text (t : Time) : Text :=
  padded 2 t.hour ++ ':' :: padded 2 t.minute ++ ':' :: padded 2 t.second ++
    (if t.microsecond = 0 then [] else '.' :: padded 6 t.microsecond)

def offsetText (o : Offset) : Text :=
  (if o < 0 then '-' else '+') :: padded 2 (o.natAbs / 60) ++ ':' :: padded 2 (o.natAbs % 60)

/-- The text of a moment with a character between date and time. -/
def Moment.text (separator : Char) : Moment → Text
  | .date d => d.text
  | .time t => t.text
  | .local_ d t => d.text ++ separator :: t.text
  | .offset d t o => d.text ++ separator :: t.text ++ offsetText o

/-- The days of a year in front of a month. -/
def daysBefore (year : Nat) : Nat → Nat
  | 0 => 0
  | 1 => 0
  | month + 1 => daysBefore year month + daysIn year month

/-- The days from the start of the calendar to the end of a date. -/
def Date.dayNumber (d : Date) : Nat :=
  let years := d.year - 1
  365 * years + years / 4 - years / 100 + years / 400 + daysBefore d.year d.month + d.day

/-- The microseconds from the start of the calendar, in universal time. -/
def instant (d : Date) (t : Time) (o : Offset) : Int :=
  let minutes : Int := (((d.dayNumber * 24 + t.hour) * 60 + t.minute : Nat) : Int) - o
  (minutes * 60 + (t.second : Int)) * 1000000 + (t.microsecond : Int)

/-- Two moments are the same: those with offsets are compared in universal time. -/
def Moment.same : Moment → Moment → Bool
  | .offset d t o, .offset e u p => instant d t o == instant e u p
  | a, b => a == b

end LineAssist.Calendar
