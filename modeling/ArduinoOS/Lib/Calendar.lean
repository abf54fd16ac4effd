import Mathlib

/-!
# The proleptic Gregorian calendar

Dates of every year, before and after year 0, in their order, and the number of
days from 1 January 1970. The number counts the days one by one and grows with
the date, so an instant belongs to one date and one time of day.
-/

set_option autoImplicit false

namespace ArduinoOS.Calendar

def IsLeap (year : ℤ) : Prop := year % 4 = 0 ∧ (year % 100 ≠ 0 ∨ year % 400 = 0)

instance (year : ℤ) : Decidable (IsLeap year) := inferInstanceAs (Decidable (_ ∧ _))

def monthLength (year : ℤ) (month : ℕ) : ℕ :=
  if month = 2 then (if IsLeap year then 29 else 28)
  else if month = 4 ∨ month = 6 ∨ month = 9 ∨ month = 11 then 30
  else 31

theorem monthLength_pos (year : ℤ) (month : ℕ) : 1 ≤ monthLength year month := by
  unfold monthLength
  split_ifs <;> omega

@[ext] structure Date where
  year : ℤ
  month : ℕ
  day : ℕ
  month_pos : 1 ≤ month
  month_le : month ≤ 12
  day_pos : 1 ≤ day
  day_le : day ≤ monthLength year month

namespace Date

def key (a : Date) : ℤ ×ₗ ℕ ×ₗ ℕ := toLex (a.year, toLex (a.month, a.day))

instance : LinearOrder Date := LinearOrder.lift' key (by
  intro a b h
  have hkey : (a.year, (a.month, a.day)) = (b.year, (b.month, b.day)) := h
  simp only [Prod.mk.injEq] at hkey
  exact Date.ext hkey.1 hkey.2.1 hkey.2.2)

theorem lt_iff (a b : Date) : a < b ↔ a.year < b.year ∨ (a.year = b.year ∧
    (a.month < b.month ∨ (a.month = b.month ∧ a.day < b.day))) := by
  change key a < key b ↔ _
  simp only [key, Prod.Lex.toLex_lt_toLex]

/-- The day after. -/
def next (a : Date) : Date :=
  if hday : a.day < monthLength a.year a.month then
    { a with day := a.day+1, day_pos := by omega, day_le := hday }
  else if hmonth : a.month < 12 then
    { year := a.year, month := a.month+1, day := 1, month_pos := by omega, month_le := hmonth,
      day_pos := Nat.le_refl 1, day_le := monthLength_pos _ _ }
  else
    { year := a.year+1, month := 1, day := 1, month_pos := by omega, month_le := by omega,
      day_pos := Nat.le_refl 1, day_le := monthLength_pos _ _ }

def epoch : Date := ⟨1970, 1, 1, by omega, by omega, by omega, by decide⟩

end Date

/-! ### The number of a day -/

/-- The days from 1 January 1970, by eras of 400 years that begin in March. -/
def daysFromCivil (year : ℤ) (month day : ℕ) : ℤ :=
  let y := if month ≤ 2 then year-1 else year
  let era := y/400
  let yoe := y-era*400
  let mp : ℤ := if 2 < month then month-3 else month+9
  let doy := (153*mp+2)/5+day-1
  let doe := yoe*365+yoe/4-yoe/100+doy
  era*146097+doe-719468

def marchYear (year : ℤ) (month : ℕ) : ℤ := if month ≤ 2 then year-1 else year

def marchMonth (month : ℕ) : ℕ := if 2 < month then month-3 else month+9

/-- The days before a year that begins in March. -/
def yearStart (year : ℤ) : ℤ := 365*year+year/4-year/100+year/400

/-- The days before a month, counted from March. -/
def monthStart (mp : ℕ) : ℕ := (153*mp+2)/5

theorem daysFromCivil_eq (year : ℤ) (month day : ℕ) : daysFromCivil year month day =
    yearStart (marchYear year month)+monthStart (marchMonth month)+day-1-719468 := by
  unfold daysFromCivil yearStart monthStart marchYear marchMonth
  split_ifs <;> simp only <;> omega

theorem yearStart_succ (year : ℤ) :
    yearStart (year+1) = yearStart year+365+(if IsLeap (year+1) then 1 else 0) := by
  unfold yearStart IsLeap
  split_ifs <;> omega

theorem yearStart_mono {y y' : ℤ} (h : y ≤ y') : yearStart y ≤ yearStart y' := by
  unfold yearStart
  omega

theorem monthStart_mono {mp mp' : ℕ} (h : mp ≤ mp') : monthStart mp ≤ monthStart mp' := by
  unfold monthStart
  omega

/-- Every month but February ends where the next one begins. -/
theorem monthStart_next (year : ℤ) {month : ℕ} (hpos : 1 ≤ month) (hle : month ≤ 12)
    (hfeb : month ≠ 2) : marchMonth month < 11 ∧
      monthStart (marchMonth month)+monthLength year month = monthStart (marchMonth month+1) := by
  have hmonths : month = 1 ∨ month = 3 ∨ month = 4 ∨ month = 5 ∨ month = 6 ∨ month = 7 ∨
      month = 8 ∨ month = 9 ∨ month = 10 ∨ month = 11 ∨ month = 12 := by omega
  rcases hmonths with rfl | rfl | rfl | rfl | rfl | rfl | rfl | rfl | rfl | rfl | rfl <;>
    simp [marchMonth, monthStart, monthLength]

/-- February ends with the year that begins in March. -/
theorem february_end (year : ℤ) : yearStart (marchYear year 2)+monthStart (marchMonth 2)+
    monthLength year 2 = yearStart year := by
  have hyear := yearStart_succ (year-1)
  rw [Int.sub_add_cancel] at hyear
  simp only [marchYear, marchMonth, monthStart, monthLength, hyear]
  split_ifs <;> simp <;> omega

namespace Date

variable {a b : Date}

def days (a : Date) : ℤ := daysFromCivil a.year a.month a.day

theorem days_eq (a : Date) : a.days = yearStart (marchYear a.year a.month)+
    monthStart (marchMonth a.month)+a.day-1-719468 := daysFromCivil_eq _ _ _

theorem days_epoch : epoch.days = 0 := by decide

/-- The day lies in its month, counted from March. -/
theorem day_in_month (h : a.month ≠ 2) :
    monthStart (marchMonth a.month)+a.day ≤ monthStart (marchMonth a.month+1) := by
  have hend := (monthStart_next a.year a.month_pos a.month_le h).2
  have hday := a.day_le
  omega

theorem year_le_days (a : Date) : yearStart (marchYear a.year a.month)-719468 ≤ a.days := by
  have hday := a.day_pos
  rw [days_eq]
  omega

theorem days_lt_year (a : Date) : a.days < yearStart (marchYear a.year a.month+1)-719468 := by
  rw [days_eq]
  have hday := a.day_le
  by_cases hfeb : a.month = 2
  · have hend := february_end a.year
    have hyear : marchYear a.year 2+1 = a.year := by simp [marchYear]
    rw [hfeb] at hday ⊢
    rw [hyear]
    omega
  · have hmonth := day_in_month hfeb
    have hlast := monthStart_mono (monthStart_next a.year a.month_pos a.month_le hfeb).1
    have hyear := yearStart_succ (marchYear a.year a.month)
    have hleap : (0 : ℤ) ≤ if IsLeap (marchYear a.year a.month+1) then 1 else 0 := by
      split_ifs <;> simp
    simp only [monthStart] at hmonth hlast ⊢
    omega

theorem days_lt_of_year (h : marchYear a.year a.month < marchYear b.year b.month) :
    a.days < b.days := by
  have hnext := yearStart_mono (Int.add_one_le_of_lt h)
  have ha := days_lt_year a
  have hb := year_le_days b
  omega

theorem days_lt_of_month (hyear : marchYear a.year a.month = marchYear b.year b.month)
    (h : marchMonth a.month < marchMonth b.month) : a.days < b.days := by
  have hfeb : a.month ≠ 2 := by
    intro hfeb
    have hpos := b.month_pos
    have hle := b.month_le
    simp only [hfeb, marchMonth] at h
    split_ifs at h <;> omega
  have hmonth := day_in_month hfeb
  have hnext := monthStart_mono h
  have hday := b.day_pos
  rw [days_eq, days_eq, hyear]
  simp only [Nat.succ_eq_add_one] at hnext
  omega

/-- Later dates have greater numbers. -/
theorem days_strictMono : StrictMono days := by
  intro a b hlt
  have hmonths := And.intro a.month_le b.month_pos
  rcases (lt_iff a b).mp hlt with hyear | ⟨hyear, hmonth | ⟨hmonth, hday⟩⟩
  · by_cases hmarch : marchYear a.year a.month < marchYear b.year b.month
    · exact days_lt_of_year hmarch
    · unfold marchYear at hmarch
      apply days_lt_of_month
      · unfold marchYear
        split_ifs at hmarch ⊢ <;> omega
      · unfold marchMonth
        split_ifs at hmarch ⊢ <;> omega
  · by_cases hmarch : a.month ≤ 2 ∧ 2 < b.month
    · apply days_lt_of_year
      rw [marchYear, marchYear, if_pos hmarch.1, if_neg (Nat.not_le.mpr hmarch.2), hyear]
      omega
    · apply days_lt_of_month
      · unfold marchYear
        split_ifs <;> omega
      · unfold marchMonth
        split_ifs <;> omega
  · rw [days_eq, days_eq, hyear, hmonth]
    omega

/-- The number counts the days one by one. -/
theorem days_next (a : Date) : a.next.days = a.days+1 := by
  unfold next
  have hday := a.day_le
  have hpos := a.month_pos
  have hle := a.month_le
  split_ifs with hin hmonth
  · simp only [days_eq]
    omega
  · have hend : a.day = monthLength a.year a.month := by omega
    simp only [days_eq, hend]
    by_cases hfeb : a.month = 2
    · have hyear := february_end a.year
      rw [hfeb]
      simp only [marchYear, marchMonth, monthStart] at hyear ⊢
      simp only [Nat.reduceAdd, Nat.reduceLeDiff, ↓reduceIte, Nat.reduceLT] at hyear ⊢
      omega
    · have hnext := (monthStart_next a.year hpos hle hfeb).2
      have hyear : marchYear a.year (a.month+1) = marchYear a.year a.month := by
        unfold marchYear
        split_ifs <;> omega
      have hmarch : marchMonth (a.month+1) = marchMonth a.month+1 := by
        unfold marchMonth
        split_ifs <;> omega
      rw [hyear, hmarch]
      omega
  · have hdec : a.month = 12 := by omega
    simp only [days_eq, hdec] at hin ⊢
    have hend : a.day = 31 := by
      have hlength : monthLength a.year 12 = 31 := by simp [monthLength]
      rw [hdec, hlength] at hday
      rw [hlength] at hin
      omega
    rw [hend]
    simp [marchYear, marchMonth, monthStart]
    omega

end Date

/-! ### Instants -/

/-- A date and a time of day. -/
@[ext] structure Moment where
  date : Date
  hour : ℕ
  minute : ℕ
  second : ℕ
  ms : ℕ
  hour_lt : hour < 24
  minute_lt : minute < 60
  second_lt : second < 60
  ms_lt : ms < 1000

namespace Moment

def key (a : Moment) : Date ×ₗ ℕ ×ₗ ℕ ×ₗ ℕ ×ₗ ℕ :=
  toLex (a.date, toLex (a.hour, toLex (a.minute, toLex (a.second, a.ms))))

instance : LinearOrder Moment := LinearOrder.lift' key (by
  intro a b h
  have hkey : (a.date, (a.hour, (a.minute, (a.second, a.ms)))) =
      (b.date, (b.hour, (b.minute, (b.second, b.ms)))) := h
  simp only [Prod.mk.injEq] at hkey
  exact Moment.ext hkey.1 hkey.2.1 hkey.2.2.1 hkey.2.2.2.1 hkey.2.2.2.2)

theorem lt_iff (a b : Moment) : a < b ↔ a.date < b.date ∨ (a.date = b.date ∧
    (a.hour < b.hour ∨ (a.hour = b.hour ∧ (a.minute < b.minute ∨ (a.minute = b.minute ∧
      (a.second < b.second ∨ (a.second = b.second ∧ a.ms < b.ms))))))) := by
  change key a < key b ↔ _
  simp only [key, Prod.Lex.toLex_lt_toLex]

/-- The milliseconds from the beginning of 1 January 1970. -/
def instant (a : Moment) : ℤ :=
  (((a.date.days*24+a.hour)*60+a.minute)*60+a.second)*1000+a.ms

theorem instant_strictMono : StrictMono instant := by
  intro a b hlt
  have ha := And.intro a.hour_lt (And.intro a.minute_lt (And.intro a.second_lt a.ms_lt))
  unfold instant
  rcases (lt_iff a b).mp hlt with hdate | ⟨hdate, htime⟩
  · have hdays := Date.days_strictMono hdate
    omega
  · rw [hdate]
    omega

end Moment

end ArduinoOS.Calendar
