import ArduinoOS.Lib.Calendar

/-!
# The date of a time

A time is a number of milliseconds from the beginning of 1970. Its date comes
from a chain of truncating divisions in 32 bit unsigned arithmetic: eras of 400
years, years and months that begin in March, and the step back to January.
-/

set_option autoImplicit false

namespace ArduinoOS.Kernel
open ArduinoOS.Calendar

abbrev KTime := UInt64

structure KDate where
  year : UInt32
  month : UInt8
  day : UInt8
  hour : UInt8
  minute : UInt8
  second : UInt8
  ms : UInt16
  deriving DecidableEq

/-- The fields in the order in which dates are compared. -/
def KDate.key (date : KDate) : UInt32 ×ₗ UInt8 ×ₗ UInt8 ×ₗ UInt8 ×ₗ UInt8 ×ₗ UInt8 ×ₗ UInt16 :=
  toLex (date.year, toLex (date.month, toLex (date.day, toLex (date.hour,
    toLex (date.minute, toLex (date.second, date.ms))))))

/-- The fields are a date of the calendar and a time of day. -/
structure KDate.Shows (date : KDate) (m : Moment) : Prop where
  year : m.date.year = date.year.toNat
  month : m.date.month = date.month.toNat
  day : m.date.day = date.day.toNat
  hour : m.hour = date.hour.toNat
  minute : m.minute = date.minute.toNat
  second : m.second = date.second.toNat
  ms : m.ms = date.ms.toNat

def ktimeTimeMsToDate (input : KTime) : KDate :=
  let z : UInt32 := (input/1000/86400).toUInt32+719468
  let era := z/146097
  let doe := z-era*146097
  let yoe := (doe-doe/1460+doe/36524-doe/146096)/365
  let y := yoe+era*400
  let doy := doe-(365*yoe+yoe/4-yoe/100)
  let mp := (5*doy+2)/153
  let d := doy-(153*mp+2)/5+1
  let m := mp+(if mp < 10 then 3 else -9)
  { year := y+(if m ≤ 2 then 1 else 0)
    month := m.toUInt8
    day := d.toUInt8
    hour := (input/1000/60/60%24).toUInt8
    minute := (input/1000/60%60).toUInt8
    second := (input/1000%60).toUInt8
    ms := (input%1000).toUInt16 }

/-! ### The divisions -/

section Divisions

variable {doe c q k j : ℕ}

/-- The day of an era: centuries, then periods of four years, then years. -/
structure EraDay (doe c q k j : ℕ) : Prop where
  sum : doe = 36524*c+1461*q+365*k+j
  century : c ≤ 3
  period : q ≤ 24
  year : k ≤ 3
  day : j < 365 ∨ (j = 365 ∧ k = 3 ∧ (q < 24 ∨ c = 3))

theorem eraDay_exists (h : doe < 146097) : ∃ c q k j, EraDay doe c q k j := by
  have hcentury := min_def (doe/36524) 3
  have hyear := min_def ((doe-36524*(min (doe/36524) 3))%1461/365) 3
  refine ⟨min (doe/36524) 3, (doe-36524*(min (doe/36524) 3))/1461,
    min ((doe-36524*(min (doe/36524) 3))%1461/365) 3,
    (doe-36524*(min (doe/36524) 3))%1461-
      365*(min ((doe-36524*(min (doe/36524) 3))%1461/365) 3), ?_, ?_, ?_, ?_, ?_⟩
  all_goals split_ifs at hcentury hyear <;> omega

/-- The year of the era as the source finds it. -/
theorem yoe_eq (h : EraDay doe c q k j) :
    (doe-doe/1460+doe/36524-doe/146096)/365 = 100*c+4*q+k := by
  have hsum := h.sum
  have hcentury := h.century
  have hperiod := h.period
  have hyear := h.year
  have hday := h.day
  have hleaps : ∃ e, doe/1460 = 25*c+q+e ∧ e ≤ 1 ∧ (e = 1 ↔ 1460 ≤ 24*c+q+365*k+j) := by
    refine ⟨if 1460 ≤ 24*c+q+365*k+j then 1 else 0, ?_, ?_, by simp⟩ <;> split_ifs <;> omega
  have hlast : doe/146096 = if doe = 146096 then 1 else 0 := by
    split_ifs <;> omega
  have hcenturies : doe/36524 = c+(if doe = 146096 then 1 else 0) := by
    have hcenturies : c = 0 ∨ c = 1 ∨ c = 2 ∨ c = 3 := by omega
    rcases hcenturies with rfl | rfl | rfl | rfl <;> split_ifs <;> omega
  obtain ⟨e, he, hle, hone⟩ := hleaps
  have hnumerator : doe-doe/1460+doe/36524-doe/146096 = 365*(100*c+4*q+k)+(j-e) ∧ j-e < 365 := by
    rw [he, hcenturies, hlast]
    split_ifs <;> omega
  rw [hnumerator.1]
  omega

/-- The days of an era before a year of it. -/
theorem yearDays_eq (h : EraDay doe c q k j) : 365*(100*c+4*q+k)+(100*c+4*q+k)/4-
    (100*c+4*q+k)/100 = 36524*c+1461*q+365*k := by
  have hcentury := h.century
  have hperiod := h.period
  have hyear := h.year
  omega

/-- The month with this number from March. -/
def monthOf (mp : ℕ) : ℕ := if mp < 10 then mp+3 else mp-9

theorem marchMonth_monthOf {mp : ℕ} (h : mp < 12) :
    marchMonth (monthOf mp) = mp ∧ 1 ≤ monthOf mp ∧ monthOf mp ≤ 12 := by
  unfold marchMonth monthOf
  split_ifs <;> omega

/-- The months of a year that begins in March cover its days. -/
theorem mp_range (h : j ≤ 365) : (5*j+2)/153 < 12 ∧ monthStart ((5*j+2)/153) ≤ j ∧
    j < monthStart ((5*j+2)/153+1) := by
  unfold monthStart
  omega

theorem yearStart_era (era c q k : ℕ) (hcentury : c ≤ 3) (hperiod : q ≤ 24) (hyear : k ≤ 3) :
    yearStart ((100*c+4*q+k+era*400 : ℕ) : ℤ) = 146097*era+36524*c+1461*q+365*k := by
  unfold yearStart
  omega

/-- The last day of a year that begins in March is there in leap years only. -/
theorem eraDay_leap (h : EraDay doe c q k j) (hlast : j = 365) (era : ℕ) :
    IsLeap ((100*c+4*q+k+era*400+1 : ℕ) : ℤ) := by
  have hcentury := h.century
  have hperiod := h.period
  have hday := h.day
  unfold IsLeap
  omega

/-- The day lies in its month. -/
theorem civil_day {mp : ℕ} {year : ℤ} (hmp : mp < 12) (hstart : monthStart mp ≤ j)
    (hend : j < monthStart (mp+1)) (hlast : j ≤ 364 ∨ (j = 365 ∧ (mp = 11 → IsLeap year))) :
    j-monthStart mp+1 ≤ monthLength year (monthOf mp) := by
  obtain ⟨hmarch, hpos, hle⟩ := marchMonth_monthOf hmp
  by_cases hfeb : monthOf mp = 2
  · have hnumber : mp = 11 := by
      rw [hfeb] at hmarch
      exact hmarch.symm
    have hfirst : monthStart 11 = 337 := rfl
    rw [hfeb, monthLength, if_pos rfl, hnumber, hfirst]
    rcases hlast with hshort | ⟨hlong, hleap⟩
    · split_ifs <;> omega
    · rw [if_pos (hleap hnumber)]
      omega
  · have hnext := (monthStart_next year hpos hle hfeb).2
    rw [hmarch] at hnext
    omega

/-- The date the divisions lead to has the number of the day. -/
theorem civil_exists (era : ℕ) (h : EraDay doe c q k j) : ∃ a : Date,
    a.month = monthOf ((5*j+2)/153) ∧ a.day = j-(153*((5*j+2)/153)+2)/5+1 ∧
    a.year = ((100*c+4*q+k+era*400+(if monthOf ((5*j+2)/153) ≤ 2 then 1 else 0) : ℕ) : ℤ) ∧
    a.days = ((146097*era+doe : ℕ) : ℤ)-719468 := by
  obtain ⟨hmp, hstart, hend⟩ := mp_range (j := j) (by have hday := h.day; omega)
  have hyear := yearStart_era era c q k h.century h.period h.year
  have hleap := eraDay_leap h
  have hday := h.day
  generalize (5*j+2)/153 = mp at hmp hstart hend ⊢
  obtain ⟨hmarch, hpos, hle⟩ := marchMonth_monthOf hmp
  have hlast : j ≤ 364 ∨ (j = 365 ∧ (mp = 11 →
      IsLeap ((100*c+4*q+k+era*400+(if monthOf mp ≤ 2 then 1 else 0) : ℕ) : ℤ))) := by
    rcases hday with hshort | ⟨hlong, _⟩
    · exact Or.inl (by omega)
    · exact Or.inr ⟨hlong, fun hnumber => by simpa [hnumber, monthOf] using hleap hlong era⟩
  refine ⟨⟨_, _, _, hpos, hle, Nat.le_add_left 1 _, civil_day hmp hstart hend hlast⟩,
    rfl, rfl, rfl, ?_⟩
  have hfirst : marchYear ((100*c+4*q+k+era*400+(if monthOf mp ≤ 2 then 1 else 0) : ℕ) : ℤ)
      (monthOf mp) = ((100*c+4*q+k+era*400 : ℕ) : ℤ) := by
    unfold marchYear
    split_ifs <;> omega
  rw [Date.days_eq]
  simp only [hfirst, hyear, hmarch, h.sum]
  omega

end Divisions

/-! ### The unsigned arithmetic -/

section Words

variable {a b z doe yoe : UInt32}

theorem word_add (h : a.toNat+b.toNat < 4294967296) : (a+b).toNat = a.toNat+b.toNat := by
  rw [UInt32.toNat_add]
  exact Nat.mod_eq_of_lt h

theorem word_mul (h : a.toNat*b.toNat < 4294967296) : (a*b).toNat = a.toNat*b.toNat := by
  rw [UInt32.toNat_mul]
  exact Nat.mod_eq_of_lt h

theorem word_sub (h : b.toNat ≤ a.toNat) : (a-b).toNat = a.toNat-b.toNat :=
  UInt32.toNat_sub_of_le a b (UInt32.le_iff_toNat_le.mpr h)

theorem doe_toNat : (z-z/146097*146097).toNat = z.toNat%146097 := by
  have hz := z.toNat_lt
  have hera : (z/146097).toNat = z.toNat/146097 := UInt32.toNat_div z 146097
  have hmul : (z/146097*146097).toNat = z.toNat/146097*146097 := by
    rw [word_mul (by rw [hera]; simp only [UInt32.reduceToNat]; omega), hera]
    rfl
  rw [word_sub (by omega), hmul]
  omega

theorem yoe_toNat (h : doe.toNat < 146097) : ((doe-doe/1460+doe/36524-doe/146096)/365).toNat =
    (doe.toNat-doe.toNat/1460+doe.toNat/36524-doe.toNat/146096)/365 := by
  have hyears : (doe/1460).toNat = doe.toNat/1460 := UInt32.toNat_div doe 1460
  have hcenturies : (doe/36524).toNat = doe.toNat/36524 := UInt32.toNat_div doe 36524
  have hlast : (doe/146096).toNat = doe.toNat/146096 := UInt32.toNat_div doe 146096
  have hless : (doe-doe/1460).toNat = doe.toNat-doe.toNat/1460 := by
    rw [word_sub (by omega), hyears]
  have hmore : (doe-doe/1460+doe/36524).toNat = doe.toNat-doe.toNat/1460+doe.toNat/36524 := by
    rw [word_add (by omega), hless, hcenturies]
  rw [UInt32.toNat_div, word_sub (by omega), hmore, hlast]
  rfl

theorem doy_toNat (hyoe : yoe.toNat < 400)
    (hle : 365*yoe.toNat+yoe.toNat/4-yoe.toNat/100 ≤ doe.toNat) :
    (doe-(365*yoe+yoe/4-yoe/100)).toNat =
      doe.toNat-(365*yoe.toNat+yoe.toNat/4-yoe.toNat/100) := by
  have hdays : (365*yoe).toNat = 365*yoe.toNat :=
    word_mul (a := 365) (by simp only [UInt32.reduceToNat]; omega)
  have hfours : (yoe/4).toNat = yoe.toNat/4 := UInt32.toNat_div yoe 4
  have hcenturies : (yoe/100).toNat = yoe.toNat/100 := UInt32.toNat_div yoe 100
  have hmore : (365*yoe+yoe/4).toNat = 365*yoe.toNat+yoe.toNat/4 := by
    rw [word_add (by omega), hdays, hfours]
  have hstart : (365*yoe+yoe/4-yoe/100).toNat =
      365*yoe.toNat+yoe.toNat/4-yoe.toNat/100 := by
    rw [word_sub (by omega), hmore, hcenturies]
  rw [word_sub (by omega), hstart]

theorem mp_toNat (doy : UInt32) (h : doy.toNat < 366) : ((5*doy+2)/153).toNat = (5*doy.toNat+2)/153 := by
  have hmul : (5*doy).toNat = 5*doy.toNat :=
    word_mul (a := 5) (by simp only [UInt32.reduceToNat]; omega)
  have hadd : (5*doy+2).toNat = 5*doy.toNat+2 := by
    rw [word_add (by simp only [UInt32.reduceToNat]; omega), hmul]
    rfl
  rw [UInt32.toNat_div, hadd]
  rfl

theorem day_toNat (doy mp : UInt32) (h : doy.toNat < 366) (hmp : (153*mp.toNat+2)/5 ≤ doy.toNat) :
    (doy-(153*mp+2)/5+1).toNat = doy.toNat-(153*mp.toNat+2)/5+1 := by
  have hmul : (153*mp).toNat = 153*mp.toNat :=
    word_mul (a := 153) (by simp only [UInt32.reduceToNat]; omega)
  have hadd : (153*mp+2).toNat = 153*mp.toNat+2 := by
    rw [word_add (by simp only [UInt32.reduceToNat]; omega), hmul]
    rfl
  have hdiv : ((153*mp+2)/5).toNat = (153*mp.toNat+2)/5 := by
    rw [UInt32.toNat_div, hadd]
    rfl
  have hsub : (doy-(153*mp+2)/5).toNat = doy.toNat-(153*mp.toNat+2)/5 := by
    rw [word_sub (by omega), hdiv]
  rw [word_add (by simp only [UInt32.reduceToNat]; omega), hsub]
  rfl

/-- The subtraction of 9 wraps around twice. -/
theorem month_toNat (mp : UInt32) (h : mp.toNat < 12) :
    (mp+(if mp < 10 then 3 else -9)).toNat = monthOf mp.toNat := by
  unfold monthOf
  by_cases hlow : mp.toNat < 10
  · rw [if_pos (UInt32.lt_iff_toNat_lt.mpr hlow), if_pos hlow,
      word_add (by simp only [UInt32.reduceToNat]; omega)]
    rfl
  · have hneg : (-9 : UInt32).toNat = 4294967287 := by decide
    rw [if_neg (fun hlt => hlow (UInt32.lt_iff_toNat_lt.mp hlt)), if_neg hlow, UInt32.toNat_add,
      hneg]
    omega

end Words

/-! ### The date and the time of day -/

section Results

variable {input : KTime}

/-- The time is early enough for the shifted number of its day. -/
def InRange (input : KTime) : Prop := input.toNat/1000/86400+719468 < 2^32

theorem shifted_toNat (h : InRange input) :
    ((input/1000/86400).toUInt32+719468).toNat = input.toNat/1000/86400+719468 := by
  unfold InRange at h
  simp only [UInt32.toNat_add, UInt64.toNat_toUInt32, UInt64.toNat_div, UInt32.reduceToNat,
    UInt64.reduceToNat]
  omega

theorem ktime_date (h : InRange input) : ∃ a : Date,
    a.year = (ktimeTimeMsToDate input).year.toNat ∧
    a.month = (ktimeTimeMsToDate input).month.toNat ∧
    a.day = (ktimeTimeMsToDate input).day.toNat ∧ a.days = (input.toNat/1000/86400 : ℕ) := by
  have hz := shifted_toNat h
  have hrange : input.toNat/1000/86400+719468 < 2^32 := h
  simp only [ktimeTimeMsToDate]
  generalize (input/1000/86400).toUInt32+719468 = z at hz ⊢
  have hdoe := doe_toNat (z := z)
  generalize hdoeIs : z-z/146097*146097 = doe at hdoe ⊢
  have hera : (z/146097).toNat = z.toNat/146097 := UInt32.toNat_div z 146097
  generalize z/146097 = era at hera ⊢
  have hlt : doe.toNat < 146097 := by omega
  obtain ⟨c, q, k, j, hday⟩ := eraDay_exists hlt
  obtain ⟨a, hmonth, hdayIs, hyear, hdays⟩ := civil_exists era.toNat hday
  have hyoe := yoe_toNat hlt
  rw [yoe_eq hday] at hyoe
  generalize (doe-doe/1460+doe/36524-doe/146096)/365 = yoe at hyoe ⊢
  have hcentury := hday.century
  have hperiod := hday.period
  have hyearOf := hday.year
  have hdayOf := hday.day
  have hsum := hday.sum
  have hstart := yearDays_eq hday
  have hdoy : (doe-(365*yoe+yoe/4-yoe/100)).toNat = j := by
    rw [doy_toNat (by omega) (by rw [hyoe]; omega), hyoe]
    omega
  generalize doe-(365*yoe+yoe/4-yoe/100) = doy at hdoy ⊢
  have hmp := mp_toNat doy (by omega)
  obtain ⟨hmpLt, hmonthStart, _⟩ := mp_range (j := j) (by omega)
  rw [hdoy] at hmp
  generalize (5*doy+2)/153 = mp at hmp ⊢
  have hd := day_toNat doy mp (by omega) (by rw [hmp, hdoy]; exact hmonthStart)
  have hm := month_toNat mp (by omega)
  rw [hmp, hdoy] at hd
  rw [hmp] at hm
  generalize mp+(if mp < 10 then 3 else -9) = m at hm ⊢
  have hmul : (era*400).toNat = era.toNat*400 :=
    word_mul (by simp only [UInt32.reduceToNat]; omega)
  have hmarch : (yoe+era*400).toNat = 100*c+4*q+k+era.toNat*400 := by
    rw [word_add (by omega), hyoe, hmul]
  refine ⟨a, ?_, ?_, ?_, ?_⟩
  · rw [hyear, ← hm]
    by_cases hjan : m ≤ 2
    · have hjanNat : m.toNat ≤ 2 := UInt32.le_iff_toNat_le.mp hjan
      rw [if_pos hjan, if_pos hjanNat, word_add (by simp only [UInt32.reduceToNat]; omega), hmarch]
      rfl
    · have hjanNat : ¬ m.toNat ≤ 2 := fun hle => hjan (UInt32.le_iff_toNat_le.mpr hle)
      rw [if_neg hjan, if_neg hjanNat, word_add (by simp only [UInt32.reduceToNat]; omega), hmarch]
      rfl
  · have hle := a.month_le
    rw [UInt32.toNat_toUInt8, hm, hmonth]
    omega
  · rw [UInt32.toNat_toUInt8, hd, hdayIs]
    omega
  · rw [hdays, hera, hdoe, hz]
    omega

theorem ktime_moment (h : InRange input) : ∃ m : Moment,
    (ktimeTimeMsToDate input).Shows m ∧ m.instant = (input.toNat : ℤ) := by
  obtain ⟨a, hyear, hmonth, hday, hdays⟩ := ktime_date h
  have hhour : (ktimeTimeMsToDate input).hour.toNat = input.toNat/1000/60/60%24 := by
    simp only [ktimeTimeMsToDate, UInt64.toNat_toUInt8, UInt64.toNat_mod, UInt64.toNat_div,
      UInt64.reduceToNat]
    omega
  have hminute : (ktimeTimeMsToDate input).minute.toNat = input.toNat/1000/60%60 := by
    simp only [ktimeTimeMsToDate, UInt64.toNat_toUInt8, UInt64.toNat_mod, UInt64.toNat_div,
      UInt64.reduceToNat]
    omega
  have hsecond : (ktimeTimeMsToDate input).second.toNat = input.toNat/1000%60 := by
    simp only [ktimeTimeMsToDate, UInt64.toNat_toUInt8, UInt64.toNat_mod, UInt64.toNat_div,
      UInt64.reduceToNat]
    omega
  have hms : (ktimeTimeMsToDate input).ms.toNat = input.toNat%1000 := by
    simp only [ktimeTimeMsToDate, UInt64.toNat_toUInt16, UInt64.toNat_mod, UInt64.reduceToNat]
    omega
  refine ⟨⟨a, _, _, _, _, Nat.mod_lt (input.toNat/1000/60/60) (by omega),
    Nat.mod_lt (input.toNat/1000/60) (by omega), Nat.mod_lt (input.toNat/1000) (by omega),
    Nat.mod_lt input.toNat (by omega)⟩, ?_, ?_⟩
  · exact ⟨hyear, hmonth, hday, hhour.symm, hminute.symm, hsecond.symm, hms.symm⟩
  · simp only [Moment.instant, hdays]
    omega

/-- Later moments are shown by later dates. -/
theorem key_lt {date date' : KDate} {m m' : Moment} (h : date.Shows m) (h' : date'.Shows m')
    (hlt : m < m') : date.key < date'.key := by
  simp only [KDate.key, Prod.Lex.toLex_lt_toLex, UInt32.lt_iff_toNat_lt, UInt8.lt_iff_toNat_lt,
    UInt16.lt_iff_toNat_lt, ← UInt32.toNat_inj, ← UInt8.toNat_inj]
  simp only [Moment.lt_iff, Date.lt_iff, Date.ext_iff, h.year, h.month, h.day, h.hour, h.minute,
    h.second, h.ms, h'.year, h'.month, h'.day, h'.hour, h'.minute, h'.second, h'.ms, Int.ofNat_lt,
    Int.natCast_inj] at hlt
  rcases hlt with (hyear | ⟨hyear, hmonth | ⟨hmonth, hday⟩⟩) | ⟨⟨hyear, hmonth, hday⟩, htime⟩
  · exact Or.inl hyear
  · exact Or.inr ⟨hyear, Or.inl hmonth⟩
  · exact Or.inr ⟨hyear, Or.inr ⟨hmonth, Or.inl hday⟩⟩
  · exact Or.inr ⟨hyear, Or.inr ⟨hmonth, Or.inr ⟨hday, htime⟩⟩⟩

end Results

/-- The date of a time is the one date and time of day of its instant, and later
times have later dates. -/
theorem ktimeTimeMsToDate_gregorian (input : KTime) (h : InRange input) :
    (∃ m : Moment, (ktimeTimeMsToDate input).Shows m ∧ m.instant = (input.toNat : ℤ) ∧
      ∀ m' : Moment, m'.instant = (input.toNat : ℤ) → m' = m) ∧
    ∀ later : KTime, InRange later → input < later →
      (ktimeTimeMsToDate input).key < (ktimeTimeMsToDate later).key := by
  obtain ⟨m, hshows, hinstant⟩ := ktime_moment h
  constructor
  · refine ⟨m, hshows, hinstant, fun m' hm' => ?_⟩
    exact Moment.instant_strictMono.injective (hm'.trans hinstant.symm)
  · intro later hlater hlt
    obtain ⟨m', hshows', hinstant'⟩ := ktime_moment hlater
    apply key_lt hshows hshows'
    apply Moment.instant_strictMono.lt_iff_lt.mp
    rw [hinstant, hinstant']
    exact Int.ofNat_lt.mpr (UInt64.lt_iff_toNat_lt.mp hlt)

/-- The last millisecond of 29 February 2000 and the first of the day after. -/
theorem leap_day_gregorian :
    ktimeTimeMsToDate 951868799999 = ⟨2000, 2, 29, 23, 59, 59, 999⟩ ∧
    (∃ m : Moment, (ktimeTimeMsToDate 951868799999).Shows m ∧ m.instant = 951868799999) ∧
    (ktimeTimeMsToDate 951868799999).key < (ktimeTimeMsToDate 951868800000).key := by
  have hdate := ktimeTimeMsToDate_gregorian 951868799999 (by unfold InRange; decide)
  obtain ⟨⟨m, hshows, hinstant, _⟩, hlater⟩ := hdate
  exact ⟨by decide, ⟨m, hshows, hinstant⟩,
    hlater 951868800000 (by unfold InRange; decide) (by decide)⟩

/-! ### Times of 32 bits in seconds -/

/-- The date that the call for a time in seconds writes to the memory of the process. -/
def timeToDate32s (srcTime : UInt32) : KDate := ktimeTimeMsToDate (srcTime.toUInt64*1000)

theorem ms_toNat (srcTime : UInt32) : (srcTime.toUInt64*1000).toNat = srcTime.toNat*1000 := by
  have hlt := srcTime.toNat_lt
  rw [UInt64.toNat_mul, UInt32.toNat_toUInt64]
  simp only [UInt64.reduceToNat]
  exact Nat.mod_eq_of_lt (by omega)

theorem timeToDate32s_inRange (srcTime : UInt32) : InRange (srcTime.toUInt64*1000) := by
  have hlt := srcTime.toNat_lt
  unfold InRange
  rw [ms_toNat]
  omega

/-- The year fits the two bytes it is written to. -/
theorem timeToDate32s_year (srcTime : UInt32) : (timeToDate32s srcTime).year.toNat < 65536 := by
  obtain ⟨a, hyear, _, _, hdays⟩ := ktime_date (timeToDate32s_inRange srcTime)
  have hlt := srcTime.toNat_lt
  have hnat := ms_toNat srcTime
  have hstart := a.year_le_days
  have hmarch : a.year-1 ≤ marchYear a.year a.month := by
    unfold marchYear
    split_ifs <;> omega
  have hmono := yearStart_mono hmarch
  unfold yearStart at hmono hstart
  change (ktimeTimeMsToDate (srcTime.toUInt64*1000)).year.toNat < 65536
  omega

end ArduinoOS.Kernel
