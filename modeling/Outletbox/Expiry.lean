import Outletbox.Library.Numerals
import Outletbox.Services.Links

/-!
# Deadlines as strings

`toISOString` in full: the calendar date of an instant, its time of day, and the
width and the sign of its year.  Within one year the strings order like the
instants, and so they do from the year 0 to the year 9999.  From the year 10000
on they start with `+` and sort before all of these; before the year 0 they
start with `-` and the years sort backwards.

`createLink` compares a deadline as a number and `linkState` compares it as a
string.  The results say for which deadlines the two agree.
-/

namespace Outletbox

/-! ## The calendar

A year is counted from March here, so that the leap day is its last. -/

namespace Calendar

/-- The days of 400 years, of a century without the leap day of its last year, and
of four years. -/
def era (n : Int) : Int := n / 146097

def dayOfEra (n : Int) : Int := n % 146097

def century (d : Int) : Int := min 3 (d / 36524)

def dayOfCentury (d : Int) : Int := d - century d * 36524

def olympiad (d : Int) : Int := d / 1461

def dayOfOlympiad (d : Int) : Int := d % 1461

def yearOfOlympiad (d : Int) : Int := min 3 (d / 365)

def dayOfYear (d : Int) : Int := d - yearOfOlympiad d * 365

/-- The months from March, five of which have 153 days. -/
def monthOfYear (d : Int) : Int := (5 * d + 2) / 153

def dayOfMonth (d : Int) : Int := d - (153 * monthOfYear d + 2) / 5

theorem era_lt {a b : Int} (h : a < b) :
    era a < era b ∨ era a = era b ∧ dayOfEra a < dayOfEra b := by
  unfold era dayOfEra
  omega

theorem dayOfEra_bounds (a : Int) : 0 ≤ dayOfEra a ∧ dayOfEra a < 146097 := by
  unfold dayOfEra
  omega

theorem century_lt {a b : Int} (h : a < b) :
    century a < century b ∨ century a = century b ∧ dayOfCentury a < dayOfCentury b := by
  unfold dayOfCentury century
  omega

theorem century_bounds {a : Int} (h : 0 ≤ a ∧ a < 146097) :
    (0 ≤ century a ∧ century a ≤ 3) ∧ 0 ≤ dayOfCentury a ∧ dayOfCentury a ≤ 36524 := by
  unfold dayOfCentury century
  omega

theorem olympiad_lt {a b : Int} (h : a < b) :
    olympiad a < olympiad b ∨ olympiad a = olympiad b ∧ dayOfOlympiad a < dayOfOlympiad b := by
  unfold dayOfOlympiad olympiad
  omega

theorem olympiad_bounds {a : Int} (h : 0 ≤ a ∧ a ≤ 36524) :
    (0 ≤ olympiad a ∧ olympiad a ≤ 24) ∧ 0 ≤ dayOfOlympiad a ∧ dayOfOlympiad a ≤ 1460 := by
  unfold dayOfOlympiad olympiad
  omega

theorem yearOfOlympiad_lt {a b : Int} (h : a < b) :
    yearOfOlympiad a < yearOfOlympiad b ∨
      yearOfOlympiad a = yearOfOlympiad b ∧ dayOfYear a < dayOfYear b := by
  unfold dayOfYear yearOfOlympiad
  omega

theorem yearOfOlympiad_bounds {a : Int} (h : 0 ≤ a ∧ a ≤ 1460) :
    (0 ≤ yearOfOlympiad a ∧ yearOfOlympiad a ≤ 3) ∧ 0 ≤ dayOfYear a ∧ dayOfYear a ≤ 365 := by
  unfold dayOfYear yearOfOlympiad
  omega

theorem monthOfYear_lt {a b : Int} (h : a < b) :
    monthOfYear a < monthOfYear b ∨
      monthOfYear a = monthOfYear b ∧ dayOfMonth a < dayOfMonth b := by
  unfold dayOfMonth monthOfYear
  omega

theorem monthOfYear_bounds {a : Int} (h : 0 ≤ a ∧ a ≤ 365) :
    (0 ≤ monthOfYear a ∧ monthOfYear a ≤ 11) ∧ 0 ≤ dayOfMonth a ∧ dayOfMonth a ≤ 30 := by
  unfold dayOfMonth monthOfYear
  omega

/-- The years from March before a day, counted from the year 0. -/
def marchYear (n : Int) : Int :=
  let d := dayOfEra n
  let c := dayOfCentury d
  400 * era n + 100 * century d + 4 * olympiad c + yearOfOlympiad (dayOfOlympiad c)

/-- The days since 1 March. -/
def marchDay (n : Int) : Int := dayOfYear (dayOfOlympiad (dayOfCentury (dayOfEra n)))

theorem marchDay_bounds (n : Int) : 0 ≤ marchDay n ∧ marchDay n ≤ 365 :=
  (yearOfOlympiad_bounds
    (olympiad_bounds (century_bounds (dayOfEra_bounds n)).2).2).2

theorem march_lt {a b : Int} (h : a < b) :
    marchYear a < marchYear b ∨ marchYear a = marchYear b ∧ marchDay a < marchDay b := by
  have ha := dayOfEra_bounds a
  have hb := dayOfEra_bounds b
  obtain ⟨hac, hac'⟩ := century_bounds ha
  obtain ⟨hbc, hbc'⟩ := century_bounds hb
  obtain ⟨hao, hao'⟩ := olympiad_bounds hac'
  obtain ⟨hbo, hbo'⟩ := olympiad_bounds hbc'
  have hay := (yearOfOlympiad_bounds hao').1
  have hby := (yearOfOlympiad_bounds hbo').1
  simp only [marchYear, marchDay]
  rcases era_lt h with hera | ⟨hera, h⟩
  · omega
  rcases century_lt h with hcentury | ⟨hcentury, h⟩
  · omega
  rcases olympiad_lt h with holympiad | ⟨holympiad, h⟩
  · omega
  rcases yearOfOlympiad_lt h with hyear | ⟨hyear, h⟩
  · omega
  · omega

/-- The months since January of the year 0, for the days since 1970. -/
def monthIndex (day : Int) : Int :=
  12 * marchYear (day + 719468) + monthOfYear (marchDay (day + 719468)) + 2

def year (day : Int) : Int := monthIndex day / 12

/-- From 1 to 12. -/
def month (day : Int) : Int := monthIndex day % 12 + 1

/-- From 1 to 31. -/
def date (day : Int) : Int := dayOfMonth (marchDay (day + 719468)) + 1

theorem month_bounds (day : Int) : 1 ≤ month day ∧ month day ≤ 12 := by
  unfold month
  omega

theorem date_bounds (day : Int) : 1 ≤ date day ∧ date day ≤ 31 := by
  have h := (monthOfYear_bounds (marchDay_bounds (day + 719468))).2
  unfold date
  omega

theorem monthIndex_lt {a b : Int} (h : a < b) :
    monthIndex a < monthIndex b ∨ monthIndex a = monthIndex b ∧ date a < date b := by
  have ha := (monthOfYear_bounds (marchDay_bounds (a + 719468))).1
  have hb := (monthOfYear_bounds (marchDay_bounds (b + 719468))).1
  unfold monthIndex date
  rcases march_lt (show a + 719468 < b + 719468 by omega) with hyear | ⟨hyear, hday⟩
  · omega
  · rcases monthOfYear_lt hday with hmonth | ⟨hmonth, hdate⟩
    · omega
    · omega

/-- A later day has a later date. -/
theorem date_lt {a b : Int} (h : a < b) :
    year a < year b ∨ year a = year b ∧
      (month a < month b ∨ month a = month b ∧ date a < date b) := by
  unfold year month
  rcases monthIndex_lt h with hmonth | ⟨hmonth, hdate⟩
  · omega
  · rw [hmonth]
    exact .inr ⟨rfl, .inr ⟨rfl, hdate⟩⟩

end Calendar

/-! ## ISO strings -/

/-- `date.toISOString()`, up to its year. -/
def isoDay (t : Int) : Int := t / 86400000

def isoYear (t : Int) : Int := Calendar.year (isoDay t)

/-- Four digits, or a sign and six. -/
def yearText (y : Int) : List Char :=
  if 0 ≤ y ∧ y ≤ 9999 then Numerals.pad 4 y.toNat
  else if y < 0 then '-' :: Numerals.pad 6 (-y).toNat
  else '+' :: Numerals.pad 6 y.toNat

/-- The time of day, in milliseconds, to its end. -/
def timeText (ms : Int) : List Char :=
  Numerals.pad 2 (ms / 3600000).toNat ++ ':' :: (Numerals.pad 2 (ms / 60000 % 60).toNat ++
    ':' :: (Numerals.pad 2 (ms / 1000 % 60).toNat ++
      '.' :: (Numerals.pad 3 (ms % 1000).toNat ++ ['Z'])))

/-- What follows the year. -/
def isoRest (t : Int) : List Char :=
  '-' :: (Numerals.pad 2 (Calendar.month (isoDay t)).toNat ++
    '-' :: (Numerals.pad 2 (Calendar.date (isoDay t)).toNat ++ 'T' :: timeText (t % 86400000)))

/-- `new Date(t).toISOString()`. -/
def toISOString (t : Int) : String := String.ofList (yearText (isoYear t) ++ isoRest t)

example : [0, 951782400000, -62167219200000, year10000 - 1, year10000, -62167219200001].map
    toISOString = ["1970-01-01T00:00:00.000Z", "2000-02-29T00:00:00.000Z",
      "0000-01-01T00:00:00.000Z", "9999-12-31T23:59:59.999Z", "+010000-01-01T00:00:00.000Z",
      "-000001-12-31T23:59:59.999Z"] := by decide +kernel

theorem ofList_lt {as bs : List Char} : String.ofList as < String.ofList bs ↔ as < bs := by
  rw [String.lt_iff_toList_lt, String.toList_ofList, String.toList_ofList]

theorem timeText_lt {a b : Int} (ha : 0 ≤ a) (h : a < b) (hb : b < 86400000) :
    timeText a < timeText b := by
  refine Numerals.pad_append_lt ?_ (by omega)
  by_cases hhour : a / 3600000 = b / 3600000
  swap
  · exact .inl (by omega)
  refine .inr ⟨by rw [hhour], Numerals.cons_lt (Numerals.pad_append_lt ?_ (by omega))⟩
  by_cases hminute : a / 60000 % 60 = b / 60000 % 60
  swap
  · exact .inl (by omega)
  refine .inr ⟨by rw [hminute], Numerals.cons_lt (Numerals.pad_append_lt ?_ (by omega))⟩
  by_cases hsecond : a / 1000 % 60 = b / 1000 % 60
  swap
  · exact .inl (by omega)
  exact .inr ⟨by rw [hsecond], Numerals.cons_lt (Numerals.pad_append_lt (.inl (by omega)) (by omega))⟩

/-- Within a year the strings order like the instants. -/
theorem isoRest_lt {a b : Int} (h : a < b) (hyear : isoYear a = isoYear b) :
    isoRest a < isoRest b := by
  have hmonth := Calendar.month_bounds (isoDay a)
  have hmonth' := Calendar.month_bounds (isoDay b)
  have hdate := Calendar.date_bounds (isoDay a)
  have hdate' := Calendar.date_bounds (isoDay b)
  refine Numerals.cons_lt (Numerals.pad_append_lt ?_ (by omega))
  rcases lt_or_eq_of_le (show isoDay a ≤ isoDay b by unfold isoDay; omega) with hday | hday
  · rcases Calendar.date_lt hday with hlt | ⟨-, hlt | ⟨heq, hlt⟩⟩
    · exact absurd hyear (ne_of_lt hlt)
    · exact .inl (by omega)
    · exact .inr ⟨by rw [heq], Numerals.cons_lt (Numerals.pad_append_lt (.inl (by omega)) (by omega))⟩
  · rw [hday]
    refine .inr ⟨rfl, Numerals.cons_lt (Numerals.pad_append_lt (.inr ⟨rfl, ?_⟩) (by omega))⟩
    exact Numerals.cons_lt (timeText_lt (by omega) (by unfold isoDay at hday; omega) (by omega))

theorem isoYear_le {a b : Int} (h : a ≤ b) : isoYear a ≤ isoYear b := by
  rcases lt_or_eq_of_le (show isoDay a ≤ isoDay b by unfold isoDay; omega) with hday | hday
  · rcases Calendar.date_lt hday with hlt | ⟨heq, -⟩
    · exact hlt.le
    · exact heq.le
  · rw [isoYear, isoYear, hday]

/-- The first instant of a year splits the instants before it from the others. -/
theorem isoYear_lt_iff {first y : Int} (hfirst : isoYear first = y) (hlast : isoYear (first - 1) < y)
    (t : Int) : isoYear t < y ↔ t < first := by
  constructor
  · intro h
    by_contra hcon
    have hle := isoYear_le (not_lt.1 hcon)
    omega
  · intro h
    exact (isoYear_le (show t ≤ first - 1 by omega)).trans_lt hlast

/-- An instant a `Date` can hold. -/
def IsDate (t : Int) : Prop := -8640000000000000 ≤ t ∧ t ≤ 8640000000000000

/-- The first instant of the year 0. -/
def year0 : Int := -62167219200000

/-- The first instant of the year before the year 0. -/
def yearMinus1 : Int := -62198755200000

theorem isoYear_lt_10000 (t : Int) : isoYear t < 10000 ↔ t < year10000 :=
  isoYear_lt_iff (by decide +kernel) (by decide +kernel) t

theorem isoYear_lt_0 (t : Int) : isoYear t < 0 ↔ t < year0 :=
  isoYear_lt_iff (by decide +kernel) (by decide +kernel) t

theorem isoYear_lt_minus1 (t : Int) : isoYear t < -1 ↔ t < yearMinus1 :=
  isoYear_lt_iff (by decide +kernel) (by decide +kernel) t

theorem isoYear_bounds {t : Int} (h : IsDate t) : -1000000 < isoYear t ∧ isoYear t < 1000000 := by
  have hlow : isoYear (-8640000000000000) = -271821 := by decide +kernel
  have hhigh : isoYear 8640000000000000 = 275760 := by decide +kernel
  have hle := isoYear_le h.1
  have hge := isoYear_le h.2
  omega

section

variable {a b : Int}

theorem toISOString_lt_of_year (h : a < b) (hyear : isoYear a = isoYear b) :
    toISOString a < toISOString b := by
  rw [toISOString, toISOString, ofList_lt, hyear]
  exact List.append_left_lt (isoRest_lt h hyear)

/-- From the year 0 to the year 9999 the strings order like the instants. -/
theorem toISOString_lt (ha : year0 ≤ a) (hb : b < year10000) (h : a < b) :
    toISOString a < toISOString b := by
  have ha' := (isoYear_lt_0 a).not.2 (not_lt.2 ha)
  have hb' := (isoYear_lt_10000 b).2 hb
  rcases lt_or_eq_of_le (isoYear_le h.le) with hyear | hyear
  · rw [toISOString, toISOString, ofList_lt, yearText, yearText, if_pos (by omega),
      if_pos (by omega)]
    exact Numerals.pad_append_lt (.inl (by omega)) (by omega)
  · exact toISOString_lt_of_year h hyear

theorem toISOString_lt_late (ha : year10000 ≤ a) (hb : IsDate b) (h : a < b) :
    toISOString a < toISOString b := by
  have ha' := (isoYear_lt_10000 a).not.2 (not_lt.2 ha)
  have hb' := (isoYear_bounds hb).2
  rcases lt_or_eq_of_le (isoYear_le h.le) with hyear | hyear
  · rw [toISOString, toISOString, ofList_lt, yearText, yearText, if_neg (by omega),
      if_neg (by omega), if_neg (by omega), if_neg (by omega)]
    exact Numerals.cons_lt (Numerals.pad_append_lt (.inl (by omega)) (by omega))
  · exact toISOString_lt_of_year h hyear

/-- The strings of the years from 10000 on sort before those of the years to 9999. -/
theorem toISOString_late_lt (ha : year10000 ≤ a) (hb : year0 ≤ b) (hb' : b < year10000) :
    toISOString a < toISOString b := by
  have hya := (isoYear_lt_10000 a).not.2 (not_lt.2 ha)
  have hyb := (isoYear_lt_0 b).not.2 (not_lt.2 hb)
  have hyb' := (isoYear_lt_10000 b).2 hb'
  rw [toISOString, toISOString, ofList_lt, yearText, yearText, if_neg (by omega),
    if_neg (by omega), if_pos (by omega)]
  exact Numerals.cons_lt_pad_append (by decide) _ 3 _ _

theorem toISOString_late_lt_early (ha : year10000 ≤ a) (hb : b < year0) :
    toISOString a < toISOString b := by
  have hya := (isoYear_lt_10000 a).not.2 (not_lt.2 ha)
  have hyb := (isoYear_lt_0 b).2 hb
  rw [toISOString, toISOString, ofList_lt, yearText, yearText, if_neg (by omega),
    if_neg (by omega), if_neg (by omega), if_pos (by omega)]
  exact List.cons_lt_cons_iff.2 (.inl (by decide))

theorem toISOString_early_lt (ha : a < year0) (hb : year0 ≤ b) (hb' : b < year10000) :
    toISOString a < toISOString b := by
  have hya := (isoYear_lt_0 a).2 ha
  have hyb := (isoYear_lt_0 b).not.2 (not_lt.2 hb)
  have hyb' := (isoYear_lt_10000 b).2 hb'
  rw [toISOString, toISOString, ofList_lt, yearText, yearText, if_neg (by omega),
    if_pos (by omega), if_pos (by omega)]
  exact Numerals.cons_lt_pad_append (by decide) _ 3 _ _

/-- The years before the year 0 sort backwards. -/
theorem toISOString_lt_early (ha : IsDate a) (hb : b < year0) (h : isoYear a < isoYear b) :
    toISOString b < toISOString a := by
  have hya := (isoYear_bounds ha).1
  have hyb := (isoYear_lt_0 b).2 hb
  rw [toISOString, toISOString, ofList_lt, yearText, yearText, if_neg (by omega),
    if_pos (by omega), if_neg (by omega), if_pos (by omega)]
  exact Numerals.cons_lt (Numerals.pad_append_lt (.inl (by omega)) (by omega))

theorem isoKey_injective (ha : IsDate a) (hb : IsDate b) (ha0 : year0 ≤ a) (hb0 : year0 ≤ b)
    (h : isoKey a = isoKey b) : a = b := by
  obtain ⟨-, ha⟩ := ha
  obtain ⟨-, hb⟩ := hb
  simp only [isoKey] at h
  simp only [year0] at ha0 hb0
  by_cases hal : a < year10000
  · by_cases hbl : b < year10000
    · rwa [if_pos hal, if_pos hbl] at h
    · rw [if_pos hal, if_neg hbl] at h
      omega
  · by_cases hbl : b < year10000
    · rw [if_neg hal, if_pos hbl] at h
      omega
    · rw [if_neg hal, if_neg hbl] at h
      omega

/-- `isoLt` ranks the instants from the year 0 on as their strings are ranked. -/
theorem isoLt_iff_toISOString (ha : IsDate a) (hb : IsDate b) (ha0 : year0 ≤ a) (hb0 : year0 ≤ b) :
    isoLt a b ↔ toISOString a < toISOString b := by
  have hlt : ∀ {x y : Int}, IsDate x → IsDate y → year0 ≤ x → year0 ≤ y → isoLt x y →
      toISOString x < toISOString y := by
    intro x y hx hy hx0 hy0 h
    obtain ⟨hx1, hx2⟩ := hx
    obtain ⟨hy1, hy2⟩ := hy
    simp only [isoLt, isoKey] at h
    by_cases hxl : x < year10000
    · by_cases hyl : y < year10000
      · rw [if_pos hxl, if_pos hyl] at h
        exact toISOString_lt hx0 hyl h
      · rw [if_pos hxl, if_neg hyl] at h
        simp only [year0] at hx0
        omega
    · by_cases hyl : y < year10000
      · exact toISOString_late_lt (not_lt.1 hxl) hy0 hyl
      · rw [if_neg hxl, if_neg hyl] at h
        exact toISOString_lt_late (not_lt.1 hxl) ⟨hy1, hy2⟩ (by omega)
  refine ⟨hlt ha hb ha0 hb0, fun h => ?_⟩
  by_contra hcon
  rcases lt_or_eq_of_le (not_lt.1 hcon) with hgt | heq
  · exact lt_asymm h (hlt hb ha hb0 ha0 hgt)
  · rw [isoKey_injective ha hb ha0 hb0 heq.symm] at h
    exact lt_irrefl _ h

end

/-! ## Links -/

section

variable {P : Platform} {cfg : Config} {now : Int} {draw : LinkDraw} {input : CreateLinkInput}
  {d d' : DeliveryDb} {link : Link} {recipients : List LinkRecipient} {url : String}

/-- `linkState`, with the deadline compared as the string it is stored as. -/
def linkStateText (now : Int) (link : Link) (c : Case) : LinkState :=
  if link.revokedAt.isSome then .revoked
  else if link.expiresAt.any fun e => decide (toISOString e ≤ toISOString now) then .expired
  else if c.status ≠ .isOpen then .caseClosed
  else if link.isExhausted then .exhausted
  else .active

/-- From the year 0 on, the order of the strings is the one `linkState` uses. -/
theorem linkState_eq_text {link : Link} (hnow : IsDate now) (hnow0 : year0 ≤ now)
    (he : ∀ e, link.expiresAt = some e → IsDate e ∧ year0 ≤ e) (c : Case) :
    linkState now link c = linkStateText now link c := by
  have hany : (link.expiresAt.any fun e => decide (isoLe e now)) =
      link.expiresAt.any fun e => decide (toISOString e ≤ toISOString now) := by
    cases hexpires : link.expiresAt with
    | none => rfl
    | some e =>
        have he' := he e hexpires
        refine decide_eq_decide.2 ?_
        rw [← not_lt (a := toISOString now)]
        exact not_lt.symm.trans (isoLt_iff_toISOString hnow he'.1 hnow0 he'.2).not
  rw [linkState, linkStateText, hany]

/-- What `createLink` stores. -/
theorem createLink_stored
    (h : createLink P cfg now draw input d = .ok ((link, recipients, url), d')) :
    link ∈ d'.links ∧ link.expiresAt = input.expiresAt ∧ link.revokedAt = none := by
  obtain ⟨⟨m, -, rfl⟩, -, -, -, rfl⟩ := createLink_ok h
  exact ⟨List.mem_append_right _ (List.mem_singleton.2 rfl), rfl, rfl⟩

/-- A deadline that is accepted lies ahead. -/
theorem createLink_future {e : Int} (he : input.expiresAt = some e)
    (h : createLink P cfg now draw input d = .ok ((link, recipients, url), d')) : now < e := by
  obtain ⟨list, -, h⟩ := Fallible.bind_eq_ok.1 h
  obtain ⟨m, -, h⟩ := Fallible.bind_eq_ok.1 h
  have hahead := (Fallible.guard_eq_ok.1 h).1
  simpa only [he, Option.any_some, decide_eq_true_eq, not_le] using hahead

/-- The states of a link that is not revoked and has a deadline. -/
theorem linkStateText_expired_iff {link : Link} (hrevoked : link.revokedAt = none) {e : Int}
    (he : link.expiresAt = some e) (t : Int) (c : Case) :
    linkStateText t link c = .expired ↔ toISOString e ≤ toISOString t := by
  rw [linkStateText, hrevoked, he]
  by_cases hle : toISOString e ≤ toISOString t
  · simp [hle]
  · simp only [Option.isSome_none, Bool.false_eq_true, if_false, Option.any_some, hle, decide_false,
      iff_false]
    split
    · exact LinkState.noConfusion
    · split
      · exact LinkState.noConfusion
      · exact LinkState.noConfusion

/-- The deadlines that `linkState` reads as `createLink` accepted them at the instant `now`.
There is nothing to read in a year after 9999, and on a clock before the year 0 only
a deadline that no earlier year separates from it. -/
def ReadsAsSet (now e : Int) : Prop :=
  year10000 ≤ now + 1 ∨ e < year10000 ∧ (year0 ≤ e ∨ yearMinus1 ≤ now + 1)

/-- The string of such a deadline is reached when the deadline is. -/
theorem toISOString_le_iff {e t : Int} (hnow : now < e) (hreads : ReadsAsSet now e) (hlater : now < t) (ht' : t < year10000) :
    toISOString e ≤ toISOString t ↔ e ≤ t := by
  rcases hreads with hlate | ⟨he', hearly⟩
  · omega
  have hlt : ∀ {x y : Int}, now < x → y < year10000 → (year0 ≤ x ∨ year0 ≤ y ∨ yearMinus1 ≤ now + 1) →
      x < y → toISOString x < toISOString y := by
    intro x y hx hy hyears h
    by_cases hx0 : year0 ≤ x
    · exact toISOString_lt hx0 hy h
    · by_cases hy0 : year0 ≤ y
      · exact toISOString_early_lt (not_le.1 hx0) hy0 hy
      · have hnow1 : yearMinus1 ≤ now + 1 := by tauto
        have hyx := (isoYear_lt_minus1 x).not.2 (by omega)
        have hyy := (isoYear_lt_minus1 y).not.2 (by omega)
        have hyx' := (isoYear_lt_0 x).2 (not_le.1 hx0)
        have hyy' := (isoYear_lt_0 y).2 (not_le.1 hy0)
        exact toISOString_lt_of_year h (by omega)
  constructor
  · intro h
    by_contra hcon
    exact not_lt.2 h (hlt hlater he' (by tauto) (not_le.1 hcon))
  · intro h
    rcases lt_or_eq_of_le h with h | rfl
    · exact (hlt hnow ht' (by tauto) h).le
    · exact le_refl _

/-- Another deadline is misread at some instant after `now`. -/
theorem exists_misread {e : Int} (hnow' : IsDate now) (he : IsDate e) (hnow : now < e)
    (hreads : ¬ ReadsAsSet now e) :
    ∃ t, now < t ∧ t < year10000 ∧ IsDate t ∧ ¬ (toISOString e ≤ toISOString t ↔ e ≤ t) := by
  simp only [ReadsAsSet, not_or, not_and, not_le] at hreads
  obtain ⟨hnow10000, hreads⟩ := hreads
  obtain ⟨hlow, hhigh⟩ := hnow'
  have hdate : ∀ t, now ≤ t → t < year10000 → IsDate t := fun t h h' =>
    ⟨hlow.trans h, by simp only [year10000] at h'; omega⟩
  by_cases hlate : year10000 ≤ e
  · -- a year of five digits sorts before every other
    refine ⟨now + 1, by omega, by omega, hdate _ (by omega) (by omega), ?_⟩
    have hlt : toISOString e < toISOString (now + 1) := by
      by_cases hnow0 : year0 ≤ now + 1
      · exact toISOString_late_lt hlate hnow0 (by omega)
      · exact toISOString_late_lt_early hlate (not_le.1 hnow0)
    intro hiff
    have := hiff.1 hlt.le
    omega
  obtain ⟨he0, hnow1⟩ := hreads (not_le.1 hlate)
  have hyear0 : year0 < year10000 := by decide
  have hminus1 : yearMinus1 < year0 := by decide
  by_cases hlast : yearMinus1 ≤ e
  · -- an earlier year sorts after the year before the year 0
    refine ⟨now + 1, by omega, by omega, hdate _ (by omega) (by omega), ?_⟩
    have hyear := (isoYear_lt_minus1 (now + 1)).2 hnow1
    have hyear' := (isoYear_lt_minus1 e).not.2 (not_lt.2 hlast)
    have hlt := toISOString_lt_early (hdate (now + 1) (by omega) (by omega)) he0
      (show isoYear (now + 1) < isoYear e by omega)
    intro hiff
    have := hiff.1 hlt.le
    omega
  · -- a deadline passes, but its string sorts after those of the years that follow
    refine ⟨yearMinus1, by omega, by omega, hdate _ (by omega) (by omega), ?_⟩
    have hyear := (isoYear_lt_minus1 e).2 (not_le.1 hlast)
    have hyear' := (isoYear_lt_minus1 yearMinus1).not.2 (lt_irrefl _)
    have hlt := toISOString_lt_early he hminus1 (show isoYear e < isoYear yearMinus1 by omega)
    intro hiff
    exact not_le.2 hlt (hiff.2 (by omega))

/-- A link expires when it says, if its deadline lies before the year 10000. -/
theorem expires_when_it_says_iff {e : Int} (hnow : IsDate now) (he : IsDate e)
    (hexpires : input.expiresAt = some e)
    (h : createLink P cfg now draw input d = .ok ((link, recipients, url), d')) :
    link ∈ d'.links ∧
    ((∀ t c, now < t → t < year10000 → (linkStateText t link c = .expired ↔ e ≤ t)) ↔
      ReadsAsSet now e) := by
  obtain ⟨hmem, hstored, hrevoked⟩ := createLink_stored h
  rw [hexpires] at hstored
  have hfuture := createLink_future hexpires h
  refine ⟨hmem, ?_⟩
  constructor
  · intro hall
    by_contra hcon
    obtain ⟨t, hlater, ht, htdate, hmisread⟩ := exists_misread hnow he hfuture hcon
    refine hmisread ?_
    rw [← linkStateText_expired_iff hrevoked hstored t ⟨"", "", "", .isOpen, 0, 0⟩]
    exact hall t _ hlater ht
  · intro hreads t c hlater ht
    rw [linkStateText_expired_iff hrevoked hstored]
    exact toISOString_le_iff hfuture hreads hlater ht

end

/-- A link for one person on an open case, made in 1970. -/
def linkUntil (e : Int) : Except Failure ((Link × List LinkRecipient × String) × DeliveryDb) :=
  createLink .sample defaultConfig 0 ⟨"1", "token", fun k => toString k⟩
    ⟨"c_1", "A", [⟨"a@b.c", .en⟩], some e, none⟩
    { DeliveryDb.empty with cases := [⟨"c_1", "Case", "", .isOpen, 0, 0⟩] }

theorem expires_when_it_says_sample :
    ∃ (link : Link) (d' : DeliveryDb), link ∈ d'.links ∧
      ((∀ t c, 0 < t → t < year10000 → (linkStateText t link c = .expired ↔ 1000 ≤ t)) ↔
        ReadsAsSet 0 1000) := by
  have hok : (linkUntil 1000).isOk = true := by decide +kernel
  cases h : linkUntil 1000 with
  | error e =>
      rw [h] at hok
      cases hok
  | ok r =>
      obtain ⟨⟨link, recipients, url⟩, d'⟩ := r
      exact ⟨link, d', expires_when_it_says_iff ⟨by decide, by decide⟩ ⟨by decide, by decide⟩ rfl h⟩

/-- A link until the year 10000 is accepted and has expired at once. -/
theorem accepted_and_expired :
    (linkUntil year10000).toOption.map
        (fun r => linkStateText 1 r.1.1 ⟨"c_1", "Case", "", .isOpen, 0, 0⟩) = some .expired ∧
      1 < year10000 := by
  decide +kernel

end Outletbox
