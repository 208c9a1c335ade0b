import Mathlib

/-!
# Instants and the order of their ISO strings

An instant is its number of milliseconds since 1970, as in a JavaScript `Date`.
Time stamps are stored as the strings `toISOString` returns and are compared as
strings.  From the year 0 to the year 9999 these strings have four-digit years
and order like the instants; from the year 10000 on they start with `+`, which
sorts before every digit.  `isoKey` ranks an instant as its string is ranked:
every representable date is less than `10 ^ 16`.
-/

namespace Outletbox

/-- The first instant of the year 10000. -/
def year10000 : Int := 253402300800000

/-- The rank of an instant's ISO string among those of the instants from the year 0 on.  (A year
before it is written with a minus sign, and no clock shows one.) -/
def isoKey (t : Int) : Int := if t < year10000 then t else t - 10 ^ 16

/-- `a < b` as ISO strings. -/
abbrev isoLt (a b : Int) : Prop := isoKey a < isoKey b

/-- `a <= b` as ISO strings. -/
abbrev isoLe (a b : Int) : Prop := isoKey a ≤ isoKey b

/-- A string that sorts after one of before the year 10000 names a later instant. -/
theorem lt_of_isoLt {a b : Int} (ha : a < year10000) (h : isoLt a b) : a < b := by
  simp only [isoLt, isoKey, if_pos ha] at h
  by_cases hb : b < year10000
  · simpa only [if_pos hb] using h
  · exact lt_of_lt_of_le ha (not_lt.1 hb)

/-- Up to the year 9999 the strings order like the instants. -/
theorem isoLt_iff {a b : Int} (ha : a < year10000) (hb : b < year10000) :
    isoLt a b ↔ a < b := by
  simp only [isoLt, isoKey, if_pos ha, if_pos hb]

theorem isoLe_iff {a b : Int} (ha : a < year10000) (hb : b < year10000) :
    isoLe a b ↔ a ≤ b := by
  simp only [isoLe, isoKey, if_pos ha, if_pos hb]

/-- One hour, in milliseconds. -/
def hourMs : Int := 3600000

end Outletbox
