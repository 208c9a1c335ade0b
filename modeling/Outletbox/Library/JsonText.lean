import Outletbox.Library.Utf16

/-!
# JSON texts

`JSON.stringify` and `JSON.parse`, on texts of UTF-16 units.  Numbers belong to
a format: how one is printed and which one a token denotes.

The writer takes its quoting of strings as a parameter.  Any quoting that can be
read back gives texts that can be read back, so a text whose strings are quoted
with more care than `JSON.stringify` takes still denotes the same value.
-/

namespace JsonText

open Utf16 (Units unit text isHigh isLow)

/-! ## Strings -/

/-- The last hexadecimal digit of a number. -/
def hexDigit (n : Nat) : UInt16 := unit ((n % 16).digitChar)

/-- The number a hexadecimal digit stands for. -/
def hexValue (u : UInt16) : Option Nat :=
  if unit '0' ≤ u ∧ u ≤ unit '9' then some (u - unit '0').toNat
  else if unit 'a' ≤ u ∧ u ≤ unit 'f' then some (u - unit 'a' + 10).toNat
  else if unit 'A' ≤ u ∧ u ≤ unit 'F' then some (u - unit 'A' + 10).toNat
  else none

/-- The unit four hexadecimal digits write. -/
def hexUnit (a b c d : UInt16) : Option UInt16 := do
  let a ← hexValue a
  let b ← hexValue b
  let c ← hexValue c
  let d ← hexValue d
  some (UInt16.ofNat (((a * 16 + b) * 16 + c) * 16 + d))

/-- A unit as `\u` and four digits. -/
def unicodeEscape (u : UInt16) : Units :=
  [unit '\\', unit 'u', hexDigit (u.toNat / 4096), hexDigit (u.toNat / 256),
    hexDigit (u.toNat / 16), hexDigit u.toNat]

/-- The escapes of two units: the letter, and the unit it stands for. -/
def shortEscapes : List (UInt16 × UInt16) :=
  [(unit '"', unit '"'), (unit '\\', unit '\\'), (unit 'b', 8), (unit 'f', 12), (unit 'n', 10),
    (unit 'r', 13), (unit 't', 9)]

/-- A unit that is not half of a surrogate pair, inside a quoted string. -/
def quoteUnit (u : UInt16) : Units :=
  match shortEscapes.find? fun e => e.2 == u with
  | some e => [unit '\\', e.1]
  | none => if u < 0x20 || isHigh u || isLow u then unicodeEscape u else [u]

/-- What `JSON.stringify` writes between the quotation marks. -/
def quote : Units → Units
  | [] => []
  | [u] => quoteUnit u
  | u :: v :: s =>
      if isHigh u && isLow v then u :: v :: quote s else quoteUnit u ++ quote (v :: s)

/-- The unit a letter after a backslash stands for. -/
def shortEscape (u : UInt16) : Option UInt16 :=
  if u = unit '/' then some (unit '/') else (shortEscapes.find? fun e => e.1 == u).map (·.2)

/-- A string, read from after its opening quotation mark. -/
def readString : Units → Option (Units × Units)
  | [] => none
  | u :: t =>
      if u = unit '"' then some ([], t)
      else if u = unit '\\' then
        match t with
        | [] => none
        | e :: t =>
            if e = unit 'u' then
              match t with
              | a :: b :: c :: d :: t => do
                  let v ← hexUnit a b c d
                  let (s, rest) ← readString t
                  some (v :: s, rest)
              | _ => none
            else do
              let v ← shortEscape e
              let (s, rest) ← readString t
              some (v :: s, rest)
      else if u < 0x20 then none
      else do
        let (s, rest) ← readString t
        some (u :: s, rest)

theorem hexValue_hexDigit (n : Nat) : hexValue (hexDigit n) = some (n % 16) := by
  have hall : ∀ d : Fin 16, hexValue (unit d.val.digitChar) = some d.val := by decide
  exact hall ⟨n % 16, Nat.mod_lt _ (by decide)⟩

theorem hexUnit_hexDigit (u : UInt16) :
    hexUnit (hexDigit (u.toNat / 4096)) (hexDigit (u.toNat / 256)) (hexDigit (u.toNat / 16))
      (hexDigit u.toNat) = some u := by
  have hlt : u.toNat < 65536 := u.toNat_lt
  have hdigits : ((u.toNat / 4096 % 16 * 16 + u.toNat / 256 % 16) * 16 + u.toNat / 16 % 16) * 16 +
      u.toNat % 16 = u.toNat := by omega
  simp only [hexUnit, hexValue_hexDigit, Option.bind_eq_bind, Option.bind_some, hdigits,
    UInt16.ofNat_toNat]

/-- A string that continues with a unit. -/
def push (u : UInt16) (read : Option (Units × Units)) : Option (Units × Units) :=
  read.map fun p => (u :: p.1, p.2)

theorem bind_push (read : Option (Units × Units)) (u : UInt16) :
    (do let (s, rest) ← read; some (u :: s, rest)) = push u read := by
  cases read <;> rfl

theorem readString_close (t : Units) : readString (unit '"' :: t) = some ([], t) := by
  rw [readString.eq_def]
  exact if_pos rfl

theorem readString_plain {u : UInt16} (hquote : u ≠ unit '"') (hescape : u ≠ unit '\\')
    (hcontrol : ¬u < 0x20) (t : Units) : readString (u :: t) = push u (readString t) := by
  rw [readString.eq_def]
  simp only [if_neg hquote, if_neg hescape, if_neg hcontrol]
  exact bind_push _ _

theorem readString_short {e v : UInt16} (he : e ≠ unit 'u') (h : shortEscape e = some v)
    (t : Units) : readString (unit '\\' :: e :: t) = push v (readString t) := by
  have hquote : unit '\\' ≠ unit '"' := by decide
  rw [readString.eq_def]
  simp only [if_neg hquote, if_true, if_neg he, h]
  exact bind_push _ _

theorem readString_unicode {a b c d v : UInt16} (h : hexUnit a b c d = some v) (t : Units) :
    readString (unit '\\' :: unit 'u' :: a :: b :: c :: d :: t) = push v (readString t) := by
  have hquote : unit '\\' ≠ unit '"' := by decide
  rw [readString.eq_def]
  simp only [if_neg hquote, if_true, h]
  exact bind_push _ _

/-- A piece of a quoted string denotes a unit. -/
def Piece (piece : Units) (u : UInt16) : Prop :=
  ∀ t, readString (piece ++ t) = push u (readString t)

theorem piece_unicodeEscape (u : UInt16) : Piece (unicodeEscape u) u :=
  readString_unicode (hexUnit_hexDigit u)

theorem piece_self {u : UInt16} (hquote : u ≠ unit '"') (hescape : u ≠ unit '\\')
    (hcontrol : ¬u < 0x20) : Piece [u] u :=
  readString_plain hquote hescape hcontrol

/-- Both units with a letter of their own are read back. -/
theorem shortEscapes_read {e : UInt16 × UInt16} (he : e ∈ shortEscapes) :
    e.1 ≠ unit 'u' ∧ shortEscape e.1 = some e.2 := by
  have hall : shortEscapes.all fun e => e.1 != unit 'u' && shortEscape e.1 == some e.2 := by decide
  simpa using List.all_eq_true.1 hall e he

theorem piece_quoteUnit (u : UInt16) : Piece (quoteUnit u) u := by
  rw [quoteUnit]
  cases hfind : shortEscapes.find? fun e => e.2 == u with
  | some e =>
      have hu : e.2 = u := by simpa using List.find?_some hfind
      obtain ⟨he, hread⟩ := shortEscapes_read (List.mem_of_find?_eq_some hfind)
      exact hu ▸ readString_short he hread
  | none =>
      by_cases hcontrol : u < 0x20 || isHigh u || isLow u
      · rw [if_pos hcontrol]
        exact piece_unicodeEscape u
      · have hself : ∀ e ∈ shortEscapes, u ≠ e.2 := fun e he hu =>
          absurd (List.find?_eq_none.1 hfind e he) (by simp [hu])
        rw [if_neg hcontrol]
        rw [Bool.or_eq_true, Bool.or_eq_true, decide_eq_true_iff, not_or, not_or] at hcontrol
        exact piece_self (hself (unit '"', unit '"') (by decide))
          (hself (unit '\\', unit '\\') (by decide)) hcontrol.1.1

/-! ## Strings quoted with more care -/

/-- The units that escapes are made of. -/
def escapeAlphabet : Units := text "\\\"bfnrtu0123456789acde"

theorem unicodeEscape_alphabet (u : UInt16) : ∀ v ∈ unicodeEscape u, v ∈ escapeAlphabet := by
  have hhex : ∀ n, hexDigit n ∈ escapeAlphabet := fun n => by
    have hall : ∀ d : Fin 16, unit d.val.digitChar ∈ escapeAlphabet := by decide +kernel
    exact hall ⟨n % 16, Nat.mod_lt _ (by decide)⟩
  refine List.forall_mem_cons.2 ⟨by decide +kernel, ?_⟩
  refine List.forall_mem_cons.2 ⟨by decide +kernel, ?_⟩
  exact List.forall_mem_cons.2 ⟨hhex _, List.forall_mem_cons.2 ⟨hhex _,
    List.forall_mem_cons.2 ⟨hhex _, List.forall_mem_singleton.2 (hhex _)⟩⟩⟩

/-- A quoted unit is made of escapes, or itself. -/
theorem quoteUnit_cases (u : UInt16) :
    (∀ v ∈ quoteUnit u, v ∈ escapeAlphabet) ∨ quoteUnit u = [u] := by
  have hshort : (shortEscapes.all fun e => escapeAlphabet.contains e.1) = true := by decide +kernel
  rw [quoteUnit]
  cases hfind : shortEscapes.find? fun e => e.2 == u with
  | some e =>
      have he := List.all_eq_true.1 hshort e (List.mem_of_find?_eq_some hfind)
      refine .inl (List.forall_mem_cons.2 ⟨by decide +kernel, ?_⟩)
      exact List.forall_mem_singleton.2 (List.contains_iff_mem.1 he)
  | none =>
      by_cases hcontrol : u < 0x20 || isHigh u || isLow u
      · rw [if_pos hcontrol]
        exact .inl (unicodeEscape_alphabet u)
      · rw [if_neg hcontrol]
        exact .inr rfl

/-- A unit of a JSON text, escaped when it is one of the special ones. -/
def escape (special : Units) (u : UInt16) : Units :=
  if u ∈ special then unicodeEscape u else [u]

variable {special : Units}

theorem flatMap_escape_of_disjoint {t : Units} (h : ∀ u ∈ t, u ∉ special) :
    t.flatMap (escape special) = t := by
  induction t with
  | nil => rfl
  | cons u t ih =>
      obtain ⟨hu, ht⟩ := List.forall_mem_cons.1 h
      rw [List.flatMap_cons, escape, if_neg hu, ih ht]
      rfl

theorem piece_escape {u : UInt16} (h : Piece [u] u) : Piece (escape special u) u := by
  rw [escape]
  split
  · exact piece_unicodeEscape u
  · exact h

/-- Escaping leaves what a quoted unit denotes, when no escape holds a special unit. -/
theorem piece_flatMap_escape (hspecial : ∀ u ∈ escapeAlphabet, u ∉ special) (u : UInt16) :
    Piece ((quoteUnit u).flatMap (escape special)) u := by
  have hquote := piece_quoteUnit u
  obtain hall | hself := quoteUnit_cases u
  · rw [flatMap_escape_of_disjoint fun v hv => hspecial v (hall v hv)]
    exact hquote
  · rw [hself] at hquote ⊢
    rw [List.flatMap_singleton]
    exact piece_escape hquote

theorem piece_surrogate {u : UInt16} (h : isHigh u ∨ isLow u) : Piece [u] u := by
  have hge : (0xd800 : UInt16) ≤ u := by
    obtain h | h := h
    · exact of_decide_eq_true (Bool.and_eq_true_iff.1 h).1
    · have hlow : (0xdc00 : UInt16) ≤ u := of_decide_eq_true (Bool.and_eq_true_iff.1 h).1
      have hlt : (0xd800 : UInt16) ≤ 0xdc00 := by decide
      exact UInt16.le_trans hlt hlow
  have hcontrol : (0x20 : UInt16) ≤ 0xd800 := by decide
  refine piece_self ?_ ?_ (UInt16.not_lt.2 (UInt16.le_trans hcontrol hge))
  · rintro rfl
    exact absurd hge (by decide)
  · rintro rfl
    exact absurd hge (by decide)

/-- An escaped text holds no special unit. -/
theorem not_mem_flatMap_escape (hspecial : ∀ u ∈ escapeAlphabet, u ∉ special) {t : Units}
    {u : UInt16} (hu : u ∈ special) : u ∉ t.flatMap (escape special) := by
  intro hmem
  obtain ⟨v, -, hv⟩ := List.mem_flatMap.1 hmem
  rw [escape] at hv
  split at hv
  · exact hspecial u (unicodeEscape_alphabet v u hv) hu
  · rename_i hnot
    exact hnot (List.mem_singleton.1 hv ▸ hu)

/-- A way to write strings that can be read. -/
def Legible (quoting : Units → Units) : Prop :=
  ∀ s t, readString (quoting s ++ unit '"' :: t) = some (s, t)

/-- Escaping more units than it takes leaves a string legible. -/
theorem legible_escape (hspecial : ∀ u ∈ escapeAlphabet, u ∉ special) :
    Legible fun s => (quote s).flatMap (escape special) := by
  intro s t
  dsimp only
  fun_induction quote s with
  | case1 => exact readString_close t
  | case2 u =>
      rw [piece_flatMap_escape hspecial, readString_close]
      rfl
  | case3 u v s hpair ih =>
      rw [Bool.and_eq_true] at hpair
      rw [List.flatMap_cons, List.flatMap_cons, List.append_assoc, List.append_assoc,
        piece_escape (piece_surrogate (.inl hpair.1)),
        piece_escape (piece_surrogate (.inr hpair.2)), ih]
      rfl
  | case4 u v s hpair ih =>
      rw [List.flatMap_append, List.append_assoc, piece_flatMap_escape hspecial, ih]
      rfl

/-! ## Numbers -/

def isDigit (u : UInt16) : Bool := unit '0' ≤ u && u ≤ unit '9'

/-- A unit of a number. -/
def isNumberUnit (u : UInt16) : Bool := isDigit u || (text "+-.eE").contains u

/-- The end of a number: an exponent, or nothing. -/
def isExponent : Units → Bool
  | [] => true
  | e :: t =>
      let digits := if t.head? = some (unit '+') ∨ t.head? = some (unit '-') then t.tail else t
      (e == unit 'e' || e == unit 'E') && !digits.isEmpty && digits.all isDigit

/-- What may follow the integer part of a number. -/
def isFraction : Units → Bool
  | [] => true
  | u :: t =>
      if u = unit '.' then !(t.takeWhile isDigit).isEmpty && isExponent (t.dropWhile isDigit)
      else isExponent (u :: t)

/-- `(0|[1-9]\d*)(\.\d+)?([eE][+-]?\d+)?` -/
def isUnsigned (t : Units) : Bool :=
  if t.head? = some (unit '0') then isFraction t.tail
  else !(t.takeWhile isDigit).isEmpty && isFraction (t.dropWhile isDigit)

/-- A number, with or without a minus sign. -/
def isNumber (t : Units) : Bool :=
  if t.head? = some (unit '-') then isUnsigned t.tail else isUnsigned t

/-- How numbers are printed, and which one a token denotes: reading what is
printed gives the number back. -/
structure NumberFormat (ν : Type) where
  print : ν → Units
  value : Units → ν
  isNumber_print : ∀ n, isNumber (print n)
  value_print : ∀ n, value (print n) = n

theorem isNumberUnit_of_isDigit {u : UInt16} (h : isDigit u) : isNumberUnit u :=
  Bool.or_eq_true_iff.2 (.inl h)

/-- After an optional first unit that is a unit of numbers, only such units. -/
theorem units_of_tail {t : Units} {c : UInt16} (hc : isNumberUnit c) (hhead : t.head? = some c)
    (h : ∀ u ∈ t.tail, isNumberUnit u) : ∀ u ∈ t, isNumberUnit u := by
  obtain ⟨rest, rfl⟩ := List.head?_eq_some_iff.1 hhead
  exact List.forall_mem_cons.2 ⟨hc, h⟩

/-- A run of digits, then units of numbers. -/
theorem units_of_digits {t : Units} (h : ∀ u ∈ t.dropWhile isDigit, isNumberUnit u) :
    ∀ u ∈ t, isNumberUnit u := by
  intro u hu
  rw [← List.takeWhile_append_dropWhile (p := isDigit) (l := t), List.mem_append] at hu
  obtain hu | hu := hu
  · exact isNumberUnit_of_isDigit (List.mem_takeWhile_imp hu)
  · exact h u hu

theorem isExponent_units {t : Units} (h : isExponent t) : ∀ u ∈ t, isNumberUnit u := by
  cases t with
  | nil => exact List.forall_mem_nil _
  | cons e t =>
      simp only [isExponent, Bool.and_eq_true, Bool.or_eq_true, beq_iff_eq] at h
      obtain ⟨⟨he, -⟩, hdigits⟩ := h
      refine List.forall_mem_cons.2 ⟨?_, ?_⟩
      · obtain rfl | rfl := he <;> decide +kernel
      · split at hdigits
        · rename_i hsign
          have htail : ∀ u ∈ t.tail, isNumberUnit u := fun u hu =>
            isNumberUnit_of_isDigit (List.all_eq_true.1 hdigits u hu)
          obtain hsign | hsign := hsign
          · exact units_of_tail (by decide +kernel) hsign htail
          · exact units_of_tail (by decide +kernel) hsign htail
        · exact fun u hu => isNumberUnit_of_isDigit (List.all_eq_true.1 hdigits u hu)

theorem isFraction_units {t : Units} (h : isFraction t) : ∀ u ∈ t, isNumberUnit u := by
  cases t with
  | nil => exact List.forall_mem_nil _
  | cons u t =>
      rw [isFraction] at h
      split at h
      · rename_i hpoint
        rw [Bool.and_eq_true] at h
        refine List.forall_mem_cons.2 ⟨?_, units_of_digits (isExponent_units h.2)⟩
        rw [hpoint]
        decide +kernel
      · exact isExponent_units h

theorem isUnsigned_units {t : Units} (h : isUnsigned t) : ∀ u ∈ t, isNumberUnit u := by
  rw [isUnsigned] at h
  split at h
  · rename_i hzero
    exact units_of_tail (by decide +kernel) hzero (isFraction_units h)
  · rw [Bool.and_eq_true] at h
    exact units_of_digits (isFraction_units h.2)

theorem isNumber_units {t : Units} (h : isNumber t) : ∀ u ∈ t, isNumberUnit u := by
  rw [isNumber] at h
  split at h
  · rename_i hsign
    exact units_of_tail (by decide +kernel) hsign (isUnsigned_units h)
  · exact isUnsigned_units h

theorem isNumber_ne_nil {t : Units} (h : isNumber t) : t ≠ [] := by
  rintro rfl
  cases h

/-- The decimal digits of a number, the first one first. -/
def decimal (n : Nat) : Units :=
  if n = 0 then [unit '0'] else (Nat.digits 10 n).reverse.map fun d => UInt16.ofNat (48 + d)

/-- The number that decimal digits write. -/
def decimalValue (t : Units) : Nat := Nat.ofDigits 10 (t.reverse.map fun u => u.toNat - 48)

theorem isDigit_ofNat {d : Nat} (hd : d < 10) : isDigit (UInt16.ofNat (48 + d)) := by
  have hall : ∀ d : Fin 10, isDigit (UInt16.ofNat (48 + d.val)) := by decide
  exact hall ⟨d, hd⟩

theorem decimal_digits {n : Nat} (hn : n ≠ 0) : ∀ u ∈ decimal n, isDigit u := by
  intro u hu
  rw [decimal, if_neg hn] at hu
  obtain ⟨d, hd, rfl⟩ := List.mem_map.1 hu
  exact isDigit_ofNat (Nat.digits_lt_base (by decide) (List.mem_reverse.1 hd))

/-- The first digit of a number is not zero. -/
theorem decimal_head {n : Nat} (hn : n ≠ 0) :
    ∃ d, d < 10 ∧ d ≠ 0 ∧ (decimal n).head? = some (UInt16.ofNat (48 + d)) := by
  have hne : Nat.digits 10 n ≠ [] := Nat.digits_ne_nil_iff_ne_zero.2 hn
  refine ⟨(Nat.digits 10 n).getLast hne,
    Nat.digits_lt_base (by decide) (List.getLast_mem hne), Nat.getLast_digit_ne_zero 10 hn, ?_⟩
  rw [decimal, if_neg hn, List.head?_map, List.head?_reverse, List.getLast?_eq_some_getLast hne]
  rfl

theorem isNumber_decimal (n : Nat) : isNumber (decimal n) := by
  by_cases hn : n = 0
  · subst hn
    decide +kernel
  obtain ⟨d, hd, hzero, hhead⟩ := decimal_head hn
  have hne : ∀ d : Fin 10, UInt16.ofNat (48 + d.val) ≠ unit '-' := by decide
  have hne' : ∀ d : Fin 10, d ≠ 0 → UInt16.ofNat (48 + d.val) ≠ unit '0' := by decide
  have hsign : (decimal n).head? ≠ some (unit '-') := by
    rw [hhead]
    exact fun h => hne ⟨d, hd⟩ (Option.some_inj.1 h)
  have hlead : (decimal n).head? ≠ some (unit '0') := by
    rw [hhead]
    exact fun h => hne' ⟨d, hd⟩ (fun h0 => hzero (congrArg Fin.val h0)) (Option.some_inj.1 h)
  have htake : (decimal n).takeWhile isDigit = decimal n :=
    List.takeWhile_eq_self_iff.2 (decimal_digits hn)
  have hdrop : (decimal n).dropWhile isDigit = [] := by
    rw [List.dropWhile_eq_nil_iff]
    exact decimal_digits hn
  rw [isNumber, if_neg hsign, isUnsigned, if_neg hlead, htake, hdrop]
  cases h : decimal n with
  | nil => rw [h] at hhead; cases hhead
  | cons u t => rfl

theorem decimalValue_decimal (n : Nat) : decimalValue (decimal n) = n := by
  by_cases hn : n = 0
  · subst hn
    decide +kernel
  have hdigits : ((Nat.digits 10 n).map fun d => (UInt16.ofNat (48 + d)).toNat - 48) =
      Nat.digits 10 n := by
    refine (List.map_congr_left fun d hd => ?_).trans (List.map_id _)
    have hlt : d < 10 := Nat.digits_lt_base (by decide) hd
    rw [UInt16.toNat_ofNat_of_lt' (show 48 + d < 65536 by omega), Nat.add_sub_cancel_left]
    rfl
  rw [decimalValue, decimal, if_neg hn, ← List.map_reverse, List.reverse_reverse, List.map_map]
  exact (congrArg _ hdigits).trans (Nat.ofDigits_digits 10 n)

/-- The natural numbers, printed in decimal digits. -/
def naturals : NumberFormat Nat where
  print := decimal
  value := decimalValue
  isNumber_print := isNumber_decimal
  value_print := decimalValue_decimal

/-! ## Values -/

/-- A JSON value.  The members of an object come in its own order. -/
inductive Value (ν : Type) where
  | null
  | bool (b : Bool)
  | num (n : ν)
  | str (s : Units)
  | arr (items : List (Value ν))
  | obj (members : List (Units × Value ν))

/-- No object has two members of one name. -/
inductive Value.Distinct {ν : Type} : Value ν → Prop
  | null : Distinct .null
  | bool (b : Bool) : Distinct (.bool b)
  | num (n : ν) : Distinct (.num n)
  | str (s : Units) : Distinct (.str s)
  | arr (items : List (Value ν)) (h : ∀ v ∈ items, v.Distinct) : Distinct (.arr items)
  | obj (members : List (Units × Value ν)) (hnames : (members.map Prod.fst).Nodup)
      (h : ∀ m ∈ members, m.2.Distinct) : Distinct (.obj members)

/-- A value as JavaScript holds it. -/
abbrev Data (ν : Type) := {v : Value ν // v.Distinct}

section

variable {ν : Type} (F : NumberFormat ν) (quoting : Units → Units)

/-- A string between quotation marks. -/
def writeString (s : Units) : Units := unit '"' :: (quoting s ++ [unit '"'])

mutual

/-- The text of a value, without white space. -/
def write : Value ν → Units
  | .null => text "null"
  | .bool true => text "true"
  | .bool false => text "false"
  | .num n => F.print n
  | .str s => writeString quoting s
  | .arr items => unit '[' :: (writeItems items ++ [unit ']'])
  | .obj members => unit '{' :: (writeMembers members ++ [unit '}'])

def writeItems : List (Value ν) → Units
  | [] => []
  | [v] => write v
  | v :: w :: items => write v ++ unit ',' :: writeItems (w :: items)

def writeMembers : List (Units × Value ν) → Units
  | [] => []
  | [(name, v)] => writeString quoting name ++ unit ':' :: write v
  | (name, v) :: m :: members =>
      writeString quoting name ++ unit ':' :: (write v ++ unit ',' :: writeMembers (m :: members))

end

/-- `JSON.stringify`. -/
def stringify (v : Value ν) : Units := write F quote v

def isSpace (u : UInt16) : Bool := u == 0x20 || u == 9 || u == 10 || u == 13

def skipSpace (t : Units) : Units := t.dropWhile isSpace

/-- A member is set: a later one of the same name takes the place of an earlier one. -/
def setMember (members : List (Units × Value ν)) (m : Units × Value ν) :
    List (Units × Value ν) :=
  if m.1 ∈ members.map Prod.fst then
    members.map fun old => if old.1 = m.1 then m else old
  else members ++ [m]

/-- The object that members set one by one make. -/
def collect (members : List (Units × Value ν)) : List (Units × Value ν) :=
  members.foldl setMember []

/-- A number, at the start of a text. -/
def parseNumber (t : Units) : Option (Value ν × Units) :=
  if isNumber (t.takeWhile isNumberUnit) then
    some (.num (F.value (t.takeWhile isNumberUnit)), t.dropWhile isNumberUnit)
  else none

/-- The name of a member, with the colon after it. -/
def parseName (t : Units) : Option (Units × Units) :=
  match skipSpace t with
  | [] => none
  | u :: t =>
      if u = unit '"' then
        (readString t).bind fun (name, t) =>
          match skipSpace t with
          | [] => none
          | u :: t => if u = unit ':' then some (name, t) else none
      else none

mutual

/-- A value, and the text after it. -/
def parseValue : Nat → Units → Option (Value ν × Units)
  | 0, _ => none
  | fuel + 1, t =>
      match skipSpace t with
      | [] => none
      | u :: rest =>
          if u = unit '"' then (readString rest).map fun (s, t) => (.str s, t)
          else if u = unit '[' then
            if (skipSpace rest).head? = some (unit ']') then some (.arr [], (skipSpace rest).tail)
            else (parseItems fuel rest).map fun (items, t) => (.arr items, t)
          else if u = unit '{' then
            if (skipSpace rest).head? = some (unit '}') then some (.obj [], (skipSpace rest).tail)
            else (parseMembers fuel rest).map fun (members, t) => (.obj (collect members), t)
          else if (text "null").isPrefixOf (u :: rest) then some (.null, rest.drop 3)
          else if (text "true").isPrefixOf (u :: rest) then some (.bool true, rest.drop 3)
          else if (text "false").isPrefixOf (u :: rest) then some (.bool false, rest.drop 4)
          else parseNumber F (u :: rest)

/-- The items of an array, and the text after its closing bracket. -/
def parseItems : Nat → Units → Option (List (Value ν) × Units)
  | 0, _ => none
  | fuel + 1, t =>
      (parseValue fuel t).bind fun (v, t) =>
        match skipSpace t with
        | [] => none
        | u :: t =>
            if u = unit ',' then (parseItems fuel t).map fun (items, t) => (v :: items, t)
            else if u = unit ']' then some ([v], t) else none

/-- The members of an object, and the text after its closing brace. -/
def parseMembers : Nat → Units → Option (List (Units × Value ν) × Units)
  | 0, _ => none
  | fuel + 1, t =>
      (parseName t).bind fun (name, t) =>
        (parseValue fuel t).bind fun (v, t) =>
          match skipSpace t with
          | [] => none
          | u :: t =>
              if u = unit ',' then
                (parseMembers fuel t).map fun (members, t) => ((name, v) :: members, t)
              else if u = unit '}' then some ([(name, v)], t) else none

end

/-- `JSON.parse`, unless it throws. -/
def parse (t : Units) : Option (Value ν) :=
  (parseValue F (t.length + 1) t).bind fun (v, rest) =>
    if skipSpace rest = [] then some v else none

/-! ## What is written is read back -/

/-- What may follow a number. -/
def Stops (t : Units) : Prop := ∀ u ∈ t.head?, isNumberUnit u = false

theorem stops_nil : Stops [] := nofun

theorem stops_cons {u : UInt16} {t : Units} (h : isNumberUnit u = false) : Stops (u :: t) :=
  fun _ hu => Option.some_inj.1 hu ▸ h

theorem Stops.takeWhile {t : Units} (h : Stops t) : t.takeWhile isNumberUnit = [] := by
  cases t with
  | nil => rfl
  | cons u t => exact List.takeWhile_cons_of_neg (by rw [h u rfl]; decide)

theorem Stops.dropWhile {t : Units} (h : Stops t) : t.dropWhile isNumberUnit = t := by
  cases t with
  | nil => rfl
  | cons u t => exact List.dropWhile_cons_of_neg (by rw [h u rfl]; decide)

theorem skipSpace_cons {u : UInt16} {t : Units} (h : isSpace u = false) :
    skipSpace (u :: t) = u :: t :=
  List.dropWhile_cons_of_neg (by rw [h]; decide)

variable {F quoting}

theorem parseValue_cons {fuel : Nat} {u : UInt16} {rest : Units} (h : isSpace u = false) :
    parseValue F (fuel + 1) (u :: rest) =
      if u = unit '"' then (readString rest).map fun (s, t) => (.str s, t)
      else if u = unit '[' then
        if (skipSpace rest).head? = some (unit ']') then some (.arr [], (skipSpace rest).tail)
        else (parseItems F fuel rest).map fun (items, t) => (.arr items, t)
      else if u = unit '{' then
        if (skipSpace rest).head? = some (unit '}') then some (.obj [], (skipSpace rest).tail)
        else (parseMembers F fuel rest).map fun (members, t) => (.obj (collect members), t)
      else if (text "null").isPrefixOf (u :: rest) then some (.null, rest.drop 3)
      else if (text "true").isPrefixOf (u :: rest) then some (.bool true, rest.drop 3)
      else if (text "false").isPrefixOf (u :: rest) then some (.bool false, rest.drop 4)
      else parseNumber F (u :: rest) := by
  rw [parseValue, skipSpace_cons h]

theorem isPrefixOf_of_head {word rest : Units} {c u : UInt16} (hword : word.head? = some c)
    (h : u ≠ c) : word.isPrefixOf (u :: rest) = false := by
  obtain ⟨word, rfl⟩ := List.head?_eq_some_iff.1 hword
  rw [List.isPrefixOf_cons_cons, beq_eq_false_iff_ne.2 h.symm, Bool.false_and]

theorem isPrefixOf_self (word rest : Units) : word.isPrefixOf (word ++ rest) :=
  List.isPrefixOf_iff_prefix.2 (List.prefix_append word rest)

/-- A value is read from its text, whatever a number cannot go on with follows. -/
def Reads (F : NumberFormat ν) (quoting : Units → Units) (v : Value ν) : Prop :=
  ∀ fuel rest, (write F quoting v).length ≤ fuel + 1 → Stops rest →
    parseValue F (fuel + 1) (write F quoting v ++ rest) = some (v, rest)

theorem reads_null : Reads F quoting .null := by
  intro fuel rest _ _
  have hword : (text "null").isPrefixOf (unit 'n' :: (text "ull" ++ rest)) :=
    isPrefixOf_self (text "null") rest
  change parseValue F (fuel + 1) (unit 'n' :: (text "ull" ++ rest)) = _
  rw [parseValue_cons (by decide), if_neg (by decide), if_neg (by decide), if_neg (by decide),
    if_pos hword]
  rfl

theorem reads_true : Reads F quoting (.bool true) := by
  intro fuel rest _ _
  have hword : (text "true").isPrefixOf (unit 't' :: (text "rue" ++ rest)) :=
    isPrefixOf_self (text "true") rest
  have hnull : (text "null").isPrefixOf (unit 't' :: (text "rue" ++ rest)) = false :=
    isPrefixOf_of_head (c := unit 'n') (by decide +kernel) (by decide)
  change parseValue F (fuel + 1) (unit 't' :: (text "rue" ++ rest)) = _
  rw [parseValue_cons (by decide), if_neg (by decide), if_neg (by decide), if_neg (by decide),
    if_neg (by rw [hnull]; decide), if_pos hword]
  rfl

theorem reads_false : Reads F quoting (.bool false) := by
  intro fuel rest _ _
  have hword : (text "false").isPrefixOf (unit 'f' :: (text "alse" ++ rest)) :=
    isPrefixOf_self (text "false") rest
  have hnull : (text "null").isPrefixOf (unit 'f' :: (text "alse" ++ rest)) = false :=
    isPrefixOf_of_head (c := unit 'n') (by decide +kernel) (by decide)
  have htrue : (text "true").isPrefixOf (unit 'f' :: (text "alse" ++ rest)) = false :=
    isPrefixOf_of_head (c := unit 't') (by decide +kernel) (by decide)
  change parseValue F (fuel + 1) (unit 'f' :: (text "alse" ++ rest)) = _
  rw [parseValue_cons (by decide), if_neg (by decide), if_neg (by decide), if_neg (by decide),
    if_neg (by rw [hnull]; decide), if_neg (by rw [htrue]; decide), if_pos hword]
  rfl

theorem ne_of_isNumberUnit {u c : UInt16} (h : isNumberUnit u) (hc : isNumberUnit c = false) :
    u ≠ c := by
  rintro rfl
  rw [hc] at h
  cases h

theorem isSpace_of_isNumberUnit {u : UInt16} (h : isNumberUnit u) : isSpace u = false := by
  simp only [isSpace, Bool.or_eq_false_iff, beq_eq_false_iff_ne]
  exact ⟨⟨⟨ne_of_isNumberUnit h (by decide +kernel), ne_of_isNumberUnit h (by decide +kernel)⟩,
    ne_of_isNumberUnit h (by decide +kernel)⟩, ne_of_isNumberUnit h (by decide +kernel)⟩

/-- Units of numbers start no other value. -/
theorem parseValue_number {fuel : Nat} {u : UInt16} {rest : Units} (h : isNumberUnit u) :
    parseValue F (fuel + 1) (u :: rest) = parseNumber F (u :: rest) := by
  have hne : ∀ c, isNumberUnit c = false → u ≠ c := fun c => ne_of_isNumberUnit h
  have hword : ∀ (word : Units) (c : UInt16), word.head? = some c → isNumberUnit c = false →
      ¬word.isPrefixOf (u :: rest) := fun word c hhead hc => by
    rw [isPrefixOf_of_head hhead (hne c hc)]
    decide
  rw [parseValue_cons (isSpace_of_isNumberUnit h), if_neg (hne _ (by decide +kernel)),
    if_neg (hne _ (by decide +kernel)), if_neg (hne _ (by decide +kernel)),
    if_neg (hword _ (unit 'n') (by decide +kernel) (by decide +kernel)),
    if_neg (hword _ (unit 't') (by decide +kernel) (by decide +kernel)),
    if_neg (hword _ (unit 'f') (by decide +kernel) (by decide +kernel))]

theorem reads_num (n : ν) : Reads F quoting (.num n) := by
  intro fuel rest _ hrest
  have hunits := isNumber_units (F.isNumber_print n)
  have htake : (F.print n ++ rest).takeWhile isNumberUnit = F.print n := by
    rw [List.takeWhile_append_of_pos hunits, hrest.takeWhile, List.append_nil]
  have hdrop : (F.print n ++ rest).dropWhile isNumberUnit = rest := by
    rw [List.dropWhile_append_of_pos hunits, hrest.dropWhile]
  have hparse : parseNumber F (F.print n ++ rest) = some (.num n, rest) := by
    rw [parseNumber, htake, hdrop, if_pos (F.isNumber_print n), F.value_print]
  rw [write, ← hparse]
  obtain ⟨u, t, ht⟩ := List.exists_cons_of_ne_nil (isNumber_ne_nil (F.isNumber_print n))
  rw [ht] at hunits ⊢
  exact parseValue_number (hunits u List.mem_cons_self)

theorem reads_str (hquoting : Legible quoting) (s : Units) : Reads F quoting (.str s) := by
  intro fuel rest _ _
  rw [write, writeString, List.cons_append, List.append_assoc, parseValue_cons (by decide),
    if_pos rfl]
  exact congrArg (Option.map _) (hquoting s rest)

/-- The text of a value starts with a unit that is not white space, and closes no array. -/
theorem exists_write_eq_cons (v : Value ν) :
    ∃ u t, write F quoting v = u :: t ∧ isSpace u = false ∧ u ≠ unit ']' := by
  cases v with
  | null => exact ⟨unit 'n', text "ull", rfl, by decide, by decide⟩
  | bool b =>
      cases b with
      | true => exact ⟨unit 't', text "rue", rfl, by decide, by decide⟩
      | false => exact ⟨unit 'f', text "alse", rfl, by decide, by decide⟩
  | num n =>
      obtain ⟨u, t, ht⟩ := List.exists_cons_of_ne_nil (isNumber_ne_nil (F.isNumber_print n))
      have hu : isNumberUnit u := isNumber_units (F.isNumber_print n) u (by rw [ht]; exact List.mem_cons_self)
      refine ⟨u, t, ht, isSpace_of_isNumberUnit hu, ?_⟩
      rintro rfl
      exact absurd hu (by decide +kernel)
  | str s => exact ⟨unit '"', _, rfl, by decide, by decide⟩
  | arr items => exact ⟨unit '[', _, rfl, by decide, by decide⟩
  | obj members => exact ⟨unit '{', _, rfl, by decide, by decide⟩

theorem length_write_pos (v : Value ν) : 0 < (write F quoting v).length := by
  obtain ⟨u, t, ht, -⟩ := @exists_write_eq_cons ν F quoting v
  rw [ht]
  exact Nat.succ_pos _

theorem parseItems_close {fuel : Nat} {t rest : Units} {v : Value ν}
    (h : parseValue F fuel t = some (v, unit ']' :: rest)) :
    parseItems F (fuel + 1) t = some ([v], rest) := by
  have hcomma : unit ']' ≠ unit ',' := by decide
  rw [parseItems, h, Option.bind_some]
  simp only [skipSpace_cons (show isSpace (unit ']') = false by decide), if_neg hcomma, if_true]

theorem parseItems_comma {fuel : Nat} {t rest : Units} {v : Value ν}
    (h : parseValue F fuel t = some (v, unit ',' :: rest)) :
    parseItems F (fuel + 1) t = (parseItems F fuel rest).map fun (items, t) => (v :: items, t) := by
  rw [parseItems, h, Option.bind_some]
  simp only [skipSpace_cons (show isSpace (unit ',') = false by decide), if_true]

/-- The items of an array are read. -/
theorem parseItems_write : ∀ (v : Value ν) (items : List (Value ν)),
    (∀ w ∈ v :: items, Reads F quoting w) → ∀ fuel rest,
      (writeItems F quoting (v :: items)).length ≤ fuel + 1 →
        parseItems F (fuel + 2) (writeItems F quoting (v :: items) ++ unit ']' :: rest) =
          some (v :: items, rest)
  | v, [], h, fuel, rest, hfuel => by
      rw [writeItems] at hfuel ⊢
      exact parseItems_close
        (h v List.mem_cons_self fuel _ hfuel (stops_cons (by decide +kernel)))
  | v, w :: items, h, fuel, rest, hfuel => by
      obtain ⟨hv, hitems⟩ := List.forall_mem_cons.1 h
      have hpos := @length_write_pos ν F quoting v
      rw [writeItems, List.length_append, List.length_cons] at hfuel
      obtain ⟨fuel, rfl⟩ := Nat.exists_eq_add_of_le' (show 1 ≤ fuel by omega)
      rw [writeItems, List.append_assoc, List.cons_append,
        parseItems_comma (hv (fuel + 1) _ (by omega) (stops_cons (by decide +kernel))),
        parseItems_write w items hitems fuel rest (by omega)]
      rfl

theorem exists_writeItems_eq_cons (v : Value ν) (items : List (Value ν)) :
    ∃ u t, writeItems F quoting (v :: items) = u :: t ∧ isSpace u = false ∧ u ≠ unit ']' := by
  obtain ⟨u, t, ht, hspace, hclose⟩ := @exists_write_eq_cons ν F quoting v
  cases items with
  | nil => exact ⟨u, t, by rw [writeItems, ht], hspace, hclose⟩
  | cons w items => exact ⟨u, _, by rw [writeItems, ht, List.cons_append], hspace, hclose⟩

theorem reads_arr {items : List (Value ν)} (h : ∀ v ∈ items, Reads F quoting v) :
    Reads F quoting (.arr items) := by
  intro fuel rest hfuel _
  rw [write, List.cons_append, List.append_assoc, parseValue_cons (by decide),
    if_neg (by decide), if_pos rfl]
  cases items with
  | nil => rfl
  | cons v items =>
      obtain ⟨u, t, ht, hspace, hclose⟩ :=
        @exists_writeItems_eq_cons ν F quoting v items
      have hopen : (skipSpace (writeItems F quoting (v :: items) ++ ([unit ']'] ++ rest))).head? ≠
          some (unit ']') := by
        rw [ht, List.cons_append, skipSpace_cons hspace]
        exact fun h => hclose (Option.some_inj.1 h)
      have hpos : 0 < (writeItems F quoting (v :: items)).length := by
        rw [ht]
        exact Nat.succ_pos _
      rw [write, List.length_cons, List.length_append, List.length_singleton] at hfuel
      obtain ⟨fuel, rfl⟩ := Nat.exists_eq_add_of_le' (show 2 ≤ fuel by omega)
      rw [if_neg hopen]
      exact congrArg (Option.map _) (parseItems_write v items h fuel rest (by omega))

theorem parseName_write (hquoting : Legible quoting) (name t : Units) :
    parseName (writeString quoting name ++ unit ':' :: t) = some (name, t) := by
  rw [writeString, List.cons_append, List.append_assoc, parseName,
    skipSpace_cons (by decide)]
  simp only [if_true]
  rw [List.cons_append, List.nil_append, hquoting, Option.bind_some]
  simp only [skipSpace_cons (show isSpace (unit ':') = false by decide), if_true]

theorem parseMembers_close {fuel : Nat} {t t' rest name : Units} {v : Value ν}
    (hname : parseName t = some (name, t'))
    (h : parseValue F fuel t' = some (v, unit '}' :: rest)) :
    parseMembers F (fuel + 1) t = some ([(name, v)], rest) := by
  have hcomma : unit '}' ≠ unit ',' := by decide
  rw [parseMembers, hname, Option.bind_some]
  simp only [h, Option.bind_some, skipSpace_cons (show isSpace (unit '}') = false by decide),
    if_neg hcomma, if_true]

theorem parseMembers_comma {fuel : Nat} {t t' rest name : Units} {v : Value ν}
    (hname : parseName t = some (name, t'))
    (h : parseValue F fuel t' = some (v, unit ',' :: rest)) :
    parseMembers F (fuel + 1) t =
      (parseMembers F fuel rest).map fun (members, t) => ((name, v) :: members, t) := by
  rw [parseMembers, hname, Option.bind_some]
  simp only [h, Option.bind_some, skipSpace_cons (show isSpace (unit ',') = false by decide),
    if_true]

/-- The members of an object are read. -/
theorem parseMembers_write (hquoting : Legible quoting) :
    ∀ (name : Units) (v : Value ν) (members : List (Units × Value ν)),
    (∀ m ∈ (name, v) :: members, Reads F quoting m.2) → ∀ fuel rest,
      (writeMembers F quoting ((name, v) :: members)).length ≤ fuel + 1 →
        parseMembers F (fuel + 2)
            (writeMembers F quoting ((name, v) :: members) ++ unit '}' :: rest) =
          some ((name, v) :: members, rest)
  | name, v, [], h, fuel, rest, hfuel => by
      have hv : Reads F quoting v := (List.forall_mem_cons.1 h).1
      rw [writeMembers, List.length_append, List.length_cons] at hfuel
      rw [writeMembers, List.append_assoc, List.cons_append]
      exact parseMembers_close (parseName_write hquoting name _)
        (hv fuel _ (by omega) (stops_cons (by decide +kernel)))
  | name, v, (other, w) :: members, h, fuel, rest, hfuel => by
      have hv : Reads F quoting v := (List.forall_mem_cons.1 h).1
      have hmembers := (List.forall_mem_cons.1 h).2
      have hpos := @length_write_pos ν F quoting v
      rw [writeMembers, List.length_append, List.length_cons, List.length_append,
        List.length_cons] at hfuel
      obtain ⟨fuel, rfl⟩ := Nat.exists_eq_add_of_le' (show 1 ≤ fuel by omega)
      rw [writeMembers, List.append_assoc, List.cons_append, List.append_assoc, List.cons_append,
        parseMembers_comma (parseName_write hquoting name _)
          (hv (fuel + 1) _ (by omega) (stops_cons (by decide +kernel))),
        parseMembers_write hquoting other w members hmembers fuel rest (by omega)]
      rfl

theorem foldl_setMember : ∀ (members old : List (Units × Value ν)),
    ((old ++ members).map Prod.fst).Nodup → members.foldl setMember old = old ++ members
  | [], old, _ => (List.append_nil old).symm
  | m :: members, old, h => by
      have hm : m.1 ∉ old.map Prod.fst := by
        rw [List.map_append, List.nodup_append'] at h
        exact fun hold => h.2.2 hold List.mem_cons_self
      rw [List.append_cons] at h ⊢
      rw [List.foldl_cons, setMember, if_neg hm]
      exact foldl_setMember members _ h

/-- Members of different names are kept as they are. -/
theorem collect_eq {members : List (Units × Value ν)} (h : (members.map Prod.fst).Nodup) :
    collect members = members :=
  foldl_setMember members [] h

theorem reads_obj (hquoting : Legible quoting) {members : List (Units × Value ν)}
    (hnames : (members.map Prod.fst).Nodup) (h : ∀ m ∈ members, Reads F quoting m.2) :
    Reads F quoting (.obj members) := by
  intro fuel rest hfuel _
  rw [write, List.cons_append, List.append_assoc, parseValue_cons (by decide),
    if_neg (by decide), if_neg (by decide), if_pos rfl]
  cases members with
  | nil => rfl
  | cons m members =>
      obtain ⟨name, v⟩ := m
      obtain ⟨t, ht⟩ : ∃ t, writeMembers F quoting ((name, v) :: members) = unit '"' :: t := by
        cases members with
        | nil => exact ⟨_, by rw [writeMembers, writeString, List.cons_append]⟩
        | cons m members => exact ⟨_, by rw [writeMembers, writeString, List.cons_append]⟩
      have hopen : (skipSpace (writeMembers F quoting ((name, v) :: members) ++
          ([unit '}'] ++ rest))).head? ≠ some (unit '}') := by
        rw [ht, List.cons_append, skipSpace_cons (by decide)]
        exact fun h => absurd (Option.some_inj.1 h) (by decide)
      have hpos : 0 < (writeMembers F quoting ((name, v) :: members)).length := by
        rw [ht]
        exact Nat.succ_pos _
      rw [write, List.length_cons, List.length_append, List.length_singleton] at hfuel
      obtain ⟨fuel, rfl⟩ := Nat.exists_eq_add_of_le' (show 2 ≤ fuel by omega)
      rw [if_neg hopen]
      refine (congrArg (Option.map _)
        (parseMembers_write hquoting name v members h fuel rest (by omega))).trans ?_
      rw [Option.map_some]
      exact congrArg (fun members => some (Value.obj members, rest)) (collect_eq hnames)

/-- Every value is read from its text. -/
theorem reads (hquoting : Legible quoting) {v : Value ν} (h : v.Distinct) : Reads F quoting v := by
  induction h with
  | null => exact reads_null
  | bool b =>
      cases b with
      | true => exact reads_true
      | false => exact reads_false
  | num n => exact reads_num n
  | str s => exact reads_str hquoting s
  | arr items h ih => exact reads_arr ih
  | obj members hnames h ih => exact reads_obj hquoting hnames ih

/-- Parsing what is written gives the value back. -/
theorem parse_write (hquoting : Legible quoting) {v : Value ν} (h : v.Distinct) :
    parse F (write F quoting v) = some v := by
  have hread := reads (F := F) hquoting h (write F quoting v).length [] (Nat.le_succ _) stops_nil
  rw [List.append_nil] at hread
  rw [parse, hread]
  rfl

/-! ## Escaping a whole text -/

/-- The units a text has outside its strings, and those that escapes are made of. -/
def alphabet : Units := escapeAlphabet ++ text "ls[]{},:+-.E"

theorem mem_alphabet_of_isNumberUnit {u : UInt16} (h : isNumberUnit u) : u ∈ alphabet := by
  rw [isNumberUnit, Bool.or_eq_true] at h
  obtain h | h := h
  · have hdigits : ∀ d : Fin 10, UInt16.ofNat (48 + d.val) ∈ alphabet := by decide +kernel
    rw [isDigit, Bool.and_eq_true, decide_eq_true_iff, decide_eq_true_iff, UInt16.le_iff_toNat_le,
      UInt16.le_iff_toNat_le] at h
    have hle : 48 ≤ u.toNat := h.1
    have hge : u.toNat ≤ 57 := h.2
    have hu : u = UInt16.ofNat (48 + (u.toNat - 48)) := by
      rw [Nat.add_sub_cancel' hle, UInt16.ofNat_toNat]
    rw [hu]
    exact hdigits ⟨u.toNat - 48, by omega⟩
  · have hsigns : ((text "+-.eE").all alphabet.contains) = true := by decide +kernel
    exact List.contains_iff_mem.1 (List.all_eq_true.1 hsigns u (List.contains_iff_mem.1 h))

variable {special : Units}

theorem escape_alphabet (hspecial : ∀ u ∈ alphabet, u ∉ special) {t : Units}
    (h : ∀ u ∈ t, u ∈ alphabet) : t.flatMap (escape special) = t :=
  flatMap_escape_of_disjoint fun u hu => hspecial u (h u hu)

theorem escape_text (hspecial : ∀ u ∈ alphabet, u ∉ special) {t : Units}
    (h : t.all alphabet.contains = true) : t.flatMap (escape special) = t :=
  escape_alphabet hspecial fun u hu => List.contains_iff_mem.1 (List.all_eq_true.1 h u hu)

theorem escape_cons (hspecial : ∀ u ∈ alphabet, u ∉ special) {u : UInt16} (hu : u ∈ alphabet)
    (t : Units) : (u :: t).flatMap (escape special) = u :: t.flatMap (escape special) := by
  rw [List.flatMap_cons, escape, if_neg (hspecial u hu)]
  rfl

/-- Strings quoted with more care. -/
abbrev guarded (special s : Units) : Units := (quote s).flatMap (escape special)

theorem escape_writeString (hspecial : ∀ u ∈ alphabet, u ∉ special) (s : Units) :
    (writeString quote s).flatMap (escape special) = writeString (guarded special) s := by
  have hquote : unit '"' ∈ alphabet := by decide +kernel
  rw [writeString, escape_cons hspecial hquote, List.flatMap_append, escape_cons hspecial hquote]
  rfl

/-- The text of a value, escaped, is the text with its strings quoted with more care. -/
def Escapes (F : NumberFormat ν) (special : Units) (v : Value ν) : Prop :=
  (write F quote v).flatMap (escape special) = write F (guarded special) v

theorem escape_writeItems (hspecial : ∀ u ∈ alphabet, u ∉ special) :
    ∀ items : List (Value ν), (∀ v ∈ items, Escapes F special v) →
      (writeItems F quote items).flatMap (escape special) =
        writeItems F (guarded special) items
  | [], _ => rfl
  | [v], h => h v List.mem_cons_self
  | v :: w :: items, h => by
      obtain ⟨hv, hitems⟩ := List.forall_mem_cons.1 h
      rw [writeItems, writeItems, List.flatMap_append, escape_cons hspecial (by decide +kernel), hv,
        escape_writeItems hspecial (w :: items) hitems]

theorem escape_writeMembers (hspecial : ∀ u ∈ alphabet, u ∉ special) :
    ∀ members : List (Units × Value ν), (∀ m ∈ members, Escapes F special m.2) →
      (writeMembers F quote members).flatMap (escape special) =
        writeMembers F (guarded special) members
  | [], _ => rfl
  | [(name, v)], h => by
      have hv : Escapes F special v := h _ List.mem_cons_self
      rw [writeMembers, writeMembers, List.flatMap_append, escape_writeString hspecial,
        escape_cons hspecial (by decide +kernel), hv]
  | (name, v) :: m :: members, h => by
      have hv : Escapes F special v := h _ List.mem_cons_self
      have hmembers := (List.forall_mem_cons.1 h).2
      rw [writeMembers, writeMembers, List.flatMap_append, escape_writeString hspecial,
        escape_cons hspecial (by decide +kernel), List.flatMap_append, hv,
        escape_cons hspecial (by decide +kernel),
        escape_writeMembers hspecial (m :: members) hmembers]

theorem escapes (hspecial : ∀ u ∈ alphabet, u ∉ special) {v : Value ν} (h : v.Distinct) :
    Escapes F special v := by
  induction h with
  | null => exact escape_text hspecial (t := text "null") (by decide +kernel)
  | bool b =>
      cases b with
      | true => exact escape_text hspecial (t := text "true") (by decide +kernel)
      | false => exact escape_text hspecial (t := text "false") (by decide +kernel)
  | num n =>
      exact escape_alphabet hspecial fun u hu =>
        mem_alphabet_of_isNumberUnit (isNumber_units (F.isNumber_print n) u hu)
  | str s => exact escape_writeString hspecial s
  | arr items h ih =>
      rw [Escapes, write, write, escape_cons hspecial (by decide +kernel), List.flatMap_append,
        escape_writeItems hspecial items ih, escape_cons hspecial (by decide +kernel)]
      rfl
  | obj members hnames h ih =>
      rw [Escapes, write, write, escape_cons hspecial (by decide +kernel), List.flatMap_append,
        escape_writeMembers hspecial members ih, escape_cons hspecial (by decide +kernel)]
      rfl

/-- A text of JSON whose special units are escaped denotes the same value. -/
theorem parse_escape (hspecial : ∀ u ∈ alphabet, u ∉ special) {v : Value ν} (h : v.Distinct) :
    parse F ((stringify F v).flatMap (escape special)) = some v := by
  have hstrings : ∀ u ∈ escapeAlphabet, u ∉ special := fun u hu =>
    hspecial u (List.mem_append_left _ hu)
  rw [stringify, escapes hspecial h]
  exact parse_write (legible_escape hstrings) h

end

end JsonText
