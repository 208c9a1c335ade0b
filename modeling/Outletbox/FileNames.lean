import Outletbox.Library.Trimming
import Outletbox.Library.Utf16
import Outletbox.Services.Items

/-!
# File names

`sanitizeFilename` unit by unit, on every string JavaScript has.  NFC is a
function with the laws that Unicode states of it.

A sanitised name is safe whatever came in.  Cutting a name to 255 units comes
last, though, and may leave what an earlier step would have taken away.  On a text
without lone surrogates this is the function of `services/items.ts` that works
character by character.
-/

namespace Outletbox

namespace FileNames

open Trimming Utf16

/-! ## The function -/

/-- `CONTROL_CHARS`. -/
def isControl (u : UInt16) : Bool := u ≤ 0x1f || u == 0x7f

/-- `/[\\/]/`. -/
def isSeparator (u : UInt16) : Bool := u == 0x5c || u == 0x2f

/-- The white space of `trim()`. -/
def isSpace (u : UInt16) : Bool :=
  (9 ≤ u && u ≤ 13) || u == 0x20 || u == 0xa0 || u == 0x1680 || (0x2000 ≤ u && u ≤ 0x200a) ||
    u == 0x2028 || u == 0x2029 || u == 0x202f || u == 0x205f || u == 0x3000 || u == 0xfeff

def isDot (u : UInt16) : Bool := u == 0x2e

/-- `s.normalize('NFC')`.  Normal texts are closed under taking parts, a full stop
composes with nothing before it, no control character is made, and ASCII is normal. -/
structure Normalizer where
  nfc : Units → Units
  idem : ∀ s, nfc (nfc s) = nfc s
  part : ∀ s t, t <:+: s → nfc s = s → nfc t = t
  dot : ∀ s t, nfc (s ++ 0x2e :: t) = nfc s ++ nfc (0x2e :: t)
  control : ∀ s, ∀ u ∈ nfc s, isControl u = true → u ∈ s
  ascii : ∀ s : Units, (∀ u ∈ s, u < 0x80) → nfc s = s

variable (N : Normalizer)

/-- `name.split(/[\\/]/).pop()`. -/
def baseName (name : Units) : Units := (name.splitOnP isSeparator).getLastD []

/-- `s.trim()`. -/
def trim (s : Units) : Units := trimmed isSpace s

/-- `name.replace(/^\.+$/, '')`. -/
def dropDots (name : Units) : Units := if name.all isDot then [] else name

/-- The name before it is cut: normalised, without its path and its control characters. -/
def cleanName (raw : Option Units) : Units :=
  dropDots (trim ((baseName (N.nfc (raw.getD []))).filter fun u => !isControl u))

/-- `name.lastIndexOf('.')`. -/
def lastDot : Units → Option Nat
  | [] => none
  | u :: us =>
      match lastDot us with
      | some dot => some (dot + 1)
      | none => if isDot u then some 0 else none

/-- The suffix that is kept. -/
def extension (name : Units) : Units :=
  match lastDot name with
  | some dot => if 0 < dot ∧ name.length - dot ≤ 16 then name.drop dot else []
  | none => []

/-- `name.slice(0, 255 - ext.length) + ext`. -/
def cutName (name : Units) : Units := name.take (255 - (extension name).length) ++ extension name

def unnamed : Units := encode ['u', 'n', 'n', 'a', 'm', 'e', 'd']

def sanitizeFilename (raw : Option Units) : Units :=
  let name := cleanName N raw
  let name := if 255 < name.length then cutName name else name
  if name.isEmpty then unnamed else name

/-! ## The steps -/

section

variable {N} {name stem suffix s : Units}

theorem isDot_iff {u : UInt16} : isDot u = true ↔ u = 0x2e := beq_iff_eq

theorem baseName_eq_self (h : ∀ u ∈ name, isSeparator u = false) : baseName name = name := by
  rw [baseName, List.splitOnP_eq_singleton h]
  rfl

/-- A list has no element that satisfies the test, or a last one. -/
theorem last_of {α : Type} (p : α → Bool) (xs : List α) :
    (∀ x ∈ xs, p x = false) ∨ ∃ pre x post, xs = pre ++ x :: post ∧ p x = true ∧
      ∀ y ∈ post, p y = false := by
  induction xs with
  | nil => exact .inl fun x hx => nomatch hx
  | cons y ys ih =>
      rcases ih with hnone | ⟨pre, x, post, rfl, hx, hpost⟩
      · cases hy : p y with
        | true => exact .inr ⟨[], y, ys, rfl, hy, hnone⟩
        | false => exact .inl (List.forall_mem_cons.2 ⟨hy, hnone⟩)
      · exact .inr ⟨y :: pre, x, post, rfl, hx, hpost⟩

theorem lastPart_append {α : Type} {p : α → Bool} {pre post : List α} {x : α} (hx : p x = true)
    (hpost : ∀ y ∈ post, p y = false) :
    ((pre ++ x :: post).splitOnP p).getLastD [] = post := by
  rw [List.splitOnP_append_cons pre post hx, List.splitOnP_eq_singleton hpost, List.getLastD_concat]

/-- The last component of a path. -/
theorem baseName_spec (name : Units) :
    baseName name <:+ name ∧ ∀ u ∈ baseName name, isSeparator u = false := by
  rcases last_of isSeparator name with hnone | ⟨pre, x, post, rfl, hx, hpost⟩
  · rw [baseName_eq_self hnone]
    exact ⟨List.suffix_refl _, hnone⟩
  · rw [baseName, lastPart_append hx hpost]
    exact ⟨⟨pre ++ [x], by rw [List.append_assoc, List.singleton_append]⟩, hpost⟩

theorem dropDots_eq (name : Units) : dropDots name = [] ∨ dropDots name = name := by
  rw [dropDots]
  split
  · exact .inl rfl
  · exact .inr rfl

theorem lastDot_eq_none (h : lastDot name = none) : ∀ u ∈ name, isDot u = false := by
  induction name with
  | nil => exact fun u hu => nomatch hu
  | cons v vs ih =>
      rw [lastDot] at h
      cases hrest : lastDot vs with
      | some dot => simp only [hrest, reduceCtorEq] at h
      | none =>
          simp only [hrest, ite_eq_right_iff, reduceCtorEq, imp_false, Bool.not_eq_true] at h
          exact List.forall_mem_cons.2 ⟨h, ih hrest⟩

/-- The last full stop splits a name. -/
theorem lastDot_eq_some {dot : Nat} (h : lastDot name = some dot) :
    ∃ stem suffix, name = stem ++ 0x2e :: suffix ∧ stem.length = dot ∧
      ∀ u ∈ suffix, isDot u = false := by
  induction name generalizing dot with
  | nil => cases h
  | cons v vs ih =>
      rw [lastDot] at h
      cases hrest : lastDot vs with
      | some k =>
          simp only [hrest, Option.some.injEq] at h
          obtain ⟨stem, suffix, rfl, rfl, hsuffix⟩ := ih hrest
          exact ⟨v :: stem, suffix, rfl, h, hsuffix⟩
      | none =>
          simp only [hrest, Option.ite_none_right_eq_some, Option.some.injEq] at h
          obtain ⟨hv, rfl⟩ := h
          rw [isDot_iff.1 hv]
          exact ⟨[], vs, rfl, rfl, lastDot_eq_none hrest⟩

theorem lastDot_none (h : ∀ u ∈ name, isDot u = false) : lastDot name = none := by
  induction name with
  | nil => rfl
  | cons u us ih =>
      have hu := List.forall_mem_cons.1 h
      simp only [lastDot, ih hu.2, hu.1, Bool.false_eq_true, if_false]

theorem lastDot_append (hsuffix : ∀ u ∈ suffix, isDot u = false) :
    lastDot (stem ++ 0x2e :: suffix) = some stem.length := by
  induction stem with
  | nil =>
      rw [List.nil_append, lastDot, lastDot_none hsuffix]
      rfl
  | cons v vs ih =>
      rw [List.cons_append, lastDot, ih]
      rfl

/-- A suffix of at most 16 units after the start is kept. -/
theorem extension_append (hsuffix : ∀ u ∈ suffix, isDot u = false) (hstem : stem ≠ [])
    (hshort : suffix.length + 1 ≤ 16) : extension (stem ++ 0x2e :: suffix) = 0x2e :: suffix := by
  have hpos := List.length_pos_of_ne_nil hstem
  rw [extension, lastDot_append hsuffix]
  simp only [List.length_append, List.length_cons]
  rw [if_pos (by omega), List.drop_left]

/-- What is kept of a name as its suffix. -/
theorem extension_cases (name : Units) :
    extension name = [] ∨ ∃ stem suffix, name = stem ++ 0x2e :: suffix ∧
      (∀ u ∈ suffix, isDot u = false) ∧ suffix.length + 1 ≤ 16 ∧
      extension name = 0x2e :: suffix := by
  cases h : lastDot name with
  | none =>
      left
      rw [extension, h]
  | some dot =>
      obtain ⟨stem, suffix, rfl, rfl, hsuffix⟩ := lastDot_eq_some h
      rw [extension, h]
      simp only [List.length_append, List.length_cons, List.drop_left]
      split
      · rename_i hkept
        exact .inr ⟨stem, suffix, rfl, hsuffix, by omega, rfl⟩
      · exact .inl rfl

theorem length_extension (name : Units) : (extension name).length ≤ 16 := by
  rcases extension_cases name with h | ⟨stem, suffix, -, -, hshort, h⟩
  · rw [h]
    exact Nat.zero_le _
  · rw [h]
    exact hshort

/-- A long name is cut to 255 units. -/
theorem length_cutName (h : 255 < name.length) : (cutName name).length = 255 := by
  have hext := length_extension name
  rw [cutName, List.length_append, List.length_take]
  omega

theorem mem_cutName {u : UInt16} (h : u ∈ cutName name) : u ∈ name := by
  rcases List.mem_append.1 h with h | h
  · exact List.mem_of_mem_take h
  · rcases extension_cases name with hext | ⟨stem, suffix, rfl, -, -, hext⟩
    · rw [hext] at h
      cases h
    · rw [hext] at h
      exact List.mem_append_right _ h

/-! ## Safe names -/

/-- The name that is left after its path, its control characters, the white space
around it and a row of dots are gone. -/
theorem cleanName_spec (raw : Option Units) :
    trim (cleanName N raw) = cleanName N raw ∧
      (cleanName N raw ≠ [] → (cleanName N raw).all isDot = false) ∧
      ∀ u ∈ cleanName N raw, isSeparator u = false ∧ isControl u = false := by
  have hmem : ∀ u ∈ trim ((baseName (N.nfc (raw.getD []))).filter fun u => !isControl u),
      isSeparator u = false ∧ isControl u = false := by
    intro u hu
    obtain ⟨hbase, hcontrol⟩ := List.mem_filter.1 ((trimmed_within _ _).subset hu)
    exact ⟨(baseName_spec _).2 u hbase, by simpa only [Bool.not_eq_true'] using hcontrol⟩
  rw [cleanName, dropDots]
  split
  · exact ⟨rfl, fun h => absurd rfl h, fun u hu => nomatch hu⟩
  · rename_i hdots
    exact ⟨trimmed_trimmed _ _, fun _ => Bool.eq_false_iff.2 hdots, hmem⟩

/-- The three forms of a result. -/
theorem sanitizeFilename_cases (raw : Option Units) :
    cleanName N raw = [] ∧ sanitizeFilename N raw = unnamed ∨
    (cleanName N raw ≠ [] ∧ (cleanName N raw).length ≤ 255) ∧
      sanitizeFilename N raw = cleanName N raw ∨
    255 < (cleanName N raw).length ∧ sanitizeFilename N raw = cutName (cleanName N raw) := by
  simp only [sanitizeFilename]
  by_cases hlong : 255 < (cleanName N raw).length
  · right
    right
    have hne : cutName (cleanName N raw) ≠ [] := by
      intro hnil
      have hlength := length_cutName hlong
      rw [hnil] at hlength
      cases hlength
    rw [if_pos hlong, if_neg (by rwa [List.isEmpty_iff])]
    exact ⟨hlong, rfl⟩
  · rw [if_neg hlong]
    by_cases hnil : cleanName N raw = []
    · rw [hnil]
      exact .inl ⟨rfl, rfl⟩
    · rw [if_neg (by rwa [List.isEmpty_iff])]
      exact .inr (.inl ⟨⟨hnil, not_lt.1 hlong⟩, rfl⟩)

theorem mem_sanitizeFilename {raw : Option Units} {u : UInt16} (h : u ∈ sanitizeFilename N raw) :
    isSeparator u = false ∧ isControl u = false := by
  rcases sanitizeFilename_cases raw with ⟨-, heq⟩ | ⟨-, heq⟩ | ⟨-, heq⟩
  · rw [heq] at h
    have hall : (unnamed.all fun u => !isSeparator u && !isControl u) = true := by decide
    simpa only [Bool.and_eq_true, Bool.not_eq_true'] using List.all_eq_true.1 hall u h
  · rw [heq] at h
    exact (cleanName_spec raw).2.2 u h
  · rw [heq] at h
    exact (cleanName_spec raw).2.2 u (mem_cutName h)

theorem length_sanitizeFilename (raw : Option Units) :
    1 ≤ (sanitizeFilename N raw).length ∧ (sanitizeFilename N raw).length ≤ 255 := by
  rcases sanitizeFilename_cases raw with ⟨-, heq⟩ | ⟨⟨hne, hlength⟩, heq⟩ | ⟨hlong, heq⟩
  · rw [heq]
    decide
  · rw [heq]
    exact ⟨List.length_pos_of_ne_nil hne, hlength⟩
  · rw [heq, length_cutName hlong]
    decide

/-- A name that is cut keeps its last suffix, when that is short. -/
theorem sanitizeFilename_long {raw : Option Units} (hlong : 255 < (cleanName N raw).length)
    (hname : cleanName N raw = stem ++ 0x2e :: suffix) (hsuffix : ∀ u ∈ suffix, u ≠ 0x2e)
    (hstem : stem ≠ []) (hshort : suffix.length + 1 ≤ 16) :
    (sanitizeFilename N raw).length = 255 ∧ 0x2e :: suffix <:+ sanitizeFilename N raw := by
  rcases sanitizeFilename_cases raw with ⟨hnil, -⟩ | ⟨⟨-, hlength⟩, -⟩ | ⟨-, heq⟩
  · rw [hnil] at hlong
    exact absurd hlong (by decide)
  · omega
  · rw [heq]
    refine ⟨length_cutName hlong, ?_⟩
    have hext := extension_append (fun u hu => Bool.eq_false_iff.2 (mt isDot_iff.1 (hsuffix u hu)))
        hstem hshort
    rw [cutName, hname, hext]
    exact List.suffix_append _ _

/-- Every sanitised name is safe. -/
theorem sanitized_name_safe (N : Normalizer) (raw : Option Units) :
    (1 ≤ (sanitizeFilename N raw).length ∧ (sanitizeFilename N raw).length ≤ 255) ∧
    (∀ u ∈ sanitizeFilename N raw, u ≠ 0x2f ∧ u ≠ 0x5c ∧ 0x1f < u ∧ u ≠ 0x7f) ∧
    ∀ stem suffix : Units, cleanName N raw = stem ++ 0x2e :: suffix → 0x2e ∉ suffix →
      255 < (cleanName N raw).length → stem ≠ [] → (0x2e :: suffix).length ≤ 16 →
      (sanitizeFilename N raw).length = 255 ∧ 0x2e :: suffix <:+ sanitizeFilename N raw := by
  refine ⟨length_sanitizeFilename raw, ?_, ?_⟩
  · intro u hu
    obtain ⟨hseparator, hcontrol⟩ := mem_sanitizeFilename hu
    simp only [isSeparator, Bool.or_eq_false_iff, beq_eq_false_iff_ne] at hseparator
    simp only [isControl, Bool.or_eq_false_iff, decide_eq_false_iff_not, UInt16.not_le,
      beq_eq_false_iff_ne] at hcontrol
    exact ⟨hseparator.2, hseparator.1, hcontrol.1, hcontrol.2⟩
  · intro stem suffix hname hsuffix hlong hstem hshort
    exact sanitizeFilename_long hlong hname (fun u hu => ne_of_mem_of_not_mem hu hsuffix) hstem hshort

/-! ## Names that stay as they are -/

theorem unnamed_ascii : ∀ u ∈ unnamed, u < 0x80 := by
  have hall : (unnamed.all fun u => decide (u < 0x80)) = true := by decide
  intro u hu
  simpa only [decide_eq_true_eq] using List.all_eq_true.1 hall u hu

/-- A normal name cut in two parts is normal when they are. -/
theorem nfc_cutName (name : Units) :
    N.nfc (cutName name) = cutName name ↔
      N.nfc (name.take (255 - (extension name).length)) =
          name.take (255 - (extension name).length) ∧
        N.nfc (extension name) = extension name := by
  constructor
  · intro h
    exact ⟨N.part _ _ (List.prefix_append _ _).isInfix h, N.part _ _ (List.suffix_append _ _).isInfix h⟩
  · rintro ⟨hstem, hext⟩
    rcases extension_cases name with hnil | ⟨stem, suffix, -, -, -, hsuffix⟩
    · rw [cutName, hnil, List.append_nil]
      rwa [hnil] at hstem
    · rw [cutName, hsuffix, N.dot]
      rw [hsuffix] at hstem hext
      rw [hstem, hext]

/-- A part of a normal text, cut, is normal. -/
theorem nfc_cutName_of_infix {name : Units} (hs : N.nfc s = s) (hname : name <:+: s) :
    N.nfc (cutName name) = cutName name := by
  refine nfc_cutName _ |>.2 ⟨N.part s _ ((List.take_prefix _ _).isInfix.trans hname) hs, ?_⟩
  rcases extension_cases name with hnil | ⟨stem, suffix, heq, -, -, hsuffix⟩
  · rw [hnil]
    exact N.part s _ List.nil_infix hs
  · rw [hsuffix]
    refine N.part s _ (List.IsInfix.trans ?_ hname) hs
    rw [heq]
    exact (List.suffix_append _ _).isInfix

/-- The steps before the cut find nothing to do. -/
structure Settled (N : Normalizer) (name : Units) : Prop where
  normal : N.nfc name = name
  trimmed : trim name = name
  notDots : name.all isDot = false

theorem settled_unnamed : Settled N unnamed :=
  ⟨N.ascii unnamed unnamed_ascii, by decide, by decide⟩

/-- A safe name stays as it is exactly when it is settled. -/
theorem sanitizeFilename_eq_self_iff {name : Units} (hlength : name.length ≤ 255)
    (hne : name ≠ []) (hsafe : ∀ u ∈ name, isSeparator u = false ∧ isControl u = false) :
    sanitizeFilename N (some name) = name ↔ Settled N name := by
  constructor
  · intro h
    -- what the cut starts from is a part of the normalised name
    have hnormal := N.idem name
    have hcontrol : (baseName (N.nfc name)).filter (fun u => !isControl u) = baseName (N.nfc name) := by
      refine List.filter_eq_self.2 fun u hu => ?_
      rw [Bool.not_eq_true', Bool.eq_false_iff]
      intro hu'
      have hmem := N.control name u ((baseName_spec _).1.subset hu) hu'
      rw [(hsafe u hmem).2] at hu'
      cases hu'
    have hpart : cleanName N (some name) <:+: N.nfc name := by
      rw [cleanName, Option.getD_some, hcontrol]
      rcases dropDots_eq (trim (baseName (N.nfc name))) with hnil | heq
      · rw [hnil]
        exact List.nil_infix
      · rw [heq]
        exact (trimmed_within _ _).trans (baseName_spec _).1.isInfix
    rcases sanitizeFilename_cases (some name) with ⟨-, heq⟩ | ⟨⟨hne', -⟩, heq⟩ | ⟨hlong, heq⟩
    · rw [← h, heq]
      exact settled_unnamed
    · have hclean : cleanName N (some name) = name := heq.symm.trans h
      obtain ⟨htrim, hdots, -⟩ := cleanName_spec (some name) (N := N)
      have hdots' := hdots hne'
      rw [hclean] at hpart htrim hdots'
      exact ⟨N.part _ _ hpart hnormal, htrim, hdots'⟩
    · -- then the name was normal before, and too short to be cut
      have hfix : N.nfc name = name := by
        have hcut := nfc_cutName_of_infix hnormal hpart
        rwa [← heq, h] at hcut
      have hle := hpart.length_le
      rw [hfix] at hle
      omega
  · rintro ⟨hnormal, htrim, hdots⟩
    have hclean : cleanName N (some name) = name := by
      rw [cleanName, Option.getD_some, hnormal, baseName_eq_self fun u hu => (hsafe u hu).1,
        List.filter_eq_self.2 fun u hu => by rw [(hsafe u hu).2]; rfl, htrim, dropDots, hdots]
      rfl
    rcases sanitizeFilename_cases (some name) with ⟨hnil, -⟩ | ⟨-, heq⟩ | ⟨hlong, -⟩
    · exact absurd (hclean.symm.trans hnil) hne
    · rw [heq, hclean]
    · rw [hclean] at hlong
      omega

/-- The condition on the cleaned base name: it is normal; or it is too long, what is
kept of it is normal, it is not cut behind white space, and it is not cut to dots. -/
def StaysAsIs (N : Normalizer) (name : Units) : Prop :=
  if name.length ≤ 255 then N.nfc name = name
  else
    let kept := name.take (255 - (extension name).length)
    (N.nfc kept = kept ∧ N.nfc (extension name) = extension name) ∧
      (extension name = [] → ∀ u, name[254]? = some u → isSpace u = false) ∧
      ¬ (kept.all isDot = true ∧ (extension name).all isDot = true)

/-- Cutting a trimmed name leaves white space only at the place of the cut. -/
theorem trim_cutName {name : Units} (hlong : 255 < name.length) (htrim : trim name = name) :
    trim (cutName name) = cutName name ↔
      (extension name = [] → ∀ u, name[254]? = some u → isSpace u = false) := by
  have hhead : ∀ u, (cutName name).head? = some u → isSpace u = false := by
    intro u hu
    have hext := length_extension name
    have hne : 255 - (extension name).length ≠ 0 := by omega
    rw [cutName, List.head?_append, List.head?_take, if_neg hne] at hu
    cases hfirst : name.head? with
    | none =>
        rw [List.head?_eq_none_iff] at hfirst
        rw [hfirst] at hlong
        cases hlong
    | some v =>
        rw [hfirst, Option.some_or, Option.some.injEq] at hu
        rw [← htrim, hu] at hfirst
        exact head_trimmed hfirst
  rcases extension_cases name with hnil | ⟨stem, suffix, heq, -, -, hsuffix⟩
  · have hcut : cutName name = name.take 255 := by
      rw [cutName, hnil, List.append_nil, List.length_nil]
    have hlast : (cutName name).getLast? = name[254]? := by
      have hsome : name[254]? = some name[254] := List.getElem?_eq_getElem (by omega)
      rw [hcut, List.getLast?_take, if_neg (by decide), hsome, Option.some_or]
    constructor
    · intro h _ u hu
      rw [← hlast, ← h] at hu
      exact last_trimmed hu
    · intro h
      exact trimmed_eq_self hhead fun u hu => h hnil u (hlast ▸ hu)
  · have hlast : (cutName name).getLast? = name.getLast? := by
      rw [cutName, hsuffix, heq, List.getLast?_append, List.getLast?_append,
        List.getLast?_eq_some_getLast (List.cons_ne_nil _ _), Option.some_or, Option.some_or]
    refine iff_of_true (trimmed_eq_self hhead fun u hu => ?_) fun hnil => ?_
    · rw [hlast, ← htrim] at hu
      exact last_trimmed hu
    · rw [hsuffix] at hnil
      cases hnil

theorem settled_iff (raw : Option Units) :
    Settled N (sanitizeFilename N raw) ↔ StaysAsIs N (cleanName N raw) := by
  obtain ⟨htrim, hdots, -⟩ := cleanName_spec raw (N := N)
  rcases sanitizeFilename_cases raw with ⟨hnil, heq⟩ | ⟨⟨hne, hlength⟩, heq⟩ | ⟨hlong, heq⟩
  · rw [heq, StaysAsIs, hnil, if_pos (by decide)]
    exact iff_of_true settled_unnamed (N.ascii [] fun u hu => nomatch hu)
  · rw [heq, StaysAsIs, if_pos hlength]
    exact ⟨Settled.normal, fun h => ⟨h, htrim, hdots hne⟩⟩
  · rw [heq, StaysAsIs, if_neg (not_le.2 hlong)]
    simp only []
    rw [← nfc_cutName, ← trim_cutName hlong htrim, ← Bool.and_eq_true, ← List.all_append,
      Bool.not_eq_true]
    exact ⟨fun h => ⟨h.normal, h.trimmed, h.notDots⟩, fun ⟨h, h', h''⟩ => ⟨h, h', h''⟩⟩

/-- A name is sanitised once and for all, and never consists of dots only, exactly
when the name before the cut stays as it is. -/
theorem sanitized_once_iff (N : Normalizer) (raw : Option Units) :
    (sanitizeFilename N (some (sanitizeFilename N raw)) = sanitizeFilename N raw ∧
      (sanitizeFilename N raw).all isDot = false) ↔ StaysAsIs N (cleanName N raw) := by
  have hlength := length_sanitizeFilename raw (N := N)
  rw [← settled_iff, sanitizeFilename_eq_self_iff hlength.2
    (List.ne_nil_of_length_pos hlength.1) fun u hu => mem_sanitizeFilename hu]
  exact ⟨And.left, fun h => ⟨h, h.notDots⟩⟩

end

/-! ## A normaliser with one composition -/

/-- `e` and a combining acute accent compose. -/
def compose : Units → Units
  | u :: v :: s => if u = 0x65 ∧ v = 0x301 then 0xe9 :: compose s else u :: compose (v :: s)
  | s => s

/-- No two units compose. -/
def Composed (s : Units) : Prop := s.IsChain fun u v => ¬ (u = 0x65 ∧ v = 0x301)

theorem compose_eq_self {s : Units} (h : Composed s) : compose s = s := by
  induction s with
  | nil => rfl
  | cons u s ih =>
      cases s with
      | nil => rfl
      | cons v s =>
          obtain ⟨huv, hs⟩ := List.isChain_cons_cons.1 h
          rw [compose, if_neg huv, ih hs]

/-- A composed text starts with the unit it started with, or with the letter made of it. -/
theorem head_compose (v : UInt16) (s : Units) {u : UInt16} (h : (compose (v :: s)).head? = some u) :
    u = v ∨ u = 0xe9 := by
  cases s with
  | nil => exact .inl (Option.some.inj h).symm
  | cons w s =>
      rw [compose] at h
      split at h
      · exact .inr (Option.some.inj h).symm
      · exact .inl (Option.some.inj h).symm

theorem composed_compose (s : Units) : Composed (compose s) := by
  fun_induction compose s with
  | case1 u v s h ih => exact List.isChain_cons.2 ⟨fun y _ hy => absurd hy.1 (by decide), ih⟩
  | case2 u v s h ih =>
      refine List.isChain_cons.2 ⟨fun y hy huy => ?_, ih⟩
      rcases head_compose v s hy with rfl | rfl
      · exact h huy
      · exact absurd huy.2 (by decide)
  | case3 s hs =>
      cases s with
      | nil => exact List.isChain_nil
      | cons u s =>
          cases s with
          | nil => exact List.isChain_singleton u
          | cons v s => exact absurd rfl (hs u v s)

theorem composed_of_compose_eq {s : Units} (h : compose s = s) : Composed s := h ▸ composed_compose s

theorem compose_dot (s t : Units) : compose (s ++ 0x2e :: t) = compose s ++ compose (0x2e :: t) := by
  fun_induction compose s with
  | case1 u v s h ih => rw [List.cons_append, List.cons_append, compose, if_pos h, ih]; rfl
  | case2 u v s h ih =>
      rw [List.cons_append, List.cons_append, compose, if_neg h, ← List.cons_append, ih]
      rfl
  | case3 s hs =>
      cases s with
      | nil => rfl
      | cons u s =>
          cases s with
          | nil =>
              rw [List.singleton_append, compose, if_neg fun h => absurd h.2 (by decide)]
              rfl
          | cons v s => exact absurd rfl (hs u v s)

theorem mem_compose {s : Units} {u : UInt16} (h : u ∈ compose s) : u ∈ s ∨ u = 0xe9 := by
  fun_induction compose s with
  | case1 v w s _ ih =>
      rcases List.mem_cons.1 h with rfl | h
      · exact .inr rfl
      · exact (ih h).imp_left fun h => List.mem_cons_of_mem _ (List.mem_cons_of_mem _ h)
  | case2 v w s _ ih =>
      rcases List.mem_cons.1 h with rfl | h
      · exact .inl (List.mem_cons_self ..)
      · exact (ih h).imp_left (List.mem_cons_of_mem _)
  | case3 s _ => exact .inl h

theorem composed_of_ascii {s : Units} (h : ∀ u ∈ s, u < 0x80) : Composed s := by
  induction s with
  | nil => exact List.isChain_nil
  | cons u s ih =>
      obtain ⟨-, hs⟩ := List.forall_mem_cons.1 h
      refine List.isChain_cons.2 ⟨fun v hv huv => ?_, ih hs⟩
      have hlt := hs v (List.mem_of_mem_head? hv)
      rw [huv.2] at hlt
      exact absurd hlt (by decide)

/-- The laws hold of it. -/
def composer : Normalizer where
  nfc := compose
  idem s := compose_eq_self (composed_compose s)
  part s t ht h := compose_eq_self <| List.IsChain.infix (composed_of_compose_eq h) ht
  dot := compose_dot
  control s u hu hcontrol := by
    rcases mem_compose hu with hu | rfl
    · exact hu
    · exact absurd hcontrol (by decide)
  ascii s h := compose_eq_self (composed_of_ascii h)

/-- A long file name keeps its type. -/
theorem sanitized_name_safe_pdf :
    let raw : Option Units := some (List.replicate 400 0x61 ++ 0x2e :: [0x70, 0x64, 0x66])
    (sanitizeFilename composer raw).length = 255 ∧
      0x2e :: [0x70, 0x64, 0x66] <:+ sanitizeFilename composer raw :=
  (sanitized_name_safe composer _).2.2 (List.replicate 400 0x61) [0x70, 0x64, 0x66]
    (by decide +kernel) (by decide) (by decide +kernel) (by decide) (by decide)

/-- A long name whose 255 first units end with a space; dots cut from a longer name; and
an accent that meets its letter when a control character between them is removed. -/
theorem renamed_again :
    (let name := sanitizeFilename composer (some (List.replicate 254 0x61 ++ [0x20, 0x61]))
     sanitizeFilename composer (some name) ≠ name) ∧
    (sanitizeFilename composer (some (List.replicate 255 0x2e ++ List.replicate 16 0x61))).all
      isDot = true ∧
    (let name := sanitizeFilename composer (some [0x65, 0x01, 0x301])
     sanitizeFilename composer (some name) ≠ name) := by
  decide +kernel

/-! ## Texts without lone surrogates -/

section

variable {N : Normalizer} {P : Platform}

theorem agrees_control : Agrees isControl Outletbox.isControl := by
  refine .of_single (fun c hc => ?_) (fun u hu => ?_) fun c hc => ?_
  · rw [isControl, Outletbox.isControl, Bool.eq_iff_iff]
    simp only [unit, Bool.or_eq_true, decide_eq_true_eq, beq_iff_eq, UInt16.le_iff_toNat_le,
      ← UInt16.toNat_inj, UInt16.toNat_ofNat', UInt16.reduceToNat, Nat.mod_eq_of_lt hc]
    omega
  · simp only [isHigh, isLow, Bool.and_eq_true, decide_eq_true_eq, UInt16.le_iff_toNat_le,
      UInt16.reduceToNat] at hu
    simp only [isControl, Bool.or_eq_false_iff, decide_eq_false_iff_not, beq_eq_false_iff_ne,
      UInt16.le_iff_toNat_le, ne_eq, ← UInt16.toNat_inj, UInt16.reduceToNat]
    omega
  · simp only [Outletbox.isControl, Bool.or_eq_false_iff, decide_eq_false_iff_not,
      beq_eq_false_iff_ne]
    omega

theorem agrees_space : Agrees isSpace Outletbox.isSpace := by
  refine .of_single (fun c hc => ?_) (fun u hu => ?_) fun c hc => ?_
  · rw [isSpace, Outletbox.isSpace, Bool.eq_iff_iff]
    simp only [unit, Bool.or_eq_true, Bool.and_eq_true, decide_eq_true_eq, beq_iff_eq,
      UInt16.le_iff_toNat_le, ← UInt16.toNat_inj, UInt16.toNat_ofNat', UInt16.reduceToNat,
      Nat.mod_eq_of_lt hc]
  · simp only [isHigh, isLow, Bool.and_eq_true, decide_eq_true_eq, UInt16.le_iff_toNat_le,
      UInt16.reduceToNat] at hu
    simp only [isSpace, Bool.or_eq_false_iff, Bool.and_eq_false_iff, decide_eq_false_iff_not,
      beq_eq_false_iff_ne, UInt16.le_iff_toNat_le, ne_eq, ← UInt16.toNat_inj, UInt16.reduceToNat]
    omega
  · simp only [Outletbox.isSpace, Bool.or_eq_false_iff, Bool.and_eq_false_iff,
      decide_eq_false_iff_not, beq_eq_false_iff_ne]
    omega

theorem agrees_separator : Agrees isSeparator fun c => c == '\\' || c == '/' := by
  refine .of_single (fun c hc => ?_) (fun u hu => ?_) fun c hc => ?_
  · rw [isSeparator, Bool.eq_iff_iff]
    simp only [unit, Bool.or_eq_true, beq_iff_eq, ← UInt16.toNat_inj, UInt16.toNat_ofNat',
      UInt16.reduceToNat, Nat.mod_eq_of_lt hc, ← Char.toNat_inj, Char.reduceToNat]
  · simp only [isHigh, isLow, Bool.and_eq_true, decide_eq_true_eq, UInt16.le_iff_toNat_le,
      UInt16.reduceToNat] at hu
    simp only [isSeparator, Bool.or_eq_false_iff, beq_eq_false_iff_ne, ne_eq, ← UInt16.toNat_inj,
      UInt16.reduceToNat]
    omega
  · simp only [Bool.or_eq_false_iff, beq_eq_false_iff_ne, ne_eq, ← Char.toNat_inj,
      Char.reduceToNat]
    omega

theorem agrees_dot : Agrees isDot (· == '.') := by
  refine .of_single (fun c hc => ?_) (fun u hu => ?_) fun c hc => ?_
  · rw [isDot, Bool.eq_iff_iff]
    simp only [unit, beq_iff_eq, ← UInt16.toNat_inj, UInt16.toNat_ofNat', UInt16.reduceToNat,
      Nat.mod_eq_of_lt hc, ← Char.toNat_inj, Char.reduceToNat]
  · simp only [isHigh, isLow, Bool.and_eq_true, decide_eq_true_eq, UInt16.le_iff_toNat_le,
      UInt16.reduceToNat] at hu
    simp only [isDot, beq_eq_false_iff_ne, ne_eq, ← UInt16.toNat_inj, UInt16.reduceToNat]
    omega
  · simp only [beq_eq_false_iff_ne, ne_eq, ← Char.toNat_inj, Char.reduceToNat]
    omega

theorem length_encode (cs : List Char) : (encode cs).length = unitLength cs := by
  induction cs with
  | nil => rfl
  | cons c cs ih =>
      have hc : (encodeChar c).length = units c := by
        unfold encodeChar units
        split
        · rfl
        · rfl
      rw [encode_cons, List.length_append, ih, hc]
      rfl

theorem baseName_encode (cs : List Char) :
    baseName (encode cs) =
      encode ((cs.splitOnP fun c => c == '\\' || c == '/').getLastD []) := by
  rcases last_of (fun c => c == '\\' || c == '/') cs with hnone | ⟨pre, x, post, rfl, hx, hpost⟩
  · rw [List.splitOnP_eq_singleton hnone,
      baseName_eq_self (forall_mem_encode agrees_separator hnone)]
    rfl
  · have hsingle : encodeChar x = [unit x] := by
      rcases Bool.or_eq_true_iff.1 hx with hx | hx
      · rw [beq_iff_eq.1 hx]
        rfl
      · rw [beq_iff_eq.1 hx]
        rfl
    have hunit : isSeparator (unit x) = true :=
      (agrees_separator x (unit x) (hsingle ▸ List.mem_singleton_self _)).trans hx
    have hlast : ((pre ++ x :: post).splitOnP fun c => c == '\\' || c == '/').getLastD [] = post :=
      lastPart_append hx hpost
    rw [hlast, encode_append, encode_cons, hsingle, List.singleton_append, baseName,
      lastPart_append hunit (forall_mem_encode agrees_separator hpost)]

theorem trim_encode (s : String) : trim (text s) = text (Outletbox.trim s) := by
  rw [trim, trimmed, text, dropWhile_encode agrees_space, rdropWhile_encode agrees_space, text,
    Outletbox.trim, String.toList_ofList]
  rfl

theorem takeUnits_append (done rest : List Char) :
    takeUnits (unitLength done) (done ++ rest) = done := by
  induction done with
  | nil =>
      cases rest with
      | nil => rfl
      | cons c cs => rfl
  | cons c cs ih =>
      have hlength : unitLength (c :: cs) = units c + unitLength cs := rfl
      rw [hlength, List.cons_append]
      unfold units
      split
      · rename_i hc
        have hunits : units c = 1 := if_pos hc
        rw [Nat.add_comm, takeUnits, if_pos hunits, ih]
      · rename_i hc
        have hunits : units c ≠ 1 := by
          rw [units, if_neg hc]
          decide
        rw [Nat.add_comm, takeUnits, if_neg hunits, if_neg (Nat.succ_ne_zero _)]
        exact congrArg (c :: ·) ih

/-- The last full stop of a text, after its start. -/
theorem splitExtension_append {base suffix : List Char}
    (hsuffix : ∀ c ∈ suffix, (c == '.') = false) (hbase : base ≠ []) :
    splitExtension (base ++ '.' :: suffix) = some (base, '.' :: suffix) := by
  have hpos : ∀ c ∈ suffix.reverse, (c != '.') = true := by
    intro c hc
    rw [bne, hsuffix c (List.mem_reverse.1 hc)]
    rfl
  have hspan : (base ++ '.' :: suffix).reverse.span (· != '.') =
      (suffix.reverse, '.' :: base.reverse) := by
    rw [List.span_eq_takeWhile_dropWhile, List.reverse_append, List.reverse_cons,
      List.append_assoc, List.takeWhile_append_of_pos hpos, List.dropWhile_append_of_pos hpos]
    simp
  have hne : base.reverse.isEmpty = false := by
    rw [List.isEmpty_eq_false_iff, ne_eq, List.reverse_eq_nil_iff]
    exact hbase
  unfold splitExtension
  rw [hspan]
  simp only [hne, Bool.false_eq_true, if_false, List.reverse_reverse]

/-- Without a full stop after its start a text has no suffix. -/
theorem splitExtension_eq_none {name : List Char} (h : ∀ c ∈ name.tail, (c == '.') = false) :
    splitExtension name = none := by
  cases name with
  | nil => rfl
  | cons c cs =>
      have hpos : ∀ x ∈ cs.reverse, (x != '.') = true := by
        intro x hx
        rw [bne, h x (List.mem_reverse.1 hx)]
        rfl
      have hspan : (c :: cs).reverse.span (· != '.') =
          (cs.reverse ++ [c].takeWhile (· != '.'), [c].dropWhile (· != '.')) := by
        rw [List.span_eq_takeWhile_dropWhile, List.reverse_cons,
          List.takeWhile_append_of_pos hpos, List.dropWhile_append_of_pos hpos]
      unfold splitExtension
      rw [hspan]
      by_cases hc : c = '.'
      · rw [hc]
        rfl
      · rw [List.dropWhile_cons_of_pos (by simpa using hc)]
        rfl

/-- The units that are kept of a name end where a character does. -/
def Whole (name : Units) : Prop :=
  ∀ cs, name = encode cs → ∃ done rest, cs = done ++ rest ∧
    unitLength done = 255 - (extension name).length

/-- Both keep the same suffix of a long name. -/
theorem exists_suffix {name : List Char} (hlong : 255 < unitLength name) :
    ∃ ext : List Char, extension (encode name) = encode ext ∧
      cutFilename name = takeUnits (255 - unitLength ext) name ++ ext := by
  rw [cutFilename, if_neg (not_le.2 hlong)]
  rcases last_of (· == '.') name with hnone | ⟨base, x, suffix, rfl, hx, hsuffix⟩
  · have hext : splitExtension name = none :=
      splitExtension_eq_none fun c hc => hnone c (List.mem_of_mem_tail hc)
    refine ⟨[], ?_, by rw [hext]⟩
    have hdot : lastDot (encode name) = none :=
      lastDot_none (forall_mem_encode agrees_dot hnone)
    rw [extension, hdot]
    rfl
  obtain rfl := beq_iff_eq.1 hx
  have hunits : encode (base ++ '.' :: suffix) = encode base ++ 0x2e :: encode suffix := by
    rw [encode_append, encode_cons]
    rfl
  have hnodot : ∀ u ∈ encode suffix, isDot u = false := forall_mem_encode agrees_dot hsuffix
  have hlength : unitLength ('.' :: suffix) = unitLength suffix + 1 := by
    rw [unitLength, List.map_cons, List.sum_cons, Nat.add_comm]
    rfl
  cases base with
  | nil =>
      have hext : splitExtension ([] ++ '.' :: suffix) = none := splitExtension_eq_none hsuffix
      refine ⟨[], ?_, by rw [hext]⟩
      rw [hunits, extension, lastDot_append hnodot]
      rfl
  | cons c cs =>
      have hext := splitExtension_append hsuffix (List.cons_ne_nil c cs)
      by_cases hshort : unitLength ('.' :: suffix) ≤ 16
      · refine ⟨'.' :: suffix, ?_, by rw [hext]; simp only [if_pos hshort]⟩
        have hne : encode (c :: cs) ≠ [] := by
          rw [encode_cons]
          exact List.append_ne_nil_of_left_ne_nil (encodeChar_ne_nil c) _
        rw [hunits, extension_append hnodot hne (by rw [length_encode]; omega), encode_cons]
        rfl
      · refine ⟨[], ?_, by rw [hext]; simp only [if_neg hshort]⟩
        rw [hunits, extension, lastDot_append hnodot]
        simp only [List.length_append, List.length_cons, length_encode]
        rw [if_neg (by omega)]
        rfl

theorem cutName_encode {name : List Char} (hlong : 255 < unitLength name)
    (hwhole : Whole (encode name)) : cutName (encode name) = encode (cutFilename name) := by
  obtain ⟨ext, hext, hcut⟩ := exists_suffix hlong
  obtain ⟨done, rest, hsplit, hdone⟩ := hwhole name rfl
  rw [hext, length_encode] at hdone
  have hstem : (encode name).take (unitLength done) = encode done := by
    rw [hsplit, encode_append]
    exact List.take_left' (length_encode done)
  have htaken : takeUnits (unitLength done) name = done := by
    rw [hsplit]
    exact takeUnits_append done rest
  rw [hdone] at hstem htaken
  rw [hcut, htaken, cutName, hext, length_encode, hstem, encode_append]

/-- The cut and the name that stands in for none. -/
theorem stored_encode {name : List Char} (hwhole : 255 < (encode name).length → Whole (encode name)) :
    (let cut := if 255 < (encode name).length then cutName (encode name) else encode name
      if cut.isEmpty then unnamed else cut) =
    text (if (cutFilename name).isEmpty then "unnamed" else String.ofList (cutFilename name)) := by
  have hcut : (if 255 < (encode name).length then cutName (encode name) else encode name) =
      encode (cutFilename name) := by
    split
    · rename_i hlong
      exact cutName_encode (length_encode name ▸ hlong) (hwhole hlong)
    · rename_i hshort
      rw [length_encode, not_lt] at hshort
      rw [cutFilename, if_pos hshort]
  rw [hcut]
  dsimp only
  rw [isEmpty_encode]
  split
  · rfl
  · rw [text, String.toList_ofList]

/-- A text of whole characters gets the same name unit by unit and character by character, where no
pair is cut in half. -/
theorem sanitizeFilename_text {raw : String} (hnfc : N.nfc (text raw) = text (P.nfc raw))
    (hwhole : 255 < (cleanName N (some (text raw))).length →
      Whole (cleanName N (some (text raw)))) :
    sanitizeFilename N (some (text raw)) = text (Outletbox.sanitizeFilename P raw) := by
  let base := ((P.nfc raw).toList.splitOnP fun c => c == '\\' || c == '/').getLastD []
  let shown := (Outletbox.trim (String.ofList (base.filter fun c => !Outletbox.isControl c))).toList
  have hshown : trim ((baseName (text (P.nfc raw))).filter fun u => !isControl u) =
      encode shown := by
    rw [text, baseName_encode, filter_encode agrees_control.not]
    exact (congrArg trim (congrArg encode String.toList_ofList.symm)).trans (trim_encode _)
  have hclean : cleanName N (some (text raw)) =
      encode (if shown.all (· == '.') then [] else shown) := by
    rw [cleanName, Option.getD_some, hnfc, hshown, dropDots, all_encode agrees_dot]
    split
    · rfl
    · rfl
  rw [hclean] at hwhole
  rw [sanitizeFilename, hclean, Outletbox.sanitizeFilename]
  exact stored_encode hwhole

end

end FileNames

end Outletbox
