import Outletbox.Library.Distinct
import Outletbox.Library.Trimming
import Outletbox.Services.Addresses

/-!
# Address lists compose

An address list is read entry by entry, and the quoted display names are dropped
line by line.  So a list that was typed in two parts has the people of both
parts, and a list that was written out is read back as it was.
-/

namespace Outletbox

namespace AddressLists

open Trimming

variable (P : Platform)

/-! ## Entries -/

/-- The pieces of a text without the white space around them and without the blank ones. -/
def nonBlank (raws : List (List Char)) : List (List Char) :=
  (raws.map fun raw => (trim (String.ofList raw)).toList).filter fun entry => !entry.isEmpty

/-- The entries of an address list. -/
def entries (text : String) : List (List Char) :=
  nonBlank ((dropQuoted none text.toList).splitOnP isSeparator)

/-- How an entry is listed that could not be read. -/
def listed (entry : List Char) : String := slice 80 (String.ofList entry)

/-- The people the entries name. -/
def named (fallback : Lang) (es : List (List Char)) : List RecipientInput :=
  es.filterMap fun entry => parseEntry P entry fallback

/-- The entries that name nobody. -/
def unread (fallback : Lang) (es : List (List Char)) : List String :=
  (es.filter fun entry => (parseEntry P entry fallback).isNone).map listed

/-- The part of a text after its last line break. -/
def lastLine (cs : List Char) : List Char := (cs.reverse.takeWhile (· != '\n')).reverse

/-- What holds of normalisation and of lower case: a space stays a space, and nothing is composed
across it. -/
structure KeepsSpaces : Prop where
  nfkc : ∀ a b : String, P.nfkc (a ++ " " ++ b) = P.nfkc a ++ " " ++ P.nfkc b
  toLowerCase : ∀ s : String, ' ' ∈ s.toList → ' ' ∈ (P.toLowerCase s).toList

section

variable {P} {fallback : Lang}

theorem nonBlank_append (x y : List (List Char)) : nonBlank (x ++ y) = nonBlank x ++ nonBlank y := by
  simp [nonBlank]

theorem mergeRecipients_eq (list : List RecipientInput) :
    mergeRecipients list = Distinct.distinct (·.email) list := rfl

/-- The loop over the entries, whatever was read before. -/
theorem parseEntries_eq (raws : List (List Char)) (recipients : List RecipientInput)
    (invalid : List String) :
    parseEntries P fallback raws (recipients, invalid) =
      ((named P fallback (nonBlank raws)).foldl (Distinct.insertNew (·.email)) recipients,
        invalid ++ unread P fallback (nonBlank raws)) := by
  induction raws generalizing recipients invalid with
  | nil => simp [parseEntries, named, unread, nonBlank]
  | cons raw rest ih =>
      have hcons : nonBlank (raw :: rest) = nonBlank [raw] ++ nonBlank rest :=
        nonBlank_append [raw] rest
      rw [hcons, named, unread, List.filterMap_append, List.filter_append, List.map_append,
        List.foldl_append]
      have hone : nonBlank [raw] =
          if (trim (String.ofList raw)).toList.isEmpty then []
          else [(trim (String.ofList raw)).toList] := by
        cases h : (trim (String.ofList raw)).toList.isEmpty with
        | true => simp [nonBlank, h]
        | false => simp [nonBlank, h]
      rw [hone]
      unfold parseEntries
      generalize (trim (String.ofList raw)).toList = entry
      cases hblank : entry.isEmpty with
      | true => simp only [hblank, if_true, ih]; simp [named, unread]
      | false =>
          simp only [hblank, Bool.false_eq_true, if_false]
          cases hparsed : parseEntry P entry fallback with
          | none => simp [ih, hparsed, named, unread, listed]
          | some parsed =>
              have hstep : Distinct.insertNew (·.email) recipients parsed =
                  if recipients.any (·.email == parsed.email) then recipients
                  else recipients ++ [parsed] := rfl
              simp only [List.filterMap_cons, hparsed, List.filterMap_nil, List.foldl_cons,
                List.foldl_nil, hstep]
              cases hseen : recipients.any (·.email == parsed.email) with
              | true => simp [ih, hparsed, named, unread]
              | false => simp [ih, hparsed, named, unread]

/-- A list is read as the first entry of each address. -/
theorem parseRecipients_eq (text : String) : parseRecipients P text fallback =
    (mergeRecipients (named P fallback (entries text)), unread P fallback (entries text)) := by
  rw [parseRecipients, parseEntries_eq, List.nil_append]
  rfl

/-- Texts whose entries come one after the other are read one after the other. -/
theorem parseRecipients_append {a b text : String} (h : entries text = entries a ++ entries b) :
    parseRecipients P text fallback =
      (mergeRecipients ((parseRecipients P a fallback).1 ++ (parseRecipients P b fallback).1),
        (parseRecipients P a fallback).2 ++ (parseRecipients P b fallback).2) := by
  simp only [parseRecipients_eq, h, mergeRecipients_eq]
  rw [Prod.mk.injEq, named, List.filterMap_append, unread, List.filter_append, List.map_append]
  exact ⟨Distinct.distinct_append _ _, rfl⟩

/-! ## Quotation marks -/

/-- Whether a quotation mark is open after one more character. -/
def quoteStep (opened : Bool) (c : Char) : Bool :=
  if c = '"' then !opened else if c = '\n' then false else opened

/-- A line break closes every quotation mark. -/
theorem dropQuoted_newline (st : Option (List Char)) (a b : List Char) :
    dropQuoted st (a ++ '\n' :: b) = dropQuoted st a ++ '\n' :: dropQuoted none b := by
  induction a generalizing st with
  | nil =>
      cases st with
      | none => simp [dropQuoted]
      | some acc => simp [dropQuoted]
  | cons c cs ih =>
      cases st with
      | none =>
          simp only [List.cons_append, dropQuoted, ih]
          split
          · rfl
          · rfl
      | some acc =>
          simp only [List.cons_append, dropQuoted, ih]
          split
          · rfl
          · split
            · simp
            · rfl

/-- Where no quotation mark is open, a text may be cut. -/
theorem dropQuoted_append {sep : Char} (hquote : sep ≠ '"') (st : Option (List Char))
    (a b : List Char) (hclosed : a.foldl quoteStep st.isSome = false) :
    dropQuoted st (a ++ sep :: b) = dropQuoted st a ++ sep :: dropQuoted none b := by
  induction a generalizing st with
  | nil =>
      cases st with
      | none => simp [dropQuoted, hquote]
      | some acc => cases hclosed
  | cons c cs ih =>
      rw [List.foldl_cons] at hclosed
      cases st with
      | none =>
          simp only [List.cons_append, dropQuoted]
          by_cases hc : c = '"'
          · rw [if_pos hc, if_pos hc]
            exact ih _ (by simpa [quoteStep, hc] using hclosed)
          · rw [if_neg hc, if_neg hc, List.cons_append]
            exact congrArg (c :: ·) (ih none (by simpa [quoteStep, hc] using hclosed))
      | some acc =>
          simp only [List.cons_append, dropQuoted]
          by_cases hc : c = '"'
          · rw [if_pos hc, if_pos hc, List.cons_append]
            exact congrArg (' ' :: ·) (ih none (by simpa [quoteStep, hc] using hclosed))
          · rw [if_neg hc, if_neg hc]
            by_cases hn : c = '\n'
            · rw [if_pos hn, if_pos hn, ih none (by simpa [quoteStep, hn] using hclosed)]
              simp
            · rw [if_neg hn, if_neg hn]
              exact ih _ (by simpa [quoteStep, hc, hn] using hclosed)

theorem lastLine_append (cs : List Char) (c : Char) :
    lastLine (cs ++ [c]) = if c = '\n' then [] else lastLine cs ++ [c] := by
  unfold lastLine
  rw [List.reverse_append, List.reverse_singleton, List.singleton_append]
  by_cases hn : c = '\n'
  · rw [if_pos hn, List.takeWhile_cons_of_neg (by simp [hn])]
    rfl
  · rw [if_neg hn, List.takeWhile_cons_of_pos (by simp [hn]), List.reverse_cons]

/-- A quotation mark is open when the last line holds an odd number of them. -/
theorem quotes_closed (cs : List Char) :
    cs.foldl quoteStep false = decide ((lastLine cs).count '"' % 2 = 1) := by
  induction cs using List.reverseRecOn with
  | nil => rfl
  | append_singleton cs c ih =>
      rw [List.foldl_append, ih, lastLine_append]
      show quoteStep _ c = _
      by_cases hn : c = '\n'
      · subst hn
        rfl
      · rw [if_neg hn, List.count_append]
        by_cases hc : c = '"'
        · subst hc
          have hodd : ∀ n : Nat, (!decide (n % 2 = 1)) = decide ((n + 1) % 2 = 1) := by
            intro n
            rw [Bool.eq_iff_iff, Bool.not_eq_true', decide_eq_false_iff_not, decide_eq_true_eq]
            omega
          exact hodd _
        · have hzero : [c].count '"' = 0 := List.count_eq_zero.2 fun h =>
            hc (List.mem_singleton.1 h).symm
          rw [hzero, quoteStep, if_neg hc, if_neg hn, Nat.add_zero]

theorem entries_newline (a b : String) : entries (a ++ "\n" ++ b) = entries a ++ entries b := by
  have htext : (a ++ "\n" ++ b).toList = a.toList ++ '\n' :: b.toList := by
    rw [String.toList_append, String.toList_append, List.append_assoc]
    rfl
  rw [entries, htext, dropQuoted_newline, List.splitOnP_append_cons _ _ (by decide),
    nonBlank_append]
  rfl

/-- A comma or a semicolon ends an entry, unless it stands after an open quotation mark. -/
theorem entries_separator {sep : Char} (hsep : sep = ',' ∨ sep = ';') {a : String}
    (heven : (lastLine a.toList).count '"' % 2 = 0) (b : String) :
    entries (a ++ String.singleton sep ++ b) = entries a ++ entries b := by
  have htext : (a ++ String.singleton sep ++ b).toList = a.toList ++ sep :: b.toList := by
    rw [String.toList_append, String.toList_append, List.append_assoc, String.toList_singleton,
      List.singleton_append]
  have hclosed : a.toList.foldl quoteStep false = false := by
    rw [quotes_closed, heven]
    rfl
  have hquote : sep ≠ '"' := by
    rcases hsep with rfl | rfl
    · decide
    · decide
  have hends : isSeparator sep = true := by
    rcases hsep with rfl | rfl
    · decide
    · decide
  rw [entries, htext, dropQuoted_append hquote none _ _ hclosed,
    List.splitOnP_append_cons _ _ hends, nonBlank_append]
  rfl

/-! ## Pieces of the text -/

/-- A list of characters that is made of pieces of the text, with a space between them. -/
inductive Pieces (text : List Char) : List Char → Prop
  | one {s : List Char} : s <:+: text → Pieces text s
  | more {s out : List Char} : s <:+: text → Pieces text out → Pieces text (s ++ ' ' :: out)

namespace Pieces

variable {text out s : List Char}

/-- Without the quoted names a text consists of pieces of it. -/
theorem dropQuoted_spec (cs : List Char) : ∀ (st : Option (List Char)) (done : List Char),
    done ++ (st.elim [] fun acc => '"' :: acc.reverse) ++ cs <:+: text →
      Pieces text (done ++ dropQuoted st cs) := by
  induction cs with
  | nil =>
      intro st done h
      cases st with
      | none => exact .one (by simpa [dropQuoted] using h)
      | some acc => exact .one (by simpa [dropQuoted] using h)
  | cons c cs ih =>
      intro st done h
      cases st with
      | none =>
          unfold dropQuoted
          split
          · rename_i hc
            subst hc
            exact ih (some []) done (by simpa using h)
          · have hpieces := ih none (done ++ [c]) (by simpa using h)
            rwa [List.append_assoc, List.singleton_append] at hpieces
      | some acc =>
          unfold dropQuoted
          split
          · rename_i hc
            subst hc
            have hdone : done <:+: text :=
              .trans ⟨[], '"' :: acc.reverse ++ '"' :: cs, by simp⟩ h
            have hrest : cs <:+: text :=
              .trans ⟨done ++ '"' :: acc.reverse ++ ['"'], [], by simp⟩ h
            exact .more hdone (ih none [] (by simpa using hrest))
          · split
            · rename_i hn
              subst hn
              have hpieces := ih none (done ++ '"' :: acc.reverse ++ ['\n']) (by simpa using h)
              simpa using hpieces
            · exact ih (some (c :: acc)) done (by simpa using h)

theorem suffix (h : Pieces text out) (hs : s <:+ out) : Pieces text s := by
  induction h with
  | one hin => exact .one (hs.isInfix.trans hin)
  | @more first out hin hrest ih =>
      obtain ⟨t, ht⟩ := hs
      rcases List.append_eq_append_iff.1 ht with ⟨mid, rfl, rfl⟩ | ⟨mid, rfl, hmid⟩
      · exact .more (.trans ⟨t, [], by simp⟩ hin) hrest
      · rcases mid with - | ⟨c, mid⟩
        · rw [List.nil_append] at hmid
          rw [← hmid]
          exact .more List.nil_infix hrest
        · rw [List.cons_append, List.cons.injEq] at hmid
          exact ih ⟨mid, hmid.2.symm⟩

theorem initial (h : Pieces text out) (hs : s <+: out) : Pieces text s := by
  induction h generalizing s with
  | one hin => exact .one (hs.isInfix.trans hin)
  | @more first out hin hrest ih =>
      obtain ⟨t, ht⟩ := hs
      rcases List.append_eq_append_iff.1 ht with ⟨mid, rfl, hmid⟩ | ⟨mid, rfl, hmid⟩
      · exact .one (.trans ⟨[], mid, by simp⟩ hin)
      · rcases mid with - | ⟨c, mid⟩
        · rw [List.append_nil]
          exact .one hin
        · rw [List.cons_append, List.cons.injEq] at hmid
          obtain ⟨rfl, rfl⟩ := hmid
          exact .more hin (ih ⟨t, rfl⟩)

theorem within (h : Pieces text out) (hs : s <:+: out) : Pieces text s := by
  obtain ⟨t, u, rfl⟩ := hs
  exact (h.initial ⟨u, rfl⟩).suffix ⟨t, rfl⟩

end Pieces

/-- A piece of a split is a piece of the whole. -/
theorem infix_of_mem_splitOnP {p : Char → Bool} {w cs : List Char} (h : w ∈ cs.splitOnP p) :
    w <:+: cs := by
  have hgo : ∀ (cs w : List Char), w ∈ cs.splitOnP p →
      w <:+: cs ∧ ((cs.splitOnP p).head? = some w → w <+: cs) := by
    intro cs
    induction cs with
    | nil =>
        intro w hw
        rw [List.splitOnP_nil, List.mem_singleton] at hw
        subst hw
        exact ⟨List.nil_infix, fun _ => List.nil_prefix⟩
    | cons c cs ih =>
        intro w hw
        rw [List.splitOnP_cons_eq_if_modifyHead] at hw ⊢
        by_cases hc : p c
        · rw [if_pos hc] at hw ⊢
          rcases List.mem_cons.1 hw with rfl | hw
          · exact ⟨List.nil_infix, fun _ => List.nil_prefix⟩
          · refine ⟨(ih w hw).1.trans (List.suffix_cons c cs).isInfix, fun hhead => ?_⟩
            rw [List.head?_cons, Option.some.injEq] at hhead
            subst hhead
            exact List.nil_prefix
        · rw [if_neg hc] at hw ⊢
          obtain ⟨first, rest, hsplit⟩ := List.exists_cons_of_ne_nil (List.splitOnP_ne_nil p cs)
          rw [hsplit, List.modifyHead_cons] at hw ⊢
          have hfirst : first <+: cs :=
            (ih first (by rw [hsplit]; exact List.mem_cons_self ..)).2 (by rw [hsplit]; rfl)
          have hcons : c :: first <+: c :: cs := List.cons_prefix_cons.2 ⟨rfl, hfirst⟩
          rcases List.mem_cons.1 hw with rfl | hw
          · exact ⟨hcons.isInfix, fun _ => hcons⟩
          · have hin : w <:+: cs := (ih w (by rw [hsplit]; exact List.mem_cons_of_mem _ hw)).1
            refine ⟨hin.trans (List.suffix_cons c cs).isInfix, fun hhead => ?_⟩
            rw [List.head?_cons, Option.some.injEq] at hhead
            subst hhead
            exact hcons
  exact (hgo cs w h).1

theorem toList_trim (s : String) : (trim s).toList = trimmed isSpace s.toList :=
  String.toList_ofList

theorem trim_infix (s : String) : (trim s).toList <:+: s.toList := by
  rw [toList_trim]
  exact trimmed_within isSpace s.toList

/-- An entry is made of pieces of the text. -/
theorem pieces_of_mem_entries {text : String} {entry : List Char} (h : entry ∈ entries text) :
    Pieces text.toList entry := by
  obtain ⟨raw, hraw, rfl⟩ := List.mem_map.1 (List.mem_filter.1 h).1
  have hin : (trim (String.ofList raw)).toList <:+: raw := by
    have htrim := trim_infix (String.ofList raw)
    rwa [String.toList_ofList] at htrim
  have hall : Pieces text.toList (dropQuoted none text.toList) := by
    have hspec := @Pieces.dropQuoted_spec text.toList text.toList none []
    rw [List.nil_append] at hspec
    exact hspec (List.infix_refl _)
  exact hall.within (hin.trans (infix_of_mem_splitOnP hraw))

theorem findAngle_infix {cs inside rest : List Char} (h : findAngle cs = some (inside, rest)) :
    inside <:+: cs := by
  induction cs with
  | nil => cases h
  | cons c cs ih =>
      unfold findAngle at h
      split at h
      · split at h
        · rename_i inside' rest' hspan
          cases h
          have hcs : cs = inside ++ '>' :: rest := by
            have hboth := List.span_eq_takeWhile_dropWhile (fun x => x != '<' && x != '>') cs
            rw [hspan, Prod.mk.injEq] at hboth
            rw [hboth.1, hboth.2, List.takeWhile_append_dropWhile]
          exact ⟨[c], '>' :: rest, by rw [hcs]; simp⟩
        · exact (ih h).trans (List.suffix_cons c cs).isInfix
      · exact (ih h).trans (List.suffix_cons c cs).isInfix

theorem addressWord_mem {ws : List (List Char)} {w : List Char} {tail : List (List Char)}
    (h : addressWord ws = some (w, tail)) : w ∈ ws := by
  induction ws with
  | nil => cases h
  | cons first rest ih =>
      unfold addressWord at h
      split at h
      · cases h
        exact List.mem_cons_self ..
      · exact List.mem_cons_of_mem _ (ih h)

/-- The address of an entry is the normalised form of a piece of the entry, and it is valid. -/
theorem parseEntry_address {entry : List Char} {r : RecipientInput}
    (h : parseEntry P entry fallback = some r) :
    isValidEmail r.email = true ∧
      ∃ address, address <:+: entry ∧ r.email = normalizeEmail P (String.ofList address) := by
  unfold parseEntry at h
  simp only [] at h
  split at h
  · cases h
  · rename_i address tail hparts
    have hin : address <:+: entry := by
      split at hparts
      · rename_i inside rest hangle
        cases hparts
        exact findAngle_infix hangle
      · exact infix_of_mem_splitOnP (List.mem_filter.1 (addressWord_mem hparts)).1
    split at h
    · cases h
    · rename_i hvalid
      have hemail : r.email = normalizeEmail P (String.ofList address) := by
        split at h
        · cases h
          rfl
        · obtain ⟨lang, -, rfl⟩ := Option.map_eq_some_iff.1 h
          rfl
        · cases h
      rw [hemail]
      exact ⟨by simpa using hvalid, address, hin, rfl⟩

/-! ## Characters of an address -/

theorem mem_of_mem_splitOn {c sep : Char} {cs : List Char} (h : c ∈ cs) :
    c = sep ∨ ∃ w ∈ cs.splitOn sep, c ∈ w := by
  rw [List.splitOn_eq_splitOnP]
  induction cs with
  | nil => cases h
  | cons x xs ih =>
      obtain ⟨first, rest, hsplit⟩ := List.exists_cons_of_ne_nil (List.splitOnP_ne_nil (· == sep) xs)
      rw [List.splitOnP_cons_eq_if_modifyHead, hsplit, List.modifyHead_cons]
      rw [hsplit] at ih
      rcases List.mem_cons.1 h with rfl | h
      · by_cases hc : c = sep
        · exact .inl hc
        · refine .inr ⟨c :: first, ?_, List.mem_cons_self ..⟩
          rw [if_neg (by simpa using hc)]
          exact List.mem_cons_self ..
      · refine (ih h).imp id fun ⟨w, hw, hcw⟩ => ?_
        split
        · exact ⟨w, List.mem_cons_of_mem _ hw, hcw⟩
        · rcases List.mem_cons.1 hw with rfl | hw
          · exact ⟨x :: w, List.mem_cons_self .., List.mem_cons_of_mem _ hcw⟩
          · exact ⟨w, List.mem_cons_of_mem _ hw, hcw⟩

/-- An address holds an `@`, and all its other characters may stand before it. -/
theorem matchesEmail_chars {cs : List Char} (h : matchesEmail cs = true) :
    '@' ∈ cs ∧ ∀ c ∈ cs, c = '@' ∨ isLocalChar c = true := by
  unfold matchesEmail at h
  simp only [] at h
  split at h
  · rename_i domain hdrop
    rw [Bool.and_eq_true, isDomain, Bool.and_eq_true, List.all_eq_true] at h
    have hcs : cs = cs.takeWhile isLocalChar ++ '@' :: domain := by
      rw [← hdrop, List.takeWhile_append_dropWhile]
    refine ⟨by rw [hcs]; simp, fun c hc => ?_⟩
    rw [hcs] at hc
    rcases List.mem_append.1 hc with hc | hc
    · exact .inr (List.mem_takeWhile_imp hc)
    · rcases List.mem_cons.1 hc with hat | hc
      · exact .inl hat
      · rcases @mem_of_mem_splitOn c '.' domain hc with rfl | ⟨label, hlabel, hc⟩
        · exact .inr (by decide)
        · have hall := h.2.2 label hlabel
          rw [Bool.and_eq_true, List.all_eq_true] at hall
          have hchar := hall.2 c hc
          rw [isLabelChar, Bool.and_eq_true] at hchar
          exact .inr hchar.1
  · cases h

theorem isValidEmail_chars {email : String} (h : isValidEmail email = true) :
    '@' ∈ email.toList ∧ ∀ c ∈ email.toList, c = '@' ∨ isLocalChar c = true :=
  matchesEmail_chars (Bool.and_eq_true_iff.1 h).2

theorem not_isSpace_of_chars {c : Char} (h : c = '@' ∨ isLocalChar c = true) :
    isSpace c = false := by
  rcases h with rfl | h
  · decide
  · cases hspace : isSpace c with
    | false => rfl
    | true => simp [isLocalChar, hspace] at h

/-! ## The piece an address was read from -/

/-- When the space in the middle is trimmed away, one of the two sides is. -/
theorem trim_space (x y : String) (h : ' ' ∉ (trim (x ++ " " ++ y)).toList) :
    trim (x ++ " " ++ y) = trim x ∨ trim (x ++ " " ++ y) = trim y := by
  have htext : (x ++ " " ++ y).toList = x.toList ++ ' ' :: y.toList := by
    rw [String.toList_append, String.toList_append, List.append_assoc]
    rfl
  unfold trim at h ⊢
  rw [htext, List.dropWhile_append] at h ⊢
  rw [String.toList_ofList, List.mem_reverse] at h
  cases hx : (x.toList.dropWhile isSpace).isEmpty with
  | true =>
      rw [if_pos rfl, List.dropWhile_cons_of_pos (by decide)]
      exact .inr rfl
  | false =>
      rw [hx, if_neg Bool.false_ne_true] at h
      rw [if_neg Bool.false_ne_true]
      rw [List.reverse_append, List.reverse_cons, List.append_assoc, List.singleton_append,
        List.dropWhile_append] at h ⊢
      cases hy : (y.toList.reverse.dropWhile isSpace).isEmpty with
      | true =>
          rw [if_pos rfl, List.dropWhile_cons_of_pos (by decide)]
          exact .inl rfl
      | false =>
          rw [hy, if_neg Bool.false_ne_true] at h
          exact absurd (List.mem_append_right _ (List.mem_cons_self ..)) h

/-- A valid address is read from one piece of the text. -/
theorem normalizeEmail_piece (hP : KeepsSpaces P) {text address : List Char}
    (h : Pieces text address)
    (hvalid : isValidEmail (normalizeEmail P (String.ofList address)) = true) :
    ∃ piece, piece <:+: text ∧
      normalizeEmail P (String.ofList address) = normalizeEmail P (String.ofList piece) := by
  induction h with
  | one hin => exact ⟨_, hin, rfl⟩
  | @more first out hin hrest ih =>
      have hsplit : P.nfkc (String.ofList (first ++ ' ' :: out)) =
          P.nfkc (String.ofList first) ++ " " ++ P.nfkc (String.ofList out) := by
        have hofList : String.ofList (first ++ ' ' :: out) =
            String.ofList first ++ " " ++ String.ofList out := by
          refine String.toList_injective ?_
          simp
        rw [hofList, hP.nfkc]
      have hno : ' ' ∉ (trim (P.nfkc (String.ofList (first ++ ' ' :: out)))).toList := by
        intro hspace
        have hmem := hP.toLowerCase _ hspace
        have hnot := not_isSpace_of_chars ((isValidEmail_chars hvalid).2 _ hmem)
        exact absurd hnot (by decide)
      rw [hsplit] at hno
      rcases trim_space _ _ hno with hfirst | hout
      · refine ⟨first, hin, ?_⟩
        rw [normalizeEmail, hsplit, hfirst, normalizeEmail]
      · have hsame : normalizeEmail P (String.ofList (first ++ ' ' :: out)) =
            normalizeEmail P (String.ofList out) := by
          rw [normalizeEmail, hsplit, hout, normalizeEmail]
        rw [hsame] at hvalid ⊢
        exact ih hvalid

/-! ## What is read -/

theorem nodup_recipients (text : String) :
    ((parseRecipients P text fallback).1.map (·.email)).Nodup := by
  rw [parseRecipients_eq]
  exact Distinct.nodup_distinct _

theorem recipient_address (hP : KeepsSpaces P) {text : String} {r : RecipientInput}
    (h : r ∈ (parseRecipients P text fallback).1) : isValidEmail r.email = true ∧
      ∃ piece, piece <:+: text.toList ∧ r.email = normalizeEmail P (String.ofList piece) := by
  rw [parseRecipients_eq] at h
  obtain ⟨entry, hentry, hparsed⟩ := List.mem_filterMap.1 (Distinct.distinct_subset _ h)
  obtain ⟨hvalid, address, hin, hemail⟩ := parseEntry_address hparsed
  obtain ⟨piece, hpiece, hnormal⟩ :=
    normalizeEmail_piece hP ((pieces_of_mem_entries hentry).within hin) (hemail ▸ hvalid)
  exact ⟨hvalid, piece, hpiece, hemail.trans hnormal⟩

/-- No entry is lost. -/
theorem entry_read {text : String} {entry : List Char} (h : entry ∈ entries text) :
    listed entry ∈ (parseRecipients P text fallback).2 ∨
      ∃ parsed, parseEntry P entry fallback = some parsed ∧
        ∃ r ∈ (parseRecipients P text fallback).1, r.email = parsed.email := by
  rw [parseRecipients_eq]
  cases hparsed : parseEntry P entry fallback with
  | none =>
      refine .inl (List.mem_map_of_mem (List.mem_filter.2 ⟨h, ?_⟩))
      rw [hparsed]
      rfl
  | some parsed =>
      refine .inr ⟨parsed, rfl, Distinct.seen_iff.1 ?_⟩
      rw [mergeRecipients_eq, Distinct.seen_distinct]
      exact Distinct.seen_iff.2 ⟨parsed, List.mem_filterMap.2 ⟨entry, h, hparsed⟩, rfl⟩

end

/-- Address lists compose.  What is read of a list are valid addresses that stand in it, each of
them once, and every entry is either reported or names one of them. -/
theorem address_lists_compose (hP : KeepsSpaces P) (fallback : Lang) (a b : String) :
    (∀ sep : Char, sep = '\n' ∨
        ((sep = ',' ∨ sep = ';') ∧ (lastLine a.toList).count '"' % 2 = 0) →
      parseRecipients P (a ++ String.singleton sep ++ b) fallback =
        (mergeRecipients ((parseRecipients P a fallback).1 ++ (parseRecipients P b fallback).1),
          (parseRecipients P a fallback).2 ++ (parseRecipients P b fallback).2)) ∧
      ((parseRecipients P a fallback).1.map (·.email)).Nodup ∧
      (∀ r ∈ (parseRecipients P a fallback).1, isValidEmail r.email = true ∧
        ∃ piece, piece <:+: a.toList ∧ r.email = normalizeEmail P (String.ofList piece)) ∧
      ∀ entry ∈ entries a, listed entry ∈ (parseRecipients P a fallback).2 ∨
        ∃ parsed, parseEntry P entry fallback = some parsed ∧
          ∃ r ∈ (parseRecipients P a fallback).1, r.email = parsed.email := by
  refine ⟨?_, nodup_recipients a, fun r hr => recipient_address hP hr, fun entry h => entry_read h⟩
  rintro sep (rfl | ⟨hsep, heven⟩)
  · exact parseRecipients_append (entries_newline a b)
  · exact parseRecipients_append (entries_separator hsep heven b)

theorem keepsSpaces_sample : KeepsSpaces .sample where
  nfkc a b := by
    refine String.toList_injective ?_
    simp [Platform.sample]
  toLowerCase s h := by
    show ' ' ∈ (String.ofList (s.toList.map Char.toLower)).toList
    rw [String.toList_ofList]
    exact List.mem_map.2 ⟨' ', h, by decide⟩

theorem address_lists_compose_two :
    parseRecipients .sample "\"Kowalski, Jan\" <jan@example.com>,anna@example.com de" .en =
      ([⟨"jan@example.com", .en⟩, ⟨"anna@example.com", .de⟩], []) := by
  have h := (address_lists_compose .sample keepsSpaces_sample .en
    "\"Kowalski, Jan\" <jan@example.com>" "anna@example.com de").1 ',' (.inr ⟨.inl rfl, by decide +kernel⟩)
  refine Eq.trans ?_ (h.trans ?_)
  · decide +kernel
  · decide +kernel

/-! ## A list that was written out -/

section

variable {P} {fallback : Lang}

/-- The line of a recipient. -/
def line (r : RecipientInput) : String := r.email ++ " " ++ r.lang.code

theorem line_toList (r : RecipientInput) :
    (line r).toList = r.email.toList ++ ' ' :: r.lang.code.toList := by
  simp [line]

theorem formatRecipients_cons (r x : RecipientInput) (rest : List RecipientInput) :
    formatRecipients (r :: x :: rest) = line r ++ "\n" ++ formatRecipients (x :: rest) := by
  simp [formatRecipients, line]

theorem code_chars (lang : Lang) : lang.code.toList ≠ [] ∧
    ∀ c ∈ lang.code.toList, isLocalChar c = true := by
  rw [← List.all_eq_true]
  constructor
  · cases lang <;> decide +kernel
  · cases lang <;> decide +kernel

theorem isLang_code (lang : Lang) : isLang lang.code = some lang := by
  cases lang <;> rfl

theorem line_chars {r : RecipientInput} (hvalid : isValidEmail r.email = true) :
    ∀ c ∈ (line r).toList, c = ' ' ∨ c = '@' ∨ isLocalChar c = true := by
  intro c hc
  rw [line_toList] at hc
  rcases List.mem_append.1 hc with hc | hc
  · exact .inr ((isValidEmail_chars hvalid).2 c hc)
  · rcases List.mem_cons.1 hc with rfl | hc
    · exact .inl rfl
    · exact .inr (.inr ((code_chars r.lang).2 c hc))

theorem dropQuoted_none {cs : List Char} (h : '"' ∉ cs) : dropQuoted none cs = cs := by
  induction cs with
  | nil => rfl
  | cons c cs ih =>
      rw [List.mem_cons, not_or] at h
      rw [dropQuoted, if_neg (Ne.symm h.1), ih h.2]

theorem trim_of_ends {s : String} {c c' : Char} {cs cs' : List Char} (hs : s.toList = c :: cs)
    (hs' : s.toList = cs' ++ [c']) (hc : isSpace c = false) (hc' : isSpace c' = false) :
    trim s = s := by
  refine String.toList_injective ?_
  rw [toList_trim]
  refine trimmed_eq_self (fun x hx => ?_) fun x hx => ?_
  · rw [hs, List.head?_cons, Option.some.injEq] at hx
    exact hx ▸ hc
  · rw [hs', List.getLast?_concat, Option.some.injEq] at hx
    exact hx ▸ hc'

theorem trim_line {r : RecipientInput} (hvalid : isValidEmail r.email = true) :
    trim (line r) = line r := by
  obtain ⟨hat, hchars⟩ := isValidEmail_chars hvalid
  obtain ⟨c, cs, hemail⟩ := List.exists_cons_of_ne_nil (List.ne_nil_of_mem hat)
  obtain ⟨hne, hcode⟩ := code_chars r.lang
  have hfirst : (line r).toList = c :: (cs ++ ' ' :: r.lang.code.toList) := by
    rw [line_toList, hemail, List.cons_append]
  have hlast : (line r).toList = (r.email.toList ++ ' ' :: r.lang.code.toList.dropLast) ++
      [r.lang.code.toList.getLast hne] := by
    rw [line_toList, List.append_assoc, List.cons_append, List.dropLast_append_getLast]
  refine trim_of_ends hfirst hlast ?_ ?_
  · exact not_isSpace_of_chars (hchars c (by rw [hemail]; exact List.mem_cons_self ..))
  · exact not_isSpace_of_chars (.inr (hcode _ (List.getLast_mem hne)))

/-- A line is one entry. -/
theorem entries_line {r : RecipientInput} (hvalid : isValidEmail r.email = true) :
    entries (line r) = [(line r).toList] := by
  have hquote : '"' ∉ (line r).toList := by
    intro h
    rcases line_chars hvalid _ h with h | h | h
    · exact absurd h (by decide)
    · exact absurd h (by decide)
    · exact absurd h (by decide)
  have hsep : ∀ c ∈ (line r).toList, isSeparator c = false := by
    intro c hc
    rcases line_chars hvalid c hc with rfl | rfl | h
    · decide
    · decide
    · cases hsep : isSeparator c with
      | false => rfl
      | true =>
          simp only [isSeparator, Bool.or_eq_true, beq_iff_eq] at hsep
          rcases hsep with ((rfl | rfl) | rfl) | rfl
          · exact absurd h (by decide)
          · exact absurd h (by decide)
          · exact absurd h (by decide)
          · exact absurd h (by decide)
  have hne : (line r).toList.isEmpty = false := by
    rw [line_toList, List.isEmpty_eq_false_iff]
    exact List.append_ne_nil_of_right_ne_nil _ (List.cons_ne_nil _ _)
  rw [entries, dropQuoted_none hquote, List.splitOnP_eq_singleton hsep]
  simp [nonBlank, trim_line hvalid, hne]

theorem findAngle_none {cs : List Char} (h : '<' ∉ cs) : findAngle cs = none := by
  induction cs with
  | nil => rfl
  | cons c cs ih =>
      rw [List.mem_cons, not_or] at h
      rw [findAngle, if_neg (Ne.symm h.1), ih h.2]

/-- A line is read as the recipient it was written for. -/
theorem parseEntry_line (hlower : ∀ lang : Lang, P.toLowerCase lang.code = lang.code)
    {r : RecipientInput} (hvalid : isValidEmail r.email = true)
    (hnormal : normalizeEmail P r.email = r.email) :
    parseEntry P (line r).toList fallback = some r := by
  obtain ⟨hat, hchars⟩ := isValidEmail_chars hvalid
  obtain ⟨hne, hcode⟩ := code_chars r.lang
  have hangle : findAngle (line r).toList = none := by
    refine findAngle_none fun h => ?_
    rcases line_chars hvalid _ h with h | h | h
    · exact absurd h (by decide)
    · exact absurd h (by decide)
    · exact absurd h (by decide)
  have hwords : words (line r).toList = [r.email.toList, r.lang.code.toList] := by
    rw [words, line_toList, List.splitOnP_append_cons_of_forall_mem
      (fun c hc => not_isSpace_of_chars (hchars c hc)) ' ' (by decide),
      List.splitOnP_eq_singleton fun c hc => not_isSpace_of_chars (.inr (hcode c hc))]
    have hemail : r.email.toList.isEmpty = false :=
      List.isEmpty_eq_false_iff.2 (List.ne_nil_of_mem hat)
    have hlang : r.lang.code.toList.isEmpty = false := List.isEmpty_eq_false_iff.2 hne
    simp [hemail, hlang]
  have hword : addressWord [r.email.toList, r.lang.code.toList] =
      some (r.email.toList, [r.lang.code.toList]) := by
    rw [addressWord, if_pos (List.contains_iff_mem.2 hat)]
  unfold parseEntry
  rw [hangle, hwords, hword]
  simp only [String.ofList_toList, hnormal, hvalid, Bool.not_true, Bool.false_eq_true, if_false,
    hlower, isLang_code, Option.map_some]

theorem entries_format {list : List RecipientInput}
    (hvalid : ∀ r ∈ list, isValidEmail r.email = true) :
    entries (formatRecipients list) = list.map fun r => (line r).toList := by
  induction list with
  | nil => decide +kernel
  | cons r rest ih =>
      have hrest := ih fun x hx => hvalid x (List.mem_cons_of_mem _ hx)
      have hone := entries_line (hvalid r (List.mem_cons_self ..))
      cases rest with
      | nil =>
          have hsingle : formatRecipients [r] = line r := String.intercalate_singleton
          rw [hsingle, hone]
          rfl
      | cons x rest =>
          rw [formatRecipients_cons, entries_newline, hone, hrest]
          rfl

end

/-- A list that was written out is read back as it was. -/
theorem parse_formatRecipients (hlower : ∀ lang : Lang, P.toLowerCase lang.code = lang.code)
    (fallback : Lang) (list : List RecipientInput) (hdistinct : (list.map (·.email)).Nodup)
    (hvalid : ∀ r ∈ list, isValidEmail r.email = true)
    (hnormal : ∀ r ∈ list, normalizeEmail P r.email = r.email) :
    parseRecipients P (formatRecipients list) fallback = (list, []) := by
  have hparsed : ∀ r ∈ list, parseEntry P (line r).toList fallback = some r :=
    fun r hr => parseEntry_line hlower (hvalid r hr) (hnormal r hr)
  have hnamed : named P fallback (list.map fun r => (line r).toList) = list := by
    rw [named, List.filterMap_map]
    refine (List.filterMap_congr fun r hr => ?_).trans List.filterMap_some
    exact hparsed r hr
  have hunread : unread P fallback (list.map fun r => (line r).toList) = [] := by
    rw [unread, List.map_eq_nil_iff, List.filter_eq_nil_iff]
    intro entry hentry
    obtain ⟨r, hr, rfl⟩ := List.mem_map.1 hentry
    rw [hparsed r hr]
    exact Bool.false_ne_true
  rw [parseRecipients_eq, entries_format hvalid, hnamed, hunread, mergeRecipients_eq,
    Distinct.distinct_of_nodup hdistinct]

theorem parse_formatRecipients_two :
    parseRecipients .sample
        (formatRecipients [⟨"jan@example.com", .en⟩, ⟨"anna@example.com", .de⟩]) .pl =
      ([⟨"jan@example.com", .en⟩, ⟨"anna@example.com", .de⟩], []) :=
  parse_formatRecipients .sample (fun lang => by cases lang <;> decide +kernel) .pl _
    (by decide) (by decide +kernel) (by decide +kernel)

end AddressLists

end Outletbox
