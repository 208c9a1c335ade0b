import Outletbox.AddressLists
import Outletbox.Http.App
import Outletbox.People

/-!
# Valid rows

What the services check before they store a row.  A text that may not be blank
has a limit in UTF-16 units, a file name cannot leave its directory, a limit of
openings is one, an address is an address.
-/

namespace Outletbox

open Trimming

variable (P : Platform) (cfg : Config)

/-- A text that is not blank, of at most `n` units. -/
def Fits (n : Nat) (s : String) : Prop := trim s ≠ "" ∧ utf16Length s ≤ n

instance (n : Nat) (s : String) : Decidable (Fits n s) := inferInstanceAs (Decidable (_ ∧ _))

/-- The name of a case or a group: no white space stands around it. -/
structure IsName (s : String) : Prop where
  trimmed : trim s = s
  there : s ≠ ""
  short : utf16Length s ≤ 200

structure Case.Valid (c : Case) : Prop where
  name : IsName c.name
  description : utf16Length c.description ≤ 5000

/-- A character that may stand in the name of a file. -/
def isNameChar (c : Char) : Bool := !isControl c && c != '\\' && c != '/'

/-- The name of a file: it cannot leave its directory. -/
structure IsFileName (s : String) : Prop where
  there : s ≠ ""
  short : utf16Length s ≤ 255
  chars : s.toList.all isNameChar = true
  noDots : s ≠ "." ∧ s ≠ ".."

structure ItemRow.Valid (i : ItemRow) : Prop where
  file : i.kind = .file → IsFileName i.title ∧ i.body = none ∧
    ∀ n, i.declaredSize = some n → n ≤ maxSafeInteger
  note : i.kind = .note → Fits 200 i.title ∧ (∃ body, i.body = some body ∧ Fits 20000 body) ∧
    (i.status = .ready ∨ i.status = .deleted)
  ready : i.status = .ready → i.readyAt.isSome = true ∧ (i.kind = .file → i.size.isSome = true)
  deleted : i.status = .deleted ↔ i.deletedAt.isSome = true

structure Link.Valid (l : Link) : Prop where
  label : Fits 200 l.label
  hint : utf16Length l.tokenHint ≤ 6
  opens : ∀ m, l.maxOpens = some m → 0 < m ∧ l.opensUsed ≤ m
  expires : ∀ e, l.expiresAt = some e → l.createdAt < e

structure PasskeyRow.Valid (k : PasskeyRow) : Prop where
  name : Fits 64 k.name
  algorithm : k.algorithm ∈ coseAlgs

section

variable {P} {cfg} {now : Int} {id : String} {d d' : DeliveryDb}

/-! ## Texts -/

/-- A character has one unit or two. -/
theorem units_pos (c : Char) : 1 ≤ units c ∧ units c ≤ 2 := by
  unfold units
  split <;> decide

/-- Exactly `n` units are taken, or all there are. -/
theorem unitLength_takeUnits (n : Nat) (cs : List Char) :
    unitLength (takeUnits n cs) = min n (unitLength cs) := by
  unfold unitLength
  fun_induction takeUnits n cs with
  | case1 n => exact (Nat.min_zero n).symm
  | case2 => exact (Nat.zero_min _).symm
  | case3 n c cs hone ih =>
      rw [List.map_cons, List.sum_cons, List.map_cons, List.sum_cons, hone]
      omega
  | case4 c cs hone =>
      -- half of a pair is one unit
      have hpair := units_pos c
      have hhalf : (['\uFFFD'].map units).sum = 1 := by decide
      rw [hhalf, List.map_cons, List.sum_cons]
      omega
  | case5 n c cs hone hn ih =>
      have hpair := units_pos c
      rw [List.map_cons, List.sum_cons, List.map_cons, List.sum_cons]
      omega

/-- The first character stays, unless it is a pair that is cut in half. -/
theorem head_takeUnits {n : Nat} {c : Char} {cs : List Char} (h : takeUnits n (c :: cs) ≠ []) :
    c ∈ takeUnits n (c :: cs) ∨ '\uFFFD' ∈ takeUnits n (c :: cs) := by
  cases n with
  | zero => exact absurd rfl h
  | succ n =>
      rw [takeUnits]
      split
      · exact .inl (List.mem_cons_self ..)
      split
      · exact .inr (List.mem_singleton_self _)
      · exact .inl (List.mem_cons_self ..)

theorem mem_takeUnits {n : Nat} {cs : List Char} {c : Char} (h : c ∈ takeUnits n cs) :
    c ∈ cs ∨ c = '\uFFFD' := by
  fun_induction takeUnits n cs with
  | case1 => exact .inl h
  | case2 => cases h
  | case3 n x cs _ ih =>
      rcases List.mem_cons.1 h with rfl | h
      · exact .inl (List.mem_cons_self ..)
      · exact (ih h).imp_left (List.mem_cons_of_mem _)
  | case4 => exact .inr (List.mem_singleton.1 h)
  | case5 n x cs _ _ ih =>
      rcases List.mem_cons.1 h with rfl | h
      · exact .inl (List.mem_cons_self ..)
      · exact (ih h).imp_left (List.mem_cons_of_mem _)

theorem utf16Length_slice (n : Nat) (s : String) : utf16Length (slice n s) ≤ n := by
  rw [utf16Length, slice, String.toList_ofList]
  exact (unitLength_takeUnits n s.toList).trans_le (Nat.min_le_left ..)

/-- What is cut off a trimmed text is not blank: its first character is not white space. -/
theorem fits_slice {n : Nat} {s : String} (h : slice n (trim s) ≠ "") :
    Fits n (slice n (trim s)) := by
  refine ⟨fun hblank => ?_, utf16Length_slice n _⟩
  have hne : takeUnits n (trim s).toList ≠ [] := fun hnil => h (by rw [slice, hnil])
  have hkept : ∀ c ∈ takeUnits n (trim s).toList, isSpace c = false → False := by
    intro c hc hspace
    have hlist := congrArg String.toList hblank
    rw [AddressLists.toList_trim, slice, String.toList_ofList] at hlist
    exact trimmed_ne_nil hc hspace hlist
  cases hs : (trim s).toList with
  | nil => rw [hs] at hne; exact hne (by cases n <;> rfl)
  | cons c cs =>
      have hfirst : (trimmed isSpace s.toList).head? = some c := by
        rw [← AddressLists.toList_trim, hs, List.head?_cons]
      rw [hs] at hne hkept
      rcases head_takeUnits hne with hc | hc
      · exact hkept c hc (head_trimmed hfirst)
      · exact hkept _ hc (by decide)

/-- A text that may be left out, with what then stands in its place. -/
theorem fits_default {n : Nat} {s other : String} (hother : Fits n other) :
    Fits n (if slice n (trim s) == "" then other else slice n (trim s)) := by
  split
  · exact hother
  · rename_i h
    exact fits_slice fun he => h (beq_iff_eq.2 he)

theorem trim_trim (s : String) : trim (trim s) = trim s := by
  refine String.toList_injective ?_
  rw [AddressLists.toList_trim, AddressLists.toList_trim, trimmed_trimmed]

/-- The test `name === '' || name.length > 200` of the forms, of a trimmed name. -/
theorem isName_of_checked {s : String} (htrim : trim s = s)
    (h : ¬ (s == "" || decide (200 < utf16Length s)) = true) : IsName s := by
  rw [Bool.or_eq_true, not_or, beq_iff_eq, decide_eq_true_eq, not_lt] at h
  exact ⟨htrim, h.1, h.2⟩

/-- A stored name passes the test again. -/
theorem IsName.checked {s : String} (h : IsName s) :
    ¬ (s == "" || decide (200 < utf16Length s)) = true := by
  rw [Bool.or_eq_true, not_or, beq_iff_eq, decide_eq_true_eq, not_lt]
  exact ⟨h.there, h.short⟩

/-! ## File names -/

theorem mem_splitOnP {α : Type} {p : α → Bool} {xs w : List α} (h : w ∈ xs.splitOnP p) :
    ∀ x ∈ w, x ∈ xs ∧ p x = false := by
  induction xs generalizing w with
  | nil =>
      rw [List.splitOnP_nil, List.mem_singleton] at h
      subst h
      exact List.forall_mem_nil _
  | cons y ys ih =>
      rw [List.splitOnP_cons_eq_if_modifyHead] at h
      split at h
      · rename_i hy
        rcases List.mem_cons.1 h with rfl | h
        · exact List.forall_mem_nil _
        · exact fun x hx => (ih h x hx).imp_left (List.mem_cons_of_mem _)
      · rename_i hy
        obtain ⟨first, rest, hsplit⟩ := List.exists_cons_of_ne_nil (List.splitOnP_ne_nil p ys)
        rw [hsplit, List.modifyHead_cons] at h
        rcases List.mem_cons.1 h with rfl | h
        · rintro x hx
          rcases List.mem_cons.1 hx with rfl | hx
          · exact ⟨List.mem_cons_self .., Bool.eq_false_of_not_eq_true hy⟩
          · exact (ih (hsplit ▸ List.mem_cons_self ..) x hx).imp_left (List.mem_cons_of_mem _)
        · exact fun x hx => (ih (hsplit ▸ List.mem_cons_of_mem _ h) x hx).imp_left
            (List.mem_cons_of_mem _)

theorem mem_trim {s : String} {c : Char} (h : c ∈ (trim s).toList) : c ∈ s.toList :=
  (AddressLists.trim_infix s).subset h

theorem splitExtension_eq {name base ext : List Char} (h : splitExtension name = some (base, ext)) :
    name = base ++ ext := by
  unfold splitExtension at h
  split at h
  · rename_i suffix rest hspan
    split at h
    · cases h
    · cases h
      have hparts := List.takeWhile_append_dropWhile (p := (· != '.')) (l := name.reverse)
      rw [List.span_eq_takeWhile_dropWhile] at hspan
      obtain ⟨htake, hdrop⟩ := Prod.mk.inj hspan
      rw [htake, hdrop] at hparts
      have hname := congrArg List.reverse hparts
      rw [List.reverse_reverse] at hname
      rw [← hname]
      simp
  · cases h

/-- A name that is cut has 255 units afterwards. -/
theorem unitLength_cutFilename (name : List Char) :
    unitLength (cutFilename name) = min 255 (unitLength name) := by
  unfold cutFilename
  split
  · rename_i hshort
    exact (Nat.min_eq_right hshort).symm
  · rename_i hlong
    have hkept : ∀ ext : List Char, unitLength ext ≤ 16 →
        unitLength (takeUnits (255 - unitLength ext) name ++ ext) = min 255 (unitLength name) := by
      intro ext hext
      have hstem := unitLength_takeUnits (255 - unitLength ext) name
      unfold unitLength at hstem hext hlong ⊢
      rw [List.map_append, List.sum_append]
      omega
    apply hkept
    split
    · split
      · assumption
      · decide
    · decide

theorem mem_cutFilename {name : List Char} {c : Char} (h : c ∈ cutFilename name) :
    c ∈ name ∨ c = '\uFFFD' := by
  unfold cutFilename at h
  split at h
  · exact .inl h
  rcases List.mem_append.1 h with h | h
  · exact mem_takeUnits h
  · split at h
    · rename_i base ext hext
      split at h
      · rw [splitExtension_eq hext]
        exact .inl (List.mem_append_right _ h)
      · cases h
    · cases h

/-- Only a name that was not cut is shorter than that. -/
theorem cutFilename_short {name : List Char} (h : unitLength (cutFilename name) < 255) :
    cutFilename name = name := by
  rw [unitLength_cutFilename] at h
  rw [cutFilename, if_pos (by omega)]

/-- What is stored under a name that is cut. -/
def storedName (name : List Char) : String :=
  if (cutFilename name).isEmpty then "unnamed" else String.ofList (cutFilename name)

theorem storedName_valid {name : List Char} (h : ∀ c ∈ name, isNameChar c = true)
    (hdots : name.all (· == '.') = true → name = []) : IsFileName (storedName name) := by
  by_cases hcut : (cutFilename name).isEmpty = true
  · rw [storedName, if_pos hcut]
    exact ⟨by decide, by decide, by decide, by decide⟩
  · have hlist : (storedName name).toList = cutFilename name := by
      rw [storedName, if_neg hcut, String.toList_ofList]
    have hkept : ∀ s : String, unitLength s.toList < 255 → s.toList.all (· == '.') = true →
        storedName name ≠ s := by
      rintro s hs hall rfl
      rw [hlist] at hs hall
      rw [cutFilename_short hs] at hall hcut
      rw [hdots hall] at hcut
      exact hcut rfl
    constructor
    · intro hempty
      rw [← hlist, hempty] at hcut
      exact hcut rfl
    · rw [utf16Length, hlist]
      exact (unitLength_cutFilename name).trans_le (Nat.min_le_left ..)
    · refine List.all_eq_true.2 fun c hc => ?_
      rw [hlist] at hc
      rcases mem_cutFilename hc with hc | rfl
      · exact h c hc
      · decide
    · exact ⟨hkept _ (by decide) (by decide), hkept _ (by decide) (by decide)⟩

theorem mem_getLastD {α : Type} {x : α} {ws : List (List α)} (h : x ∈ ws.getLastD []) :
    ∃ w ∈ ws, x ∈ w := by
  rcases List.eq_nil_or_concat ws with rfl | ⟨init, last, rfl⟩
  · cases h
  · rw [List.concat_eq_append] at h ⊢
    rw [List.getLastD_concat] at h
    exact ⟨last, List.mem_append_right _ (List.mem_singleton_self _), h⟩

/-- A stored file name is there, and cannot leave its directory. -/
theorem sanitizeFilename_valid (P : Platform) (raw : String) :
    IsFileName (sanitizeFilename P raw) := by
  rw [show sanitizeFilename P raw = storedName _ from rfl]
  refine storedName_valid (fun c hc => ?_) fun hall => ?_
  swap
  · split at hall
    · rename_i hshown
      rw [if_pos hshown]
    · rename_i hshown
      exact absurd hall hshown
  split at hc
  · cases hc
  have hbase := mem_trim hc
  rw [String.toList_ofList] at hbase
  obtain ⟨hmem, hcontrol⟩ := List.mem_filter.1 hbase
  obtain ⟨w, hw, hc⟩ := mem_getLastD hmem
  obtain ⟨-, hsep⟩ := mem_splitOnP hw c hc
  rw [Bool.or_eq_false_iff] at hsep
  rw [isNameChar, Bool.and_eq_true, Bool.and_eq_true]
  exact ⟨⟨hcontrol, by simpa using hsep.1⟩, by simpa using hsep.2⟩

/-! ## Cases and items -/

/-- The name fits after it is trimmed. -/
theorem valid_newCase {name description : String} {c : Case}
    (h : createCase now id name description d = .ok (c, d')) : c.Valid := by
  unfold createCase at h
  dsimp only at h
  obtain ⟨hname, h⟩ := Fallible.guard_eq_ok.1 h
  obtain ⟨-, h⟩ := Fallible.guard_eq_ok.1 h
  cases h
  exact ⟨isName_of_checked (trim_trim name) hname, utf16Length_slice _ _⟩

/-- Title and body are cut to size after they are trimmed. -/
theorem valid_note {input : NoteInput} {r : ItemRow} (h : createNote now id input d = .ok (r, d')) :
    r.Valid := by
  unfold createNote at h
  dsimp only at h
  obtain ⟨hthere, h⟩ := Fallible.guard_eq_ok.1 h
  obtain ⟨rfl, -, -, -⟩ := insertItem_ok h
  simp only [Bool.or_eq_true, beq_iff_eq, not_or] at hthere
  refine ⟨?_, fun _ => ⟨fits_slice hthere.1, ⟨_, rfl, fits_slice hthere.2⟩, .inl rfl⟩, ?_, ?_⟩
  · rintro ⟨⟩
  · refine fun _ => ⟨rfl, ?_⟩
    rintro ⟨⟩
  · exact ⟨by rintro ⟨⟩, by rintro ⟨⟩⟩

/-- A file starts out as an upload, under a safe name. -/
theorem valid_upload {input : StartUploadInput} {r : ItemRow × Nat}
    (h : startUpload P cfg now input d = .ok (r, d')) : r.1.Valid := by
  unfold startUpload at h
  obtain ⟨hsize, h⟩ := Fallible.guard_eq_ok.1 h
  obtain ⟨-, h⟩ := Fallible.guard_eq_ok.1 h
  obtain ⟨⟨item, d₁⟩, hins, h⟩ := Fallible.bind_eq_ok.1 h
  cases h
  obtain ⟨rfl, -, -, -⟩ := insertItem_ok hins
  constructor
  · dsimp only
    refine fun _ => ⟨sanitizeFilename_valid P input.originalName, rfl, fun n hn => ?_⟩
    rw [hn, Option.any_some, decide_eq_true_eq] at hsize
    exact Nat.not_lt.1 hsize
  · rintro ⟨⟩
  · rintro ⟨⟩
  · exact ⟨by rintro ⟨⟩, by rintro ⟨⟩⟩

/-- An unfinished upload that is complete. -/
theorem ItemRow.Valid.complete {i : ItemRow} (h : i.Valid) (hi : i.status = .uploading)
    (now : Int) (size : Nat) (sha256 : Option String) :
    ({ i with status := .ready, size := some size, sha256 := sha256, readyAt := some now } :
      ItemRow).Valid where
  file := h.file
  note hkind := ⟨(h.note hkind).1, (h.note hkind).2.1, .inl rfl⟩
  ready _ := ⟨rfl, fun _ => rfl⟩
  deleted := ⟨by rintro ⟨⟩, fun hd => absurd (h.deleted.2 hd) (by rw [hi]; decide)⟩

/-- An item that is neither published nor deleted, in a state of files. -/
theorem ItemRow.Valid.leave {i : ItemRow} (h : i.Valid) {status : ItemStatus}
    (hkind : i.kind = .file) (hi : i.status ≠ .deleted) (hready : status ≠ .ready)
    (hdeleted : status ≠ .deleted) : ({ i with status := status } : ItemRow).Valid where
  file := h.file
  note hnote := absurd (hkind.symm.trans hnote) (by decide)
  ready hstatus := absurd hstatus hready
  deleted := ⟨fun hd => absurd hd hdeleted, fun hd => absurd (h.deleted.2 hd) hi⟩

theorem ItemRow.Valid.isFile {i : ItemRow} (h : i.Valid) (hi : i.status = .uploading) :
    i.kind = .file := by
  cases hkind : i.kind with
  | file => rfl
  | note =>
      rcases (h.note hkind).2.2 with hs | hs
      · rw [hi] at hs; cases hs
      · rw [hi] at hs; cases hs

theorem ItemRow.Valid.delete {i : ItemRow} (h : i.Valid) (now : Int) :
    ({ i with status := .deleted, deletedAt := some now } : ItemRow).Valid where
  file := h.file
  note hkind := ⟨(h.note hkind).1, (h.note hkind).2.1, .inr rfl⟩
  ready := by rintro ⟨⟩
  deleted := ⟨fun _ => rfl, fun _ => rfl⟩

/-! ## Links -/

/-- A limit is positive and the last day still to come. -/
theorem valid_newLink {draw : LinkDraw} {input : CreateLinkInput} {m : Option Nat}
    (hm : positiveOpens input.maxOpens = .ok m) (he : ¬ input.expiresAt.any (· ≤ now) = true) :
    (newLink P now draw input m).Valid where
  label := by
    dsimp only [newLink]
    exact fits_default (by decide)
  hint := utf16Length_slice 6 draw.token
  opens n hn := by
    have hn : m = some n := hn
    subst hn
    unfold positiveOpens at hm
    split at hm
    · cases hm
    · cases hm
      exact ⟨Nat.succ_pos _, Nat.zero_le _⟩
    · cases hm
  expires e he' := by
    have he' : input.expiresAt = some e := he'
    show now < e
    simpa [he'] using he

/-- One more opening, of a link that may be opened. -/
theorem Link.Valid.open {l : Link} (h : l.Valid) (hmay : l.mayOpen = true) (now : Int) :
    ({ l with opensUsed := l.opensUsed + 1, lastUsedAt := some now } : Link).Valid where
  label := h.label
  hint := h.hint
  expires := h.expires
  opens m hm := by
    have hm : l.maxOpens = some m := hm
    have hroom : ¬ m ≤ l.opensUsed := by
      simpa [Link.mayOpen, Link.isExhausted, hm] using (Bool.and_eq_true_iff.1 hmay).2
    exact ⟨(h.opens m hm).1, by show l.opensUsed + 1 ≤ m; omega⟩

/-- A list that is accepted is not empty, not too long, and all addresses. -/
theorem requireRecipients_valid {text : String} {fallback : Lang} {list : List RecipientInput}
    (h : requireRecipients P text fallback [] = .ok list) :
    (list ≠ [] ∧ list.length ≤ maxRecipients) ∧ ∀ r ∈ list, isValidEmail r.email = true := by
  unfold requireRecipients at h
  dsimp only at h
  obtain ⟨-, h⟩ := Fallible.guard_eq_ok.1 h
  obtain ⟨hsome, h⟩ := Fallible.guard_eq_ok.1 h
  obtain ⟨hmax, h⟩ := Fallible.guard_eq_ok.1 h
  cases h
  refine ⟨⟨fun he => hsome (List.isEmpty_iff.2 he), Nat.not_lt.1 hmax⟩, fun r hr => ?_⟩
  rw [AddressLists.mergeRecipients_eq, List.append_nil, AddressLists.parseRecipients_eq] at hr
  have hread := Distinct.distinct_subset _ (Distinct.distinct_subset _ hr)
  obtain ⟨entry, -, hparsed⟩ := List.mem_filterMap.1 hread
  exact (AddressLists.parseEntry_address hparsed).1

/-! ## Groups -/

theorem validName_ok {raw name : String} (h : validName raw = .ok name) :
    name = trim raw ∧ IsName name := by
  unfold validName at h
  dsimp only at h
  obtain ⟨hname, h⟩ := Fallible.guard_eq_ok.1 h
  cases h
  exact ⟨rfl, isName_of_checked (trim_trim raw) hname⟩

theorem validMembers_ok {members list : List RecipientInput}
    (h : validMembers members = .ok list) : members = list ∧ list.length ≤ maxRecipients := by
  unfold validMembers at h
  obtain ⟨-, h⟩ := Fallible.guard_eq_ok.1 h
  obtain ⟨hmax, h⟩ := Fallible.guard_eq_ok.1 h
  cases h
  exact ⟨rfl, Nat.not_lt.1 hmax⟩

/-! ## Passkeys -/

theorem verifyRegistration_algorithm {input : RegistrationInput} {exp : Expected}
    {reg : VerifiedRegistration} (h : verifyRegistration P input exp = .ok reg) :
    reg.algorithm ∈ coseAlgs := by
  unfold verifyRegistration at h
  obtain ⟨_, -, h⟩ := Fallible.bind_eq_ok.1 h
  obtain ⟨_, -, h⟩ := Fallible.bind_eq_ok.1 h
  obtain ⟨_, -, h⟩ := Fallible.bind_eq_ok.1 h
  obtain ⟨ad, -, h⟩ := Fallible.bind_eq_ok.1 h
  obtain ⟨_, -, h⟩ := Fallible.bind_eq_ok.1 h
  split at h
  · cases h
  obtain ⟨credId, -, h⟩ := Fallible.bind_eq_ok.1 h
  obtain ⟨-, h⟩ := Fallible.guard_eq_ok.1 h
  split at h
  · cases h
  obtain ⟨hknown, h⟩ := Fallible.guard_eq_ok.1 h
  obtain ⟨_, -, h⟩ := Fallible.bind_eq_ok.1 h
  obtain ⟨_, -, h⟩ := Fallible.bind_eq_ok.1 h
  cases h
  exact not_not.1 hknown

theorem newPasskey_valid {input : RegisterPasskeyInput} {reg : VerifiedRegistration}
    (h : reg.algorithm ∈ coseAlgs) : (newPasskey now id input reg).Valid where
  name := by
    dsimp only [newPasskey]
    exact fits_default (by decide)
  algorithm := h

/-- A passkey is stored only while there is room. -/
theorem registerPasskey_room {rp : RelyingParty} {a a' : AccountDb} {passkey : Passkey}
    {input : RegisterPasskeyInput} (h : registerPasskey P now id input rp a = .ok (passkey, a')) :
    passkeyCount input.adminId a < maxPasskeys := by
  unfold registerPasskey takeChallenge at h
  dsimp only at h
  obtain ⟨_, -, h⟩ := Fallible.bind_eq_ok.1 h
  obtain ⟨_, -, h⟩ := Fallible.bind_eq_ok.1 h
  obtain ⟨hroom, -⟩ := Fallible.guard_eq_ok.1 h
  exact Nat.not_le.1 hroom

end

end Outletbox
