import Outletbox.Crypto
import Outletbox.Library.Replace

/-!
# Request logging

The request logger writes a path to the log as `redact` leaves it.  The patterns
of `redact` and the routes were written apart from each other, so they are
compared here.

A delivery path is routed whatever the case of its first word, but the token is
hidden only after a lower-case `/d/`, and what comes after the token stays.  An
upload path is `/admin/api/cases/:caseId/upload/:name`, and the pattern for file
names looks for `/api/upload/`.  So a token is hidden unless the rest of the
path spells it, and a file name is not hidden at all, save by accident.
-/

namespace Outletbox

namespace Logging

/-! ## The patterns -/

/-- `[^/?#\s]`. -/
def isSegmentChar (c : Char) : Bool := !(c == '/' || c == '?' || c == '#' || isSpace c)

/-- `[^?#\s]`. -/
def isNameChar (c : Char) : Bool := !(c == '?' || c == '#' || isSpace c)

/-- `[^&#\s]`. -/
def isValueChar (c : Char) : Bool := !(c == '&' || c == '#' || isSpace c)

/-- The same letters, in upper or in lower case.  The word is in lower case. -/
def sameWord (cs : List Char) (word : String) : Bool := cs.map Char.toLower == word.toList

/-- `/d/` and the first character of a token. -/
def tokenHead : List Char → Option (Nat × List Char)
  | '/' :: 'd' :: '/' :: c :: _ =>
      if isSegmentChar c then some (2, "/d/[redacted]".toList) else none
  | _ => none

/-- `/api/upload/` and the first character of a file name. -/
def filenameHead (cs : List Char) : Option (Nat × List Char) :=
  if "/api/upload/".toList <+: cs ∧ (cs.drop 12).head?.any isNameChar then
    some (11, "/api/upload/[filename]".toList)
  else none

/-- The names of the parameters whose values are secret. -/
def secretNames : List String := ["token", "code", "access_token", "sig"]

/-- The length of the name of a secret parameter and its `=`, where the text starts with one. -/
def secretParam (cs : List Char) : Option Nat :=
  (secretNames.find? fun name => sameWord (cs.take (name.length + 1)) (name ++ "=")).map
    fun name => name.length + 1

/-- `?` or `&`, and the name of a secret parameter. -/
def paramHead : List Char → Option (Nat × List Char)
  | [] => none
  | c :: cs =>
      if c == '?' || c == '&' then
        (secretParam cs).map fun n => (n, c :: cs.take n ++ "[redacted]".toList)
      else none

def hideToken : List Char → List Char := Replace.replace tokenHead isSegmentChar

def hideFilename : List Char → List Char := Replace.replace filenameHead isNameChar

def hideParams : List Char → List Char := Replace.replace paramHead isValueChar

/-- Removes secrets from anything that could end up in a log line. -/
def redact (value : String) : String :=
  String.ofList (hideParams (hideFilename (hideToken value.toList)))

example : redact "GET /d/AbCdEf123 HTTP/1.1" = "GET /d/[redacted] HTTP/1.1" := by decide +kernel

example : redact "/d/AbCdEf123/files/f_x" = "/d/[redacted]/files/f_x" := by decide +kernel

example : redact "/x?code=123456&token=abc" = "/x?code=[redacted]&token=[redacted]" := by
  decide +kernel

/-! ## The routes -/

/-- A part of the path of a route. -/
inductive Part
  | word (text : String)
  | param
  deriving DecidableEq

variable (P : Platform)

/-- The parameters, where the segments match the parts.  A slash at the end is left aside. -/
def matchParts : List Part → List (List Char) → Option (List String)
  | [], [] => some []
  | [], [[]] => some []
  | .word text :: parts, s :: segments => if sameWord s text then matchParts parts segments else none
  | .param :: parts, s :: segments =>
      if s.isEmpty then none
      else match P.decodeURIComponent (String.ofList s) with
        | some value => (matchParts parts segments).map (value :: ·)
        | none => none
  | _, _ => none

/-- The parameters of a route, where the path is one of it. -/
def matchPath (route : List Part) (path : String) : Option (List String) :=
  match path.toList.splitOn '/' with
  | [] :: segments => matchParts P route segments
  | _ => none

/-- The routes of the delivery pages. -/
def deliveryRoutes : List (List Part) :=
  [[.word "d", .param],
   [.word "d", .param, .word "email"],
   [.word "d", .param, .word "code"],
   [.word "d", .param, .word "restart"],
   [.word "d", .param, .word "close"],
   [.word "d", .param, .word "files", .param]]

/-- `/admin/api/cases/:caseId/upload/:name`. -/
def uploadRoute : List Part :=
  [.word "admin", .word "api", .word "cases", .param, .word "upload", .param]

/-- A text of the `pathname` of a URL: the query and the fragment come after it, and it has no white
space. -/
def IsPath (text : List Char) : Prop := ∀ c ∈ text, c ≠ '?' ∧ c ≠ '#' ∧ isSpace c = false

instance (text : List Char) : Decidable (IsPath text) :=
  decidable_of_iff (text.all (fun c => decide (c ≠ '?' ∧ c ≠ '#' ∧ isSpace c = false)) = true) <| by
    rw [List.all_eq_true, IsPath]
    simp only [decide_eq_true_eq]

/-- The path is routed to a delivery page, with this token. -/
def RoutesToDelivery (path token : String) : Prop :=
  IsPath path.toList ∧ ∃ route ∈ deliveryRoutes, ∃ rest, matchPath P route path = some (token :: rest)

/-- The path is routed to the streaming upload. -/
def RoutesToUpload (path caseId name : String) : Prop :=
  IsPath path.toList ∧ matchPath P uploadRoute path = some [caseId, name]

/-- What holds of decoding: a text without an escape stays as it is. -/
structure KeepsPlain : Prop where
  plain : ∀ s : String, '%' ∉ s.toList → P.decodeURIComponent s = some s

/-! ## Segments -/

/-- The text of segments, each after a slash. -/
def slashed (segments : List (List Char)) : List Char := segments.flatMap fun s => '/' :: s

/-- The segment is a text of a path that ends before the next slash. -/
def IsSegment (s : List Char) : Prop := ∀ c ∈ s, isSegmentChar c = true

instance (s : List Char) : Decidable (IsSegment s) :=
  decidable_of_iff (s.all isSegmentChar = true) List.all_eq_true

theorem IsSegment.not_slash {s : List Char} (h : IsSegment s) : '/' ∉ s := by
  intro hs
  have hc := h '/' hs
  rw [show isSegmentChar '/' = false by decide] at hc
  exact Bool.false_ne_true hc

@[simp]
theorem slashed_nil : slashed [] = [] := rfl

@[simp]
theorem slashed_cons (s : List Char) (segments : List (List Char)) :
    slashed (s :: segments) = '/' :: (s ++ slashed segments) := rfl

theorem slashed_head {segments : List (List Char)} {c : Char}
    (h : (slashed segments).head? = some c) : c = '/' := by
  cases segments with
  | nil => cases h
  | cons s segments => exact (Option.some.inj h).symm

/-- A text up to its first slash. -/
theorem eq_of_append_slash {s t x y : List Char} (hs : '/' ∉ s) (ht : '/' ∉ t)
    (h : s ++ '/' :: x = t ++ '/' :: y) : s = t ∧ x = y := by
  induction s generalizing t with
  | nil =>
      cases t with
      | nil => exact ⟨rfl, (List.cons.inj h).2⟩
      | cons c t => exact absurd (by rw [(List.cons.inj h).1]; exact List.mem_cons_self ..) ht
  | cons c s ih =>
      cases t with
      | nil => exact absurd (by rw [(List.cons.inj h).1]; exact List.mem_cons_self ..) hs
      | cons d t =>
          rw [List.cons_append, List.cons_append, List.cons.injEq] at h
          obtain ⟨rfl, h⟩ := h
          obtain ⟨rfl, rfl⟩ := ih (fun hc => hs (List.mem_cons_of_mem _ hc))
            (fun hc => ht (List.mem_cons_of_mem _ hc)) h
          exact ⟨rfl, rfl⟩

theorem tokenHead_ne_none {cs : List Char} (h : tokenHead cs ≠ none) :
    ∃ c rest, cs = '/' :: (['d'] ++ '/' :: c :: rest) := by
  unfold tokenHead at h
  split at h
  · next c rest => exact ⟨c, rest, rfl⟩
  · exact absurd rfl h

theorem filenameHead_ne_none {cs : List Char} (h : filenameHead cs ≠ none) :
    ∃ rest, cs = '/' :: ("api".toList ++ '/' :: ("upload".toList ++ '/' :: rest)) := by
  unfold filenameHead at h
  split at h
  · next hcs =>
      obtain ⟨rest, rfl⟩ := hcs.1
      exact ⟨rest, rfl⟩
  · exact absurd rfl h

/-- A match that starts in a segment starts at the slash before it. -/
theorem starts_at_slash {s t x y : List Char} (hs : IsSegment s) (ht : t ≠ [])
    (hsuffix : t <:+ '/' :: s) (h : t ++ x = '/' :: y) : t = '/' :: s := by
  rcases List.suffix_cons_iff.1 hsuffix with rfl | hsuffix
  · rfl
  · obtain ⟨c, t, rfl⟩ := List.exists_cons_of_ne_nil ht
    rw [List.cons_append, List.cons.injEq] at h
    exact absurd (by rw [← h.1]; exact hsuffix.subset (List.mem_cons_self ..)) hs.not_slash

/-- Where a segment ends before a slash, the rest is the segments after it. -/
theorem slashed_inj {s w y : List Char} {segments : List (List Char)} (hs : IsSegment s)
    (hw : '/' ∉ w) (h : s ++ slashed segments = w ++ '/' :: y) :
    s = w ∧ ∃ s' rest, segments = s' :: rest ∧ s' ++ slashed rest = y := by
  cases segments with
  | nil =>
      rw [slashed_nil, List.append_nil] at h
      refine absurd ?_ hs.not_slash
      rw [h]
      exact List.mem_append_right _ (List.mem_cons_self ..)
  | cons s' rest =>
      rw [slashed_cons] at h
      obtain ⟨rfl, hy⟩ := eq_of_append_slash hs.not_slash hw h
      exact ⟨rfl, s', rest, rfl, hy⟩

/-- No token starts in a segment, unless it is `d` and another one follows. -/
theorem hideToken_cons {s : List Char} {segments : List (List Char)} (hs : IsSegment s)
    (hne : s = ['d'] → segments = [] ∨ segments = [[]]) :
    hideToken (slashed (s :: segments)) = '/' :: s ++ hideToken (slashed segments) := by
  rw [slashed_cons, ← List.cons_append, hideToken]
  refine Replace.replace_append _ fun t ht hsuffix => ?_
  by_contra hmatch
  obtain ⟨c, rest, h⟩ := tokenHead_ne_none hmatch
  obtain rfl := starts_at_slash hs ht hsuffix h
  rw [List.cons_append, List.cons.injEq] at h
  obtain ⟨rfl, s', segments', rfl, hrest⟩ := slashed_inj hs (by decide) h.2
  rcases hne rfl with h | h
  · exact List.cons_ne_nil _ _ h
  · rw [List.cons.injEq] at h
    rw [h.1, h.2] at hrest
    exact List.cons_ne_nil _ _ hrest.symm

/-- No file name starts in a segment, unless it is `api` and the next one is `upload`. -/
theorem hideFilename_cons {s : List Char} {segments : List (List Char)} (hs : IsSegment s)
    (hsegments : ∀ t ∈ segments, IsSegment t)
    (hne : s = "api".toList → segments.head? ≠ some "upload".toList) :
    hideFilename (slashed (s :: segments)) = '/' :: s ++ hideFilename (slashed segments) := by
  rw [slashed_cons, ← List.cons_append, hideFilename]
  refine Replace.replace_append _ fun t ht hsuffix => ?_
  by_contra hmatch
  obtain ⟨rest, h⟩ := filenameHead_ne_none hmatch
  obtain rfl := starts_at_slash hs ht hsuffix h
  rw [List.cons_append, List.cons.injEq] at h
  obtain ⟨rfl, s', segments', rfl, hrest⟩ := slashed_inj hs (by decide) h.2
  obtain ⟨rfl, -⟩ := slashed_inj (hsegments s' (List.mem_cons_self ..)) (by decide) hrest
  exact hne rfl rfl

/-- No token starts in the segments. -/
def NoToken : List (List Char) → Prop
  | [] => True
  | s :: segments => (s = ['d'] → segments = [] ∨ segments = [[]]) ∧ NoToken segments

/-- No file name starts in the segments. -/
def NoFilename : List (List Char) → Prop
  | [] => True
  | s :: segments =>
      (s = "api".toList → segments.head? ≠ some "upload".toList) ∧ NoFilename segments

theorem hideToken_eq_self {segments : List (List Char)} (hs : ∀ s ∈ segments, IsSegment s)
    (h : NoToken segments) : hideToken (slashed segments) = slashed segments := by
  induction segments with
  | nil => rfl
  | cons s segments ih =>
      rw [hideToken_cons (hs s (List.mem_cons_self ..)) h.1,
        ih (fun t ht => hs t (List.mem_cons_of_mem _ ht)) h.2, slashed_cons, List.cons_append]

theorem hideFilename_eq_self {segments : List (List Char)} (hs : ∀ s ∈ segments, IsSegment s)
    (h : NoFilename segments) : hideFilename (slashed segments) = slashed segments := by
  induction segments with
  | nil => rfl
  | cons s segments ih =>
      have hs' := fun t ht => hs t (List.mem_cons_of_mem _ ht)
      rw [hideFilename_cons (hs s (List.mem_cons_self ..)) hs' h.1, ih hs' h.2, slashed_cons,
        List.cons_append]

/-- The segment after `d` is taken for a token. -/
theorem hideToken_match {s : List Char} {segments : List (List Char)} (hs : IsSegment s)
    (hne : s ≠ []) :
    hideToken (slashed (['d'] :: s :: segments)) =
      "/d/[redacted]".toList ++ hideToken (slashed segments) := by
  obtain ⟨c, s, rfl⟩ := List.exists_cons_of_ne_nil hne
  refine @Replace.replace_match _ _ _ ['d', '/'] (c :: s) (slashed segments) _ ?_ hs fun x hx => ?_
  · show tokenHead ('/' :: 'd' :: '/' :: c :: (s ++ slashed segments)) = _
    rw [tokenHead, hs c (List.mem_cons_self ..), if_pos rfl]
    rfl
  · rw [slashed_head hx]
    decide

/-! ## Secret parameters -/

/-- A piece of a text between two `&`, without the value of a secret parameter. -/
def crossOut (piece : List Char) : List Char :=
  match secretParam piece with
  | some n => piece.take n ++ "[redacted]".toList
  | none => piece

/-- A path without the values of secret parameters.  What comes before the first `&` stays. -/
def crossedOut (text : List Char) : List Char :=
  match text.splitOn '&' with
  | [] => []
  | first :: rest => first ++ rest.flatMap fun piece => '&' :: crossOut piece

/-- The word stands in the path, and not in the value of a secret parameter. -/
def Spells (word text : List Char) : Prop :=
  match text.splitOn '&' with
  | [] => False
  | first :: rest =>
      word <:+: first ∨ ∃ piece ∈ rest, secretParam piece = none ∧ word <:+: piece

instance (word text : List Char) : Decidable (Spells word text) := by
  unfold Spells
  split <;> infer_instance

theorem sameWord_length {cs : List Char} {word : String} (h : sameWord cs word = true) :
    cs.length = word.toList.length := by
  rw [sameWord, beq_iff_eq] at h
  rw [← h, List.length_map]

theorem sameWord_mem {cs : List Char} {word : String} {c : Char} (h : sameWord cs word = true)
    (hc : c ∈ cs) : c.toLower ∈ word.toList := by
  rw [sameWord, beq_iff_eq] at h
  rw [← h]
  exact List.mem_map_of_mem hc

theorem secretParam_eq_some {cs : List Char} {n : Nat} (h : secretParam cs = some n) :
    n ≤ 13 ∧ n ≤ cs.length := by
  obtain ⟨name, hname, rfl⟩ := Option.map_eq_some_iff.1 h
  have hfound := List.find?_some hname
  have hword := sameWord_length hfound
  have hmem := List.mem_of_find?_eq_some hname
  rw [List.length_take, String.toList_append, List.length_append, String.length_toList] at hword
  have hone : "=".toList.length = 1 := rfl
  constructor
  · rw [secretNames] at hmem
    fin_cases hmem <;> decide
  · omega

/-- No secret parameter has an `&` in its name. -/
theorem not_amp_of_secretNames {name : String} (h : name ∈ secretNames) :
    '&' ∉ (name ++ "=").toList := by
  rw [secretNames] at h
  fin_cases h <;> decide

/-- The name of a parameter does not go on after an `&`. -/
theorem sameWord_take_append {piece ys : List Char} {name : String} (hname : name ∈ secretNames)
    (hys : ys.head? = none ∨ ys.head? = some '&') :
    sameWord ((piece ++ ys).take (name.length + 1)) (name ++ "=") =
      sameWord (piece.take (name.length + 1)) (name ++ "=") := by
  rcases Nat.lt_or_ge piece.length (name.length + 1) with hlt | hle
  · rcases hys with hys | hys
    · rw [List.head?_eq_none_iff.1 hys, List.append_nil]
    · obtain ⟨zs, rfl⟩ := List.head?_eq_some_iff.1 hys
      have hamp : '&' ∈ (piece ++ '&' :: zs).take (name.length + 1) := by
        rw [List.take_append]
        obtain ⟨k, hk⟩ := Nat.exists_eq_add_of_lt (Nat.sub_pos_of_lt hlt)
        rw [hk, Nat.zero_add, List.take_succ_cons]
        exact List.mem_append_right _ (List.mem_cons_self ..)
      have hleft : sameWord ((piece ++ '&' :: zs).take (name.length + 1)) (name ++ "=") = false :=
        Bool.eq_false_iff.2 fun h => not_amp_of_secretNames hname (sameWord_mem h hamp)
      have hright : sameWord (piece.take (name.length + 1)) (name ++ "=") = false :=
        Bool.eq_false_iff.2 fun h => by
          have hlength := sameWord_length h
          have hone : "=".toList.length = 1 := rfl
          rw [List.length_take, String.toList_append, List.length_append,
            String.length_toList] at hlength
          omega
      rw [hleft, hright]
  · rw [List.take_append_of_le_length hle]

theorem secretParam_append {piece ys : List Char} (hys : ys.head? = none ∨ ys.head? = some '&') :
    secretParam (piece ++ ys) = secretParam piece := by
  have hfind : ∀ names : List String, (∀ name ∈ names, name ∈ secretNames) →
      names.find? (fun name => sameWord ((piece ++ ys).take (name.length + 1)) (name ++ "=")) =
        names.find? (fun name => sameWord (piece.take (name.length + 1)) (name ++ "=")) := by
    intro names
    induction names with
    | nil => intro _; rfl
    | cons name names ih =>
        intro hmem
        rw [List.find?_cons, List.find?_cons,
          sameWord_take_append (hmem name (List.mem_cons_self ..)) hys,
          ih fun n hn => hmem n (List.mem_cons_of_mem _ hn)]
  rw [secretParam, secretParam, hfind _ fun _ h => h]

theorem IsPath.isValueChar {text : List Char} {c : Char} (h : IsPath text) (hc : c ∈ text)
    (hamp : c ≠ '&') : isValueChar c = true := by
  obtain ⟨-, hhash, hspace⟩ := h c hc
  rw [Logging.isValueChar, beq_false_of_ne hamp, beq_false_of_ne hhash, hspace]
  rfl

/-- No parameter starts in a text without its marks. -/
theorem hideParams_append {piece ys : List Char} (hquery : '?' ∉ piece) (hamp : '&' ∉ piece) :
    hideParams (piece ++ ys) = piece ++ hideParams ys := by
  refine Replace.replace_append _ fun s hs hsuffix => ?_
  obtain ⟨c, s, rfl⟩ := List.exists_cons_of_ne_nil hs
  have hc := hsuffix.subset (List.mem_cons_self ..)
  rw [List.cons_append, paramHead, if_neg]
  intro h
  rcases Bool.or_eq_true_iff.1 h with h | h
  · exact hquery (eq_of_beq h ▸ hc)
  · exact hamp (eq_of_beq h ▸ hc)

theorem hideParams_piece {piece ys : List Char} (hpath : IsPath piece) (hamp : '&' ∉ piece)
    (hys : ys.head? = none ∨ ys.head? = some '&') :
    hideParams ('&' :: (piece ++ ys)) = '&' :: crossOut piece ++ hideParams ys := by
  have hquery : '?' ∉ piece := fun h => (hpath '?' h).1 rfl
  cases hparam : secretParam piece with
  | none =>
      have hhead : paramHead ('&' :: (piece ++ ys)) = none := by
        rw [paramHead, secretParam_append hys, hparam]
        rfl
      rw [crossOut, hparam, hideParams, Replace.replace, Replace.replaceAll, Bool.false_and,
        if_neg Bool.false_ne_true, hhead]
      exact congrArg ('&' :: ·) (hideParams_append hquery hamp)
  | some n =>
      obtain ⟨-, hle⟩ := secretParam_eq_some hparam
      have hhead : paramHead ('&' :: (piece ++ ys)) =
          some ((piece.take n).length, '&' :: piece.take n ++ "[redacted]".toList) := by
        have htake : (piece ++ ys).take n = piece.take n := List.take_append_of_le_length hle
        rw [paramHead, secretParam_append hys, hparam, List.length_take_of_le hle, ← htake]
        rfl
      have htext : '&' :: (piece ++ ys) = '&' :: (piece.take n ++ (piece.drop n ++ ys)) := by
        rw [← List.append_assoc, List.take_append_drop]
      rw [htext] at hhead ⊢
      rw [hideParams, Replace.replace_match hhead, crossOut, hparam]
      · rfl
      · intro c hc
        have hc := List.mem_of_mem_drop hc
        exact hpath.isValueChar hc fun h => hamp (h ▸ hc)
      · intro c hc
        rcases hys with h | h
        · rw [h] at hc
          cases hc
        · rw [h] at hc
          rw [← Option.some.inj hc]
          decide

/-- What is left of a path are its pieces without the values of secret parameters. -/
theorem hideParams_eq {text : List Char} (h : IsPath text) : hideParams text = crossedOut text := by
  obtain ⟨first, rest, hsplit⟩ := List.exists_cons_of_ne_nil (List.splitOn_ne_nil '&' text)
  have hpiece : ∀ piece ∈ first :: rest, IsPath piece ∧ '&' ∉ piece := by
    intro piece hmem
    rw [← hsplit] at hmem
    exact ⟨fun c hc => h c (Replace.mem_splitOn hmem hc).1,
      fun hc => (Replace.mem_splitOn hmem hc).2 rfl⟩
  obtain ⟨hpath, hamp⟩ := hpiece first (List.mem_cons_self ..)
  rw [crossedOut, hsplit, Replace.eq_of_splitOn hsplit,
    hideParams_append (fun hc => (hpath _ hc).1 rfl) hamp]
  simp only []
  have hrest := fun piece hmem => hpiece piece (List.mem_cons_of_mem _ hmem)
  clear hpiece hsplit hpath hamp
  congr 1
  induction rest with
  | nil => rfl
  | cons piece rest ih =>
      obtain ⟨hpath, hamp⟩ := hrest piece (List.mem_cons_self ..)
      rw [List.flatMap_cons, List.flatMap_cons, List.cons_append, hideParams_piece hpath hamp,
        ih fun p hp => hrest p (List.mem_cons_of_mem _ hp)]
      cases rest with
      | nil => exact .inl rfl
      | cons next rest => exact .inr rfl

/-- A long word has no room in a name and its mark. -/
theorem infix_crossOut {word piece : List Char} (hlong : 23 < word.length) :
    word <:+: crossOut piece ↔ secretParam piece = none ∧ word <:+: piece := by
  cases hparam : secretParam piece with
  | none =>
      rw [crossOut, hparam]
      exact (and_iff_right rfl).symm
  | some n =>
      obtain ⟨hn, -⟩ := secretParam_eq_some hparam
      rw [crossOut, hparam]
      constructor
      · intro h
        have hle := h.length_le
        simp only [List.length_append, List.length_take] at hle
        have hmark : "[redacted]".toList.length = 10 := rfl
        omega
      · rintro ⟨h, -⟩
        cases h

/-- A long word is left where it is spelled outside the values. -/
theorem infix_crossedOut {word text : List Char} (hlong : 23 < word.length) (hamp : '&' ∉ word) :
    word <:+: crossedOut text ↔ Spells word text := by
  have hpieces : ∀ (rest : List (List Char)) (first : List Char),
      word <:+: first ++ rest.flatMap (fun piece => '&' :: crossOut piece) ↔
        word <:+: first ∨ ∃ piece ∈ rest, secretParam piece = none ∧ word <:+: piece := by
    intro rest
    induction rest with
    | nil => intro first; simp
    | cons piece rest ih =>
        intro first
        rw [List.flatMap_cons, List.cons_append, Replace.infix_append_cons hamp, ih,
          infix_crossOut hlong, List.exists_mem_cons_iff]
  rw [crossedOut, Spells]
  split
  · refine iff_of_false (fun h => ?_) (fun h => h)
    rw [List.infix_nil.1 h] at hlong
    exact absurd hlong (by decide)
  · exact hpieces _ _

/-- Without an `&`, everything stays. -/
theorem crossedOut_eq_self {text : List Char} (h : '&' ∉ text) : crossedOut text = text := by
  rw [crossedOut, List.splitOn_eq_singleton h]
  exact List.append_nil _

/-! ## What a route matches -/

section

variable {P}

theorem matchParts_nil {segments : List (List Char)} {values : List String} :
    matchParts P [] segments = some values ↔ (segments = [] ∨ segments = [[]]) ∧ values = [] := by
  rcases segments with _ | ⟨_ | _, _ | _⟩ <;> simp [matchParts, eq_comm]

theorem matchParts_word {text : String} {parts : List Part} {segments : List (List Char)}
    {values : List String} :
    matchParts P (.word text :: parts) segments = some values ↔
      ∃ s rest, segments = s :: rest ∧ sameWord s text = true ∧
        matchParts P parts rest = some values := by
  cases segments with
  | nil => simp [matchParts]
  | cons s rest => simp [matchParts, ite_eq_iff]

theorem matchParts_param {parts : List Part} {segments : List (List Char)} {values : List String} :
    matchParts P (.param :: parts) segments = some values ↔
      ∃ s rest value more, segments = s :: rest ∧ s ≠ [] ∧
        P.decodeURIComponent (String.ofList s) = some value ∧
        matchParts P parts rest = some more ∧ values = value :: more := by
  constructor
  · intro h
    cases segments with
    | nil => cases h
    | cons s rest =>
        simp only [matchParts] at h
        split at h
        · cases h
        · next hne =>
            split at h
            · next value hdecode =>
                obtain ⟨more, hmore, rfl⟩ := Option.map_eq_some_iff.1 h
                exact ⟨s, rest, value, more, rfl, fun hs => hne (hs ▸ rfl), hdecode, hmore, rfl⟩
            · cases h
  · rintro ⟨s, rest, value, more, rfl, hne, hdecode, hmore, rfl⟩
    rw [matchParts, if_neg (by rwa [List.isEmpty_iff]), hdecode, hmore]
    rfl

/-- A path that a route matches is its segments, each after a slash. -/
theorem segments_of_matchPath {route : List Part} {path : String} {values : List String}
    (hpath : IsPath path.toList) (h : matchPath P route path = some values) :
    ∃ segments, path.toList.splitOn '/' = [] :: segments ∧ path.toList = slashed segments ∧
      (∀ s ∈ segments, IsSegment s) ∧ matchParts P route segments = some values := by
  unfold matchPath at h
  split at h
  · next segments hsplit =>
      refine ⟨segments, hsplit, Replace.eq_of_splitOn hsplit, fun s hs c hc => ?_, h⟩
      have hmem := Replace.mem_splitOn (hsplit ▸ List.mem_cons_of_mem _ hs) hc
      obtain ⟨hquery, hhash, hspace⟩ := hpath c hmem.1
      rw [isSegmentChar, beq_false_of_ne hmem.2, beq_false_of_ne hquery, beq_false_of_ne hhash,
        hspace]
      rfl
  · cases h

/-- At the end of a route there is nothing, or a slash. -/
def IsEnd (segments : List (List Char)) : Prop := segments = [] ∨ segments = [[]]

theorem IsEnd.noToken {segments : List (List Char)} (h : IsEnd segments) : NoToken segments := by
  rcases h with rfl | rfl
  · trivial
  · exact ⟨fun _ => .inl rfl, trivial⟩

theorem IsEnd.noFilename {segments : List (List Char)} (h : IsEnd segments) :
    NoFilename segments := by
  rcases h with rfl | rfl
  · trivial
  · exact ⟨fun h => absurd h (by decide), trivial⟩

theorem IsEnd.head {segments : List (List Char)} (h : IsEnd segments) :
    segments.head? ≠ some "upload".toList := by
  rcases h with rfl | rfl <;> decide

/-- The words of the delivery routes after the token. -/
theorem tail_of_route {parts : List Part} {segments : List (List Char)} {values : List String}
    (hroute : .word "d" :: .param :: parts ∈ deliveryRoutes)
    (h : matchParts P parts segments = some values) :
    NoToken segments ∧ NoFilename segments ∧ segments.head? ≠ some "upload".toList := by
  have hword : ∀ text : String, text ∈ ["email", "code", "restart", "close"] →
      matchParts P [.word text] segments = some values →
      NoToken segments ∧ NoFilename segments ∧ segments.head? ≠ some "upload".toList := by
    intro text htext hmatch
    obtain ⟨s, rest, rfl, hs, hrest⟩ := matchParts_word.1 hmatch
    obtain ⟨hend, -⟩ := matchParts_nil.1 hrest
    refine ⟨⟨fun _ => hend, IsEnd.noToken hend⟩,
      ⟨fun _ => IsEnd.head hend, IsEnd.noFilename hend⟩, fun hhead => ?_⟩
    rw [List.head?_cons, Option.some.injEq] at hhead
    rw [hhead] at hs
    fin_cases htext <;> exact absurd hs (by decide)
  simp only [deliveryRoutes, List.mem_cons, List.cons.injEq, true_and, List.not_mem_nil,
    or_false] at hroute
  rcases hroute with rfl | rfl | rfl | rfl | rfl | rfl
  · obtain ⟨hend, -⟩ := matchParts_nil.1 h
    exact ⟨IsEnd.noToken hend, IsEnd.noFilename hend, IsEnd.head hend⟩
  · exact hword "email" (by simp) h
  · exact hword "code" (by simp) h
  · exact hword "restart" (by simp) h
  · exact hword "close" (by simp) h
  · obtain ⟨s, rest, rfl, hs, hrest⟩ := matchParts_word.1 h
    obtain ⟨item, rest, value, more, rfl, -, -, hmore, -⟩ := matchParts_param.1 hrest
    obtain ⟨hend, -⟩ := matchParts_nil.1 hmore
    refine ⟨⟨fun hd => ?_, fun _ => hend, IsEnd.noToken hend⟩,
      ⟨fun hapi => ?_, fun _ => IsEnd.head hend, IsEnd.noFilename hend⟩, fun hhead => ?_⟩
    · rw [hd] at hs
      exact absurd hs (by decide)
    · rw [hapi] at hs
      exact absurd hs (by decide)
    · rw [List.head?_cons, Option.some.injEq] at hhead
      rw [hhead] at hs
      exact absurd hs (by decide)

/-- A delivery path is a word, the token and the rest. -/
theorem RoutesToDelivery.segments {path token : String} (h : RoutesToDelivery P path token) :
    ∃ w s tail, path.toList = slashed (w :: s :: tail) ∧ s ≠ [] ∧
      P.decodeURIComponent (String.ofList s) = some token ∧
      (∀ t ∈ w :: s :: tail, IsSegment t) ∧ sameWord w "d" = true ∧ NoToken tail ∧
      NoFilename tail ∧ tail.head? ≠ some "upload".toList := by
  obtain ⟨hpath, route, hroute, rest, hmatch⟩ := h
  obtain ⟨segments, -, htext, hsegments, hparts⟩ := segments_of_matchPath hpath hmatch
  obtain ⟨parts, rfl⟩ : ∃ parts, route = .word "d" :: .param :: parts := by
    fin_cases hroute <;> exact ⟨_, rfl⟩
  obtain ⟨w, segments, rfl, hw, hparts⟩ := matchParts_word.1 hparts
  obtain ⟨s, tail, value, more, rfl, hs, hdecode, hmore, heq⟩ := matchParts_param.1 hparts
  rw [List.cons.injEq] at heq
  rw [← heq.1] at hdecode
  exact ⟨w, s, tail, htext, hs, hdecode, hsegments, hw, tail_of_route hroute hmore⟩

end

/-! ## Delivery paths -/

/-- What stays of a delivery path: all but the token, where the first word is in lower case. -/
def exposed : List Char → List Char
  | '/' :: 'd' :: '/' :: rest => rest.dropWhile (· != '/')
  | path => path

section

variable {P}

theorem exposed_lower {s : List Char} {tail : List (List Char)} (hs : IsSegment s) :
    exposed (slashed (['d'] :: s :: tail)) = slashed tail := by
  show (s ++ slashed tail).dropWhile (· != '/') = slashed tail
  have hslash : ∀ c ∈ s, (c != '/') = true := by
    intro c hc
    refine bne_iff_ne.2 fun h => hs.not_slash ?_
    rwa [← h]
  rw [List.dropWhile_append_of_pos hslash]
  cases tail with
  | nil => rfl
  | cons t tail => rfl

theorem exposed_other {w s : List Char} {tail : List (List Char)} (hw : IsSegment w)
    (hne : w ≠ ['d']) : exposed (slashed (w :: s :: tail)) = slashed (w :: s :: tail) := by
  unfold exposed
  split
  · next rest heq =>
      have htext : w ++ slashed (s :: tail) = ['d'] ++ '/' :: rest := (List.cons.inj heq).2
      exact absurd (slashed_inj hw (by decide) htext).1 hne
  · rfl

/-- A token is long, and has no mark of a path or a query. -/
theorem token_chars {token : String} (h : isToken token = true) :
    token.toList.length = 43 ∧ '/' ∉ token.toList ∧ '&' ∉ token.toList := by
  rw [isToken, Bool.and_eq_true, beq_iff_eq, List.all_eq_true] at h
  exact ⟨h.1, fun hc => absurd (h.2 _ hc) (by decide), fun hc => absurd (h.2 _ hc) (by decide)⟩

theorem isPath_of_slashed {segments : List (List Char)} (h : ∀ s ∈ segments, IsSegment s) :
    IsPath (slashed segments) := by
  intro c hc
  obtain ⟨s, hs, hc⟩ := List.mem_flatMap.1 hc
  rcases List.mem_cons.1 hc with rfl | hc
  · decide
  · have hchar := h s hs c hc
    simp only [isSegmentChar, Bool.not_eq_true', Bool.or_eq_false_iff, beq_eq_false_iff_ne] at hchar
    exact ⟨hchar.1.1.2, hchar.1.2, hchar.2⟩

/-- A word with no slash stands in what follows a mark or not at all. -/
theorem infix_after_mark {word mark : List Char} {segments : List (List Char)}
    (hslash : '/' ∉ word) (hlong : mark.length < word.length) :
    word <:+: mark ++ hideParams (slashed segments) ↔ word <:+: hideParams (slashed segments) := by
  have hmark : ¬ word <:+: mark := fun h => absurd h.length_le (Nat.not_le.2 hlong)
  cases segments with
  | nil =>
      rw [slashed_nil, show hideParams [] = [] from rfl, List.append_nil]
      refine iff_of_false hmark fun h => ?_
      rw [List.infix_nil.1 h] at hlong
      exact absurd hlong (Nat.not_lt_zero _)
  | cons s segments =>
      have hfirst : hideParams (slashed (s :: segments)) =
          '/' :: hideParams (s ++ slashed segments) :=
        @hideParams_append ['/'] _ (by decide) (by decide)
      have hne : word ≠ [] := fun h => by
        rw [h] at hlong
        exact absurd hlong (Nat.not_lt_zero _)
      rw [hfirst, Replace.infix_append_cons hslash, Replace.infix_cons hslash hne]
      exact or_iff_right hmark

/-- In the log, a token stands where the rest of the path spells it. -/
theorem token_logged_iff (hP : KeepsPlain P) {path token : String} (htoken : isToken token = true)
    (h : RoutesToDelivery P path token) :
    token.toList <:+: (redact path).toList ↔ Spells token.toList (exposed path.toList) := by
  obtain ⟨hlength, hslash, hamp⟩ := token_chars htoken
  have hlong : 23 < token.toList.length := by rw [hlength]; decide
  obtain ⟨w, s, tail, htext, hs, hdecode, hsegments, hw, htoken', hname, hhead⟩ := h.segments
  rw [redact, String.toList_ofList, htext]
  have htail : ∀ t ∈ tail, IsSegment t := fun t ht =>
    hsegments t (List.mem_cons_of_mem _ (List.mem_cons_of_mem _ ht))
  have hsegment := hsegments s (List.mem_cons_of_mem _ (List.mem_cons_self ..))
  by_cases hlower : w = ['d']
  · -- The token is hidden, and nothing after it is touched by the patterns of paths.
    subst hlower
    have hmark : "/d/[redacted]".toList ++ slashed tail =
        slashed (['d'] :: "[redacted]".toList :: tail) := rfl
    have hmarked : ∀ t ∈ ['d'] :: "[redacted]".toList :: tail, IsSegment t := by
      intro t ht
      rcases List.mem_cons.1 ht with rfl | ht
      · decide
      · rcases List.mem_cons.1 ht with rfl | ht
        · decide
        · exact htail t ht
    rw [hideToken_match hsegment hs, hideToken_eq_self htail htoken', hmark,
      hideFilename_eq_self hmarked ⟨fun h => absurd h (by decide), fun h => absurd h (by decide),
        hname⟩, ← hmark, hideParams_append (by decide) (by decide), infix_after_mark hslash,
      hideParams_eq (isPath_of_slashed htail), infix_crossedOut hlong hamp, exposed_lower hsegment]
    rw [hlength]
    decide
  · -- The word is `D`, and no pattern of paths has a match.
    have hne : s ≠ ['d'] := by
      rintro rfl
      rw [hP.plain _ (by decide), Option.some.injEq] at hdecode
      rw [← hdecode] at hlength
      exact absurd hlength (by decide)
    have hapi : w ≠ "api".toList := by
      rintro rfl
      exact absurd hw (by decide)
    rw [hideToken_eq_self hsegments ⟨fun h => absurd h hlower, fun h => absurd h hne, htoken'⟩,
      hideFilename_eq_self hsegments ⟨fun h => absurd h hapi, fun _ => hhead, hname⟩,
      hideParams_eq (isPath_of_slashed hsegments), infix_crossedOut hlong hamp,
      exposed_other (hsegments w (List.mem_cons_self ..)) hlower]

/-! ## Upload paths -/

/-- What the patterns of paths leave of an upload path.  They have a match only in two texts that are
no case ids: `d` is read as the start of a delivery path, and `api` as the end of `/api`. -/
def exposedUpload (path : List Char) : List Char :=
  match path.splitOn '/' with
  | [] :: a :: b :: c :: s :: u :: names =>
      if s = ['d'] then slashed (a :: b :: c :: s :: "[redacted]".toList :: names)
      else if s = "api".toList ∧ u = "upload".toList then
        slashed [a, b, c, s, u, "[filename]".toList]
      else path
  | _ => path

/-- An upload path is its words, the case id and the file name. -/
theorem RoutesToUpload.segments {path caseId name : String} (h : RoutesToUpload P path caseId name) :
    ∃ a b c s u n rest, path.toList.splitOn '/' = [] :: a :: b :: c :: s :: u :: n :: rest ∧
      path.toList = slashed (a :: b :: c :: s :: u :: n :: rest) ∧
      (∀ t ∈ a :: b :: c :: s :: u :: n :: rest, IsSegment t) ∧ IsEnd rest ∧
      sameWord a "admin" = true ∧ sameWord b "api" = true ∧ sameWord c "cases" = true ∧
      sameWord u "upload" = true ∧ n ≠ [] ∧ P.decodeURIComponent (String.ofList s) = some caseId := by
  obtain ⟨hpath, hmatch⟩ := h
  obtain ⟨segments, hsplit, htext, hsegments, hparts⟩ := segments_of_matchPath hpath hmatch
  obtain ⟨a, segments, rfl, ha, hparts⟩ := matchParts_word.1 hparts
  obtain ⟨b, segments, rfl, hb, hparts⟩ := matchParts_word.1 hparts
  obtain ⟨c, segments, rfl, hc, hparts⟩ := matchParts_word.1 hparts
  obtain ⟨s, segments, value, more, rfl, -, hdecode, hparts, heq⟩ := matchParts_param.1 hparts
  obtain ⟨u, segments, rfl, hu, hparts⟩ := matchParts_word.1 hparts
  obtain ⟨n, rest, name', none', rfl, hn, -, hlast, -⟩ := matchParts_param.1 hparts
  obtain ⟨hend, -⟩ := matchParts_nil.1 hlast
  rw [List.cons.injEq] at heq
  rw [← heq.1] at hdecode
  exact ⟨a, b, c, s, u, n, rest, hsplit, htext, hsegments, hend, ha, hb, hc, hu, hn, hdecode⟩

theorem ne_of_sameWord {s : List Char} {text : String} (h : sameWord s text = true) {t : List Char}
    (ht : sameWord t text = false) : s ≠ t := by
  rintro rfl
  exact Bool.false_ne_true (ht.symm.trans h)

/-- The file name after `/api/upload/`, up to the end of the path. -/
theorem hideFilename_match {n : List Char} {rest : List (List Char)} (hn : IsSegment n)
    (hne : n ≠ []) (hend : IsEnd rest) :
    hideFilename (slashed ("api".toList :: "upload".toList :: n :: rest)) =
      "/api/upload/[filename]".toList := by
  have hname : ∀ c, isSegmentChar c = true → isNameChar c = true := by
    intro c hc
    simp only [isSegmentChar, isNameChar, Bool.not_eq_true', Bool.or_eq_false_iff] at hc ⊢
    exact ⟨⟨hc.1.1.2, hc.1.2⟩, hc.2⟩
  have hrun : ∀ c ∈ n ++ slashed rest, isNameChar c = true := by
    intro c hc
    rcases List.mem_append.1 hc with hc | hc
    · exact hname c (hn c hc)
    · rcases hend with rfl | rfl
      · cases hc
      · rw [List.mem_singleton.1 hc]
        decide
  obtain ⟨c, n, rfl⟩ := List.exists_cons_of_ne_nil hne
  have hmatch := @Replace.replace_match filenameHead isNameChar '/' "api/upload/".toList
    (c :: n ++ slashed rest) [] "/api/upload/[filename]".toList ?_ hrun (fun x hx => by cases hx)
  · rw [List.append_nil] at hmatch
    exact hmatch
  · rw [List.append_nil, filenameHead, if_pos]
    · rfl
    · refine ⟨⟨c :: n ++ slashed rest, rfl⟩, ?_⟩
      show (some c).any isNameChar = true
      exact hname c (hn c (List.mem_cons_self ..))

/-- An upload path is left as it is, save in the two texts that are no case ids. -/
theorem redact_upload {path caseId name : String} (h : RoutesToUpload P path caseId name) :
    (redact path).toList = crossedOut (exposedUpload path.toList) := by
  obtain ⟨a, b, c, s, u, n, rest, hsplit, htext, hsegments, hend, ha, hb, hc, hu, hn, -⟩ := h.segments
  simp only [List.forall_mem_cons] at hsegments
  obtain ⟨hsa, hsb, hsc, hss, hsu, hsn, hsrest⟩ := hsegments
  have hune : u ≠ [] := ne_of_sameWord hu (by decide)
  have hcu : c ≠ "upload".toList := ne_of_sameWord hc (by decide)
  have hnames : ∀ t ∈ n :: rest, IsSegment t := List.forall_mem_cons.2 ⟨hsn, hsrest⟩
  have hfirst : ∀ segments : List (List Char), (∀ t ∈ segments, IsSegment t) →
      ∀ t ∈ a :: b :: c :: segments, IsSegment t := fun segments h =>
    List.forall_mem_cons.2 ⟨hsa, List.forall_mem_cons.2 ⟨hsb, List.forall_mem_cons.2 ⟨hsc, h⟩⟩⟩
  have had : a ≠ ['d'] := ne_of_sameWord ha (by decide)
  have hbd : b ≠ ['d'] := ne_of_sameWord hb (by decide)
  have hcd : c ≠ ['d'] := ne_of_sameWord hc (by decide)
  have haapi : a ≠ "api".toList := ne_of_sameWord ha (by decide)
  have hcapi : c ≠ "api".toList := ne_of_sameWord hc (by decide)
  have hmark : IsSegment "[redacted]".toList := by decide
  have hname : IsSegment "[filename]".toList := by decide
  have hntoken : NoToken (n :: rest) := ⟨fun _ => hend, hend.noToken⟩
  have hnname : NoFilename (n :: rest) := ⟨fun _ => hend.head, hend.noFilename⟩
  rw [redact, String.toList_ofList, exposedUpload, hsplit]
  simp only []
  by_cases hd : s = ['d']
  · -- `/d/upload` is taken for the start of a delivery path.
    subst hd
    have hsegments : ∀ t ∈ a :: b :: c :: ['d'] :: "[redacted]".toList :: n :: rest, IsSegment t :=
      hfirst _ (List.forall_mem_cons.2 ⟨hss, List.forall_mem_cons.2 ⟨hmark, hnames⟩⟩)
    have hhidden : hideToken (slashed (a :: b :: c :: ['d'] :: u :: n :: rest)) =
        slashed (a :: b :: c :: ['d'] :: "[redacted]".toList :: n :: rest) := by
      rw [hideToken_cons hsa fun h => absurd h had, hideToken_cons hsb fun h => absurd h hbd,
        hideToken_cons hsc fun h => absurd h hcd, hideToken_match hsu hune,
        hideToken_eq_self hnames hntoken]
      rfl
    rw [if_pos rfl, htext, hhidden, hideFilename_eq_self hsegments
      ⟨fun h => absurd h haapi, fun _ h => hcu (Option.some.inj h), fun h => absurd h hcapi,
        fun h => absurd h (by decide), fun h => absurd h (by decide), hnname⟩,
      hideParams_eq (isPath_of_slashed hsegments)]
  · have htoken : hideToken (slashed (a :: b :: c :: s :: u :: n :: rest)) =
        slashed (a :: b :: c :: s :: u :: n :: rest) :=
      hideToken_eq_self (hfirst _ (List.forall_mem_cons.2 ⟨hss, List.forall_mem_cons.2 ⟨hsu, hnames⟩⟩))
        ⟨fun h => absurd h had, fun h => absurd h hbd, fun h => absurd h hcd, fun h => absurd h hd,
          fun h => absurd h (ne_of_sameWord hu (by decide)), hntoken⟩
    rw [if_neg hd, htext, htoken]
    by_cases hapi : s = "api".toList ∧ u = "upload".toList
    · -- The name is hidden, up to the end of the path.
      obtain ⟨rfl, rfl⟩ := hapi
      have hhidden : hideFilename (slashed (a :: b :: c :: "api".toList :: "upload".toList :: n :: rest)) =
          slashed [a, b, c, "api".toList, "upload".toList, "[filename]".toList] := by
        have hbc : b = "api".toList → (c :: "api".toList :: "upload".toList :: n :: rest).head? ≠
            some "upload".toList := fun _ h => hcu (Option.some.inj h)
        have hsegments : ∀ t ∈ "api".toList :: "upload".toList :: n :: rest, IsSegment t :=
          List.forall_mem_cons.2 ⟨hss, List.forall_mem_cons.2 ⟨hsu, hnames⟩⟩
        rw [hideFilename_cons hsa (List.forall_mem_cons.2 ⟨hsb, List.forall_mem_cons.2 ⟨hsc, hsegments⟩⟩)
            fun h => absurd h haapi,
          hideFilename_cons hsb (List.forall_mem_cons.2 ⟨hsc, hsegments⟩) hbc,
          hideFilename_cons hsc hsegments fun h => absurd h hcapi,
          hideFilename_match hsn hn hend]
        rfl
      have hall : ∀ t ∈ [a, b, c, "api".toList, "upload".toList, "[filename]".toList], IsSegment t :=
        hfirst _ (List.forall_mem_cons.2 ⟨hss, List.forall_mem_cons.2 ⟨hsu,
          List.forall_mem_singleton.2 hname⟩⟩)
      rw [if_pos ⟨rfl, rfl⟩, hhidden, hideParams_eq (isPath_of_slashed hall)]
    · -- No pattern of paths has a match.
      have hall := hfirst (s :: u :: n :: rest)
        (List.forall_mem_cons.2 ⟨hss, List.forall_mem_cons.2 ⟨hsu, hnames⟩⟩)
      have huapi : u ≠ "api".toList := ne_of_sameWord hu (by decide)
      rw [if_neg hapi, hideFilename_eq_self hall
        ⟨fun h => absurd h haapi, fun _ h => hcu (Option.some.inj h), fun h => absurd h hcapi,
          fun h hu' => hapi ⟨h, Option.some.inj hu'⟩, fun h => absurd h huapi, hnname⟩,
        hideParams_eq (isPath_of_slashed hall)]

/-- The text of a case id is neither `d` nor `api`. -/
theorem exposedUpload_eq_self (hP : KeepsPlain P) {path caseId name : String}
    (h : RoutesToUpload P path caseId name) (hid : isId caseId = true) :
    exposedUpload path.toList = path.toList := by
  obtain ⟨a, b, c, s, u, n, rest, hsplit, -, -, -, -, -, -, -, -, hdecode⟩ := h.segments
  have hne : ∀ text : List Char, '%' ∉ text → isId (String.ofList text) = false → s ≠ text := by
    rintro text hplain hno rfl
    rw [hP.plain _ (by rwa [String.toList_ofList]), Option.some.injEq] at hdecode
    rw [← hdecode, hno] at hid
    exact Bool.false_ne_true hid
  rw [exposedUpload, hsplit]
  simp only []
  rw [if_neg (hne _ (by decide) (by decide +kernel)),
    if_neg fun h => hne _ (by decide) (by decide +kernel) h.1]

/-- A token is hidden where the rest of the path does not spell it, and the first word has to be in
lower case for a rest.  A file name stays as the path spells it, where the patterns do not take a
part of the path for something else; for a case id and without an `&` they never do. -/
theorem redact_hides_iff (hP : KeepsPlain P) :
    (∀ path token : String, isToken token = true → RoutesToDelivery P path token →
      (¬ token.toList <:+: (redact path).toList ↔ ¬ Spells token.toList (exposed path.toList))) ∧
    (∀ path caseId name : String, RoutesToUpload P path caseId name →
      (¬ name.toList <:+: (redact path).toList ↔
        ¬ name.toList <:+: crossedOut (exposedUpload path.toList))) ∧
    ∀ path caseId name : String, RoutesToUpload P path caseId name → isId caseId = true →
      '&' ∉ path.toList →
      (¬ name.toList <:+: (redact path).toList ↔ ¬ name.toList <:+: path.toList) := by
  refine ⟨fun path token htoken h => not_congr (token_logged_iff hP htoken h),
    fun path caseId name h => ?_, fun path caseId name h hid hamp => ?_⟩
  · rw [redact_upload h]
  · rw [redact_upload h, exposedUpload_eq_self hP h hid, crossedOut_eq_self hamp]

end

theorem keepsPlain_sample : KeepsPlain Platform.sample := ⟨fun _ _ => rfl⟩

/-- A download, with the first word in lower case and the token nowhere else. -/
theorem redact_hides_iff_sample :
    ¬ "AbCdEf123-AbCdEf123-AbCdEf123-AbCdEf123-AbC".toList <:+:
      (redact "/d/AbCdEf123-AbCdEf123-AbCdEf123-AbCdEf123-AbC/files/f_x").toList := by
  refine ((redact_hides_iff keepsPlain_sample).1 _ _ (by decide +kernel)
    ⟨by decide +kernel, _, List.mem_of_getElem? (show deliveryRoutes[5]? = _ from rfl), ["f_x"], ?_⟩).2 ?_
  · decide +kernel
  · decide +kernel

/-- A token in a path in upper case, and a file name in an upload path, go to the log. -/
theorem secrets_in_log :
    ¬ (∀ path token : String, isToken token = true → RoutesToDelivery Platform.sample path token →
        ¬ token.toList <:+: (redact path).toList) ∧
    ¬ (∀ path caseId name : String, RoutesToUpload Platform.sample path caseId name →
        ¬ name.toList <:+: (redact path).toList) := by
  constructor
  · intro h
    refine h "/D/AbCdEf123-AbCdEf123-AbCdEf123-AbCdEf123-AbC"
      "AbCdEf123-AbCdEf123-AbCdEf123-AbCdEf123-AbC" (by decide +kernel)
      ⟨by decide +kernel, _, List.mem_of_getElem? (show deliveryRoutes[0]? = _ from rfl), [], ?_⟩ ?_
    · decide +kernel
    · decide +kernel
  · intro h
    refine h "/admin/api/cases/case_AbCdEf123-AbCdEf/upload/plan.pdf" "case_AbCdEf123-AbCdEf"
      "plan.pdf" ⟨by decide +kernel, by decide +kernel⟩ ?_
    decide +kernel

end Logging

end Outletbox
