import Outletbox.Library.JsonText

/-!
# Templates

The functions of `http/html.ts`, on strings of UTF-16 units.  A `SafeHtml` is its
text.  The text of a number, `String(n)`, is a parameter: nothing depends on it
beyond its being escaped.  So are the dictionaries, which `t` looks messages up in.

`Substitutes` says what `tHtml` does with a message: a text without placeholders
is escaped, and a placeholder between two texts is replaced on its own.
-/

namespace Outletbox.Html

open Utf16 (Units unit text)

/-! ## Escaping -/

/-- `ESCAPES`. -/
def escapes : List (UInt16 × Units) :=
  [(unit '&', text "&amp;"), (unit '<', text "&lt;"), (unit '>', text "&gt;"),
    (unit '"', text "&quot;"), (unit '\'', text "&#39;")]

def escapeUnit (u : UInt16) : Units :=
  match escapes.find? fun e => e.1 == u with
  | some e => e.2
  | none => [u]

/-- `escapeHtml`, of a string. -/
def escapeHtml (value : Units) : Units := value.flatMap escapeUnit

/-- The characters `escapeHtml` replaces stand for themselves nowhere in its result. -/
theorem escapeUnit_cases (u : UInt16) :
    (∃ e ∈ escapes, e.1 = u ∧ escapeUnit u = e.2) ∨
      ((∀ e ∈ escapes, e.1 ≠ u) ∧ escapeUnit u = [u]) := by
  rw [escapeUnit]
  cases hfind : escapes.find? fun e => e.1 == u with
  | some e => exact .inl ⟨e, List.mem_of_find?_eq_some hfind, by simpa using List.find?_some hfind, rfl⟩
  | none => exact .inr ⟨by simpa using hfind, rfl⟩

/-- An entity is an ampersand, then no character that is escaped. -/
theorem escapes_entity {e : UInt16 × Units} (he : e ∈ escapes) :
    ∃ name, e.2 = unit '&' :: name ∧ ∀ u ∈ name, ∀ e ∈ escapes, u ≠ e.1 := by
  have hhead : (escapes.all fun e => e.2.head? == some (unit '&')) = true := by decide +kernel
  have htail : (escapes.all fun e => e.2.tail.all fun u => escapes.all fun e => u != e.1) = true := by
    decide +kernel
  obtain ⟨name, hname⟩ := List.head?_eq_some_iff.1 (beq_iff_eq.1 (List.all_eq_true.1 hhead e he))
  have hunits := List.all_eq_true.1 htail e he
  rw [hname] at hunits
  refine ⟨name, hname, fun u hu e he => bne_iff_ne.1 ?_⟩
  exact List.all_eq_true.1 (List.all_eq_true.1 hunits u hu) e he

/-- A character that is escaped, and is no ampersand, does not occur in an escaped text. -/
theorem not_mem_escapeHtml {value : Units} {e : UInt16 × Units} (he : e ∈ escapes)
    (hamp : e.1 ≠ unit '&') : e.1 ∉ escapeHtml value := by
  intro hmem
  obtain ⟨u, -, hu⟩ := List.mem_flatMap.1 hmem
  obtain ⟨e', he', -, hescape⟩ | ⟨hself, hescape⟩ := escapeUnit_cases u
  · obtain ⟨name, hname, hunits⟩ := escapes_entity he'
    rw [hescape, hname, List.mem_cons] at hu
    obtain hu | hu := hu
    · exact hamp hu
    · exact hunits _ hu e he rfl
  · rw [hescape, List.mem_singleton] at hu
    exact hself e he hu

/-- An ampersand in an escaped text starts an entity. -/
theorem entity_of_ampersand {value before after : Units}
    (h : escapeHtml value = before ++ unit '&' :: after) :
    ∃ e ∈ escapes, e.2 <+: unit '&' :: after := by
  induction value generalizing before with
  | nil => exact absurd (List.append_eq_nil_iff.1 h.symm).2 (List.cons_ne_nil _ _)
  | cons u value ih =>
      rw [escapeHtml, List.flatMap_cons] at h
      obtain ⟨e, he, hu, hescape⟩ | ⟨hself, hescape⟩ := escapeUnit_cases u
      · obtain ⟨name, hname, hunits⟩ := escapes_entity he
        rw [hescape] at h
        cases before with
        | nil => exact ⟨e, he, ⟨_, h⟩⟩
        | cons b before =>
            -- the ampersand stands after the entity: no unit of its name is one
            rw [hname] at h
            obtain ⟨-, h⟩ := List.cons.inj h
            obtain ⟨mid, rfl, hmid⟩ | ⟨mid, hmid, hafter⟩ := List.append_eq_append_iff.1 h
            · exact ih hmid
            · cases mid with
              | nil => exact @ih [] hafter.symm
              | cons c mid =>
                  have hc : c = unit '&' := (List.cons.inj hafter).1.symm
                  have hmem : c ∈ name := by
                    rw [hmid]
                    exact List.mem_append_right _ List.mem_cons_self
                  exact absurd hc (hunits c hmem (unit '&', text "&amp;") (by decide +kernel))
      · rw [hescape] at h
        cases before with
        | nil => exact absurd (List.cons.inj h).1.symm (hself (unit '&', text "&amp;") (by decide +kernel))
        | cons b before => exact ih (List.cons.inj h).2

/-- Reads the entities of a text.  The number counts what is left of one. -/
def decodeFrom : Nat → Units → Units
  | _, [] => []
  | n + 1, _ :: t => decodeFrom n t
  | 0, u :: t =>
      match escapes.find? fun e => e.2.isPrefixOf (u :: t) with
      | some e => e.1 :: decodeFrom (e.2.length - 1) t
      | none => u :: decodeFrom 0 t

/-- The text with its entities decoded. -/
def decode (value : Units) : Units := decodeFrom 0 value

theorem decodeFrom_skip (xs ys : Units) : decodeFrom xs.length (xs ++ ys) = decodeFrom 0 ys := by
  induction xs with
  | nil => rfl
  | cons x xs ih => exact ih

/-- No entity starts another one, whatever follows. -/
theorem find_entity {e : UInt16 × Units} (he : e ∈ escapes) (t : Units) :
    (escapes.find? fun e' => e'.2.isPrefixOf (e.2 ++ t)) = some e := by
  simp only [escapes, List.mem_cons, List.not_mem_nil, or_false] at he
  obtain rfl | rfl | rfl | rfl | rfl := he <;> rfl

theorem find_no_entity {u : UInt16} (hu : u ≠ unit '&') (t : Units) :
    (escapes.find? fun e => e.2.isPrefixOf (u :: t)) = none := by
  refine List.find?_eq_none.2 fun e he hprefix => ?_
  obtain ⟨name, hname, -⟩ := escapes_entity he
  rw [hname, List.isPrefixOf_cons_cons, Bool.and_eq_true, beq_iff_eq] at hprefix
  exact hu hprefix.1.symm

/-- Decoding the entities gives the original string back. -/
theorem decode_escapeHtml (value : Units) : decode (escapeHtml value) = value := by
  induction value with
  | nil => rfl
  | cons u value ih =>
      rw [escapeHtml, List.flatMap_cons]
      obtain ⟨e, he, rfl, hescape⟩ | ⟨hself, hescape⟩ := escapeUnit_cases u
      · obtain ⟨name, hname, -⟩ := escapes_entity he
        have hfind := find_entity he (value.flatMap escapeUnit)
        rw [hescape, decode]
        rw [hname, List.cons_append] at hfind ⊢
        rw [decodeFrom, hfind]
        dsimp only
        rw [hname, List.length_cons, Nat.add_sub_cancel, decodeFrom_skip]
        exact congrArg (e.1 :: ·) ih
      · have hu : u ≠ unit '&' := fun hu => hself (unit '&', text "&amp;") (by decide +kernel) hu.symm
        rw [hescape, decode, List.singleton_append, decodeFrom, find_no_entity hu]
        exact congrArg (u :: ·) ih

/-! ## Templates -/

section

variable {ν : Type} (numberText : ν → Units)

/-- A value that is no array. -/
inductive Leaf (ν : Type) where
  | str (s : Units)
  | num (n : ν)
  | bool (b : Bool)
  | null
  | undefined
  | safe (value : Units)

/-- What a template interpolates. -/
inductive Interp (ν : Type) where
  | leaf (v : Leaf ν)
  | arr (items : List (Interp ν))

/-- `String(value ?? '')`. -/
def Leaf.string : Leaf ν → Units
  | .str s => s
  | .num n => numberText n
  | .bool true => text "true"
  | .bool false => text "false"
  | .null => []
  | .undefined => []
  | .safe value => value

/-- `render`, of a value that is no array. -/
def renderLeaf : Leaf ν → Units
  | .null => []
  | .undefined => []
  | .bool false => []
  | .safe value => value
  | v => escapeHtml (v.string numberText)

mutual

def render : Interp ν → Units
  | .leaf v => renderLeaf numberText v
  | .arr items => renderItems items

/-- `v.map(render).join('')`. -/
def renderItems : List (Interp ν) → Units
  | [] => []
  | v :: items => render v ++ renderItems items

end

/-- The template tag. -/
def html (strings : List Units) (values : List (Interp ν)) : Units :=
  strings.zipIdx.flatMap fun p => p.1 ++ ((values[p.2]?).map (render numberText)).getD []

/-- What stands for a leaf: markup as it is, nothing for `false`, the escaped form of any other. -/
def Leaf.html : Leaf ν → Units
  | .safe value => value
  | .bool false => []
  | v => escapeHtml (v.string numberText)

theorem renderLeaf_eq (v : Leaf ν) : renderLeaf numberText v = v.html numberText := by
  cases v with
  | bool b => cases b <;> rfl
  | _ => rfl

mutual

/-- The values in a tree of arrays, in order. -/
def leaves : Interp ν → List (Leaf ν)
  | .leaf v => [v]
  | .arr items => leavesOf items

def leavesOf : List (Interp ν) → List (Leaf ν)
  | [] => []
  | v :: items => leaves v ++ leavesOf items

end

mutual

/-- A tree is rendered leaf by leaf. -/
theorem render_eq : ∀ v : Interp ν,
    render numberText v = (leaves v).flatMap (Leaf.html numberText)
  | .leaf v => by
      rw [render, leaves, List.flatMap_singleton, renderLeaf_eq]
  | .arr items => by
      rw [render, leaves, renderItems_eq items]

theorem renderItems_eq : ∀ items : List (Interp ν),
    renderItems numberText items = (leavesOf items).flatMap (Leaf.html numberText)
  | [] => rfl
  | v :: items => by
      rw [renderItems, leavesOf, List.flatMap_append, render_eq v, renderItems_eq items]

end

/-- Parts, with texts between them. -/
def interleave : List Units → List Units → Units
  | [], _ => []
  | s :: strings, [] => s ++ interleave strings []
  | s :: strings, t :: texts => s ++ (t ++ interleave strings texts)

/-- A template interleaves its parts with its values. -/
theorem html_eq (strings : List Units) (values : List (Interp ν)) :
    html numberText strings values =
      interleave strings (values.map fun v => (leaves v).flatMap (Leaf.html numberText)) := by
  have hfrom : ∀ (strings : List Units) (i : Nat),
      (strings.zipIdx i).flatMap
          (fun p => p.1 ++ ((values[p.2]?).map (render numberText)).getD []) =
        interleave strings ((values.drop i).map fun v =>
          (leaves v).flatMap (Leaf.html numberText)) := by
    intro strings
    induction strings with
    | nil => exact fun i => rfl
    | cons s strings ih =>
        intro i
        rw [List.zipIdx_cons, List.flatMap_cons, ih]
        dsimp only
        by_cases hi : i < values.length
        · rw [List.drop_eq_getElem_cons hi, List.map_cons, interleave, List.getElem?_eq_getElem hi,
            Option.map_some, Option.getD_some, render_eq, List.append_assoc]
        · have hle : values.length ≤ i := Nat.le_of_not_lt hi
          rw [List.drop_eq_nil_of_le hle, List.drop_eq_nil_of_le (Nat.le_succ_of_le hle),
            List.map_nil, interleave, List.getElem?_eq_none hle]
          exact congrArg (· ++ _) (List.append_nil s)
  exact hfrom strings 0

end

/-! ## Messages with markup -/

/-- `\w`. -/
def isWord (u : UInt16) : Bool :=
  (unit '0' ≤ u && u ≤ unit '9') || (unit 'A' ≤ u && u ≤ unit 'Z') || u == unit '_' ||
    (unit 'a' ≤ u && u ≤ unit 'z')

/-- A placeholder. -/
def slot (name : Units) : Units := unit '{' :: (name ++ [unit '}'])

/-- Replaces the placeholders of a text by their values, and writes every other unit with
`literal`.  The number counts what is left of a placeholder. -/
def scan (literal : UInt16 → Units) (value : Units → Units) : Nat → Units → Units
  | _, [] => []
  | n + 1, _ :: t => scan literal value n t
  | 0, u :: t =>
      if u = unit '{' ∧ t.takeWhile isWord ≠ [] ∧ (t.dropWhile isWord).head? = some (unit '}') then
        value (t.takeWhile isWord) ++ scan literal value ((t.takeWhile isWord).length + 1) t
      else literal u ++ scan literal value 0 t

/-- `message.replace(/\{(\w+)\}/g, (m, name) => ..)`. -/
def replaceSlots (value : Units → Units) (message : Units) : Units :=
  scan (fun u => [u]) value 0 message

/-- The name of a placeholder. -/
def Word (name : Units) : Prop := name ≠ [] ∧ ∀ u ∈ name, isWord u

/-- A text without placeholders. -/
def NoSlot (s : Units) : Prop := ∀ before name after, Word name → s ≠ before ++ (slot name ++ after)

/-- What a message becomes: its texts are escaped, and each placeholder between
them gives way to its value. -/
inductive Filled (value : Units → Units) : Units → Units → Prop
  | text {s : Units} (h : NoSlot s) : Filled value s (escapeHtml s)
  | slot {before name after out : Units} (hbefore : NoSlot before) (hname : Word name)
      (hafter : Filled value after out) :
      Filled value (before ++ (slot name ++ after)) (escapeHtml before ++ (value name ++ out))

section

variable {literal : UInt16 → Units} {value : Units → Units}

theorem scan_drop (n : Nat) (t : Units) : scan literal value n t = scan literal value 0 (t.drop n) := by
  induction t generalizing n with
  | nil => rw [List.drop_nil, scan, scan]
  | cons u t ih =>
      cases n with
      | zero => rfl
      | succ n => exact ih n

theorem takeWhile_slot {name : Units} (hname : ∀ u ∈ name, isWord u) (after : Units) :
    (name ++ unit '}' :: after).takeWhile isWord = name ∧
      (name ++ unit '}' :: after).dropWhile isWord = unit '}' :: after := by
  have hclose : ¬isWord (unit '}') := by decide
  rw [List.takeWhile_append_of_pos hname, List.takeWhile_cons_of_neg hclose, List.append_nil,
    List.dropWhile_append_of_pos hname, List.dropWhile_cons_of_neg hclose]
  exact ⟨rfl, rfl⟩

/-- A placeholder at the start of a text. -/
theorem scan_slot {name : Units} (hname : Word name) (after : Units) :
    scan literal value 0 (slot name ++ after) = value name ++ scan literal value 0 after := by
  obtain ⟨htake, hdrop⟩ := takeWhile_slot hname.2 after
  have hrest : (name ++ unit '}' :: after).drop (name.length + 1) = after := by
    rw [List.append_cons]
    exact List.drop_left' (List.length_append ..)
  rw [slot, List.cons_append, List.append_assoc, List.singleton_append, scan, htake, hdrop,
    if_pos ⟨rfl, hname.1, rfl⟩, scan_drop, hrest]

/-- No placeholder at the start of a text. -/
theorem scan_cons {u : UInt16} {t : Units}
    (h : ∀ name after, Word name → u :: t ≠ slot name ++ after) :
    scan literal value 0 (u :: t) = literal u ++ scan literal value 0 t := by
  rw [scan, if_neg]
  rintro ⟨rfl, hne, hhead⟩
  obtain ⟨after, hafter⟩ := List.head?_eq_some_iff.1 hhead
  refine h (t.takeWhile isWord) after ⟨hne, fun u hu => List.mem_takeWhile_imp hu⟩ ?_
  rw [slot, List.cons_append, List.append_assoc, List.singleton_append, ← hafter,
    List.takeWhile_append_dropWhile]

/-- A text starts with a placeholder, or it does not. -/
theorem slot_or_not (s : Units) :
    (∃ name after, Word name ∧ s = slot name ++ after) ∨
      ∀ name after, Word name → s ≠ slot name ++ after := by
  by_cases h : ∃ name after, Word name ∧ s = slot name ++ after
  · exact .inl h
  · exact .inr fun name after hname hs => h ⟨name, after, hname, hs⟩

theorem ne_open_of_slot {u : UInt16} {name after t : Units} (h : u :: t = slot name ++ after) :
    u = unit '{' := (List.cons.inj h).1

/-- Units that are no brace are written one by one. -/
theorem scan_literals {s : Units} (h : ∀ u ∈ s, u ≠ unit '{') (t : Units) :
    scan literal value 0 (s ++ t) = s.flatMap literal ++ scan literal value 0 t := by
  induction s with
  | nil => rfl
  | cons u s ih =>
      obtain ⟨hu, hs⟩ := List.forall_mem_cons.1 h
      rw [List.cons_append, scan_cons fun name after _ hslot => hu (ne_open_of_slot hslot), ih hs,
        List.flatMap_cons, List.append_assoc]

/-- Units an escaped text starts with stand in the original, unless one is an ampersand. -/
theorem escapeHtml_prefix {s t rest : Units} (hs : ∀ u ∈ s, u ≠ unit '&')
    (h : escapeHtml t = s ++ rest) : ∃ t', t = s ++ t' ∧ escapeHtml t' = rest := by
  induction s generalizing t with
  | nil => exact ⟨t, rfl, h⟩
  | cons u s ih =>
      obtain ⟨hu, hrest⟩ := List.forall_mem_cons.1 hs
      cases t with
      | nil => cases h
      | cons c t =>
          rw [escapeHtml, List.flatMap_cons] at h
          obtain ⟨e, he, -, hescape⟩ | ⟨-, hescape⟩ := escapeUnit_cases c
          · obtain ⟨name, hname, -⟩ := escapes_entity he
            rw [hescape, hname] at h
            exact absurd (List.cons.inj h).1.symm hu
          · rw [hescape, List.singleton_append, List.cons_append, List.cons.injEq] at h
            obtain ⟨rfl, h⟩ := h
            obtain ⟨t', rfl, ht'⟩ := ih hrest h
            exact ⟨t', rfl, ht'⟩

theorem escapeHtml_append (s t : Units) : escapeHtml (s ++ t) = escapeHtml s ++ escapeHtml t :=
  List.flatMap_append

/-- A text of no escaped character is its own escaped form. -/
theorem escapeHtml_self {s : Units} (h : ∀ u ∈ s, ∀ e ∈ escapes, e.1 ≠ u) : escapeHtml s = s := by
  induction s with
  | nil => rfl
  | cons u s ih =>
      obtain ⟨hu, hs⟩ := List.forall_mem_cons.1 h
      obtain ⟨e, he, hself, -⟩ | ⟨-, hescape⟩ := escapeUnit_cases u
      · exact absurd hself (hu e he)
      · rw [escapeHtml, List.flatMap_cons, hescape]
        exact congrArg (u :: ·) (ih hs)

/-- No unit of a placeholder is escaped. -/
theorem escapes_slot {name : Units} (hname : Word name) :
    ∀ u ∈ slot name, ∀ e ∈ escapes, e.1 ≠ u := by
  have hbraces : (escapes.all fun e => e.1 != unit '{' && e.1 != unit '}' && !isWord e.1) = true := by
    decide +kernel
  intro u hu e he heu
  have he := List.all_eq_true.1 hbraces e he
  rw [heu, Bool.and_eq_true, Bool.and_eq_true, bne_iff_ne, bne_iff_ne, Bool.not_eq_true'] at he
  rw [slot, List.mem_cons, List.mem_append, List.mem_singleton] at hu
  obtain hu | hu | hu := hu
  · exact he.1.1 hu
  · exact absurd (hname.2 u hu) (by rw [he.2]; decide)
  · exact he.1.2 hu

/-- Escaping first and replacing then, or replacing while escaping. -/
theorem replaceSlots_escapeHtml (message : Units) :
    replaceSlots value (escapeHtml message) = scan escapeUnit value 0 message := by
  rw [replaceSlots]
  induction hlength : message.length using Nat.strong_induction_on generalizing message with
  | _ n ih =>
  obtain ⟨name, after, hname, rfl⟩ | hnone := slot_or_not message
  · have hlt : after.length < n := by
      rw [← hlength, List.length_append, slot, List.length_cons]
      omega
    rw [escapeHtml_append, escapeHtml_self (escapes_slot hname), scan_slot hname, scan_slot hname,
      ih _ hlt after rfl]
  cases message with
  | nil => rfl
  | cons u t =>
      have hlt : t.length < n := by
        rw [← hlength, List.length_cons]
        exact Nat.lt_succ_self _
      rw [scan_cons hnone, ← ih _ hlt t rfl, escapeHtml, List.flatMap_cons, ← escapeHtml]
      by_cases hu : u = unit '{'
      · subst hu
        have hself : escapeUnit (unit '{') = [unit '{'] := by decide +kernel
        rw [hself, List.singleton_append, scan_cons]
        -- a placeholder there would be one in the message
        intro name after hname hslot
        rw [slot, List.cons_append, List.cons.injEq] at hslot
        have hplain : ∀ u ∈ name ++ [unit '}'], u ≠ unit '&' := fun u hu => by
          have hmem : u ∈ slot name := List.mem_cons_of_mem _ hu
          exact (escapes_slot hname u hmem (unit '&', text "&amp;") (by decide +kernel)).symm
        obtain ⟨t', rfl, -⟩ := escapeHtml_prefix hplain hslot.2
        exact hnone name t' hname rfl
      · have hopen : ∀ v ∈ escapeUnit u, v ≠ unit '{' := by
          have hentities : (escapes.all fun e => e.2.all fun v => v != unit '{') = true := by
            decide +kernel
          obtain ⟨e, he, -, hescape⟩ | ⟨-, hescape⟩ := escapeUnit_cases u
          · rw [hescape]
            exact fun v hv =>
              bne_iff_ne.1 (List.all_eq_true.1 (List.all_eq_true.1 hentities e he) v hv)
          · rw [hescape]
            exact List.forall_mem_singleton.2 hu
        rw [scan_literals hopen, List.flatMap_singleton']

theorem noSlot_nil : NoSlot [] := fun _ _ _ _ h =>
  List.cons_ne_nil _ _ (List.append_eq_nil_iff.1 (List.append_eq_nil_iff.1 h.symm).2).1

/-- A unit before a text without placeholders, unless it starts one. -/
theorem NoSlot.cons {u : UInt16} {s : Units} (h : NoSlot s)
    (hnone : ∀ name after, Word name → u :: s ≠ slot name ++ after) : NoSlot (u :: s) := by
  intro before name after hname hs
  cases before with
  | nil => exact hnone name after hname hs
  | cons b before => exact h before name after hname (List.cons.inj hs).2

/-- A unit before a message, unless it starts a placeholder. -/
theorem Filled.cons {u : UInt16} {t out : Units} (h : Filled value t out)
    (hnone : ∀ name after, Word name → u :: t ≠ Html.slot name ++ after) :
    Filled value (u :: t) (escapeUnit u ++ out) := by
  cases h with
  | text h => exact .text (h.cons hnone)
  | slot hbefore hname hafter =>
      rename_i before name after out
      have hcons : NoSlot (u :: before) := hbefore.cons fun name' after' hname' hs =>
        hnone name' (after' ++ (Html.slot name ++ after)) hname' (by
          rw [← List.append_assoc (Html.slot name'), ← hs, List.cons_append])
      have hfilled : Filled value _ _ := .slot hcons hname hafter
      rw [escapeHtml, List.flatMap_cons, List.append_assoc, ← escapeHtml] at hfilled
      exact hfilled

/-- What `tHtml` makes of a message. -/
theorem filled_replaceSlots (message : Units) :
    Filled value message (replaceSlots value (escapeHtml message)) := by
  rw [replaceSlots_escapeHtml]
  induction hlength : message.length using Nat.strong_induction_on generalizing message with
  | _ n ih =>
  obtain ⟨name, after, hname, rfl⟩ | hnone := slot_or_not message
  · have hlt : after.length < n := by
      rw [← hlength, List.length_append, slot, List.length_cons]
      omega
    rw [scan_slot hname]
    exact @Filled.slot value [] _ _ _ noSlot_nil hname (ih _ hlt after rfl)
  cases message with
  | nil => exact .text noSlot_nil
  | cons u t =>
      have hlt : t.length < n := by
        rw [← hlength, List.length_cons]
        exact Nat.lt_succ_self _
      rw [scan_cons hnone]
      exact (ih _ hlt t rfl).cons hnone

end

/-- The texts of one dictionary. -/
abbrev Messages := Units → Option Units

/-- The dictionaries, and the English one. -/
structure Dictionaries where
  DICT : Units → Option Messages
  en : Messages

/-- `t(lang, key)`. -/
def t (D : Dictionaries) (lang key : Units) : Units :=
  (((D.DICT lang).bind fun messages => messages key).or (D.en key)).getD key

/-- What `params[name]` is when only `Object.prototype` has the property, as a string. -/
def objectPrototype : List (Units × Units) :=
  (["__defineGetter__", "__defineSetter__", "hasOwnProperty", "__lookupGetter__",
      "__lookupSetter__", "isPrototypeOf", "propertyIsEnumerable", "toString", "valueOf",
      "toLocaleString"].map fun name =>
    (text name, text ("function " ++ name ++ "() \x7b [native code] \x7d"))) ++
  [(text "constructor", text "function Object() \x7b [native code] \x7d"),
    (text "__proto__", text "[object Object]")]

variable {ν : Type} (numberText : ν → Units)

/-- What a placeholder is replaced by: `name in params ? render(params[name]) : m`. -/
def slotValue (params : List (Units × Interp ν)) (name : Units) : Units :=
  match params.lookup name with
  | some v => render numberText v
  | none =>
      match objectPrototype.lookup name with
      | some string => escapeHtml string
      | none => slot name

def tHtml (D : Dictionaries) (lang key : Units) (params : List (Units × Interp ν)) : Units :=
  replaceSlots (slotValue numberText params) (escapeHtml (t D lang key))

/-- Nothing untrusted becomes markup: a template interleaves its parts with the leaves of its
values, an escaped text holds no markup and decodes to the original, and a message is escaped with
each placeholder replaced by its parameter. -/
theorem markup_is_trusted :
    (∀ (strings : List Units) (values : List (Interp ν)),
      html numberText strings values =
        interleave strings (values.map fun v => (leaves v).flatMap (Leaf.html numberText))) ∧
    (∀ value : Units,
      (∀ u ∈ escapeHtml value, u ≠ unit '<' ∧ u ≠ unit '>' ∧ u ≠ unit '"' ∧ u ≠ unit '\'') ∧
      (∀ before after, escapeHtml value = before ++ unit '&' :: after →
        ∃ e ∈ escapes, e.2 <+: unit '&' :: after) ∧
      decode (escapeHtml value) = value) ∧
    (∀ (D : Dictionaries) (lang key : Units) (params : List (Units × Interp ν)),
      ∃ value : Units → Units,
        (∀ name v, params.lookup name = some v → value name = render numberText v) ∧
        (∀ name, params.lookup name = none → objectPrototype.lookup name = none →
          value name = slot name) ∧
        Filled value (t D lang key) (tHtml numberText D lang key params)) := by
  refine ⟨html_eq numberText, fun value => ⟨fun u hu => ?_, fun before after => ?_, ?_⟩,
    fun D lang key params => ⟨slotValue numberText params, fun name v h => ?_,
      fun name h hproto => ?_, filled_replaceSlots _⟩⟩
  · have hne : ∀ e ∈ escapes, e.1 ≠ unit '&' → u ≠ e.1 := fun e he hamp hue =>
      not_mem_escapeHtml he hamp (hue ▸ hu)
    exact ⟨hne (unit '<', text "&lt;") (by decide +kernel) (by decide),
      hne (unit '>', text "&gt;") (by decide +kernel) (by decide),
      hne (unit '"', text "&quot;") (by decide +kernel) (by decide),
      hne (unit '\'', text "&#39;") (by decide +kernel) (by decide)⟩
  · exact entity_of_ampersand
  · exact decode_escapeHtml value
  · rw [slotValue, h]
  · rw [slotValue, h, hproto]

/-- `false` renders as nothing, though its escaped form is a word; and a placeholder changes
without a parameter, when every object has a property of its name. -/
theorem false_renders_nothing :
    html (ν := Empty) Empty.elim [[], []] [.leaf (.bool false)] ≠
        interleave [[], []] [escapeHtml (Leaf.string (ν := Empty) Empty.elim (.bool false))] ∧
      tHtml (ν := Empty) Empty.elim ⟨fun _ => none, fun _ => none⟩ (text "en")
        (text "\x7bconstructor\x7d") [] ≠ escapeHtml (text "\x7bconstructor\x7d") := by
  decide +kernel

/-! ## JSON in a page -/

open JsonText (NumberFormat Value)

section

variable (F : NumberFormat ν)

/-- `json.replace(/../g, replacement)`, for a pattern of one unit. -/
def replaceUnit (u : UInt16) (replacement json : Units) : Units :=
  json.flatMap fun v => if v = u then replacement else [v]

/-- What `jsonScript` puts between its tags. -/
def jsonContent (data : Value ν) : Units :=
  replaceUnit 0x2029 (text "\\u2029") (replaceUnit 0x2028 (text "\\u2028")
    (replaceUnit (unit '<') (text "\\u003c") (JsonText.stringify F data)))

def scriptOpen (id : Units) : Units :=
  text "<script type=\"application/json\" id=\"" ++ escapeHtml id ++ text "\">"

def jsonScript (id : Units) (data : Value ν) : Units :=
  scriptOpen id ++ jsonContent F data ++ text "</script>"

end

/-- The text of the first element of a page: from the first `>` on, up to the next `<`. -/
def elementText (page : Units) : Units :=
  ((page.dropWhile (· != unit '>')).tail).takeWhile (· != unit '<')

/-- The units `jsonScript` escapes. -/
def special : Units := [unit '<', 0x2028, 0x2029]

variable {F : NumberFormat ν}

/-- The three replacements are one pass over the units. -/
theorem jsonContent_eq (data : Value ν) :
    jsonContent F data = (JsonText.stringify F data).flatMap (JsonText.escape special) := by
  have hless : text "\\u003c" = JsonText.unicodeEscape (unit '<') := by decide +kernel
  have hline : text "\\u2028" = JsonText.unicodeEscape 0x2028 := by decide +kernel
  have hparagraph : text "\\u2029" = JsonText.unicodeEscape 0x2029 := by decide +kernel
  rw [jsonContent, replaceUnit, replaceUnit, replaceUnit, List.flatMap_assoc, List.flatMap_assoc]
  congr 1
  funext u
  rw [JsonText.escape, special]
  by_cases h : u = unit '<' ∨ u = 0x2028 ∨ u = 0x2029
  · obtain rfl | rfl | rfl := h <;> decide +kernel
  · rw [not_or, not_or] at h
    simp [h.1, h.2.1, h.2.2]

/-- No escape and no token outside strings holds a unit that is escaped. -/
theorem alphabet_special : ∀ u ∈ JsonText.alphabet, u ∉ special := by
  have hall : (JsonText.alphabet.all fun u => !special.contains u) = true := by decide +kernel
  intro u hu hspecial
  have hnot := List.all_eq_true.1 hall u hu
  rw [List.contains_iff_mem.2 hspecial] at hnot
  cases hnot

/-- The content holds none of the units that are escaped. -/
theorem not_mem_jsonContent {data : Value ν} {u : UInt16} (hu : u ∈ special) :
    u ∉ jsonContent F data := by
  rw [jsonContent_eq]
  exact JsonText.not_mem_flatMap_escape
    (fun u hu => alphabet_special u (List.mem_append_left _ hu)) hu

theorem all_ne {c : UInt16} {s : Units} (h : c ∉ s) : ∀ u ∈ s, (u != c) = true :=
  fun _ hu => bne_iff_ne.2 fun huc => h (huc ▸ hu)

/-- A page that starts with one tag, up to the next one. -/
theorem elementText_tag {tag content rest : Units} (htag : unit '>' ∉ tag)
    (hcontent : unit '<' ∉ content) :
    elementText (tag ++ unit '>' :: (content ++ unit '<' :: rest)) = content := by
  have hdrop : (tag ++ unit '>' :: (content ++ unit '<' :: rest)).dropWhile (· != unit '>') =
      unit '>' :: (content ++ unit '<' :: rest) := by
    rw [List.dropWhile_append_of_pos (all_ne htag),
      List.dropWhile_cons_of_neg (by decide)]
  rw [elementText, hdrop, List.tail_cons,
    List.takeWhile_append_of_pos (all_ne hcontent), List.takeWhile_cons_of_neg (by decide),
    List.append_nil]

theorem elementText_jsonScript (id : Units) (data : Value ν) :
    elementText (jsonScript F id data) = jsonContent F data := by
  have hcontent : unit '<' ∉ jsonContent F data := not_mem_jsonContent (by decide +kernel)
  have hid : unit '>' ∉ escapeHtml id :=
    not_mem_escapeHtml (e := (unit '>', text "&gt;")) (by decide +kernel) (by decide)
  have htag : unit '>' ∉ text "<script type=\"application/json\" id=\"" ++ escapeHtml id ++
      [unit '"'] := by
    rw [List.mem_append, List.mem_append]
    rintro ((h | h) | h)
    · exact absurd h (by decide +kernel)
    · exact hid h
    · exact absurd h (by decide +kernel)
  have hscript : jsonScript F id data = (text "<script type=\"application/json\" id=\"" ++
      escapeHtml id ++ [unit '"']) ++ unit '>' :: (jsonContent F data ++
        unit '<' :: text "/script>") := by
    have hquote : text "\">" = [unit '"', unit '>'] := by decide +kernel
    have hclose : text "</script>" = unit '<' :: text "/script>" := by decide +kernel
    rw [jsonScript, scriptOpen, hquote, hclose]
    simp only [List.append_assoc, List.cons_append, List.nil_append]
  rw [hscript, elementText_tag htag hcontent]

/-- JSON embedded in a page is inert and lossless. -/
theorem json_script_inert_and_lossless (F : NumberFormat ν) (id : Units) (data : JsonText.Data ν) :
    ∃ content, jsonScript F id data.1 = scriptOpen id ++ content ++ text "</script>" ∧
      elementText (jsonScript F id data.1) = content ∧
      (∀ u ∈ content, u ≠ unit '<' ∧ u ≠ 0x2028 ∧ u ≠ 0x2029) ∧
      JsonText.parse F content = some data.1 := by
  refine ⟨jsonContent F data.1, rfl, elementText_jsonScript id data.1, fun u hu => ?_, ?_⟩
  · have hne : ∀ v ∈ special, u ≠ v := fun v hv huv => not_mem_jsonContent hv (huv ▸ hu)
    exact ⟨hne _ (by decide +kernel), hne _ (by decide +kernel), hne _ (by decide +kernel)⟩
  · rw [jsonContent_eq]
    exact JsonText.parse_escape alphabet_special data.2

example : jsonContent JsonText.naturals
    (.obj [(text "note", .arr [.str (text "\\</script>"), .num 120, .bool false])]) =
      text "\x7b\"note\":[\"\\\\\\u003c/script>\",120,false]\x7d" := by
  decide +kernel

end Outletbox.Html
