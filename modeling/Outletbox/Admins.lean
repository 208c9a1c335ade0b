import Outletbox.Library.History
import Outletbox.Services.Users

/-!
# The last administrator

The operations on accounts as one system.  Whatever is asked of it, by whom and
about whom, an administrator who can sign in remains; and the three operations
that could remove the last one are refused for no other reason.
-/

namespace Outletbox

namespace Admins

variable (P : Platform)

/-! ## The system -/

inductive Op
  | createUser (id salt password username : String) (role : Role)
  | createAdmin (id salt : String) (input : CreateAdminInput)
  | setUserRole (actorId id : String) (role : Role)
  | setUserDisabled (actorId id : String) (disabled : Bool)
  | resetUserPassword (actorId id password salt : String)
  | resetUserTotp (actorId id : String)
  | deleteUser (actorId id : String)

/-- An operation and the instant it runs at. -/
structure Call where
  now : Int
  op : Op

def Call.run (c : Call) (d : AccountDb) : Except Failure AccountDb :=
  match c.op with
  | .createUser id salt password username role =>
      (Outletbox.createUser P c.now id salt password username role d).map (·.2)
  | .createAdmin id salt input => (Outletbox.createAdmin P c.now id salt input d).map (·.2)
  | .setUserRole actorId id role => (Outletbox.setUserRole actorId id role d).map (·.2)
  | .setUserDisabled actorId id disabled =>
      (Outletbox.setUserDisabled c.now actorId id disabled d).map (·.2)
  | .resetUserPassword actorId id password salt =>
      (Outletbox.resetUserPassword P actorId id password salt d).map (·.2)
  | .resetUserTotp actorId id => (Outletbox.resetUserTotp P actorId id d).map (·.2)
  | .deleteUser actorId id => (Outletbox.deleteUser actorId id d).map (·.2)

/-- An operation that throws has written nothing: a service returns its tables only with a result.
Those that write more than once do so inside `transaction`. -/
def step (d : AccountDb) (c : Call) : AccountDb × Option Failure :=
  match c.run P d with
  | .ok d' => (d', none)
  | .error e => (d, some e)

/-- Calls may come in any order and at any instant. -/
def env (_ : List (History.Event AccountDb Call (Option Failure))) (_ : AccountDb) (_ : Call) :
    Prop := True

/-! ## What the rule is about -/

/-- An administrator who is not disabled. -/
def IsActive (a : AdminRow) : Prop := a.role = .admin ∧ a.disabledAt = none

def HasAdmin (d : AccountDb) : Prop := ∃ a ∈ d.admins, IsActive a

/-- The actor and the account of an operation that could remove an administrator. -/
def Op.removal : Op → Option (String × String)
  | .setUserRole actorId id _ => some (actorId, id)
  | .setUserDisabled actorId id _ => some (actorId, id)
  | .deleteUser actorId id => some (actorId, id)
  | _ => none

/-- The state if the operation were carried out without asking. -/
def Call.carriedOut (c : Call) (d : AccountDb) : AccountDb :=
  match c.op with
  | .setUserRole _ id role => updateAdmin id (fun a => { a with role := role }) d
  | .setUserDisabled _ id disabled =>
      updateAdmin id (fun a => { a with disabledAt := if disabled then some c.now else none }) d
  | .deleteUser _ id => deleteAdmin id d
  | _ => d

/-- The identifiers of the accounts are distinct, and one of them is an active
administrator. -/
structure Inv (d : AccountDb) : Prop where
  ids : (d.admins.map (·.id)).Nodup
  active : HasAdmin d

section

variable {P} {d d' : AccountDb} {actorId id : String} {user : AdminRow}

/-! ## Reading the guards -/

theorem requireUser_ok (h : requireUser actorId id d = .ok user) :
    adminById id d = some user ∧ user.id ≠ actorId := by
  unfold requireUser at h
  split at h
  · cases h
  · rename_i row hrow
    split at h
    · cases h
    · rename_i hne
      cases h
      exact ⟨hrow, by simpa using hne⟩

theorem requireUser_some (h : adminById id d = some user) (hne : id ≠ actorId) :
    requireUser actorId id d = .ok user := by
  have hid : user.id = id := by simpa using List.find?_some h
  simp [requireUser, h, hid, hne]

/-- Some other active administrator is left. -/
theorem exists_other (h : activeAdminsOtherThan id d ≠ 0) :
    ∃ a ∈ d.admins, IsActive a ∧ a.id ≠ id := by
  obtain ⟨a, ha, hp⟩ := List.countP_pos_iff.1 (Nat.pos_of_ne_zero h)
  simp only [Bool.and_eq_true, beq_iff_eq, bne_iff_ne, Option.isNone_iff_eq_none] at hp
  exact ⟨a, ha, ⟨hp.1.1, hp.1.2⟩, hp.2⟩

theorem eq_of_no_other (h : activeAdminsOtherThan id d = 0) {a : AdminRow} (ha : a ∈ d.admins)
    (hactive : IsActive a) : a.id = id := by
  by_contra hne
  refine absurd h (Nat.pos_iff_ne_zero.1 (List.countP_pos_iff.2 ⟨a, ha, ?_⟩))
  simp [hactive.1, hactive.2, hne]

/-- Every active administrator but the account is left alone, and the account is
not the last one. -/
theorem Inv.exists_other (hi : Inv d) (hu : adminById id d = some user)
    (hrule : user.role = .admin → activeAdminsOtherThan id d ≠ 0) :
    ∃ a ∈ d.admins, IsActive a ∧ a.id ≠ id := by
  cases hrole : user.role with
  | admin => exact Admins.exists_other (hrule hrole)
  | user =>
      obtain ⟨a, ha, hactive⟩ := hi.active
      refine ⟨a, ha, hactive, ?_⟩
      rintro rfl
      have hmem := List.mem_of_find?_eq_some hu
      have hsame : user = a := Table.eq_of_key hi.ids hmem ha (by simpa using List.find?_some hu)
      rw [← hsame, IsActive, hrole] at hactive
      exact absurd hactive.1 (by decide)

/-! ## What the operations keep -/

/-- A change of one account that leaves another active administrator. -/
theorem Inv.update {f : AdminRow → AdminRow} (hi : Inv d) (hf : ∀ a, (f a).id = a.id)
    (ho : ∃ a ∈ d.admins, IsActive a ∧ a.id ≠ id) (hd : d'.admins = (updateAdmin id f d).admins) :
    Inv d' := by
  refine ⟨?_, ?_⟩
  · rw [hd]
    exact Table.nodup_update hf hi.ids
  · obtain ⟨a, ha, hactive, hne⟩ := ho
    refine ⟨a, ?_, hactive⟩
    rw [hd]
    exact Table.mem_update_of_not ha (by simpa using hne)

/-- A change that leaves every active administrator active. -/
theorem Inv.keep {f : AdminRow → AdminRow} {p : AdminRow → Bool} (hi : Inv d)
    (hf : ∀ a, (f a).id = a.id ∧ (IsActive a → IsActive (f a)))
    (hd : d'.admins = Table.update p f d.admins) : Inv d' := by
  refine ⟨?_, ?_⟩
  · rw [hd]
    exact Table.nodup_update (fun a => (hf a).1) hi.ids
  · obtain ⟨a, ha, hactive⟩ := hi.active
    refine ⟨if p a then f a else a, ?_, ?_⟩
    · rw [hd]
      exact Table.mem_update.2 ⟨a, ha, rfl⟩
    · split
      · exact (hf a).2 hactive
      · exact hactive

theorem inv_createAdmin {now : Int} {salt : String} {input : CreateAdminInput} {admin : Admin}
    (hi : Inv d) (h : createAdmin P now id salt input d = .ok (admin, d')) : Inv d' := by
  unfold createAdmin at h
  split at h
  · cases h
  split at h
  · cases h
  simp only [] at h
  split at h
  · cases h
  rename_i hfree
  cases h
  simp only [List.any_eq_true, Bool.or_eq_true, beq_iff_eq, not_exists, not_and, not_or] at hfree
  refine ⟨Table.nodup_append_row hi.ids fun a ha => (hfree a ha).1, ?_⟩
  obtain ⟨a, ha, hactive⟩ := hi.active
  exact ⟨a, List.mem_append_left _ ha, hactive⟩

theorem inv_deleteAdmin (hi : Inv d) (ho : ∃ a ∈ d.admins, IsActive a ∧ a.id ≠ id) :
    Inv (deleteAdmin id d) := by
  refine ⟨Table.nodup_delete hi.ids, ?_⟩
  obtain ⟨a, ha, hactive, hne⟩ := ho
  exact ⟨a, Table.mem_delete.2 ⟨ha, by simpa using hne⟩, hactive⟩

/-- The value of an operation whose result is thrown away. -/
theorem map_snd_ok {α : Type} {x : Except Failure (α × AccountDb)}
    (h : x.map (·.2) = .ok d') : ∃ r, x = .ok (r, d') := by
  cases x with
  | error e => cases h
  | ok r =>
      cases h
      exact ⟨r.1, rfl⟩

/-- No operation removes the last active administrator. -/
theorem inv_run {c : Call} (hi : Inv d) (h : c.run P d = .ok d') : Inv d' := by
  unfold Call.run at h
  cases hop : c.op with
  | createUser id salt password username role =>
      rw [hop] at h
      obtain ⟨r, h⟩ := map_snd_ok h
      unfold createUser at h
      simp only [] at h
      split at h
      · cases h
      split at h
      · cases h
      exact inv_createAdmin hi h
  | createAdmin id salt input =>
      rw [hop] at h
      obtain ⟨r, h⟩ := map_snd_ok h
      exact inv_createAdmin hi h
  | setUserRole actorId id role =>
      rw [hop] at h
      obtain ⟨r, h⟩ := map_snd_ok h
      obtain ⟨user, hreq, h⟩ := Fallible.bind_eq_ok.1 h
      obtain ⟨hu, -⟩ := requireUser_ok hreq
      split at h
      · cases h
      rename_i hrule
      cases h
      by_cases hrole : role = .admin
      · subst hrole
        refine hi.keep ?_ rfl
        exact fun _ => ⟨rfl, fun hactive => ⟨rfl, hactive.2⟩⟩
      · refine hi.update ?_ (hi.exists_other hu fun hadmin hno => hrule ⟨hadmin, hrole, hno⟩) rfl
        exact fun _ => rfl
  | setUserDisabled actorId id disabled =>
      rw [hop] at h
      obtain ⟨r, h⟩ := map_snd_ok h
      obtain ⟨user, hreq, h⟩ := Fallible.bind_eq_ok.1 h
      obtain ⟨hu, -⟩ := requireUser_ok hreq
      split at h
      · cases h
      rename_i hrule
      cases h
      cases disabled with
      | true =>
          refine hi.update ?_ (hi.exists_other hu fun hadmin hno => hrule ⟨rfl, hadmin, hno⟩) rfl
          exact fun _ => rfl
      | false =>
          refine hi.keep ?_ rfl
          exact fun _ => ⟨rfl, fun hactive => ⟨hactive.1, rfl⟩⟩
  | resetUserPassword actorId id password salt =>
      rw [hop] at h
      obtain ⟨r, h⟩ := map_snd_ok h
      obtain ⟨user, -, h⟩ := Fallible.bind_eq_ok.1 h
      cases h
      refine hi.keep ?_ rfl
      exact fun _ => ⟨rfl, fun hactive => hactive⟩
  | resetUserTotp actorId id =>
      rw [hop] at h
      obtain ⟨r, h⟩ := map_snd_ok h
      obtain ⟨user, -, h⟩ := Fallible.bind_eq_ok.1 h
      cases h
      refine hi.keep ?_ (dropRecoveryCodesIfUnused_admins _ _)
      exact fun _ => ⟨rfl, fun hactive => hactive⟩
  | deleteUser actorId id =>
      rw [hop] at h
      obtain ⟨r, h⟩ := map_snd_ok h
      obtain ⟨user, hreq, h⟩ := Fallible.bind_eq_ok.1 h
      obtain ⟨hu, -⟩ := requireUser_ok hreq
      split at h
      · cases h
      rename_i hrule
      cases h
      exact inv_deleteAdmin hi (hi.exists_other hu fun hadmin hno => hrule ⟨hadmin, hno⟩)

theorem inv_step (hi : Inv d) (c : Call) : Inv (step P d c).1 := by
  unfold step
  split
  · rename_i hrun
    exact inv_run hi hrun
  · exact hi

/-! ## Refusals -/

/-- Without another active administrator, none is left once the account is no
active administrator itself. -/
theorem not_hasAdmin_update {f : AdminRow → AdminRow} (hno : activeAdminsOtherThan id d = 0)
    (hf : ∀ a, ¬ IsActive (f a)) : ¬ HasAdmin (updateAdmin id f d) := by
  rintro ⟨a, ha, hactive⟩
  obtain ⟨a₀, ha₀, rfl⟩ := Table.mem_update.1 ha
  split at hactive
  · exact hf a₀ hactive
  · rename_i hne
    exact hne (by simpa using eq_of_no_other hno ha₀ hactive)

/-- A refusal of an operation on an account that exists, asked for by another. -/
theorem refused_only_for_last {c : Call} {e : Failure} (hc : c.op.removal = some (actorId, id))
    (hne : id ≠ actorId) (hu : adminById id d = some user) (h : c.run P d = .error e) :
    ¬ HasAdmin (c.carriedOut d) := by
  unfold Call.run at h
  unfold Call.carriedOut
  cases hop : c.op with
  | setUserRole actor target role =>
      rw [hop] at h hc
      cases hc
      simp only [setUserRole, requireUser_some hu hne, Fallible.ok_bind] at h
      split at h
      · rename_i hrule
        exact not_hasAdmin_update hrule.2.2 fun a ha => hrule.2.1 ha.1
      · cases h
  | setUserDisabled actor target disabled =>
      rw [hop] at h hc
      cases hc
      simp only [setUserDisabled, requireUser_some hu hne, Fallible.ok_bind] at h
      split at h
      · rename_i hrule
        obtain ⟨rfl, -, hno⟩ := hrule
        exact not_hasAdmin_update hno fun a ha => Option.some_ne_none _ ha.2
      · cases h
  | deleteUser actor target =>
      rw [hop] at h hc
      cases hc
      simp only [deleteUser, requireUser_some hu hne, Fallible.ok_bind] at h
      split at h
      · rename_i hrule
        rintro ⟨a, ha, hactive⟩
        obtain ⟨hmem, hid⟩ := Table.mem_delete.1 ha
        exact absurd (eq_of_no_other hrule.2 hmem hactive) (by simpa using hid)
      · cases h
  | createUser id salt password username role =>
      rw [hop] at hc
      cases hc
  | createAdmin id salt input =>
      rw [hop] at hc
      cases hc
  | resetUserPassword actor target password salt =>
      rw [hop] at hc
      cases hc
  | resetUserTotp actor target =>
      rw [hop] at hc
      cases hc

/-! ## Every run -/

theorem always_an_admin {d₀ : AccountDb} (hids : (d₀.admins.map (·.id)).Nodup)
    (hactive : HasAdmin d₀) {h : List (History.Event AccountDb Call (Option Failure))}
    {d : AccountDb} (hr : History.Run (step P) env d₀ h d) :
    HasAdmin d ∧ ∀ c e, (step P d c).2 = some e → (step P d c).1 = d ∧
      ∀ actorId id user, c.op.removal = some (actorId, id) → id ≠ actorId →
        adminById id d = some user → ¬ HasAdmin (c.carriedOut d) := by
  have hstart : Inv d₀ := ⟨hids, hactive⟩
  have hi : Inv d :=
    History.Run.invariant (I := fun _ d => Inv d) hstart (fun _ _ c _ _ hi => inv_step hi c) hr
  refine ⟨hi.active, ?_⟩
  intro c e hrefused
  unfold step at hrefused ⊢
  split at hrefused
  · cases hrefused
  · rename_i e' herror
    exact ⟨rfl, fun actorId id user hc hne hu => refused_only_for_last hc hne hu herror⟩

end

/-! ## Two administrators, one of them disabled -/

/-- An account as the samples need it. -/
def sampleAdmin (id : String) (disabledAt : Option Int) : AdminRow :=
  { newAdminRow .sample 0 id "salt" ⟨id, "correct horse", .admin, false⟩ with
    disabledAt := disabledAt }

def sampleAccounts : AccountDb :=
  { AccountDb.empty with admins := [sampleAdmin "1" none, sampleAdmin "2" (some 0)] }

/-- The disabled administrator is demoted; then the active one cannot be. -/
def sampleCalls : List Call :=
  [⟨1, .setUserRole "a_1" "a_2" .user⟩, ⟨2, .setUserRole "a_2" "a_1" .user⟩]

theorem always_an_admin_lastOne :
    HasAdmin (History.replay (step .sample) [] sampleAccounts sampleCalls).2 ∧
      ∀ c e, (step .sample (History.replay (step .sample) [] sampleAccounts sampleCalls).2 c).2 =
          some e →
        (step .sample (History.replay (step .sample) [] sampleAccounts sampleCalls).2 c).1 =
          (History.replay (step .sample) [] sampleAccounts sampleCalls).2 ∧
        ∀ actorId id user, c.op.removal = some (actorId, id) → id ≠ actorId →
          adminById id (History.replay (step .sample) [] sampleAccounts sampleCalls).2 =
            some user →
          ¬ HasAdmin (c.carriedOut
            (History.replay (step .sample) [] sampleAccounts sampleCalls).2) :=
  always_an_admin (by decide) ⟨sampleAdmin "1" none, List.mem_cons_self .., rfl, rfl⟩
    (History.run_replay .start
      (History.admits_of_forall (fun _ _ _ => trivial) _ _ sampleCalls))

end Admins

end Outletbox
