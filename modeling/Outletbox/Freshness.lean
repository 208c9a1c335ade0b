import Outletbox.Confirmations
import Outletbox.Forgery

/-!
# Fresh confirmations

What the routes without `requireConfirmed` answer and do: no page of theirs is a
stored object, and no link gets a token or a recipient.  With what they do to the
accounts, a handler does nothing sensitive unless the session it is given passes for
confirmed or it enrols the app, whatever was served since that session was read.
-/

namespace Outletbox

namespace Confirmations

open Credentials (Asks Distinct)
open Forgery (SameAccounts same_sessionMiddleware same_offerMiddleware)
open LastFactor (resume panel_eq_resume)
open Recovery (HasFactor)

variable (P : Platform) (cfg : Config)

/-! ## Pages -/

section

variable {P} {cfg} {req : Request} {s : Signed} {dir : Directory} {d : DeliveryDb}

theorem renderCase_page {caseId : String} {extra : CaseExtra} {status : Nat} :
    streams (renderCase P req s dir caseId extra status d).page = false := by
  unfold renderCase
  split
  · rfl
  · split <;> rfl

theorem withCase_page {id : String} {f : Case → Outcome DeliveryDb PanelPage}
    (h : ∀ c, streams (f c).response.page = false) :
    streams (withCase P id req s d f).response.page = false := by
  unfold withCase
  split
  · rfl
  · exact h _

theorem withLink_page {id : String} {f : Link → Outcome DeliveryDb PanelPage}
    (h : ∀ link, streams (f link).response.page = false) :
    streams (withLink P id req s d f).response.page = false := by
  unfold withLink
  dsimp only
  split
  · rfl
  split
  · rfl
  · split
    · rfl
    · exact h _

theorem postCase_page : streams (postCase P req s d).response.page = false := by
  unfold postCase
  split <;> rfl

theorem showCase_page {id : String} : streams (showCase P id req s dir d).page = false := by
  unfold showCase
  split
  · rfl
  · exact renderCase_page

theorem postCaseUpdate_page {id : String} :
    streams (postCaseUpdate P id req s dir d).response.page = false := by
  refine withCase_page fun c => ?_
  split
  · exact renderCase_page
  · rfl
  · exact renderCase_page

theorem postCaseStatus_page {id : String} :
    streams (postCaseStatus P id req s d).response.page = false := by
  refine withCase_page fun c => ?_
  dsimp only
  split <;> rfl

theorem postNote_page {id : String} : streams (postNote P id req s dir d).response.page = false := by
  refine withCase_page fun c => ?_
  dsimp only
  split
  · exact renderCase_page
  · exact renderCase_page

theorem postRecipientRemove_page {id rid : String} :
    streams (postRecipientRemove P id rid req s dir d).response.page = false := by
  refine withLink_page fun link => ?_
  dsimp only
  split
  · exact renderCase_page
  split
  · exact renderCase_page
  · exact renderCase_page
  · exact renderCase_page

theorem postRevoke_page {id : String} : streams (postRevoke P id req s d).response.page = false := by
  refine withLink_page fun link => ?_
  dsimp only
  split <;> rfl

theorem postItemDelete_page {id : String} :
    streams (postItemDelete P id req s d).response.page = false := by
  unfold postItemDelete
  dsimp only
  split
  · rfl
  split
  · rfl
  split
  · split <;> rfl
  · split <;> rfl

theorem postMember_page {id : String} :
    streams (postMember P id req s dir d).response.page = false := by
  refine withCase_page fun c => ?_
  dsimp only
  split
  · exact renderCase_page
  split
  · exact renderCase_page
  · exact renderCase_page

theorem postMemberRemove_page {id uid : String} :
    streams (postMemberRemove P id uid req s dir d).response.page = false := by
  refine withCase_page fun c => ?_
  dsimp only
  split
  · exact renderCase_page
  split
  · exact renderCase_page
  split
  · exact renderCase_page
  · exact renderCase_page

theorem directUpload_page {caseId name : String} {declared : Option Nat} {put : PutAnswer} :
    streams (directUpload P cfg caseId name declared put req s d).response.page = false := by
  unfold directUpload
  split
  · rfl
  dsimp only
  split
  · rfl
  split
  · rfl
  · rfl
  · split <;> rfl

theorem onUploadFinish_page {uploadId : String} {upload : TusUpload} :
    streams (onUploadFinish uploadId upload req s d).response.page = false := by
  unfold onUploadFinish
  split
  · rfl
  · split <;> rfl

theorem onUploadCreate_page {upload : TusUpload} {finished : Bool} :
    streams (onUploadCreate P cfg upload finished req s d).response.page = false := by
  unfold onUploadCreate
  dsimp only
  split
  · rfl
  split
  · rfl
  split
  · rfl
  split
  · rfl
  split
  · rfl
  · rfl
  · dsimp only
    split
    · exact onUploadFinish_page
    · rfl

theorem onIncomingRequest_page {uploadId : String} {response : Response PanelPage}
    (h : onIncomingRequest uploadId s d = some response) : streams response.page = false := by
  unfold onIncomingRequest at h
  split at h
  · cases h
    rfl
  split at h
  · cases h
    rfl
  split at h
  · cases h
    rfl
  · cases h

theorem tusHandler_page {uploadId : String} {request : TusRequest} :
    streams (tusHandler P cfg uploadId request req s d).response.page = false := by
  unfold tusHandler
  -- a request for an upload that exists is answered by the first hook, or goes on
  cases hin : onIncomingRequest uploadId s d with
  | some response =>
      have hpage := onIncomingRequest_page hin
      dsimp only
      split
      · rfl
      · rfl
      · exact hpage
      · rfl
      · exact onUploadCreate_page
      · exact hpage
      · exact hpage
      · exact hpage
      · exact hpage
  | none =>
      dsimp only
      split
      · rfl
      · rfl
      · rfl
      · rfl
      · exact onUploadCreate_page
      · rfl
      · exact onUploadFinish_page
      · rfl
      · unfold postTerminate
        split <;> rfl

/-- Only the download of an item streams, and it is behind `requireConfirmed`. -/
theorem work_page {route : WorkRoute} (hback : route.back req d = none) :
    streams (route.handle P cfg req s dir d).response.page = false := by
  cases route with
  | cases => rfl
  | createCase => simpa only [WorkRoute.handle] using postCase_page
  | case id => exact showCase_page
  | updateCase id => simpa only [WorkRoute.handle] using postCaseUpdate_page
  | caseStatus id => simpa only [WorkRoute.handle] using postCaseStatus_page
  | note id => simpa only [WorkRoute.handle] using postNote_page
  | createLink id => simp [WorkRoute.back] at hback
  | reissue id => simp [WorkRoute.back] at hback
  | addRecipients id => simp [WorkRoute.back] at hback
  | removeRecipient id rid => simpa only [WorkRoute.handle] using postRecipientRemove_page
  | revoke id => simpa only [WorkRoute.handle] using postRevoke_page
  | download id => simp [WorkRoute.back] at hback
  | deleteItem id => simpa only [WorkRoute.handle] using postItemDelete_page
  | addMember id => simpa only [WorkRoute.handle] using postMember_page
  | removeMember id uid => simpa only [WorkRoute.handle] using postMemberRemove_page
  | upload caseId name declared put => simpa only [WorkRoute.handle] using directUpload_page
  | tus uploadId request => simpa only [WorkRoute.handle] using tusHandler_page

end

section

variable {P} {cfg} {req : Request} {s : Signed} {d : AccountDb}

theorem ceremonyOptions_page {purpose : CeremonyPurpose} :
    streams (ceremonyOptions P cfg req s purpose d).response.page = false := by
  unfold ceremonyOptions
  dsimp only
  split <;> rfl

theorem pending_page (route : PendingRoute) :
    streams (route.handle P cfg req s d).response.page = false := by
  cases route with
  | logout => rfl
  | totpPage =>
      unfold PendingRoute.handle Outletbox.totpPage
      dsimp only
      split <;> rfl
  | passkeyLoginOptions =>
      unfold PendingRoute.handle Outletbox.passkeyLoginOptions
      dsimp only
      split
      · rfl
      · exact ceremonyOptions_page
  | passkeyLogin =>
      unfold PendingRoute.handle Outletbox.passkeyLogin
      dsimp only
      split
      · rfl
      · split <;> rfl
  | totp =>
      unfold PendingRoute.handle postTotp
      dsimp only
      split
      · rfl
      · split <;> rfl

theorem postPasskeyRemove_page {x : String} :
    streams (postPasskeyRemove P cfg x req s d).response.page = false := by
  unfold postPasskeyRemove
  dsimp only
  split
  · rfl
  split
  · rfl
  · split <;> rfl

theorem settings_page (route : SettingsRoute) (st : AccountState) :
    streams (route.handle P cfg req s st).response.page = false := by
  cases route with
  | confirmPage => rfl
  | confirmCode =>
      unfold SettingsRoute.handle Outletbox.confirmCode keepFlashes
      dsimp only
      split <;> rfl
  | confirmPassword =>
      unfold SettingsRoute.handle Outletbox.confirmPassword keepFlashes
      dsimp only
      split <;> rfl
  | confirmPasskeyOptions => exact ceremonyOptions_page
  | confirmPasskey =>
      unfold SettingsRoute.handle Outletbox.confirmPasskey keepFlashes
      dsimp only
      split <;> rfl
  | security => rfl
  | password =>
      unfold SettingsRoute.handle postPassword keepFlashes
      dsimp only
      split
      · rfl
      · split <;> rfl
  | totpBegin =>
      unfold SettingsRoute.handle Outletbox.totpBegin keepFlashes
      dsimp only
      split <;> rfl
  | totpConfirm =>
      unfold SettingsRoute.handle Outletbox.totpConfirm keepFlashes
      dsimp only
      split <;> rfl
  | totpRecovery =>
      unfold SettingsRoute.handle Outletbox.totpRecovery keepFlashes
      dsimp only
      split <;> rfl
  | totpDisable =>
      unfold SettingsRoute.handle Outletbox.totpDisable keepFlashes
      dsimp only
      split
      · rfl
      · split <;> rfl
  | passkeyOptions =>
      unfold SettingsRoute.handle Outletbox.passkeyOptions keepFlashes
      dsimp only
      split
      · rfl
      · split <;> rfl
  | passkeys =>
      unfold SettingsRoute.handle postPasskey
      dsimp only
      split <;> rfl
  | passkeyRemove x => exact postPasskeyRemove_page
  | recoveryRegenerate =>
      unfold SettingsRoute.handle Outletbox.recoveryRegenerate keepFlashes
      dsimp only
      split <;> rfl
  | revokeOthers => rfl
  | revokeSession x =>
      unfold SettingsRoute.handle postRevokeSession keepFlashes
      dsimp only
      split
      · rfl
      · split <;> rfl

theorem groupSaved_page {id action : String} {key : MessageKey} {g : GroupDb} :
    streams (groupSaved P req s d id action key g).response.page = false := by
  unfold groupSaved
  split <;> rfl

theorem editableGroup_page {id : String} {g : GroupDb} {f : Group → Outcome GroupDb PanelPage}
    (h : ∀ group, streams (f group).response.page = false) :
    streams (editableGroup P id req s d g f).response.page = false := by
  unfold editableGroup
  dsimp only
  split
  · rfl
  · split
    · rfl
    · exact h _

theorem groups_page (route : GroupRoute) (g : GroupDb) :
    streams (route.handle P req s d g).response.page = false := by
  cases route with
  | list => rfl
  | create =>
      unfold GroupRoute.handle postGroup
      dsimp only
      split
      · rfl
      · exact groupSaved_page
  | update id =>
      refine editableGroup_page fun group => ?_
      dsimp only
      split
      · rfl
      · exact groupSaved_page
  | delete id => exact editableGroup_page fun group => rfl

end

/-! ## Links -/

/-- No link is new or has a new token, and no recipient is new. -/
structure SameLinks (d d' : DeliveryDb) : Prop where
  links : ∀ l ∈ d'.links, ∃ x ∈ d.links, x.id = l.id ∧ x.tokenHash = l.tokenHash
  recipients : ∀ r ∈ d'.linkRecipients, ∃ x ∈ d.linkRecipients,
    x.id = r.id ∧ x.linkId = r.linkId ∧ x.email = r.email

section

variable {P} {cfg} {req : Request} {s : Signed} {dir : Directory} {d d' : DeliveryDb}

theorem sameLinks_of_eq (hlinks : d'.links = d.links)
    (hrecipients : d'.linkRecipients = d.linkRecipients) : SameLinks d d' :=
  ⟨fun l hl => ⟨l, hlinks ▸ hl, rfl, rfl⟩, fun r hr => ⟨r, hrecipients ▸ hr, rfl, rfl, rfl⟩⟩

theorem sameLinks_item {id : String} (h : ItemChange id d d') : SameLinks d d' := by
  obtain ⟨p, f, -, rfl⟩ := h
  exact sameLinks_of_eq rfl rfl

theorem sameLinks_addCaseMember (now : Int) (caseId adminId : String) (d : DeliveryDb) :
    SameLinks d (addCaseMember now caseId adminId d).2 := by
  unfold addCaseMember
  split
  · exact sameLinks_of_eq rfl rfl
  · exact sameLinks_of_eq rfl rfl

theorem SameLinks.trans {d₁ : DeliveryDb} (h : SameLinks d d₁) (h' : SameLinks d₁ d') :
    SameLinks d d' := by
  constructor
  · intro l hl
    obtain ⟨x₁, hx₁, hid₁, htoken₁⟩ := h'.links l hl
    obtain ⟨x, hx, hid, htoken⟩ := h.links x₁ hx₁
    exact ⟨x, hx, hid.trans hid₁, htoken.trans htoken₁⟩
  · intro r hr
    obtain ⟨x₁, hx₁, hid₁, hlink₁, hemail₁⟩ := h'.recipients r hr
    obtain ⟨x, hx, hid, hlink, hemail⟩ := h.recipients x₁ hx₁
    exact ⟨x, hx, hid.trans hid₁, hlink.trans hlink₁, hemail.trans hemail₁⟩

/-- A case route without the guard gives no link a token or a recipient. -/
theorem work_links {route : WorkRoute} (hback : route.back req d = none) :
    SameLinks d (route.handle P cfg req s dir d).state := by
  have heffect := workEffect P cfg route req s dir d
  generalize (route.handle P cfg req s dir d).state = d' at heffect ⊢
  cases heffect with
  | idle => exact sameLinks_of_eq rfl rfl
  | newCase hok =>
      obtain ⟨-, -, rfl⟩ := createCase_ok hok
      split
      · exact sameLinks_of_eq rfl rfl
      · exact @SameLinks.trans d _ { d with cases := d.cases ++ [_] } (sameLinks_of_eq rfl rfl)
          (sameLinks_addCaseMember _ _ _ _)
  | describe hc hok =>
      obtain ⟨-, rfl⟩ | ⟨_, _, _, -, -, rfl⟩ := updateCase_ok hok
      · exact sameLinks_of_eq rfl rfl
      · exact sameLinks_of_eq rfl rfl
  | status hc hok =>
      obtain ⟨h, -⟩ | ⟨_, _, _, -, -, rfl⟩ := updateCase_ok hok
      · cases h
      · split
        · exact sameLinks_of_eq rfl rfl
        · exact sameLinks_of_eq rfl rfl
  | note hc hok =>
      obtain ⟨-, -, rfl⟩ := createNote_ok hok
      exact sameLinks_of_eq rfl rfl
  | newLink => simp [WorkRoute.back] at hback
  | reissue => simp [WorkRoute.back] at hback
  | people => simp [WorkRoute.back] at hback
  | removePerson =>
      exact ⟨fun l hl => ⟨l, hl, rfl, rfl⟩,
        fun r hr => ⟨r, (Table.mem_delete.1 hr).1, rfl, rfl, rfl⟩⟩
  | revoke =>
      refine ⟨fun l hl => ?_, fun r hr => ⟨r, hr, rfl, rfl, rfl⟩⟩
      obtain ⟨x, hx, rfl⟩ := Table.mem_update.1 hl
      refine ⟨x, hx, ?_⟩
      split <;> exact ⟨rfl, rfl⟩
  | item hi hacc hchange => exact sameLinks_item hchange
  | assign => exact sameLinks_addCaseMember _ _ _ _
  | unassign => exact sameLinks_of_eq rfl rfl
  | @upload _ c input r d₁ _ hc hin hid hok hend =>
      have hstarted : SameLinks d d₁ := by
        obtain ⟨-, -, -, rfl⟩ := startUpload_ok hok
        exact sameLinks_of_eq rfl rfl
      rcases hend with rfl | hchange
      · exact hstarted
      · exact hstarted.trans (sameLinks_item hchange)

end

/-! ## Guards -/

/-- No guard refuses the request. -/
def Admitted (r : PanelRequest) (s : Signed) (sv : Server) : Prop :=
  requireAdmin P cfg r (some s) = .ok s ∧ refusal P cfg r s sv.deliveries = none

/-- An enrolment of the app that no guard refuses, with a code that fits. -/
def Enrols (r : PanelRequest) (s : Signed) (sv : Server) : Prop :=
  Admitted P cfg r s sv ∧ r.route = .settings .totpConfirm ∧ Enables P r.toRequest s sv.accounts

/-- The session passes for confirmed, or the request enrols the app. -/
def Passed (r : PanelRequest) (s : Signed) (sv : Server) : Prop :=
  s.session.isConfirmed r.now = true ∨ Enrols P cfg r s sv

section

variable {P} {cfg} {req : Request} {s : Signed} {sv : Server} {r : PanelRequest} {gated : Prop}

theorem requireAdmin_page {signed : Option Signed} {response : Response PanelPage}
    (h : requireAdmin P cfg r signed = .error response) : streams response.page = false := by
  have hfirst : ∀ method isApi signed, streams (signInFirst method isApi signed).page = false := by
    intro method isApi signed
    unfold signInFirst
    split
    · rfl
    · split <;> rfl
  unfold requireAdmin at h
  split at h
  · cases h
    exact hfirst _ _ _
  · split at h
    · rename_i hrefused
      cases h
      rcases Option.or_eq_some_iff.1 hrefused with hcsrf | ⟨-, hcomplete⟩
      · unfold csrfRefusal at hcsrf
        split at hcsrf
        · cases hcsrf
        split at hcsrf
        · cases hcsrf
          rfl
        split at hcsrf
        · cases hcsrf
        · cases hcsrf
          rfl
      · unfold completeRefusal at hcomplete
        split at hcomplete
        · cases hcomplete
        · cases hcomplete
          exact hfirst _ _ _
    · cases h

theorem refusal_page {d : DeliveryDb} {response : Response PanelPage}
    (h : refusal P cfg r s d = some response) : streams response.page = false := by
  unfold refusal at h
  rcases Option.or_eq_some_iff.1 h with h | ⟨-, h⟩
  · unfold limitRefusal at h
    split at h
    · cases h
      rfl
    · cases h
  rcases Option.or_eq_some_iff.1 h with h | ⟨-, h⟩
  · unfold readyRefusal at h
    split at h
    · cases h
    · obtain ⟨missing, -, rfl⟩ := Option.map_eq_some_iff.1 h
      split <;> rfl
  rcases Option.or_eq_some_iff.1 h with h | ⟨-, h⟩
  · unfold adminsRefusal at h
    split at h
    · cases h
      rfl
    · cases h
  · unfold confirmRefusal at h
    split at h
    · cases h
    split at h
    · cases h
    split at h
    · cases h
      rfl
    · cases h
      rfl

/-- The guard of the sensitive routes. -/
theorem Admitted.isConfirmed (h : Admitted P cfg r s sv)
    (hback : r.route.back r.toRequest sv.deliveries ≠ none) : s.session.isConfirmed r.now = true := by
  have hnone := (Option.or_eq_none_iff.1 (Option.or_eq_none_iff.1
    (Option.or_eq_none_iff.1 h.2).2).2).2
  unfold confirmRefusal at hnone
  split at hnone
  · exact absurd (by assumption) hback
  · split at hnone
    · assumption
    · split at hnone <;> cases hnone

/-- A request that no guard refuses is handled on the tables it finds. -/
theorem resume_admitted (h : Admitted P cfg r s sv) :
    (resume P cfg r (some s) sv).state =
        (r.route.handle P cfg r.toRequest s
          { sv with accounts := (offerMiddleware P cfg r s sv.accounts).2 }).state ∧
      (resume P cfg r (some s) sv).response.page =
        (r.route.handle P cfg r.toRequest s
          { sv with accounts := (offerMiddleware P cfg r s sv.accounts).2 }).response.page := by
  unfold resume
  rw [h.1]
  dsimp only
  unfold servePanel
  rw [h.2]
  exact ⟨rfl, rfl⟩

/-- A request is refused, or no guard refuses it. -/
theorem resume_cases (r : PanelRequest) (signed : Option Signed) (sv : Server) :
    (∃ d, (resume P cfg r signed sv).state = { sv with accounts := d } ∧
        (∀ gated own marks, Calm gated own marks sv.accounts d) ∧
        streams (resume P cfg r signed sv).response.page = false) ∨
      ∃ s, signed = some s ∧ Admitted P cfg r s sv := by
  cases hs : requireAdmin P cfg r signed with
  | error response =>
      refine .inl ⟨sv.accounts, ?_, fun _ _ _ => .refl _, ?_⟩
      · unfold resume
        rw [hs]
        rfl
      · unfold resume
        rw [hs]
        exact requireAdmin_page hs
  | ok s =>
      obtain rfl := LastFactor.requireAdmin_ok hs
      cases hrefused : refusal P cfg r s sv.deliveries with
      | none => exact .inr ⟨s, rfl, hs, hrefused⟩
      | some response =>
          refine .inl ⟨(offerMiddleware P cfg r s sv.accounts).2, ?_,
            fun _ _ _ => calm_offerMiddleware _ _ _, ?_⟩
          · unfold resume
            rw [hs]
            dsimp only
            unfold servePanel
            rw [hrefused]
            rfl
          · unfold resume
            rw [hs]
            dsimp only
            unfold servePanel
            rw [hrefused]
            exact refusal_page hrefused

/-- What any handler does behind its guards. -/
theorem handle_step (route : PanelRoute) (hheld : Held P s sv.accounts)
    (hgate : route.back req sv.deliveries ≠ none → gated)
    (henrols : route = .settings .totpConfirm → Enables P req s sv.accounts → gated) :
    Calm gated s.admin.id (marksOf P cfg route req s sv.accounts) sv.accounts
        (route.handle P cfg req s sv).state.accounts ∧
      (gated ∨ SameLinks sv.deliveries (route.handle P cfg req s sv).state.deliveries ∧
        streams (route.handle P cfg req s sv).response.page = false) := by
  cases route with
  | pending route =>
      exact ⟨calm_pending route hheld, .inr ⟨sameLinks_of_eq rfl rfl, pending_page route⟩⟩
  | settings route =>
      have hcalm := @calm_settings P cfg gated req s route sv.accountState hheld hgate
        fun h => henrols (congrArg _ h)
      refine ⟨hcalm, .inr ⟨?_, ?_⟩⟩
      · exact sameLinks_of_eq rfl rfl
      · exact settings_page route sv.accountState
  | work route =>
      refine ⟨.refl _, ?_⟩
      by_cases hback : route.back req sv.deliveries = none
      · exact .inr ⟨work_links hback, work_page hback⟩
      · exact .inl (hgate hback)
  | groups route => exact ⟨.refl _, .inr ⟨sameLinks_of_eq rfl rfl, groups_page route sv.groups⟩⟩
  | users route =>
      by_cases hlist : route = .list
      · subst hlist
        exact ⟨.refl _, .inr ⟨sameLinks_of_eq rfl rfl, rfl⟩⟩
      · have hpassed : gated := hgate (by simp [PanelRoute.back, UserRoute.back, hlist])
        exact ⟨calm_confirmed hpassed (row_users route req s sv.tables), .inl hpassed⟩
  | audit => exact ⟨.refl _, .inr ⟨sameLinks_of_eq rfl rfl, rfl⟩⟩

end

/-! ## Reading a session -/

section

variable {P} {cfg} {times : Int → Prop} {d d' : AccountDb} {req : Request} {s : Signed}
  {id : String} {marks marks' : Marks}

theorem Row.mono {s' : SessionRow} (h : Row marks d s')
    (hconfirms : marks.confirms s'.adminId → marks'.confirms s'.adminId)
    (hopens : marks.opens s'.idHash → marks'.opens s'.idHash) : Row marks' d s' :=
  ⟨h.confirmation.imp_right (Or.imp_left hconfirms), h.owner.imp_left hopens⟩

/-- What stands before a handler leaves what a proof of a factor is checked against. -/
theorem Proves.of_same (hsame : SameAccounts times d d') (h : Proves P cfg req s id d') :
    Proves P cfg req s id d := by
  cases h with
  | app ha hstep => exact .app ((adminById_of_admins hsame.admins id) ▸ ha) hstep
  | code hcode =>
      unfold hasUnusedCode at hcode
      rw [hsame.codes] at hcode
      exact .code hcode
  | passkey hpurpose hawaits hassert hid =>
      obtain ⟨⟨x, hx, hhash, hchallenge, hfor, t, hexpires, hlt⟩⟩ := hawaits
      obtain ⟨x₀, hx₀, he⟩ := hsame.sessions x hx
      have hhash₀ := congrArg SessionRow.idHash he
      have hchallenge₀ := congrArg SessionRow.webauthnChallenge he
      have hfor₀ := congrArg SessionRow.webauthnPurpose he
      have hexpires₀ := congrArg SessionRow.webauthnExpiresAt he
      exact .passkey hpurpose
        ⟨x₀, hx₀, hhash₀.trans hhash, hchallenge₀.trans hchallenge, hfor₀.trans hfor, t,
          hexpires₀.trans hexpires, hlt⟩
        ⟨hsame.passkeys ▸ hassert.mem, hassert.credential, hassert.owner, hassert.verified⟩ hid

theorem authenticate_congr {username password : String} (hadmins : d'.admins = d.admins)
    (hpasskeys : d'.passkeys = d.passkeys) :
    authenticate P username password d' = authenticate P username password d := by
  unfold authenticate
  simp only [adminByUsername, hadmins, Recovery.toAdmin_congr hpasskeys]

theorem ByPassword.of_same (hsame : SameAccounts times d d') (h : ByPassword P req s d' id) :
    ByPassword P req s d id := by
  obtain ⟨hid, hnone, hright⟩ := h
  exact ⟨hid, hnone, authenticate_congr hsame.admins hsame.passkeys ▸ hright⟩

theorem Held.of_same (hsame : SameAccounts times d d') (h : Held P s d) : Held P s d' := by
  intro row hrow hid
  obtain ⟨row₀, hrow₀, he⟩ := hsame.sessions row hrow
  obtain ⟨hhash, hadmin, -⟩ := Forgery.core_eq he
  exact hadmin.symm.trans (h row₀ hrow₀ (hhash.trans hid))

/-- The session a request reads is its account's. -/
theorem held_read (hkeys : (d.sessions.map (·.idHash)).Nodup)
    (h : (sessionMiddleware P req d).1 = some s) : Held P s d := by
  intro row hrow hid
  obtain ⟨row', hrow', a, hhash, hadmin, -, hsession⟩ := Credentials.signed_row h
  have hsame : row = row' := Table.eq_of_key hkeys hrow hrow' (hid.trans hhash.symm)
  rw [hsame, Signed.admin, hsession]
  exact (adminById_id hadmin).symm

/-- A session that was just read knows whether its account has a second factor. -/
theorem noFactor_read (h : (sessionMiddleware P req d).1 = some s)
    (hnone : s.admin.hasSecondFactor = false) : ¬ HasFactor s.admin.id d := by
  rintro ⟨a, ha, hfactor⟩
  rw [← LastFactor.sessionMiddleware_admin h ha, hnone] at hfactor
  cases hfactor

end

/-! ## Requests -/

/-- What a request may do to sessions, with the one it was made in. -/
def marksFor (r : PanelRequest) (signed : Option Signed) (sv : Server) : Marks where
  confirms id := HasFactor id sv.accounts → ∃ s, signed = some s ∧ Admitted P cfg r s sv ∧
    (Proves P cfg r.toRequest s id sv.accounts ∨
      r.route = .settings .confirmPassword ∧ ByPassword P r.toRequest s sv.accounts id)
  opens hash := opensSession r.route = true ∧ P.sha256Hex r.random.sessionId = hash

section

variable {P} {cfg} {s : Signed} {sv : Server} {r : PanelRequest} {signed : Option Signed}

/-- What a request does once its session is read: it confirms sessions of accounts it proves a
factor of, or that the session says have none, and does nothing sensitive unless the session
passes for confirmed or the request enrols the app. -/
theorem resume_step (r : PanelRequest) (hheld : ∀ s, signed = some s → Held P s sv.accounts) :
    (∀ s' ∈ (resume P cfg r signed sv).state.accounts.sessions,
      Row (marksFor P cfg r signed sv) sv.accounts s') ∧
      ∀ s, signed = some s → Passed P cfg r s sv ∨
        Modest s.admin.id sv.accounts (resume P cfg r signed sv).state.accounts ∧
          SameLinks sv.deliveries (resume P cfg r signed sv).state.deliveries ∧
          streams (resume P cfg r signed sv).response.page = false := by
  rcases @resume_cases P cfg r signed sv with ⟨d, hstate, hcalm, hpage⟩ | ⟨s, rfl, hadmitted⟩
  · rw [hstate, hpage]
    refine ⟨(hcalm True "" _).rows, fun s _ => .inr ⟨?_, sameLinks_of_eq rfl rfl, rfl⟩⟩
    exact (hcalm False s.admin.id ⟨fun _ => True, fun _ => True⟩).modest.resolve_left id
  · obtain ⟨hstate, hpage⟩ := resume_admitted hadmitted
    rw [hstate, hpage]
    have hoffer : SameAccounts (fun _ => True) sv.accounts
        (offerMiddleware P cfg r s sv.accounts).2 :=
      same_offerMiddleware r s sv.accounts
    obtain ⟨hcalm, hdeliveries⟩ := @handle_step P cfg r.toRequest s
      { sv with accounts := (offerMiddleware P cfg r s sv.accounts).2 } (Passed P cfg r s sv)
      r.route ((hheld s rfl).of_same hoffer) (fun hback => .inl (hadmitted.isConfirmed hback))
      (fun hroute ⟨a, secret, step, ha, h⟩ =>
        .inr ⟨hadmitted, hroute, a, secret, step, (adminById_of_admins hoffer.admins _) ▸ ha, h⟩)
    have hall := (calm_offerMiddleware r s sv.accounts).trans hcalm
    refine ⟨fun s' hs' => (hall.rows s' hs').mono (fun hearns hfactor => ⟨s, rfl, hadmitted, ?_⟩) id,
      ?_⟩
    · refine (hearns ((Recovery.hasFactor_congr hoffer.admins hoffer.passkeys).2 hfactor)).imp
        (Proves.of_same hoffer) (And.imp_right (ByPassword.of_same hoffer))
    · rintro s₀ ⟨⟩
      rcases hall.modest with hpassed | hmodest
      · exact .inl hpassed
      · exact hdeliveries.imp_right fun h => ⟨hmodest, h⟩

theorem Passed.of_same {times : Int → Prop} {d : AccountDb}
    (hsame : SameAccounts times sv.accounts d) (h : Passed P cfg r s { sv with accounts := d }) :
    Passed P cfg r s sv := by
  rcases h with hconfirmed | ⟨hadmitted, hroute, a, secret, step, ha, h⟩
  · exact .inl hconfirmed
  · exact .inr ⟨hadmitted, hroute, a, secret, step, (adminById_of_admins hsame.admins _) ▸ ha, h⟩

/-- A request that is served at once reads its session first, and what it read still holds. -/
theorem panel_step (hd : Distinct sv.accounts) (r : PanelRequest) :
    (∀ s' ∈ (panel P cfg r sv).state.accounts.sessions,
      Row ⟨fun id => HasFactor id sv.accounts → ∃ s, Asks P r s sv.accounts ∧
          Proves P cfg r.toRequest s id sv.accounts,
        fun hash => opensSession r.route = true ∧ P.sha256Hex r.random.sessionId = hash⟩
        sv.accounts s') ∧
      ∀ s, Asks P r s sv.accounts → Passed P cfg r s sv ∨
        Modest s.admin.id sv.accounts (panel P cfg r sv).state.accounts ∧
          SameLinks sv.deliveries (panel P cfg r sv).state.deliveries ∧
          streams (panel P cfg r sv).response.page = false := by
  have hsame := same_sessionMiddleware (P := P) (d := sv.accounts) hd.sessions r.toRequest
  obtain ⟨hrows, hmodest⟩ := @resume_step P cfg
    { sv with accounts := (sessionMiddleware P r.toRequest sv.accounts).2 }
    (sessionMiddleware P r.toRequest sv.accounts).1 r
    (fun s hs => (held_read hd.sessions hs).of_same hsame)
  rw [panel_eq_resume]
  refine ⟨fun s' hs' => ?_, fun s hasks => ?_⟩
  · refine .trans (row_sessionMiddleware r.toRequest _)
      ((hrows s' hs').mono (fun hearns hfactor => ?_) id)
    have hfound := (Recovery.hasFactor_congr hsame.admins hsame.passkeys).2 hfactor
    obtain ⟨s, hasks, -, hproves | ⟨-, hpassword⟩⟩ := hearns hfound
    · exact ⟨s, hasks, hproves.of_same hsame⟩
    · obtain ⟨hid, hnone, -⟩ := hpassword
      exact absurd (hid ▸ hfactor) (noFactor_read hasks hnone)
  · rcases hmodest s hasks with hpassed | ⟨hstep, hlinks, hpage⟩
    · exact .inl (hpassed.of_same hsame)
    · have hread := modest_sessionMiddleware (P := P) s.admin.id r.toRequest sv.accounts
      exact .inr ⟨hread.trans hstep, hlinks, hpage⟩

/-- An open route other than the login is modest, and so is its answer. -/
theorem visit_step (r : OpenRequest) (hroute : r.route ≠ .login) (own : String) (marks : Marks) :
    Calm False own marks sv.accounts (visit P cfg r sv).state.accounts ∧
      (visit P cfg r sv).state.deliveries = sv.deliveries ∧
      streams (visit P cfg r sv).response.page = false := by
  have hread : Calm False own marks sv.accounts (sessionMiddleware P r.toRequest sv.accounts).2 :=
    calm_sessionMiddleware r.toRequest sv.accounts
  unfold visit
  dsimp only
  split
  · exact ⟨hread, rfl, rfl⟩
  refine ⟨hread.trans ?_, rfl, ?_⟩
  · cases hr : r.route with
    | dbscRegister => exact calm_dbscRegister _ _ _
    | dbscRefresh => exact calm_dbscRefresh _ _
    | loginPage => exact .refl _
    | login => exact absurd hr hroute
  · cases hr : r.route with
    | dbscRegister =>
        unfold OpenRoute.handle Outletbox.dbscRegister
        dsimp only [Outcome.into]
        split
        · split
          · rfl
          · split <;> rfl
        · rfl
    | dbscRefresh =>
        unfold OpenRoute.handle Outletbox.dbscRefresh
        dsimp only [Outcome.into]
        split
        · rfl
        · split <;> rfl
    | loginPage =>
        show streams (Outletbox.loginPage P r.toRequest _).page = false
        unfold Outletbox.loginPage
        split <;> rfl
    | login => exact absurd hr hroute

/-- A login opens a session, and confirms it for an account without a second factor. -/
theorem visit_rows (hd : Distinct sv.accounts) (r : OpenRequest) :
    ∀ s' ∈ (visit P cfg r sv).state.accounts.sessions,
      Row ⟨fun id => ¬ HasFactor id sv.accounts,
        fun hash => r.route = .login ∧ P.sha256Hex r.random.sessionId = hash⟩ sv.accounts s' := by
  by_cases hroute : r.route = .login
  · have hquiet := Credentials.quiet_sessionMiddleware (P := P) r.toRequest sv.accounts
    have hread : Calm True "" ⟨fun id => ¬ HasFactor id sv.accounts,
        fun hash => r.route = .login ∧ P.sha256Hex r.random.sessionId = hash⟩ sv.accounts
        (sessionMiddleware P r.toRequest sv.accounts).2 :=
      calm_sessionMiddleware r.toRequest sv.accounts
    have hlogin := @calm_login P cfg "" (sessionMiddleware P r.toRequest sv.accounts).2
      (hquiet.distinct hd) r.toRequest
    unfold visit
    dsimp only
    split
    · exact hread.rows
    · rw [hroute]
      rw [hroute] at hread
      refine (hread.trans ⟨fun s' hs' => ?_, .inl trivial⟩).rows
      exact (hlogin.rows s' hs').mono (fun hnone h => hnone (hquiet.hasFactor.2 h))
        fun hhash => ⟨rfl, hhash⟩
  · exact (visit_step r hroute "" _).1.rows

end

end Confirmations

end Outletbox
