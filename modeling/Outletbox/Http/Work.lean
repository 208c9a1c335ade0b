import Outletbox.Http.Cases

/-!
# What a case route does to the deliveries

`WorkEffect` says once what any of the routes of `Http/Cases` may do: which
service it ran, on which case, link or item, and that the session may work
there.  What holds of all of these routes is read off it.
-/

namespace Outletbox

/-- An `UPDATE` of one item that keeps its identifier and its case. -/
def ItemChange (itemId : String) (d d' : DeliveryDb) : Prop :=
  ∃ (p : ItemRow → Bool) (f : ItemRow → ItemRow),
    (∀ x, (f x).id = x.id ∧ (f x).caseId = x.caseId) ∧ d' = (updateItem itemId p f d).2

/-- The effects of a request to a case route on the tables it started with. -/
inductive WorkEffect (P : Platform) (cfg : Config) (req : Request) (s : Signed) (dir : Directory)
    (d : DeliveryDb) : WorkRoute → DeliveryDb → Prop
  /-- Nothing is written. -/
  | idle (route : WorkRoute) : WorkEffect P cfg req s dir d route d
  | newCase {c : Case} {d' : DeliveryDb} :
      createCase req.now req.random.id (req.field "name") (req.field "description") d =
        .ok (c, d') →
      WorkEffect P cfg req s dir d .createCase
        (if s.admin.role = .admin then d' else (addCaseMember req.now c.id s.admin.id d').2)
  /-- The name and the description of a case. -/
  | describe {id : String} {c : Case} {r : Option Case} {d' : DeliveryDb} :
      caseFor s c.id d = some c →
      updateCase req.now c.id
        { name := some (req.field "name"), description := some (req.field "description") } d =
        .ok (r, d') →
      WorkEffect P cfg req s dir d (.updateCase id) d'
  /-- A case is closed or opened again. -/
  | status {c c' : Case} {d' : DeliveryDb} :
      caseFor s c.id d = some c →
      updateCase req.now c.id { status := some (formStatus req) } d = .ok (some c', d') →
      WorkEffect P cfg req s dir d (.caseStatus c.id)
        (if formStatus req = .isClosed then destroyAccessSessionsForCase c.id d' else d')
  | note {id : String} {c : Case} {r : ItemRow} {d' : DeliveryDb} :
      caseFor s c.id d = some c →
      createNote req.now req.random.id
        ⟨c.id, req.field "title", req.field "body", some s.admin.id⟩ d = .ok (r, d') →
      WorkEffect P cfg req s dir d (.note id) d'
  | newLink {id : String} {c : Case} {input : CreateLinkInput}
      {r : Link × List LinkRecipient × String} {d' : DeliveryDb} :
      caseFor s c.id d = some c → input.caseId = c.id →
      createLink P cfg req.now req.linkDraw input d = .ok (r, d') →
      WorkEffect P cfg req s dir d (.createLink id) d'
  /-- A link gets a new token, and what was open on it ends. -/
  | reissue {id : String} {link : Link} {url : String} {d' : DeliveryDb} :
      getLink link.id d = some link → (caseFor s link.caseId d).isSome = true →
      rotateLinkToken P cfg req.random.token link.id d = .ok (some url, d') →
      WorkEffect P cfg req s dir d (.reissue id) (destroyAccessSessionsForLink req.now link.id d')
  /-- People are added to a link. -/
  | people {id : String} {link : Link} {input : List RecipientInput} {added : List LinkRecipient}
      {d' : DeliveryDb} :
      getLink link.id d = some link → (caseFor s link.caseId d).isSome = true →
      addRecipients P req.now req.random.ids link.id input d = .ok (added, d') →
      WorkEffect P cfg req s dir d (.addRecipients id) d'
  /-- A person is taken off a link. -/
  | removePerson {id rid : String} {link : Link} {row : LinkRecipient} :
      getLink link.id d = some link → (caseFor s link.caseId d).isSome = true →
      row ∈ d.linkRecipients → row.linkId = link.id →
      WorkEffect P cfg req s dir d (.removeRecipient id rid) (deleteRecipient row.id d)
  /-- A link is revoked, and what was open on it ends. -/
  | revoke {id : String} {link : Link} :
      getLink link.id d = some link → (caseFor s link.caseId d).isSome = true →
      WorkEffect P cfg req s dir d (.revoke id)
        (destroyAccessSessionsForLink req.now link.id (revokeLink req.now link.id d).2)
  /-- An item is deleted, given up or complete. -/
  | item {route : WorkRoute} {i : ItemRow} {d' : DeliveryDb} :
      getItem i.id d = some i → canAccessCase s.viewer i.caseId d = true →
      ItemChange i.id d d' →
      WorkEffect P cfg req s dir d route d'
  | assign {id userId : String} {c : Case} :
      caseFor s c.id d = some c →
      WorkEffect P cfg req s dir d (.addMember id) (addCaseMember req.now c.id userId d).2
  | unassign {id uid userId : String} {c : Case} :
      caseFor s c.id d = some c →
      WorkEffect P cfg req s dir d (.removeMember id uid) (removeCaseMember c.id userId d).2
  /-- An upload starts, and may end in the same request. -/
  | upload {route : WorkRoute} {c : Case} {input : StartUploadInput} {r : ItemRow × Nat}
      {d₁ d' : DeliveryDb} :
      caseFor s c.id d = some c → input.caseId = c.id → input.id = newId "f" req.random.id →
      startUpload P cfg req.now input d = .ok (r, d₁) → d' = d₁ ∨ ItemChange input.id d₁ d' →
      WorkEffect P cfg req s dir d route d'

section

variable {P : Platform} {cfg : Config} {req : Request} {s : Signed} {dir : Directory}
  {d d' : DeliveryDb}

/-! ## Guards of the handlers -/

theorem caseFor_some {id : String} {c : Case} (h : caseFor s id d = some c) :
    getCase id d = some c ∧ c.id = id ∧ canAccessCase s.viewer id d = true := by
  unfold caseFor at h
  cases hc : getCase id d with
  | none => rw [hc] at h; cases h
  | some x =>
      rw [hc] at h
      simp only [] at h
      split at h
      · rename_i hacc
        cases h
        have hid : c.id = id := by simpa using List.find?_some hc
        exact ⟨rfl, hid, by rwa [hid] at hacc⟩
      · cases h

theorem getLink_id {id : String} {link : Link} (h : getLink id d = some link) : link.id = id := by
  simpa using List.find?_some h

theorem getItem_id {id : String} {i : ItemRow} (h : getItem id d = some i) : i.id = id := by
  simpa using List.find?_some h

theorem validId_some {id x : String} (h : validId id = some x) : x = id := by
  unfold validId at h
  split at h
  · cases h; rfl
  · cases h

theorem canAccess_of_caseFor {id : String} (h : (caseFor s id d).isSome = true) :
    canAccessCase s.viewer id d = true := by
  obtain ⟨c, hc⟩ := Option.isSome_iff_exists.1 h
  exact (caseFor_some hc).2.2

/-- A handler of a case either finds none and leaves the tables, or runs on it. -/
theorem withCase_effect {route : WorkRoute} {id : String}
    {f : Case → Outcome DeliveryDb PanelPage}
    (h : ∀ c, c.id = id → caseFor s c.id d = some c →
      WorkEffect P cfg req s dir d route (f c).state) :
    WorkEffect P cfg req s dir d route (withCase P id req s d f).state := by
  unfold withCase
  cases hc : (validId id).bind fun id => caseFor s id d with
  | none => exact .idle route
  | some c =>
      obtain ⟨x, hx, hc⟩ := Option.bind_eq_some_iff.1 hc
      obtain ⟨-, hid, -⟩ := caseFor_some hc
      exact h c (hid.trans (validId_some hx)) (hid.symm ▸ hc)

/-- A handler of a link either finds none and leaves the tables, or runs on it. -/
theorem withLink_effect {route : WorkRoute} {id : String}
    {f : Link → Outcome DeliveryDb PanelPage}
    (h : ∀ link, getLink link.id d = some link → (caseFor s link.caseId d).isSome = true →
      WorkEffect P cfg req s dir d route (f link).state) :
    WorkEffect P cfg req s dir d route (withLink P id req s d f).state := by
  unfold withLink
  cases hl : (validId id).bind fun id => getLink id d with
  | none => exact .idle route
  | some link =>
      obtain ⟨x, -, hl⟩ := Option.bind_eq_some_iff.1 hl
      simp only []
      split
      · exact .idle route
      split
      · exact .idle route
      · rename_i hc
        exact h link (by rwa [getLink_id hl]) (by simpa [Option.isSome_iff_ne_none] using hc)

/-! ## The handlers -/

theorem postCase_effect : WorkEffect P cfg req s dir d .createCase (postCase P req s d).state := by
  unfold postCase
  split
  · exact .idle _
  · rename_i c d' hc
    exact .newCase hc

theorem postCaseUpdate_effect {id : String} :
    WorkEffect P cfg req s dir d (.updateCase id) (postCaseUpdate P id req s dir d).state := by
  refine withCase_effect fun c _ hc => ?_
  split
  · exact .idle _
  · rename_i d' hu
    exact .describe hc hu
  · rename_i x d' hu
    exact .describe hc hu

theorem postCaseStatus_effect {id : String} :
    WorkEffect P cfg req s dir d (.caseStatus id) (postCaseStatus P id req s d).state := by
  refine withCase_effect fun c hid hc => ?_
  subst hid
  simp only []
  split
  · exact .idle _
  · rename_i d' hu
    rcases updateCase_ok hu with ⟨-, rfl⟩ | ⟨-, -, -, -, h, -⟩
    · exact .idle _
    · cases h
  · rename_i x d' hu
    exact .status hc hu

theorem postNote_effect {id : String} :
    WorkEffect P cfg req s dir d (.note id) (postNote P id req s dir d).state := by
  refine withCase_effect fun c _ hc => ?_
  simp only []
  split
  · exact .idle _
  · rename_i note d' hn
    exact .note hc hn

/-- A link a form asked for was made by `createLink`, for the case of the path. -/
theorem linkFromForm_ok {caseId : String} {r : Link × List LinkRecipient × String}
    (h : linkFromForm P cfg req dir caseId d = .ok (r, d')) :
    ∃ input : CreateLinkInput, input.caseId = caseId ∧
      createLink P cfg req.now req.linkDraw input d = .ok (r, d') := by
  unfold linkFromForm at h
  simp only [] at h
  split at h
  · cases h
  split at h
  · cases h
  split at h
  · cases h
  rename_i hcreated
  cases h
  exact ⟨_, rfl, hcreated⟩

theorem postLink_effect {id : String} :
    WorkEffect P cfg req s dir d (.createLink id) (postLink P cfg id req s dir d).state := by
  refine withCase_effect fun c _ hc => ?_
  split
  · exact .idle _
  split
  · exact .idle _
  · rename_i link recipients url d' hl
    obtain ⟨input, hin, hl⟩ := linkFromForm_ok hl
    exact .newLink hc hin hl

theorem postReissue_effect {id : String} :
    WorkEffect P cfg req s dir d (.reissue id) (postReissue P cfg id req s dir d).state := by
  refine withLink_effect fun link hl hc => ?_
  split
  · exact .idle _
  · rename_i d' hr
    rcases rotateLinkToken_ok hr with ⟨-, -, rfl⟩ | ⟨h, -⟩
    · exact .idle _
    · cases h
  · rename_i url d' hr
    exact .reissue hl hc hr

theorem postRecipients_effect {id : String} :
    WorkEffect P cfg req s dir d (.addRecipients id) (postRecipients P id req s dir d).state := by
  refine withLink_effect fun link hl hc => ?_
  simp only []
  split
  · exact .idle _
  split
  · exact .idle _
  split
  · exact .idle _
  · rename_i added d' ha
    exact .people hl hc ha

theorem postRecipientRemove_effect {id rid : String} :
    WorkEffect P cfg req s dir d (.removeRecipient id rid)
      (postRecipientRemove P id rid req s dir d).state := by
  refine withLink_effect fun link hl hc => ?_
  simp only []
  split
  · exact .idle _
  rename_i rid _
  rcases removeRecipient_cases link.id rid d with ⟨hno, hsame⟩ | ⟨row, hmem, rfl, hlink, hres, hst⟩
  · split
    · exact .idle _
    · rename_i d' hr
      rw [hr] at hsame
      simp only at hsame
      subst hsame
      exact .idle _
    · rename_i row d' hr
      rw [hr] at hno
      exact absurd rfl (hno row)
  · rw [show removeRecipient link.id row.id d = (.removed row, deleteRecipient row.id d) from
      Prod.ext hres hst]
    exact .removePerson hl hc hmem hlink

theorem postRevoke_effect {id : String} :
    WorkEffect P cfg req s dir d (.revoke id) (postRevoke P id req s d).state := by
  refine withLink_effect fun link hl hc => ?_
  simp only []
  split
  · rename_i d' hr
    have h := @WorkEffect.revoke P cfg req s dir d id link hl hc
    rwa [hr] at h
  · rename_i d' hr
    obtain ⟨hno, rfl⟩ := Prod.mk.inj hr
    rw [updateLink_eq_self hno]
    exact .idle _

/-- The statements on items keep an item's identifier and its case. -/
theorem markDeleted_change (now : Int) (itemId : String) (d : DeliveryDb) :
    ItemChange itemId d (markDeleted now itemId d).2 :=
  ⟨_, fun i => { i with status := .deleted, deletedAt := some now }, fun _ => ⟨rfl, rfl⟩, rfl⟩

theorem failUpload_change (itemId : String) (status : ItemStatus) (d : DeliveryDb) :
    ItemChange itemId d (failUpload itemId status d).2 :=
  ⟨_, fun i => { i with status := status }, fun _ => ⟨rfl, rfl⟩, rfl⟩

theorem completeUpload_change (now : Int) (itemId : String) (size : Nat) (sha256 : Option String)
    (d : DeliveryDb) : ItemChange itemId d (completeUpload now itemId size sha256 d).2 :=
  ⟨_, fun i => { i with
    status := .ready, size := some size, sha256 := sha256.or i.sha256, readyAt := some now },
    fun _ => ⟨rfl, rfl⟩, rfl⟩

theorem downloadItem_state {id : String} : (downloadItem P id req s d).state = d := by
  unfold downloadItem
  simp only []
  split
  · rfl
  split
  · rfl
  split <;> rfl

theorem postItemDelete_effect {id : String} :
    WorkEffect P cfg req s dir d (.deleteItem id) (postItemDelete P id req s d).state := by
  unfold postItemDelete
  simp only []
  split
  · exact .idle _
  rename_i item hi
  obtain ⟨x, -, hi⟩ := Option.bind_eq_some_iff.1 hi
  have hi : getItem item.id d = some item := by rwa [getItem_id hi]
  split
  · exact .idle _
  rename_i hc
  have hacc : canAccessCase s.viewer item.caseId d = true :=
    canAccess_of_caseFor (by simpa [Option.isSome_iff_ne_none] using hc)
  have hdel := markDeleted_change req.now item.id d
  split
  · rename_i d' hm
    rw [hm] at hdel
    split
    · exact .item hi hacc hdel
    · exact .item hi hacc hdel
  · split
    · exact .item hi hacc (failUpload_change item.id .aborted d)
    · exact .idle _

theorem postMember_effect {id : String} :
    WorkEffect P cfg req s dir d (.addMember id) (postMember P id req s dir d).state := by
  refine withCase_effect fun c _ hc => ?_
  simp only []
  split
  · exact .idle _
  split
  · exact .idle _
  · exact .assign hc

theorem postMemberRemove_effect {id uid : String} :
    WorkEffect P cfg req s dir d (.removeMember id uid)
      (postMemberRemove P id uid req s dir d).state := by
  refine withCase_effect fun c _ hc => ?_
  simp only []
  split
  · exact .idle _
  rename_i user _
  split
  · exact .idle _
  split
  · exact .idle _
  · rename_i d' hr
    have h := @WorkEffect.unassign P cfg req s dir d id uid user.id _ hc
    rwa [hr] at h

theorem directUpload_effect {caseId name : String} {declared : Option Nat} {put : PutAnswer} :
    WorkEffect P cfg req s dir d (.upload caseId name declared put)
      (directUpload P cfg caseId name declared put req s d).state := by
  unfold directUpload
  split
  · exact .idle _
  rename_i c hc
  obtain ⟨x, -, hc⟩ := Option.bind_eq_some_iff.1 hc
  have hc : caseFor s c.id d = some c := by rwa [(caseFor_some hc).2.1]
  simp only []
  split
  · exact .idle _
  split
  · exact .idle _
  · exact .idle _
  · rename_i item maxBytes d₁ hs
    have hid : item.id = newId "f" req.random.id := (startUpload_ok hs).1
    split
    · exact .upload hc rfl rfl hs (.inr (hid ▸ failUpload_change item.id .aborted d₁))
    · exact .upload hc rfl rfl hs (.inr (hid ▸ failUpload_change item.id .aborted d₁))
    · exact .upload hc rfl rfl hs (.inr (hid ▸ completeUpload_change req.now item.id _ _ d₁))

/-- The end of an upload changes its item, or nothing. -/
theorem onUploadFinish_change {uploadId : String} {upload : TusUpload} :
    (onUploadFinish uploadId upload req s d).state = d ∨
      ItemChange uploadId d (onUploadFinish uploadId upload req s d).state := by
  unfold onUploadFinish
  split
  · exact .inl rfl
  split
  · exact .inl rfl
  · exact .inr (completeUpload_change req.now uploadId _ none d)

theorem onUploadCreate_effect {route : WorkRoute} {upload : TusUpload} {finished : Bool} :
    WorkEffect P cfg req s dir d route (onUploadCreate P cfg upload finished req s d).state := by
  unfold onUploadCreate
  simp only []
  split
  · exact .idle _
  split
  · exact .idle _
  split
  · exact .idle _
  rename_i c hc
  have hc : caseFor s c.id d = some c := by rwa [(caseFor_some hc).2.1]
  split
  · exact .idle _
  split
  · exact .idle _
  · exact .idle _
  · rename_i r d₁ hs
    refine .upload hc rfl rfl hs ?_
    by_cases hf : finished = true
    · simp only [if_pos hf]
      exact onUploadFinish_change
    · simp only [if_neg hf]
      exact .inl rfl

/-- A request the first hook lets through names an unfinished upload of a case
the session may work on. -/
theorem onIncomingRequest_none {uploadId : String} (h : onIncomingRequest uploadId s d = none) :
    ∃ i, getItem i.id d = some i ∧ i.id = uploadId ∧
      canAccessCase s.viewer i.caseId d = true := by
  unfold onIncomingRequest at h
  split at h
  · cases h
  rename_i i hi
  split at h
  · cases h
  rename_i hacc
  have hid := getItem_id hi
  exact ⟨i, by rwa [hid], hid, by simpa using hacc⟩

theorem tusHandler_effect {uploadId : String} {request : TusRequest} :
    WorkEffect P cfg req s dir d (.tus uploadId request)
      (tusHandler P cfg uploadId request req s d).state := by
  unfold tusHandler
  simp only []
  -- A request for an upload that exists runs after `onIncomingRequest` has let it through.
  have hchecked : ∀ d', (∀ response, onIncomingRequest uploadId s d = some response → d' = d) →
      (onIncomingRequest uploadId s d = none → d' = d ∨ ItemChange uploadId d d') →
      WorkEffect P cfg req s dir d (.tus uploadId request) d' := by
    intro d' hrefused hdone
    cases hin : onIncomingRequest uploadId s d with
    | some response =>
        rw [hrefused response hin]
        exact .idle _
    | none =>
        obtain ⟨i, hi, rfl, hacc⟩ := onIncomingRequest_none hin
        rcases hdone hin with rfl | hchange
        · exact .idle _
        · exact .item hi hacc hchange
  split
  · exact .idle _
  · exact .idle _
  · refine hchecked _ (fun response h => by rw [h]; rfl) fun h => ?_
    rw [h]
    exact .inl rfl
  · exact .idle _
  · exact onUploadCreate_effect
  · refine hchecked _ (fun response h => by rw [h]; rfl) fun h => ?_
    rw [h]
    exact .inl rfl
  · refine hchecked _ (fun response h => by rw [h]; rfl) fun h => ?_
    rw [h]
    exact onUploadFinish_change
  · refine hchecked _ (fun response h => by rw [h]; rfl) fun h => ?_
    rw [h]
    exact .inl rfl
  · refine hchecked _ (fun response h => by rw [h]; rfl) fun h => ?_
    rw [h]
    unfold postTerminate
    simp only []
    split
    · exact .inl rfl
    · exact .inr (failUpload_change uploadId .aborted d)

/-- What any request to a case route does to the deliveries. -/
theorem workEffect (P : Platform) (cfg : Config) (route : WorkRoute) (req : Request) (s : Signed)
    (dir : Directory) (d : DeliveryDb) :
    WorkEffect P cfg req s dir d route (route.handle P cfg req s dir d).state := by
  cases route with
  | cases => exact .idle _
  | createCase => exact postCase_effect
  | case id => exact .idle _
  | updateCase id => exact postCaseUpdate_effect
  | caseStatus id => exact postCaseStatus_effect
  | note id => exact postNote_effect
  | createLink id => exact postLink_effect
  | reissue id => exact postReissue_effect
  | addRecipients id => exact postRecipients_effect
  | removeRecipient id rid => exact postRecipientRemove_effect
  | revoke id => exact postRevoke_effect
  | download id =>
      have h : (WorkRoute.handle P cfg (.download id) req s dir d).state = d := downloadItem_state
      rw [h]
      exact .idle _
  | deleteItem id => exact postItemDelete_effect
  | addMember id => exact postMember_effect
  | removeMember id uid => exact postMemberRemove_effect
  | upload caseId name declared put => exact directUpload_effect
  | tus uploadId request => exact tusHandler_effect

end

end Outletbox
