import Outletbox.Integrity

/-!
# Requests another site can cause

A page of another site can make a browser load any page of the panel and of a
delivery, and send it any form that wants a token, with the cookies the browser
has.  It does not know the token of a session nor the one of a visitor, and the
browser may name it as the origin.  However many such requests are made, they
leave everything as it is but the record of when a session and a link were last
used, and the offer to bind a session to its device, which a page makes once.

The form to sign in wants no token, and anyone may send it; nor do the two calls
about the key of a device, which a signature stands for.
-/

namespace Outletbox

namespace Forgery

open Integrity (Sound)

variable (P : Platform) (cfg : Config)

/-! ## Forged requests -/

/-- The request can be caused by a page of another site: it is one for a page, or it comes from a
foreign origin, or without the token it would need. -/
def Forgeable (sv : Server) : Input → Prop
  | .deliver r => r.route.guarded = false ∨ checkOrigin cfg r.toRequest = false ∨
      ∀ v, r.toRequest.cookie P flowCookieName = some v → r.toRequest.body "_flow" ≠ [v]
  | .visit r => r.route = .loginPage
  | .panel r => r.route.method.isSafe = true ∨
      ∀ s, (sessionMiddleware P r.toRequest sv.accounts).1 = some s →
        checkOrigin cfg r.toRequest = false ∨
          sentToken r.toRequest r.route.isApi ≠ [s.session.csrfToken]
  | .cleanup _ | .cli _ _ _ => False

/-! ## What they leave -/

/-- A session without the record of its last use, and without the offer to bind it to a device,
which a page of the panel writes. -/
def core (s : SessionRow) : SessionRow :=
  { s with lastSeenAt := 0, dbscChallenge := none, dbscOfferedAt := none }

/-- The same session; and an offer that was made, or that waits for the second factor, is as it
was. -/
structure OfferKept (s s' : SessionRow) : Prop where
  same : core s = core s'
  offer : s.dbscOfferedAt.isSome = true ∨ s.totpVerified = false →
    s'.dbscChallenge = s.dbscChallenge ∧ s'.dbscOfferedAt = s.dbscOfferedAt

def OffersKept (d d' : AccountDb) : Prop :=
  ∀ s' ∈ d'.sessions, ∃ s ∈ d.sessions, OfferKept s s'

/-- A link without the record of its last use. -/
def linkCore (l : Link) : Link := { l with lastUsedAt := none }

/-- The session had expired at one of the times, or its account is disabled. -/
def Over (times : Int → Prop) (d : AccountDb) (s : SessionRow) : Prop :=
  (∃ now, times now ∧ isoLe s.expiresAt now) ∨
    ∃ a, adminById s.adminId d = some a ∧ a.disabledAt.isSome = true

/-- The accounts are the same, and so are the sessions that are not over. -/
structure SameAccounts (times : Int → Prop) (d d' : AccountDb) : Prop where
  admins : d'.admins = d.admins
  passkeys : d'.passkeys = d.passkeys
  codes : d'.recoveryCodes = d.recoveryCodes
  sessions : ∀ s' ∈ d'.sessions, ∃ s ∈ d.sessions, core s = core s'
  bindings : ∀ b ∈ d'.bindings, b ∈ d.bindings
  sessionsLeft : ∀ s ∈ d.sessions, (∃ s' ∈ d'.sessions, core s = core s') ∨ Over times d s
  bindingsLeft : ∀ b ∈ d.bindings, b ∈ d'.bindings ∨
    ∃ s ∈ d.sessions, s.idHash = b.sessionHash ∧ Over times d s

/-- The deliveries are the same, and so are the visits that are not over. -/
structure SameDeliveries (times : Int → Prop) (d d' : DeliveryDb) : Prop where
  cases : d'.cases = d.cases
  members : d'.caseMembers = d.caseMembers
  items : d'.items = d.items
  people : d'.linkRecipients = d.linkRecipients
  codes : d'.challenges = d.challenges
  links : d'.links.map linkCore = d.links.map linkCore
  visits : ∀ a ∈ d'.accessSessions, a ∈ d.accessSessions
  visitsLeft : ∀ a ∈ d.accessSessions,
    a ∈ d'.accessSessions ∨ ∃ now, times now ∧ isoLe a.expiresAt now

/-- The audit log says at most that something was downloaded. -/
def Downloads (events : List AuditEvent) : Prop := ∀ e ∈ events, e.action = "item.download"

/-- Nothing was done to the server. -/
structure Unharmed (times : Int → Prop) (sv sv' : Server) : Prop where
  accounts : SameAccounts times sv.accounts sv'.accounts
  offers : OffersKept sv.accounts sv'.accounts
  deliveries : SameDeliveries times sv.deliveries sv'.deliveries
  groups : sv'.groups = sv.groups
  flashes : ∀ f ∈ sv'.flashes, f ∈ sv.flashes
  log : ∃ rows : List AuditRow, sv'.auditLog = sv.auditLog ++ rows ∧
    Downloads (rows.map (·.event))

section

variable {P} {cfg} {times times' : Int → Prop} {d d₁ d' : AccountDb} {e e₁ e' : DeliveryDb}
  {sv sv₁ sv' : Server} {now : Int}

/-! ## Composition -/

/-- The columns a stamp leaves alone. -/
theorem core_eq {s s' : SessionRow} (h : core s = core s') :
    s.idHash = s'.idHash ∧ s.adminId = s'.adminId ∧ s.expiresAt = s'.expiresAt := by
  have hhash := congrArg SessionRow.idHash h
  have hadmin := congrArg SessionRow.adminId h
  have hexpires := congrArg SessionRow.expiresAt h
  exact ⟨hhash, hadmin, hexpires⟩

theorem Over.mono (h : ∀ t, times t → times' t) {s : SessionRow} (ho : Over times d s) :
    Over times' d s :=
  ho.imp_left fun ⟨t, ht, hle⟩ => ⟨t, h t ht, hle⟩

/-- Whether a session is over depends on what the tables keep. -/
theorem Over.of_core (hadmins : d'.admins = d.admins) {s s' : SessionRow} (h : core s = core s')
    (ho : Over times d' s') : Over times d s := by
  obtain ⟨-, hadmin, hexpires⟩ := core_eq h
  rcases ho with ⟨t, ht, hle⟩ | ⟨a, ha, hdisabled⟩
  · exact .inl ⟨t, ht, hexpires ▸ hle⟩
  · refine .inr ⟨a, ?_, hdisabled⟩
    rw [hadmin, ← ha, adminById, adminById, hadmins]

theorem SameAccounts.refl (times : Int → Prop) (d : AccountDb) : SameAccounts times d d :=
  ⟨rfl, rfl, rfl, fun s hs => ⟨s, hs, rfl⟩, fun _ hb => hb, fun s hs => .inl ⟨s, hs, rfl⟩,
    fun _ hb => .inl hb⟩

theorem SameAccounts.trans (h : SameAccounts times d d₁) (h' : SameAccounts times d₁ d') :
    SameAccounts times d d' where
  admins := h'.admins.trans h.admins
  passkeys := h'.passkeys.trans h.passkeys
  codes := h'.codes.trans h.codes
  sessions s' hs' := by
    obtain ⟨s₁, hs₁, he₁⟩ := h'.sessions s' hs'
    obtain ⟨s, hs, he⟩ := h.sessions s₁ hs₁
    exact ⟨s, hs, he.trans he₁⟩
  bindings b hb := h.bindings b (h'.bindings b hb)
  sessionsLeft s hs := by
    rcases h.sessionsLeft s hs with ⟨s₁, hs₁, he⟩ | ho
    · rcases h'.sessionsLeft s₁ hs₁ with ⟨s', hs', he'⟩ | ho
      · exact .inl ⟨s', hs', he.trans he'⟩
      · exact .inr (ho.of_core h.admins he)
    · exact .inr ho
  bindingsLeft b hb := by
    rcases h.bindingsLeft b hb with hb₁ | ho
    · rcases h'.bindingsLeft b hb₁ with hb' | ⟨s₁, hs₁, hhash, ho⟩
      · exact .inl hb'
      · obtain ⟨s, hs, he⟩ := h.sessions s₁ hs₁
        exact .inr ⟨s, hs, (core_eq he).1.trans hhash, ho.of_core h.admins he⟩
    · exact .inr ho

theorem SameAccounts.mono (h : SameAccounts times d d') (ht : ∀ t, times t → times' t) :
    SameAccounts times' d d' :=
  { h with
    sessionsLeft := fun s hs => (h.sessionsLeft s hs).imp_right (.mono ht)
    bindingsLeft := fun b hb =>
      (h.bindingsLeft b hb).imp_right fun ⟨s, hs, hhash, ho⟩ => ⟨s, hs, hhash, ho.mono ht⟩ }

theorem OfferKept.refl (s : SessionRow) : OfferKept s s := ⟨rfl, fun _ => ⟨rfl, rfl⟩⟩

theorem OfferKept.trans {s s₁ s' : SessionRow} (h : OfferKept s s₁) (h' : OfferKept s₁ s') :
    OfferKept s s' where
  same := h.same.trans h'.same
  offer hoffer := by
    obtain ⟨hchallenge, hat⟩ := h.offer hoffer
    have hverified : (core s).totpVerified = (core s₁).totpVerified :=
      congrArg SessionRow.totpVerified h.same
    change s.totpVerified = s₁.totpVerified at hverified
    rw [← hat, hverified] at hoffer
    obtain ⟨hchallenge', hat'⟩ := h'.offer hoffer
    exact ⟨hchallenge'.trans hchallenge, hat'.trans hat⟩

theorem OffersKept.refl (d : AccountDb) : OffersKept d d := fun s hs => ⟨s, hs, .refl s⟩

theorem OffersKept.trans (h : OffersKept d d₁) (h' : OffersKept d₁ d') : OffersKept d d' := by
  intro s' hs'
  obtain ⟨s₁, hs₁, hkept'⟩ := h' s' hs'
  obtain ⟨s, hs, hkept⟩ := h s₁ hs₁
  exact ⟨s, hs, hkept.trans hkept'⟩

theorem SameDeliveries.refl (times : Int → Prop) (e : DeliveryDb) : SameDeliveries times e e :=
  ⟨rfl, rfl, rfl, rfl, rfl, rfl, fun _ ha => ha, fun _ ha => .inl ha⟩

theorem SameDeliveries.trans (h : SameDeliveries times e e₁) (h' : SameDeliveries times e₁ e') :
    SameDeliveries times e e' where
  cases := h'.cases.trans h.cases
  members := h'.members.trans h.members
  items := h'.items.trans h.items
  people := h'.people.trans h.people
  codes := h'.codes.trans h.codes
  links := h'.links.trans h.links
  visits a ha := h.visits a (h'.visits a ha)
  visitsLeft a ha := by
    rcases h.visitsLeft a ha with ha₁ | ho
    · exact h'.visitsLeft a ha₁
    · exact .inr ho

theorem SameDeliveries.mono (h : SameDeliveries times e e') (ht : ∀ t, times t → times' t) :
    SameDeliveries times' e e' :=
  { h with
    visitsLeft := fun a ha =>
      (h.visitsLeft a ha).imp_right fun ⟨t, hnow, hle⟩ => ⟨t, ht t hnow, hle⟩ }

theorem Unharmed.refl (times : Int → Prop) (sv : Server) : Unharmed times sv sv :=
  ⟨.refl _ _, .refl _, .refl _ _, rfl, fun _ hf => hf, [], (List.append_nil _).symm,
    List.forall_mem_nil _⟩

theorem Unharmed.trans (h : Unharmed times sv sv₁) (h' : Unharmed times sv₁ sv') :
    Unharmed times sv sv' := by
  obtain ⟨rows, hlog, hdownloads⟩ := h.log
  obtain ⟨rows', hlog', hdownloads'⟩ := h'.log
  refine ⟨h.accounts.trans h'.accounts, h.offers.trans h'.offers,
    h.deliveries.trans h'.deliveries, h'.groups.trans h.groups, fun f hf => h.flashes f (h'.flashes f hf),
    rows ++ rows', by rw [hlog', hlog, List.append_assoc], ?_⟩
  rw [List.map_append]
  exact List.forall_mem_append.2 ⟨hdownloads, hdownloads'⟩

theorem Unharmed.mono (h : Unharmed times sv sv') (ht : ∀ t, times t → times' t) :
    Unharmed times' sv sv' :=
  { h with accounts := h.accounts.mono ht, deliveries := h.deliveries.mono ht }

/-! ## Reading a session -/

theorem same_updateSession {f : SessionRow → SessionRow} (hf : ∀ s, core (f s) = core s)
    (idHash : String) (d : AccountDb) : SameAccounts times d (updateSession idHash f d) where
  admins := rfl
  passkeys := rfl
  codes := rfl
  sessions s' hs' := by
    obtain ⟨s, hs, rfl⟩ := Table.mem_update.1 hs'
    refine ⟨s, hs, ?_⟩
    split
    · exact (hf s).symm
    · rfl
  bindings _ hb := hb
  sessionsLeft s hs := by
    refine .inl ⟨_, Table.mem_update.2 ⟨s, hs, rfl⟩, ?_⟩
    split
    · exact (hf s).symm
    · rfl
  bindingsLeft _ hb := .inl hb

/-- Sessions that are over are deleted. -/
theorem same_deleteSessions {p : SessionRow → Bool}
    (hp : ∀ s ∈ d.sessions, p s = true → Over times d s) :
    SameAccounts times d (deletePanelSessions p d) where
  admins := rfl
  passkeys := rfl
  codes := rfl
  sessions s' hs' := ⟨s', (Table.mem_delete.1 hs').1, rfl⟩
  bindings b hb := (Table.mem_delete.1 hb).1
  sessionsLeft s hs := by
    cases hhit : p s with
    | false => exact .inl ⟨s, Table.mem_delete.2 ⟨hs, hhit⟩, rfl⟩
    | true => exact .inr (hp s hs hhit)
  bindingsLeft b hb := by
    cases hhit : d.sessions.any fun s => p s && s.idHash == b.sessionHash with
    | false => exact .inl (Table.mem_delete.2 ⟨hb, hhit⟩)
    | true =>
        obtain ⟨s, hs, hboth⟩ := List.any_eq_true.1 hhit
        rw [Bool.and_eq_true, beq_iff_eq] at hboth
        exact .inr ⟨s, hs, hboth.2, hp s hs hboth.1⟩

/-- A lookup stamps the session or removes one that is over. -/
theorem same_getSession (hkeys : (d.sessions.map (·.idHash)).Nodup) (sid : String) :
    SameAccounts (· = now) d (getSession P now sid d).2 := by
  unfold getSession
  split
  · exact .refl _ d
  cases hrow : sessionRow P sid d with
  | none => exact .refl _ d
  | some found =>
      obtain ⟨row, admin⟩ := found
      obtain ⟨row', hfind, hrow⟩ := Option.bind_eq_some_iff.1 hrow
      obtain ⟨admin', hadmin, hrow⟩ := Option.bind_eq_some_iff.1 hrow
      cases hrow
      dsimp only
      split
      · rename_i hover
        refine same_deleteSessions fun s hs hhit => ?_
        have hhash := List.find?_some (p := fun s : SessionRow => s.idHash == P.sha256Hex sid) hfind
        have hsame : s = row := Table.eq_of_key hkeys hs (List.mem_of_find?_eq_some hfind)
          ((beq_iff_eq.1 hhit).trans (beq_iff_eq.1 hhash).symm)
        rw [hsame]
        exact hover.imp (fun hle => ⟨now, rfl, hle⟩) fun hdisabled => ⟨admin, hadmin, hdisabled⟩
      · exact same_updateSession (by exact fun _ => rfl) _ d

theorem same_sessionMiddleware (hkeys : (d.sessions.map (·.idHash)).Nodup) (req : Request) :
    SameAccounts (· = req.now) d (sessionMiddleware P req d).2 := by
  unfold sessionMiddleware
  split
  · exact .refl _ d
  rename_i sid _
  have hread := @same_getSession P d req.now hkeys sid
  split
  · rename_i h
    rwa [h] at hread
  · rename_i h
    rw [h] at hread
    split
    · exact hread
    · exact hread

/-- An offer is no column of the core. -/
theorem same_offerMiddleware (r : PanelRequest) (s : Signed) (d : AccountDb) :
    SameAccounts times d (offerMiddleware P cfg r s d).2 := by
  have hoffer : SameAccounts times d (offerBinding P r.now r.random.challenge s.sessionId d).2 := by
    rcases offerBinding_cases (P := P) r.now r.random.challenge s.sessionId d with
        h | ⟨_, -, -, -, -, h⟩
    · rw [h]
      exact .refl _ d
    · rw [h]
      exact same_updateSession (by exact fun _ => rfl) _ d
  unfold offerMiddleware
  split
  · split
    · rename_i h
      rwa [h] at hoffer
    · rename_i h
      rwa [h] at hoffer
  · exact .refl _ d

/-- One session changes, and keeps an offer it already has. -/
theorem offers_updateSession {idHash : String} {f : SessionRow → SessionRow}
    (hf : ∀ s ∈ d.sessions, s.idHash = idHash → OfferKept s (f s)) :
    OffersKept d (updateSession idHash f d) := by
  intro s' hs'
  obtain ⟨s, hs, rfl⟩ := Table.mem_update.1 hs'
  refine ⟨s, hs, ?_⟩
  split
  · rename_i hid
    exact hf s hs (beq_iff_eq.1 hid)
  · exact .refl s

theorem offers_sessionMiddleware (req : Request) (d : AccountDb) :
    OffersKept d (sessionMiddleware P req d).2 := by
  have hread : ∀ sid, OffersKept d (getSession P req.now sid d).2 := by
    intro sid
    unfold getSession
    split
    · exact .refl d
    split
    · exact .refl d
    · split
      · exact fun s hs => ⟨s, (Table.mem_delete.1 hs).1, .refl s⟩
      · exact offers_updateSession fun s _ _ => ⟨rfl, fun _ => ⟨rfl, rfl⟩⟩
  unfold sessionMiddleware
  split
  · exact .refl d
  rename_i sid _
  have hkept := hread sid
  split
  · rename_i h
    rwa [h] at hkept
  · rename_i h
    rw [h] at hkept
    split
    · exact hkept
    · exact hkept

/-- A page offers the binding to a complete session that was not offered one before. -/
theorem offers_offerMiddleware (hkeys : (d.sessions.map (·.idHash)).Nodup) (r : PanelRequest)
    (s : Signed) : OffersKept d (offerMiddleware P cfg r s d).2 := by
  have hoffer : OffersKept d (offerBinding P r.now r.random.challenge s.sessionId d).2 := by
    rcases offerBinding_cases (P := P) r.now r.random.challenge s.sessionId d with
      h | ⟨row, hrow, hid, hnone, hverified, h⟩
    · rw [h]
      exact .refl d
    · rw [h]
      refine offers_updateSession fun x hx hhash => ⟨rfl, fun hoffer => ?_⟩
      obtain rfl : x = row := Table.eq_of_key hkeys hx hrow (hhash.trans hid.symm)
      rw [hnone, hverified] at hoffer
      rcases hoffer with hoffer | hoffer
      · cases hoffer
      · cases hoffer
  unfold offerMiddleware
  split
  · split
    · rename_i h
      rwa [h] at hoffer
    · rename_i h
      rwa [h] at hoffer
  · exact .refl d

/-! ## Pages of the panel -/

/-- A page changes nothing but the outcome it shows once. -/
structure Reads (sv : Server) (out : Outcome Server PanelPage) : Prop where
  state : ∃ flashes, out.state = { sv with flashes := flashes } ∧ ∀ f ∈ flashes, f ∈ sv.flashes
  audit : Downloads out.audit

theorem reads_refuse (sv : Server) (response : Response PanelPage) : Reads sv (refuse sv response) :=
  ⟨⟨sv.flashes, rfl, fun _ hf => hf⟩, List.forall_mem_nil _⟩

/-- A download is written down and changes nothing. -/
theorem reads_download (id : String) (req : Request) (s : Signed) (sv : Server) :
    Reads sv ((downloadItem P id req s sv.deliveries).into fun d => { sv with deliveries := d }) := by
  refine ⟨⟨sv.flashes, ?_, fun _ hf => hf⟩, ?_⟩
  · show { sv with deliveries := (downloadItem P id req s sv.deliveries).state } = sv
    rw [downloadItem_state]
  · show Downloads (downloadItem P id req s sv.deliveries).audit
    unfold downloadItem
    dsimp only
    split
    · exact List.forall_mem_nil _
    split
    · exact List.forall_mem_nil _
    split
    · exact List.forall_mem_nil _
    · exact List.forall_mem_nil _
    · exact List.forall_mem_singleton.2 rfl

/-- An upload that is only asked about is left alone. -/
theorem reads_tus {request : TusRequest} (h : request.method.isSafe = true) (uploadId : String)
    (req : Request) (s : Signed) (sv : Server) :
    Reads sv ((tusHandler P cfg uploadId request req s sv.deliveries).into
      fun d => { sv with deliveries := d }) := by
  cases request with
  | get => exact reads_refuse sv _
  | options => exact reads_refuse sv _
  | head =>
      unfold tusHandler
      dsimp only
      split
      · exact reads_refuse sv _
      · exact reads_refuse sv _
  | post upload finished => cases h
  | patch finished => cases h
  | delete terminated => cases h

/-- The reading routes of the daily work. -/
theorem reads_work {route : WorkRoute} (h : route.method.isSafe = true) (req : Request) (s : Signed)
    (sv : Server) : Reads sv (PanelRoute.handle P cfg (.work route) req s sv) := by
  cases route with
  | cases => exact reads_refuse sv _
  | case id => exact reads_refuse sv _
  | download id => exact reads_download id req s sv
  | tus uploadId request => exact reads_tus h uploadId req s sv
  | _ => cases h

/-- A handler of a page reads. -/
theorem reads_handle {route : PanelRoute} (h : route.method.isSafe = true) (req : Request)
    (s : Signed) (sv : Server) : Reads sv (route.handle P cfg req s sv) := by
  cases route with
  | pending route =>
      cases route with
      | totpPage => exact reads_refuse sv _
      | _ => cases h
  | settings route =>
      cases route with
      | confirmPage => exact reads_refuse sv _
      | security =>
          exact ⟨⟨_, rfl, fun f hf => (Table.mem_delete.1 hf).1⟩, List.forall_mem_nil _⟩
      | _ => cases h
  | work route => exact reads_work h req s sv
  | groups route =>
      cases route with
      | list => exact reads_refuse sv _
      | _ => cases h
  | users route =>
      cases route with
      | list => exact reads_refuse sv _
      | _ => cases h
  | audit => exact reads_refuse sv _

/-! ## Forged requests to the panel -/

theorem unharmed_accounts (h : SameAccounts times sv.accounts d)
    (hoffers : OffersKept sv.accounts d) : Unharmed times sv { sv with accounts := d } :=
  ⟨h, hoffers, .refl _ _, rfl, fun _ hf => hf, [], (List.append_nil _).symm,
    List.forall_mem_nil _⟩

theorem unharmed_reads {out : Outcome Server PanelPage} (h : Reads sv out) :
    Unharmed times sv out.state := by
  obtain ⟨flashes, hstate, hsub⟩ := h.state
  rw [hstate]
  exact ⟨.refl _ _, .refl _, .refl _ _, rfl, hsub, [], (List.append_nil _).symm,
    List.forall_mem_nil _⟩

/-- The guard refuses a form without the token of the session. -/
theorem refused_forged {r : PanelRequest} {s : Signed} (hform : r.route.method.isSafe = false)
    (hforged : checkOrigin cfg r.toRequest = false ∨
      sentToken r.toRequest r.route.isApi ≠ [s.session.csrfToken]) :
    ∃ response, requireAdmin P cfg r (some s) = .error response := by
  have hrefused : ∃ response, csrfRefusal P cfg r.toRequest r.route.method r.route.isApi s =
      some response := by
    unfold csrfRefusal
    rw [if_neg (by rw [hform]; exact Bool.false_ne_true)]
    split
    · exact ⟨_, rfl⟩
    · rename_i horigin
      rw [if_neg (hforged.resolve_left (by simpa using horigin))]
      exact ⟨_, rfl⟩
  obtain ⟨response, hresponse⟩ := hrefused
  refine ⟨response, ?_⟩
  unfold requireAdmin
  dsimp only
  rw [hresponse]
  rfl

/-- In the panel the form is refused, and a page only reads. -/
theorem unharmed_panel {r : PanelRequest} (hs : Sound sv)
    (hforged : Forgeable P cfg sv (.panel r)) :
    Unharmed (· = r.now) sv (panel P cfg r sv).state ∧ Downloads (panel P cfg r sv).audit := by
  have hread := same_sessionMiddleware (P := P) (d := sv.accounts) hs.accounts.sessions r.toRequest
  have hkept := offers_sessionMiddleware (P := P) r.toRequest sv.accounts
  have hkeys := Integrity.keys_writes hs.accounts
    (Statements.writes_sessionMiddleware (P := P) (G := .all) r.toRequest sv.accounts)
  unfold panel
  dsimp only
  cases hadmin : requireAdmin P cfg r (sessionMiddleware P r.toRequest sv.accounts).1 with
  | error response => exact ⟨unharmed_accounts hread hkept, List.forall_mem_nil _⟩
  | ok s =>
      have hsigned := LastFactor.requireAdmin_ok hadmin
      rw [hsigned] at hadmin
      have hsafe : r.route.method.isSafe = true := by
        by_contra hform
        rw [Bool.not_eq_true] at hform
        rcases hforged with hsafe | hforged
        · exact Bool.false_ne_true (hform.symm.trans hsafe)
        · obtain ⟨response, hrefused⟩ := refused_forged (P := P) hform (hforged s hsigned)
          rw [hrefused] at hadmin
          cases hadmin
      have hoffer : SameAccounts _ sv.accounts (offerMiddleware P cfg r s _).2 :=
        hread.trans (same_offerMiddleware r s _)
      have hoffered : OffersKept sv.accounts (offerMiddleware P cfg r s _).2 :=
        hkept.trans (offers_offerMiddleware hkeys.sessions r s)
      dsimp only
      unfold servePanel
      dsimp only
      split
      · exact ⟨unharmed_accounts hoffer hoffered, List.forall_mem_nil _⟩
      · have hpage := @reads_handle P cfg r.route hsafe r.toRequest s { sv with
          accounts := (offerMiddleware P cfg r s (sessionMiddleware P r.toRequest sv.accounts).2).2 }
        exact ⟨(unharmed_accounts hoffer hoffered).trans (unharmed_reads hpage), hpage.audit⟩

/-! ## Forged requests to a delivery page -/

theorem same_touchLink (now : Int) (id : String) (e : DeliveryDb) :
    SameDeliveries times e (touchLink now id e) :=
  ⟨rfl, rfl, rfl, rfl, rfl, Table.map_update linkCore (by exact fun _ => rfl) _, fun _ ha => ha,
    fun _ ha => .inl ha⟩

/-- A visit that is over is removed, any other is stamped. -/
theorem same_accessMiddleware (hkeys : (e.accessSessions.map (·.idHash)).Nodup) (req : Request) :
    SameDeliveries (· = req.now) e (accessMiddleware P req e).2 := by
  rcases accessMiddleware_cases (P := P) req e with ⟨-, h | ⟨id, h, row, hrow, hhash, hle⟩⟩ | ⟨h, -⟩
  · rw [h]
    exact .refl _ e
  · rw [h]
    refine ⟨rfl, rfl, rfl, rfl, rfl, rfl, fun a ha => (Table.mem_delete.1 ha).1, fun a ha => ?_⟩
    cases hhit : a.idHash == P.sha256Hex id with
    | false => exact .inl (Table.mem_delete.2 ⟨ha, hhit⟩)
    | true =>
        have hsame : a = row :=
          Table.eq_of_key hkeys ha hrow ((beq_iff_eq.1 hhit).trans hhash.symm)
        exact .inr ⟨req.now, rfl, hsame ▸ hle⟩
  · rw [h]
    exact .refl _ e

/-- The guard refuses a form without the token of the visitor. -/
theorem admission_forged {r : DeliverRequest} (hform : r.route.guarded = true)
    (hforged : checkOrigin cfg r.toRequest = false ∨
      ∀ v, r.toRequest.cookie P flowCookieName = some v → r.toRequest.body "_flow" ≠ [v]) :
    ∃ response, admission P cfg r = some response := by
  unfold admission
  split
  · exact ⟨_, rfl⟩
  unfold publicFormGuard
  split
  · exact ⟨_, rfl⟩
  · rename_i horigin
    have htoken := hforged.resolve_left (by simpa using horigin)
    split
    · rename_i v hv
      rw [if_neg (htoken v hv)]
      exact ⟨_, rfl⟩
    · exact ⟨_, rfl⟩

/-- The page of a delivery stamps its link. -/
theorem same_showDelivery (r : DeliverRequest) (v : Visit) (e : DeliveryDb) :
    SameDeliveries times e (showDelivery P cfg r v e).state ∧
      (showDelivery P cfg r v e).audit = [] ∧ (showDelivery P cfg r v e).mail = [] := by
  unfold showDelivery
  dsimp only
  split
  · split
    · exact ⟨.refl _ e, rfl, rfl⟩
    · exact ⟨same_touchLink _ _ e, rfl, rfl⟩
  · exact ⟨same_touchLink _ _ e, rfl, rfl⟩

/-- A file that is fetched is written down. -/
theorem same_getFile (itemId : String) (r : DeliverRequest) (v : Visit) (e : DeliveryDb) :
    (getFile itemId r v e).state = e ∧ Downloads (getFile itemId r v e).audit ∧
      (getFile itemId r v e).mail = [] := by
  unfold getFile
  dsimp only
  split
  · exact ⟨rfl, List.forall_mem_nil _, rfl⟩
  split
  · exact ⟨rfl, List.forall_mem_nil _, rfl⟩
  split
  · exact ⟨rfl, List.forall_mem_nil _, rfl⟩
  split
  · exact ⟨rfl, List.forall_mem_nil _, rfl⟩
  · exact ⟨rfl, List.forall_mem_nil _, rfl⟩
  · exact ⟨rfl, List.forall_mem_singleton.2 rfl, rfl⟩

/-- At a delivery the form is refused, and a page only reads. -/
theorem same_deliver {r : DeliverRequest} (hkeys : (e.accessSessions.map (·.idHash)).Nodup)
    (hforged : Forgeable P cfg sv (.deliver r)) :
    SameDeliveries (· = r.now) e (deliver P cfg r e).state ∧ Downloads (deliver P cfg r e).audit ∧
      (deliver P cfg r e).mail = [] := by
  have hread := same_accessMiddleware (P := P) (e := e) hkeys r.toRequest
  unfold deliver
  split
  · rename_i response e₁ h
    have hstate : e₁ = e ∨ e₁ = (accessMiddleware P r.toRequest e).2 :=
      enter_state (congrArg Prod.snd h)
    refine ⟨?_, List.forall_mem_nil _, rfl⟩
    rcases hstate with rfl | rfl
    · exact .refl _ e₁
    · exact hread
  · rename_i v e₁ h
    have hentered := enter_ok h
    obtain rfl : (accessMiddleware P r.toRequest e).2 = e₁ := by rw [hentered.access]
    have hpage : r.route.guarded = false := by
      by_contra hform
      rw [Bool.not_eq_false] at hform
      rcases hforged with hpage | hforged
      · exact Bool.false_ne_true (hpage.symm.trans hform)
      · obtain ⟨response, hrefused⟩ := admission_forged (P := P) hform hforged
        rw [hentered.admitted] at hrefused
        cases hrefused
    dsimp only
    cases hroute : r.route with
    | page =>
        have hshown := @same_showDelivery P cfg (· = r.now) r v (accessMiddleware P r.toRequest e).2
        exact ⟨hread.trans hshown.1, hshown.2.1 ▸ List.forall_mem_nil _, hshown.2.2⟩
    | file itemId =>
        have hsent := same_getFile itemId r v (accessMiddleware P r.toRequest e).2
        refine ⟨?_, hsent.2⟩
        show SameDeliveries _ e (getFile itemId r v _).state
        rw [hsent.1]
        exact hread
    | email => rw [hroute] at hpage; cases hpage
    | code => rw [hroute] at hpage; cases hpage
    | restart => rw [hroute] at hpage; cases hpage
    | close => rw [hroute] at hpage; cases hpage

/-! ## Any number of them -/

/-- Entries about downloads are added to the log. -/
theorem unharmed_record {events : List AuditEvent} (h : Unharmed times sv sv')
    (hevents : Downloads events) (t : Int) : Unharmed times sv (sv'.record t events) := by
  obtain ⟨rows, hlog, hdownloads⟩ := h.log
  refine { h with
    log := ⟨rows ++ events.map (AuditRow.mk t), by rw [← List.append_assoc, ← hlog]; rfl, ?_⟩ }
  rw [List.map_append, List.map_map]
  refine List.forall_mem_append.2 ⟨hdownloads, ?_⟩
  rwa [show AuditRow.event ∘ AuditRow.mk t = id from rfl, List.map_id]

/-- One forged request. -/
theorem step_unharmed {i : Input} (hs : Sound sv) (hforged : Forgeable P cfg sv i) :
    Unharmed (· = i.now) sv (Server.step P cfg sv i).1 ∧
      (Server.step P cfg sv i).2.mail = [] := by
  cases i with
  | deliver r =>
      have hread := same_sessionMiddleware (P := P) (d := sv.accounts) hs.accounts.sessions
          r.toRequest
      obtain ⟨hsame, hdownloads, hmail⟩ :=
        same_deliver hs.deliveries.access hforged
      have hstate : Unharmed (· = r.now) sv { sv with
          accounts := (sessionMiddleware P r.toRequest sv.accounts).2
          deliveries := (deliver P cfg r sv.deliveries).state } :=
        ⟨hread, offers_sessionMiddleware r.toRequest sv.accounts, hsame, rfl, fun _ hf => hf, [],
          (List.append_nil _).symm, List.forall_mem_nil _⟩
      exact ⟨unharmed_record hstate hdownloads r.now, hmail⟩
  | visit r =>
      have hread := same_sessionMiddleware (P := P) (d := sv.accounts) hs.accounts.sessions
          r.toRequest
      refine ⟨?_, rfl⟩
      have hroute : r.route = .loginPage := hforged
      have hstate : (visit P cfg r sv).state =
          { sv with accounts := (sessionMiddleware P r.toRequest sv.accounts).2 } := by
        unfold visit
        dsimp only
        rw [hroute, if_neg (by simp [OpenRoute.limited])]
        rfl
      have haudit : (visit P cfg r sv).audit = [] := by
        unfold visit
        dsimp only
        rw [hroute, if_neg (by simp [OpenRoute.limited])]
        rfl
      refine unharmed_record ?_ ?_ r.now
      · rw [hstate]
        exact unharmed_accounts hread (offers_sessionMiddleware r.toRequest sv.accounts)
      · rw [haudit]
        exact List.forall_mem_nil _
  | panel r =>
      obtain ⟨hsame, hdownloads⟩ := unharmed_panel (P := P) (r := r) hs hforged
      exact ⟨unharmed_record hsame hdownloads r.now, rfl⟩
  | cleanup run => exact hforged.elim
  | cli now draw command => exact hforged.elim

/-- However many requests another site causes, the server is left as it was: no account, delivery or
group changes, nobody is signed out, no mail is sent, the log says at most that something was
downloaded, and a session is at most offered its first binding to a device. -/
theorem forged_requests_are_harmless (P : Platform) (cfg : Config) {sv₀ : Server}
    (hs : Sound sv₀) {h : List ServerEvent}
    (hr : History.Run (Server.step P cfg) (fun _ sv i => Forgeable P cfg sv i) sv₀ h sv) :
    Unharmed (fun t => ∃ e ∈ h, e.input.now = t) sv₀ sv ∧ ∀ e ∈ h, e.output.mail = [] := by
  induction hr with
  | start => exact ⟨.refl _ sv₀, List.forall_mem_nil _⟩
  | @step h sv i hr hi ih =>
      have hsound : Sound sv := hr.invariant (I := fun _ sv => Sound sv) hs
        fun _ _ i _ _ hs => Integrity.sound_step hs i
      obtain ⟨hsame, hmail⟩ := step_unharmed hsound hi
      refine ⟨(ih.1.mono ?_).trans (hsame.mono ?_), List.forall_mem_cons.2 ⟨hmail, ih.2⟩⟩
      · rintro t ⟨e, he, rfl⟩
        exact ⟨e, List.mem_cons_of_mem _ he, rfl⟩
      · rintro t rfl
        exact ⟨_, List.mem_cons_self .., rfl⟩

end

/-! ## An attack on the sample -/

/-- `root` has sent a delivery, and a code has been asked for. -/
def delivered : List ServerEvent × Server :=
  History.replay (Server.step .sample defaultConfig) [] .empty deliveryScript

/-- A form of the panel, sent from another site. -/
def foreignForm (now : Int) (route : PanelRoute) (fields : List (String × String)) : PanelRequest :=
  { samplePanel now "sid" 'U' route fields with
    origin := some "https://other.example", fetchSite := some "cross-site" }

/-- The browser of `root` is made to load a page, to create an account, and to close a case without
the token of the session; the one of the recipient to ask for a code. -/
def attackScript : List Input :=
  [.panel (samplePanel 5 "sid" 'U' (.work .cases) []),
    .panel (foreignForm 6 (.users .create) [("username", "eve"), ("role", "admin")]),
    .panel { samplePanel 7 "sid" 'U' (.work (.caseStatus (newId "c" sampleId))) [] with
      body := formOf [("status", "closed")] },
    .deliver { sampleDeliver 8 'T' .email [] with body := formOf [("email", "a@b.example")] }]

def attacked : List ServerEvent × Server :=
  History.replay (Server.step .sample defaultConfig) [] delivered.2 attackScript

theorem admits_attack : History.Admits (Server.step .sample defaultConfig)
    (fun _ sv i => Forgeable .sample defaultConfig sv i) [] delivered.2 attackScript := by
  refine ⟨.inl rfl, .inr fun s _ => .inl (by decide +kernel), .inr fun s _ => .inr ?_,
    .inr (.inr fun v _ => ?_), trivial⟩
  · rw [show sentToken _ _ = [] from by decide +kernel]
    exact List.cons_ne_nil _ _ |>.symm
  · rw [show Request.body _ "_flow" = [] from by decide +kernel]
    exact List.cons_ne_nil _ _ |>.symm

/-- None of the four requests does anything, but that `root` was seen again. -/
theorem attack_does_nothing :
    Unharmed (fun t => ∃ e ∈ attacked.1, e.input.now = t) delivered.2 attacked.2 ∧
      (∀ e ∈ attacked.1, e.output.mail = []) ∧ attacked.2.accounts ≠ delivered.2.accounts := by
  have hsetup : History.Run (Server.step .sample defaultConfig) (fun _ _ _ => True) .empty
      delivered.1 delivered.2 :=
    History.run_replay .start (History.admits_of_forall (fun _ _ _ => trivial) _ _ _)
  have hsound : Sound delivered.2 := hsetup.invariant (I := fun _ sv => Sound sv)
    Integrity.sound_empty fun _ _ i _ _ hs => Integrity.sound_step hs i
  obtain ⟨hsame, hmail⟩ := forged_requests_are_harmless .sample defaultConfig hsound
    (History.run_replay .start admits_attack)
  exact ⟨hsame, hmail, by decide +kernel⟩

end Forgery

end Outletbox
