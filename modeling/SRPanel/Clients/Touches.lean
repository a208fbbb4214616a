import SRPanel.Clients.Requests
import SRPanel.Model.Retargets

/-!
# Whose books a step touches

The books of a client are its row, its links and what is kept under its id; those of an admin are
the credit and the ledger. An operation on one client touches the books of that client and of the
admin who pays, and no others, at each of its steps.
-/

namespace SRPanel

open Interleaving Prog

/-- The client has the id, and its links are its own. -/
def FullClient.IsOf (id : ClientId) (client : FullClient) : Prop :=
  client.id = id ∧ Site.LinksOf id client.links

namespace Site

/-! ## Books -/

/-- The books of a client stay as they are. -/
structure SparesClient (id : ClientId) (s s' : Site) : Prop where
  row : s'.clients.get? id = s.clients.get? id
  links : ∀ k, k.clientId = id → s'.links.get? k = s.links.get? k
  start : s'.pendingStarts.get? id = s.pendingStarts.get? id
  hwidLimit : s'.hwidLimits.get? id = s.hwidLimits.get? id
  autoRenew : s'.autoRenews.get? id = s.autoRenews.get? id

/-- The wallet of an admin stays as it is, and so does its ledger. -/
structure SparesWallet (a : AdminId) (s s' : Site) : Prop where
  row : ∀ r, s.base.admins.get? a = some r → s'.base.admins.get? a = some r
  ledger : (s'.base.walletTxs.filter fun t => t.holder = a) = s.base.walletTxs.filter fun t =>
    t.holder = a

/-- Nothing but the books of the clients in `ids` and of the admins in `tills` changes; a client
stays with its admin, an admin keeps the role, and nobody appears. -/
structure Touches (ids : Set ClientId) (tills : Set AdminId) (s s' : Site) : Prop where
  nextId : s.base.nextId ≤ s'.base.nextId
  owners : ∀ id c', s'.clients.get? id = some c' →
    ∃ c, s.clients.get? id = some c ∧ c.adminId = c'.adminId
  admins : ∀ a r', s'.base.admins.get? a = some r' →
    ∃ r, s.base.admins.get? a = some r ∧ r.role = r'.role
  clients : ∀ id ∉ ids, SparesClient id s s'
  wallets : ∀ a ∉ tills, SparesWallet a s s'

/-- What books are made of. -/
def books (s : Site) := (s.clients, s.links, s.pendingStarts, s.hwidLimits, s.autoRenews,
  s.base.admins, s.base.walletTxs)

section

variable {ids ids' : Set ClientId} {tills tills' : Set AdminId} {id : ClientId} {s s' : Site}
    {α β : Type}

theorem Touches.of_books (h : s'.books = s.books) (hnext : s.base.nextId ≤ s'.base.nextId) :
    Touches ids tills s s' := by
  simp only [books, Prod.mk.injEq] at h
  obtain ⟨hclients, hlinks, hstarts, hhwid, hrenews, hadmins, htxs⟩ := h
  refine ⟨hnext, fun k c' hc => ⟨c', hclients ▸ hc, rfl⟩, fun a r' hr => ⟨r', hadmins ▸ hr, rfl⟩,
    fun k _ => ?_, fun a _ => ?_⟩
  · exact ⟨by rw [hclients], fun k _ => by rw [hlinks], by rw [hstarts], by rw [hhwid], by
    rw [hrenews]⟩
  · exact ⟨fun r hr => hadmins ▸ hr, by rw [htxs]⟩

theorem Touches.refl (s : Site) : Touches ids tills s s := .of_books rfl le_rfl

/-- A change that leaves the clients, the admins and the ledger alone. -/
theorem Touches.of_kept (hclients : s'.clients = s.clients) (hbase : s'.base = s.base)
    (hspares : ∀ k ∉ ids, (∀ l, l.clientId = k → s'.links.get? l = s.links.get? l) ∧
      s'.pendingStarts.get? k = s.pendingStarts.get? k ∧ s'.hwidLimits.get? k =
      s.hwidLimits.get? k ∧
      s'.autoRenews.get? k = s.autoRenews.get? k) : Touches ids tills s s' where
  nextId := by rw [hbase]
  owners k c' hc := ⟨c', hclients ▸ hc, rfl⟩
  admins a r' hr := ⟨r', hbase ▸ hr, rfl⟩
  clients k hk := ⟨by rw [hclients], (hspares k hk).1, (hspares k hk).2.1, (hspares k hk).2.2.1,
    (hspares k hk).2.2.2⟩
  wallets a _ := ⟨fun r hr => hbase ▸ hr, by rw [hbase]⟩

theorem read_touches (f : Site → α) : (read f).Keeps (Touches ids tills) :=
  keeps_query Touches.refl _ f

theorem touches_of_reads {V : Site → Site → Prop} {p : Task α} (hp : p.Reads V) :
    p.Keeps (Touches ids tills) :=
  hp.keeps Touches.refl

/-! ## Wallets -/

/-- A payment service that touches the wallets in `tills` only. -/
structure Pays (tills : Set AdminId) (w w' : World) : Prop where
  nextId : w'.nextId = w.nextId
  admins : ∀ a r', w'.admins.get? a = some r' → ∃ r, w.admins.get? a = some r ∧ r.role = r'.role
  others : ∀ a ∉ tills, w'.admins.get? a = w.admins.get? a
  ledger : ∀ a ∉ tills, (w'.walletTxs.filter fun t => t.holder = a) = w.walletTxs.filter fun t =>
    t.holder = a

theorem Pays.of_same {w w' : World} (hnext : w'.nextId = w.nextId) (hadmins : w'.admins = w.admins)
    (htxs : w'.walletTxs = w.walletTxs) : Pays tills w w' :=
  ⟨hnext, fun a r' hr => ⟨r', hadmins ▸ hr, rfl⟩, fun a _ => by rw [hadmins], fun a _ =>
    by rw [htxs]⟩

theorem Pays.of_logged {w w' : World} (h : Logged w w') : Pays tills w w' :=
  .of_same (h.same World.nextId fun _ => rfl) (h.same World.admins fun _ =>
    rfl) (h.same World.walletTxs fun _ => rfl)

theorem lift_touches {p : Service α} (hp : p.Keeps (Pays tills)) :
    (lift p).Keeps (Touches ids tills) := by
  refine (hp.zoom world Mark.base).mono fun s s' h => ?_
  obtain ⟨hpays, hrest⟩ := h
  have hs' : s' = { s with base := s'.base } := hrest.symm
  generalize hw : s'.base = w at hs'
  rw [world_get, world_get, hw] at hpays
  subst hs'
  exact ⟨hpays.nextId.ge, fun k c hc => ⟨c, hc, rfl⟩, hpays.admins, fun k _ =>
    ⟨rfl, fun _ _ => rfl, rfl, rfl, rfl⟩, fun a ha =>
      ⟨fun r hr => (hpays.others a ha).trans hr, hpays.ledger a ha⟩⟩

theorem logs_touches {p : Service α} (hp : p.Keeps Logged) : (lift p).Keeps (Touches ids tills) :=
  lift_touches (hp.mono fun _ _ h => .of_logged h)

theorem commitCharge_pays {row : WalletTx AdminId} (h : row.holder ∈ tills) :
    (commitCharge row).Keeps (Pays tills) := by
  refine keeps_step fun w => ?_
  cases w.admins.get? row.holder with
  | none => exact .of_same rfl rfl rfl
  | some _ =>
      refine ⟨rfl, fun a r' hr => ?_, fun a ha => ?_, fun a ha => ?_⟩
      · change (w.admins.modify row.holder _).get? a = some r' at hr
        rw [Table.get?_modify] at hr
        split at hr
        · obtain ⟨r, hrow, rfl⟩ := Option.map_eq_some_iff.mp hr
          exact ⟨r, hrow, rfl⟩
        · exact ⟨r', hr, rfl⟩
      · exact Table.get?_modify_of_ne _ _ fun heq => ha (heq ▸ h)
      · have hne : row.holder ≠ a := fun heq => ha (heq ▸ h)
        rw [List.filter_cons_of_neg (by simpa using hne)]

theorem chargeWallet_pays {target : Actor} (h : target.id ∈ tills) (amount : ℤ)
    (kind : WalletTxKind) (ref : TxRef) (byAdminId : Option AdminId) (allowNegative : Bool) :
    (chargeWallet target amount kind ref byAdminId allowNegative).Keeps (Pays tills) := by
  have hread : ∀ {γ : Type} (f : World → γ), (Db.read f).Keeps (Pays tills) := fun f =>
    keeps_query (fun _ => .of_same rfl rfl rfl) _ f
  refine keeps_ite (keeps_pure _) (keeps_ite (keeps_pure _)
    (keeps_bind (keeps_ite (hread _) (keeps_pure _)) fun limit =>
      keeps_bind (hread _) fun a => ?_))
  cases a with
  | none => exact keeps_throw _
  | some a =>
      refine keeps_ite (keeps_throw _) (keeps_bind (commitCharge_pays h) fun row => ?_)
      exact keeps_bind ((alertAfter_keeps_logged row).mono fun _ _ hlog => .of_logged hlog) fun _ =>
        keeps_pure _

theorem chargeFor_touches {actor : Operator} (h : actor.id ∈ tills) (cost : ℤ) (id : ClientId) :
    (chargeFor actor cost id).Keeps (Touches ids tills) :=
  keeps_ite (keeps_bind (lift_touches (chargeWallet_pays h _ _ _ _ _)) fun _ => keeps_pure _)
    (keeps_pure _)

/-! ## Steps on one client -/

theorem updateLinks_touches {keys : List LinkKey} (hkeys : ∀ k ∈ keys, k.clientId = id)
    (f : ClientServer → ClientServer) : (updateLinks keys f).Keeps (Touches {id} tills) := by
  refine keeps_modify fun s => .of_kept rfl rfl fun k hk => ⟨fun l hl => ?_, rfl, rfl, rfl⟩
  have hnot : l ∉ keys := fun hmem => hk (hl.symm.trans (hkeys l hmem))
  rw [Table.get?_mapRows]
  cases s.links.get? l with
  | none => rfl
  | some r => simp only [Option.map_some, if_neg hnot]

theorem writeRow_touches (mark : Mark) {f : Client → Client} (hf : ∀ c, (f c).adminId = c.adminId)
    (cause : Option OrderId) : (writeRow mark id f cause).Keeps (Touches {id} tills) := by
  refine keeps_step fun s => ?_
  cases hrow : s.clients.get? id with
  | none => exact .refl s
  | some c =>
      refine ⟨le_rfl, fun k c' hc' => ?_, fun _ r hr => ⟨r, hr, rfl⟩, fun k hk => ?_, fun _ _ =>
        ⟨fun _ h => h, rfl⟩⟩
      · change (s.clients.modify id f).get? k = some c' at hc'
        by_cases hk : k = id
        · subst hk
          rw [Table.get?_modify_self, hrow] at hc'
          obtain rfl := Option.some.inj hc'
          exact ⟨c, hrow, (hf c).symm⟩
        · rw [Table.get?_modify_of_ne _ _ hk] at hc'
          exact ⟨c', hc', rfl⟩
      · exact ⟨Table.get?_modify_of_ne _ _ hk, fun _ _ => rfl, rfl, rfl, rfl⟩

theorem deleteRow_touches (id : ClientId) : (deleteRow id).Keeps (Touches {id} tills) := by
  refine keeps_step fun s => ?_
  cases s.clients.get? id with
  | none => exact .refl s
  | some c =>
      refine ⟨le_rfl, fun k c' hc' => ?_, fun _ r hr => ⟨r, hr, rfl⟩, fun k hk => ?_, fun _ _ =>
        ⟨fun _ h => h, rfl⟩⟩
      · change (s.clients.erase id).get? k = some c' at hc'
        rw [Table.get?_erase] at hc'
        split at hc'
        · cases hc'
        · exact ⟨c', hc', rfl⟩
      · refine ⟨?_, fun l hl => ?_, rfl, rfl, rfl⟩
        · change (s.clients.erase id).get? k = _
          exact (Table.get?_erase _ id k).trans (if_neg hk)
        · have hother : l.clientId ≠ id := fun heq => hk (hl.symm.trans heq)
          change (s.links.keep fun k => k.clientId ≠ id).get? l = _
          rw [Table.get?_keep, if_pos (by simpa using hother)]

/-- A write to the table of delayed starts, under one id. -/
theorem starts_touches {g : Table ClientId ℕ → Table ClientId ℕ}
    (hg : ∀ t, ∀ k ≠ id, (g t).get? k = t.get? k) :
    (write fun s => { s with pendingStarts := g s.pendingStarts } : Task Unit).Keeps
      (Touches {id} tills) :=
  keeps_modify fun _ => .of_kept rfl rfl fun k hk => ⟨fun _ _ => rfl, hg _ k hk, rfl, rfl⟩

/-- A write to the table of renewal rules, under one id. -/
theorem renews_touches {g : Table ClientId AutoRenewRule → Table ClientId AutoRenewRule}
    (hg : ∀ t, ∀ k ≠ id, (g t).get? k = t.get? k) :
    (write fun s => { s with autoRenews := g s.autoRenews } : Task Unit).Keeps
      (Touches {id} tills) :=
  keeps_modify fun _ => .of_kept rfl rfl fun k hk => ⟨fun _ _ => rfl, rfl, rfl, hg _ k hk⟩

theorem get?_erase_of_ne {ρ : Type} (t : Table ClientId ρ) {k : ClientId} (hk : k ≠ id) :
    (t.erase id).get? k = t.get? k := by rw [Table.get?_erase, if_neg hk]

theorem settleStart_touches (id : ClientId) (input : UpdateClientInput) :
    (settleStart id input).Keeps (Touches {id} tills) :=
  keeps_ite (starts_touches fun t _ hk => get?_erase_of_ne t hk) (keeps_pure ())

theorem armPendingStart_touches (id : ClientId) (days : ℕ) :
    (armPendingStart id days).Keeps (Touches {id} tills) :=
  keeps_ite (starts_touches fun t _ hk => Table.get?_set_of_ne t days hk) (keeps_pure ())

theorem clearPendingStart_touches (id : ClientId) :
    (clearPendingStart id).Keeps (Touches {id} tills) :=
  starts_touches fun t _ hk => get?_erase_of_ne t hk

theorem dropRule_touches (id : ClientId) : (dropRule id).Keeps (Touches {id} tills) :=
  renews_touches fun t _ hk => get?_erase_of_ne t hk

/-! ## Panels -/

/-- A panel keeps no books. -/
theorem callPanel_touches (f : Remote → Remote) : (callPanel f).Keeps (Touches ids tills) :=
  callPanel_keeps (fun _ => .of_books rfl le_rfl) fun _ => .of_books rfl le_rfl

theorem callRoute_touches (f : Remote → Remote) : (callRoute f).Keeps (Touches ids tills) := by
  refine keeps_step fun s => ?_
  cases s.replies s.calls with
  | done => exact .of_books rfl le_rfl
  | fails message => exact .of_books rfl le_rfl
  | missing => exact .of_books rfl le_rfl

theorem updateAttempts_touches (group : LinkGroup) (client : Client) (flow : String)
    (expiry : Option ℤ) (limitHwid n attempt : ℕ) (last : AppError) :
    (updateAttempts group client flow expiry limitHwid n attempt last).Keeps
    (Touches ids tills) := by
  induction n generalizing attempt last with
  | zero => exact keeps_throw last
  | succ n ih =>
      refine keeps_bind (keeps_attempt (keeps_bind (callPanel_touches _) fun _ => keeps_pure _)
        fun _ => keeps_pure _) fun answer => ?_
      cases answer with
      | none => exact keeps_pure ()
      | some err => exact keeps_ite (ih _ _) (keeps_throw err)

theorem pushGroup_touches {group : LinkGroup} (hkeys : ∀ k ∈ group.linkIds, k.clientId = id)
    (client : Client) (server : Server) (expiry : Option ℤ) (limitHwid : ℕ) :
    (pushGroup client server expiry limitHwid group).Keeps (Touches {id} tills) := by
  refine keeps_attempt (keeps_bind (updateAttempts_touches _ _ _ _ _ _ _ _) fun _ => ?_) fun err =>
    ?_
  · exact keeps_bind (updateLinks_touches hkeys _) fun _ => keeps_pure _
  · exact keeps_bind (updateLinks_touches hkeys _) fun _ => keeps_pure _

/-- A procedure that goes over groups whose servers it looks up. -/
theorem onServer_touches {β : Type} {servers : List (ServerId × Server)} {group : LinkGroup} {a : β}
    {p : ServerId × Server → Task β} (hp : ∀ server, (p server).Keeps (Touches ids tills)) :
    (match servers.find? fun s => s.1 = group.serverId with
      | none => pure a
      | some server => p server : Task β).Keeps (Touches ids tills) := by
  cases servers.find? fun s => s.1 = group.serverId with
  | none => exact keeps_pure a
  | some server => exact hp server

theorem pushGroups_touches (client : Client) (servers : List (ServerId × Server))
    (expiry : Option ℤ) (limitHwid : ℕ) {groups : List LinkGroup}
    (hkeys : ∀ g ∈ groups, ∀ k ∈ g.linkIds, k.clientId = id) :
    (pushGroups client servers expiry limitHwid groups).Keeps (Touches {id} tills) := by
  induction groups with
  | nil => exact keeps_pure _
  | cons group rest ih =>
      refine keeps_bind (onServer_touches fun server => ?_) fun _ =>
        keeps_bind (ih fun g hg => hkeys g (List.mem_cons_of_mem group hg)) fun _ => keeps_pure _
      exact pushGroup_touches (hkeys group List.mem_cons_self) _ _ _ _

theorem resetGroups_touches (servers : List (ServerId × Server)) {groups : List LinkGroup}
    (hkeys : ∀ g ∈ groups, ∀ k ∈ g.linkIds, k.clientId = id) :
    (resetGroups servers groups).Keeps (Touches {id} tills) := by
  induction groups with
  | nil => exact keeps_pure _
  | cons group rest ih =>
      refine keeps_bind (onServer_touches fun server => ?_) fun _ =>
        keeps_bind (ih fun g hg => hkeys g (List.mem_cons_of_mem group hg)) fun _ => keeps_pure _
      refine keeps_attempt (keeps_bind (callPanel_touches _) fun _ => ?_) fun err => keeps_pure _
      exact keeps_bind (updateLinks_touches (hkeys group List.mem_cons_self) _) fun _ =>
        keeps_pure _

theorem detachAll_touches (serverId : ServerId) (uuid : Draw) (inboundIds : List ℕ) :
    (detachAll serverId uuid inboundIds).Keeps (Touches ids tills) := by
  induction inboundIds with
  | nil => exact keeps_pure _
  | cons i rest ih => exact keeps_bind (callPanel_touches _) fun _ => ih

theorem deleteGroups_touches (client : Client) (servers : List (ServerId × Server))
    (groups : List LinkGroup) : (deleteGroups client servers groups).Keeps (Touches ids tills) := by
  induction groups with
  | nil => exact keeps_pure _
  | cons group rest ih =>
      refine keeps_bind (onServer_touches fun server => ?_) fun _ => keeps_bind ih fun _ =>
        keeps_pure _
      refine keeps_attempt (keeps_bind ?_ fun _ => keeps_pure _) fun err => keeps_pure _
      exact keeps_bind (callRoute_touches _) fun there =>
        keeps_ite (keeps_pure ()) (detachAll_touches _ _ _)

/-! ## Operations on one client -/

theorem groupLinks_client {links : List (LinkKey × ClientServer)} (hlinks : LinksOf id links) :
    ∀ g ∈ groupLinks links, ∀ k ∈ g.linkIds, k.clientId = id := by
  intro g hg k hk
  obtain ⟨r, hmem, -⟩ := ((groupLinks_grouped links).1.mem g hg k).mp hk
  exact hlinks _ hmem

theorem getClientForActor_isOf (actor : Actor) (id : ClientId) :
    (getClientForActor actor id).Yields (FullClient.IsOf id) := by
  refine yields_bind (yields_step (Q := fun c : Option FullClient => ∀ client ∈ c, client.IsOf id)
    fun s a h => ?_) fun client hclient => ?_
  · obtain rfl := Except.ok.inj h
    rintro client hfound
    obtain ⟨c, -, rfl⟩ := Option.map_eq_some_iff.mp hfound
    exact ⟨rfl, linksOf_linksOf s id⟩
  · cases client with
    | none => exact yields_throw _
    | some client => exact yields_pure (hclient client rfl)

/-- A look-up before an operation on the client that it finds. -/
theorem found_touches {actor : Actor} {f : FullClient → Task α}
    (hf : ∀ client, FullClient.IsOf id client → (f client).Keeps (Touches {id} tills)) :
    (getClientForActor actor id >>= f).Keeps (Touches {id} tills) :=
  keeps_seq (touches_of_reads (getClientForActor_reads actor id))
    (getClientForActor_isOf actor id) hf

theorem pushClient_touches {client : FullClient} (h : client.IsOf id) :
    (pushClient client).Keeps (Touches {id} tills) :=
  keeps_bind (read_touches _) fun _ => keeps_bind (read_touches _) fun _ =>
    keeps_bind (read_touches _) fun _ => pushGroups_touches _ _ _ _ (groupLinks_client h.2)

theorem recomputeClient_touches (id : ClientId) :
    (recomputeClient id).Keeps (Touches {id} tills) := by
  refine keeps_bind (read_touches _) fun found => ?_
  rcases found with _ | ⟨c, links, t⟩
  · exact keeps_pure ()
  · refine keeps_bind ?_ fun _ => keeps_ite (keeps_pure ())
      (keeps_ite (keeps_attempt ?_ fun _ => keeps_pure ()) (keeps_pure ()))
    · apply writeRow_touches
      exact fun _ => rfl
    exact keeps_bind (logs_touches (emitEvent_keeps_logged _ _)) fun _ =>
      logs_touches (notify_keeps_logged _)

/-- A reset touches the one client. -/
theorem resetClientTraffic_touches (actor : Actor) (id : ClientId) :
    (resetClientTraffic actor id).Keeps (Touches {id} tills) := by
  refine found_touches fun client h => keeps_bind (read_touches _) fun servers =>
    keeps_bind (resetGroups_touches _ (groupLinks_client h.2)) fun errors => ?_
  obtain ⟨rfl, -⟩ := h
  refine keeps_bind (recomputeClient_touches _) fun _ => keeps_bind (keeps_ite ?_ (keeps_pure ()))
    fun _ => keeps_bind (logs_touches (audit_keeps_logged _ _)) fun _ => keeps_pure _
  exact found_touches fun fresh hfresh => keeps_bind (pushClient_touches hfresh) fun _ =>
    keeps_pure _

theorem ClientData.apply_adminId (data : ClientData) (c : Client) :
    (data.apply c).adminId = c.adminId := rfl

theorem updateClient_touches (actor : Operator) (id : ClientId) (input : UpdateClientInput)
    (cause : Option OrderId) :
    (updateClient actor id input cause).Keeps (Touches {id} {actor.id}) := by
  refine found_touches fun current h => ?_
  obtain ⟨rfl, -⟩ := h
  refine keeps_bind (touches_of_reads (updateData_reads actor current input)) fun data =>
    keeps_bind (settleStart_touches _ _) fun _ =>
      keeps_bind (touches_of_reads (updateCost_reads actor current input)) fun cost =>
        keeps_bind (writeRow_touches _ (ClientData.apply_adminId data) _) fun _ =>
          keeps_bind (chargeFor_touches (Set.mem_singleton actor.id) _ _) fun _ =>
            keeps_bind (recomputeClient_touches _) fun _ => found_touches fun client hclient => ?_
  exact keeps_bind (pushClient_touches hclient) fun errors =>
    keeps_bind (logs_touches (audit_keeps_logged _ _)) fun _ => keeps_pure _

/-- A deletion touches the one client. -/
theorem deleteClient_touches (actor : Operator) (id : ClientId) :
    (deleteClient actor id).Keeps (Touches {id} tills) := by
  refine found_touches fun client h => ?_
  obtain ⟨rfl, -⟩ := h
  exact keeps_bind (read_touches _) fun servers =>
    keeps_bind (deleteGroups_touches _ _ _) fun errors =>
    keeps_bind (deleteRow_touches _) fun _ => keeps_bind (clearPendingStart_touches _) fun _ =>
      keeps_bind (logs_touches (audit_keeps_logged _ _)) fun _ => keeps_pure _

theorem setAutoRenew_touches (actor : Operator) (id : ClientId) (input : AutoRenewInput) :
    (setAutoRenew actor id input).Keeps (Touches {id} tills) := by
  refine found_touches fun client h => ?_
  obtain ⟨rfl, -⟩ := h
  exact keeps_bind (read_touches _) fun prev => keeps_bind (read_touches _) fun t =>
    keeps_bind (keeps_ite (keeps_throw _) (keeps_pure ())) fun _ =>
      keeps_bind (renews_touches fun t _ hk => Table.get?_set_of_ne t _ hk) fun _ =>
        keeps_bind (logs_touches (audit_keeps_logged _ _)) fun _ => keeps_pure _

/-- What follows the insertion of a new client. -/
theorem provisioned_touches {p : Task α} (hp : p.Keeps (Provisioned id)) :
    p.Keeps (Touches {id} tills) := by
  refine hp.mono fun s s' h => ?_
  have hbooks : s'.unlinked.books = s.unlinked.books := by rw [h.rest]
  have hnext : s'.unlinked.base.nextId = s.unlinked.base.nextId := by rw [h.rest]
  simp only [books, unlinked, Prod.mk.injEq] at hbooks
  obtain ⟨hclients, -, hstarts, hhwid, hrenews, hadmins, htxs⟩ := hbooks
  refine ⟨hnext.ge, fun k c' hc => ⟨c', hclients ▸ hc, rfl⟩, fun a r' hr => ⟨r', hadmins ▸ hr, rfl⟩,
    fun k hk => ?_, fun a _ => ?_⟩
  · refine ⟨by rw [hclients], fun l hl => h.others l fun heq => hk (hl.symm.trans heq), ?_, ?_, ?_⟩
    · rw [hstarts]
    · rw [hhwid]
    · rw [hrenews]
  · exact ⟨fun r hr => hadmins ▸ hr, by rw [htxs]⟩

/-! ## Moving a client -/

theorem dropLinks_touches {keys : List LinkKey} (hkeys : ∀ k ∈ keys, k.clientId = id) :
    (dropLinks keys).Keeps (Touches {id} tills) := by
  refine keeps_modify fun s => .of_kept rfl rfl fun k hk => ⟨fun l hl => ?_, rfl, rfl, rfl⟩
  have hnot : l ∉ keys := fun hmem => hk (hl.symm.trans (hkeys l hmem))
  rw [Table.get?_keep, if_pos (by simpa using hnot)]

theorem deleteOnPanel_touches (group : LinkGroup) (uuid : Draw) :
    (deleteOnPanel group uuid).Keeps (Touches ids tills) :=
  keeps_bind (callRoute_touches _) fun _ => keeps_ite (keeps_pure ()) (detachAll_touches _ _ _)

/-- What an entry drops is among the links. -/
theorem byEmail_drop {wanted : List Target} {links : List (LinkKey × ClientServer)} {e : EmailEntry}
    (he : e ∈ byEmail wanted links) : ∀ l ∈ e.drop, l ∈ links := by
  obtain ⟨g, hg, hof⟩ := List.mem_filterMap.mp he
  obtain ⟨first, -, rfl⟩ := Option.map_eq_some_iff.mp hof
  exact fun l hl => Grouping.mem_of_mem_grouped hg (List.mem_filter.mp hl).1

theorem detachEntry_touches {e : EmailEntry} (hdrop : ∀ l ∈ e.drop, l.1.clientId = id)
    (client : FullClient) (server : Server) (expiry : Option ℤ) (limitHwid : ℕ) :
    (detachEntry client server expiry limitHwid e).Keeps (Touches {id} tills) := by
  have hkeys : ∀ k ∈ e.drop.map Prod.fst, k.clientId = id := by
    rintro k hk
    obtain ⟨l, hl, rfl⟩ := List.mem_map.mp hk
    exact hdrop l hl
  refine keeps_attempt (keeps_bind (keeps_ite (deleteOnPanel_touches _ _)
    (updateAttempts_touches _ _ _ _ _ _ _ _)) fun _ => keeps_bind (dropLinks_touches hkeys) fun _ =>
      keeps_pure _) fun err => ?_
  exact keeps_ite (keeps_bind (dropLinks_touches hkeys) fun _ => keeps_pure _) (keeps_pure _)

theorem detachEntries_touches (client : FullClient) (servers : List (ServerId × Server))
    (expiry : Option ℤ) (limitHwid : ℕ) {entries : List EmailEntry}
    (hdrop : ∀ e ∈ entries, ∀ l ∈ e.drop, l.1.clientId = id) :
    (detachEntries client servers expiry limitHwid entries).Keeps (Touches {id} tills) := by
  induction entries with
  | nil => exact keeps_pure _
  | cons e rest ih =>
      refine keeps_bind (keeps_ite (keeps_pure _) ?_) fun _ =>
        keeps_bind (ih fun e' he' => hdrop e' (List.mem_cons_of_mem e he')) fun _ => keeps_pure _
      cases servers.find? fun s => s.1 = e.serverId with
      | none => exact keeps_pure _
      | some server => exact detachEntry_touches (hdrop e List.mem_cons_self) _ _ _ _

theorem addClient_touches (key : ServerId × String) (c : RemoteClient) :
    (addClient key c).Keeps (Touches ids tills) := by
  refine keeps_step fun s => ?_
  cases s.replies s.calls with
  | done =>
      by_cases hthere : (s.remote.get? key).isSome
      · simp only [if_pos hthere]
        exact .of_books rfl le_rfl
      · simp only [if_neg hthere]
        exact .of_books rfl le_rfl
  | fails message => exact .of_books rfl le_rfl
  | missing => exact .of_books rfl le_rfl

theorem limitedAttempts_touches (group : PanelGroup) (client : Client) (baseEmail : String)
    (expiry : Option ℤ) (limitHwid n attempt : ℕ) (email : String) (last : AppError) :
    (limitedAttempts group client baseEmail expiry limitHwid n attempt email last).Keeps
    (Touches ids tills) := by
  induction n generalizing attempt email last with
  | zero => exact keeps_throw last
  | succ n ih =>
      refine keeps_bind (keeps_attempt (keeps_bind (addClient_touches _ _) fun _ => keeps_pure _)
        fun _ => keeps_pure _) fun answer => ?_
      cases answer with
      | none => exact keeps_pure email
      | some err =>
          exact keeps_ite (keeps_throw err) (keeps_ite (ih _ _ _)
            (keeps_ite (ih _ _ _) (keeps_throw err)))

theorem attachGroup_touches (client : FullClient) (expiry : Option ℤ) (limitHwid : ℕ)
    (kept : List (LinkKey × ClientServer)) (host : Option (LinkKey × ClientServer)) (email : String)
    (group : PanelGroup) : (attachGroup client expiry limitHwid kept host email group).Keeps
      (Touches {client.id} tills) := by
  have hkeys : ∀ k ∈ groupKeys client.id group, k.clientId = client.id :=
    groupKeys_client client.id group
  refine keeps_bind (provisioned_touches (createLinks_provisioned email _ hkeys)) fun _ =>
    keeps_attempt ?_ fun err => keeps_bind (updateLinks_touches hkeys _) fun _ => keeps_pure _
  cases host with
  | some _ => exact keeps_bind (updateAttempts_touches _ _ _ _ _ _ _ _) fun _ => keeps_pure _
  | none =>
      exact keeps_bind (limitedAttempts_touches _ _ _ _ _ _ _ _ _) fun remoteEmail =>
        keeps_ite (keeps_pure _) (keeps_bind (updateLinks_touches hkeys _) fun _ => keeps_pure _)

theorem attachGroups_touches (client : FullClient) (servers : List (ServerId × Server))
    (expiry : Option ℤ) (limitHwid : ℕ) (kept : List (LinkKey × ClientServer))
    (used : List (ServerId × String))
    (groups : List PanelGroup) :
      (attachGroups client servers expiry limitHwid kept used groups).Keeps
        (Touches {client.id} tills) := by
  induction groups generalizing used with
  | nil => exact keeps_pure _
  | cons group rest ih =>
      exact keeps_bind (attachGroup_touches _ _ _ _ _ _ _) fun _ => keeps_bind (ih _) fun _ =>
        keeps_pure _

theorem setClientTargets_touches (actor : Operator) (id : ClientId) (targets : List Target) :
    (setClientTargets actor id targets).Keeps (Touches {id} tills) := by
  have hrefuse : ∀ (b : Bool) (err : AppError),
      (refuseIf b err).Keeps (Touches {id} tills) := fun _ _ =>
    keeps_ite (keeps_throw _) (keeps_pure _)
  refine found_touches fun client h => keeps_bind (hrefuse _ _) fun _ => keeps_ite (keeps_pure _) ?_
  obtain ⟨rfl, hlinks⟩ := h
  refine keeps_bind (touches_of_reads (assertQuota_reads _ _ _ _)) fun _ =>
    keeps_bind (read_touches _) fun servers => keeps_bind (hrefuse _ _) fun _ =>
      keeps_bind (read_touches _) fun _ => keeps_bind (read_touches _) fun _ => ?_
  refine keeps_bind (detachEntries_touches _ _ _ _ fun e he l hl => hlinks l (byEmail_drop he l hl))
    fun detached =>
    keeps_bind (attachGroups_touches _ _ _ _ _ _ _) fun attached =>
      keeps_bind (recomputeClient_touches _) fun _ =>
        keeps_bind (logs_touches (audit_keeps_logged _ _)) fun _ =>
          keeps_bind (touches_of_reads (getClientForActor_reads _ _)) fun fresh => keeps_pure _

theorem writeHwidLimit_touches (id : ClientId) (limit : ℤ) :
    (writeHwidLimit id limit).Keeps (Touches {id} tills) := by
  refine keeps_bind (keeps_modify fun s => .of_kept rfl rfl fun k hk =>
    ⟨fun _ _ => rfl, rfl, ?_, rfl⟩) fun _ => keeps_pure _
  change (if clampHwid limit = 0 then s.hwidLimits.erase id else s.hwidLimits.set id
    (clampHwid limit)).get? k = _
  split
  · exact get?_erase_of_ne _ hk
  · exact Table.get?_set_of_ne _ _ hk

theorem setClientHwidLimit_touches (actor : Operator) (id : ClientId) (input : ℤ) :
    (setClientHwidLimit actor id input).Keeps (Touches {id} tills) := by
  refine found_touches fun client h => ?_
  have hpush : (pushClient client).Keeps (Touches {id} tills) := pushClient_touches h
  obtain ⟨rfl, -⟩ := h
  exact keeps_bind (writeHwidLimit_touches _ _) fun limit => keeps_bind hpush fun errors =>
    keeps_bind (logs_touches (audit_keeps_logged _ _)) fun _ => keeps_pure _

theorem clearAutoRenew_touches (actor : Operator) (id : ClientId) :
    (clearAutoRenew actor id).Keeps (Touches {id} tills) := by
  refine found_touches fun client h => ?_
  obtain ⟨rfl, -⟩ := h
  exact keeps_bind (dropRule_touches _) fun _ => logs_touches (audit_keeps_logged _ _)

/-! ## Renewals -/

theorem runRule_touches (t : ℤ) (id : ClientId) (rule : AutoRenewRule) :
    (runRule t id rule).Keeps (Touches {id} tills) := by
  have hdrop : (do
      dropRule id
      pure (⟨0, 0, 0⟩ : AutoRenewTick) : Task AutoRenewTick).Keeps (Touches {id} tills) :=
    keeps_bind (dropRule_touches id) fun _ => keeps_pure _
  refine keeps_bind (read_touches _) fun client => ?_
  cases client with
  | none => exact hdrop
  | some client =>
      refine keeps_ite (keeps_pure _) (keeps_bind (read_touches _) fun admin => ?_)
      cases admin with
      | none => exact hdrop
      | some admin =>
          refine keeps_bind (keeps_attempt (keeps_bind (resetClientTraffic_touches _ _) fun _ =>
            keeps_pure _) fun _ => keeps_pure _) fun resetFailed => ?_
          refine keeps_bind (keeps_ite ?_ (keeps_pure _)) fun pushFailed =>
            keeps_bind (logs_touches (audit_keeps_logged _ _)) fun _ =>
              keeps_bind (keeps_ite ?_ ?_) fun last => keeps_pure _
          · refine keeps_bind ?_ fun _ => keeps_attempt ?_ fun _ => keeps_pure _
            · apply writeRow_touches
              exact fun _ => rfl
            exact found_touches fun client h => keeps_bind (pushClient_touches h) fun _ =>
              keeps_pure _
          · exact keeps_bind (dropRule_touches id) fun _ => keeps_pure _
          · exact keeps_bind (renews_touches fun t _ hk => Table.get?_set_of_ne t _ hk) fun _ =>
            keeps_pure _

end

end Site

end SRPanel
