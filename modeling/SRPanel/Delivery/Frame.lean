import SRPanel.Lib.Reads
import SRPanel.Model.Fulfilment

/-!
# Fulfilment, step by step

What the parts of a fulfilment leave alone. The synchronisation with the panels changes counters and
derived columns only, and cannot fail; the guards of `createClient` and `updateClient` and the
look-up of targets only read.
-/

namespace SRPanel

open Interleaving Prog

/-! ## Synchronisation with the panels -/

/-- A client without the columns that synchronisation writes. -/
def Client.settled (c : Client) : Client := { c with usedUp := 0, usedDown := 0, status := .active }

/-- A link without the note of the last error. -/
def ClientServer.noted (l : ClientServer) : ClientServer := { l with lastError := none }

/-- A link without the columns that synchronisation writes. -/
def ClientServer.settled (l : ClientServer) : ClientServer :=
  { l with up := 0, down := 0, lastError := none }

/-- A site without its journal, the panels, and the notes on links that a push to the panels leaves.
-/
def Site.noted (s : Site) : Site :=
  { s with
    base := { s.base with journal := [] }
    links := s.links.mapRows fun _ l => l.noted
    remote := .empty
    calls := 0 }

/-- A site without what a recomputation writes either. -/
def Site.lasting (s : Site) : Site :=
  { s.noted with clients := s.clients.mapRows fun _ c => c.settled }

/-- A site without its counters too. -/
def Site.settled (s : Site) : Site :=
  { s.lasting with links := s.links.mapRows fun _ l => l.settled }

/-- A change that a push to the panels may make: no remote client appears or goes. -/
structure Annotated (s s' : Site) : Prop where
  noted : s'.noted = s.noted
  remote : ∀ k, (s'.remote.get? k).isSome = (s.remote.get? k).isSome

/-- A change that a recomputation with a push may make. -/
structure Pushed (s s' : Site) : Prop where
  lasting : s'.lasting = s.lasting
  remote : ∀ k, (s'.remote.get? k).isSome = (s.remote.get? k).isSome

/-- A change that synchronisation may make, which writes counters too. -/
structure Synced (s s' : Site) : Prop where
  settled : s'.settled = s.settled
  remote : ∀ k, (s'.remote.get? k).isSome = (s.remote.get? k).isSome

theorem Site.lasting_noted (s : Site) : s.noted.lasting = s.lasting := by
  simp only [lasting, noted, Table.mapRows_mapRows]
  rfl

theorem Site.settled_lasting (s : Site) : s.lasting.settled = s.settled := by
  simp only [settled, lasting, noted, Table.mapRows_mapRows]
  rfl

namespace Annotated

variable {s s' : Site}

theorem refl (s : Site) : Annotated s s := ⟨rfl, fun _ => rfl⟩

theorem trans (s s' s'' : Site) (h : Annotated s s') (h' : Annotated s' s'') : Annotated s s'' :=
  ⟨h'.noted.trans h.noted, fun k => (h'.remote k).trans (h.remote k)⟩

theorem pushed (h : Annotated s s') : Pushed s s' :=
  ⟨by rw [← s'.lasting_noted, h.noted, s.lasting_noted], h.remote⟩

/-- Reads of what a push does not write. -/
theorem same {α : Type} (h : Annotated s s') (f : Site → α) (hf : ∀ s, f s.noted = f s) :
    f s' = f s := by
  rw [← hf s', h.noted, hf s]

/-- The links of a client, less their notes. -/
theorem linksOf {α : Type} (h : Annotated s s') (id : ClientId) (g : LinkKey × ClientServer → α)
    (hg : ∀ r : LinkKey × ClientServer, g (r.1, r.2.noted) = g r) :
    (s'.linksOf id).map g = (s.linksOf id).map g := by
  have hlinks : (s'.links.mapRows fun _ l => l.noted) = s.links.mapRows fun _ l => l.noted :=
    congrArg Site.links h.noted
  exact Table.filter_map_of_mapRows_eq hlinks _ g (fun _ => rfl) hg

/-- A change of the journal alone. -/
theorem of_logged {w : World}
    (h : ({ w with journal := [] } : World) = { s.base with journal := [] }) :
      Annotated s { s with base := w } := by
  refine ⟨?_, fun _ => rfl⟩
  simp only [Site.noted, h]

end Annotated

namespace Pushed

variable {s s' : Site}

theorem refl (s : Site) : Pushed s s := ⟨rfl, fun _ => rfl⟩

theorem trans (s s' s'' : Site) (h : Pushed s s') (h' : Pushed s' s'') : Pushed s s'' :=
  ⟨h'.lasting.trans h.lasting, fun k => (h'.remote k).trans (h.remote k)⟩

theorem synced (h : Pushed s s') : Synced s s' :=
  ⟨by rw [← s'.settled_lasting, h.lasting, s.settled_lasting], h.remote⟩

/-- Reads of what a push does not write. -/
theorem same {α : Type} (h : Pushed s s') (f : Site → α) (hf : ∀ s, f s.lasting = f s) :
    f s' = f s := by
  rw [← hf s', h.lasting, hf s]

end Pushed

namespace Synced

variable {s s' : Site}

theorem refl (s : Site) : Synced s s := ⟨rfl, fun _ => rfl⟩

theorem trans (s s' s'' : Site) (h : Synced s s') (h' : Synced s' s'') : Synced s s'' :=
  ⟨h'.settled.trans h.settled, fun k => (h'.remote k).trans (h.remote k)⟩

/-- Reads of what synchronisation does not write. -/
theorem same {α : Type} (h : Synced s s') (f : Site → α) (hf : ∀ s, f s.settled = f s) :
    f s' = f s := by
  rw [← hf s', h.settled, hf s]

theorem client (h : Synced s s') (id : ClientId) :
    (s'.clients.get? id).map Client.settled = (s.clients.get? id).map Client.settled := by
  have hget := congrArg (fun t : Site => t.clients.get? id) h.settled
  simpa only [Site.settled, Site.lasting, Table.get?_mapRows] using hget

theorem link (h : Synced s s') (k : LinkKey) :
    (s'.links.get? k).map ClientServer.settled = (s.links.get? k).map ClientServer.settled := by
  have hget := congrArg (fun t : Site => t.links.get? k) h.settled
  simpa only [Site.settled, Table.get?_mapRows] using hget

end Synced

/-- A world with more in its journal. -/
def Logged (w w' : World) : Prop := ({ w' with journal := [] } : World) = { w with journal := [] }

theorem Logged.refl (w : World) : Logged w w := rfl

/-- Reads of anything but the journal. -/
theorem Logged.same {w w' : World} {α : Type} (h : Logged w w') (f : World → α)
    (hf : ∀ w, f { w with journal := [] } = f w) : f w' = f w := by
  rw [← hf w', show ({ w' with journal := [] } : World) = { w with journal := [] } from h, hf w]

theorem audit_keeps_logged (adminId : Option AdminId) (action : String) :
    (audit adminId action).Keeps Logged :=
  keeps_attempt (keeps_modify fun _ => rfl) fun _ => keeps_pure ()

theorem notify_keeps_logged (kind : String) : (notify kind).Keeps Logged :=
  keeps_attempt (keeps_modify fun _ => rfl) fun _ => keeps_pure ()

theorem emitEvent_keeps_logged (adminId : Option AdminId) (name : String) :
    (emitEvent adminId name).Keeps Logged := keeps_modify fun _ => rfl

theorem audit_returns (adminId : Option AdminId) (action : String) :
    (audit adminId action).Returns :=
  returns_attempt fun _ => returns_pure ()

theorem notify_returns (kind : String) : (notify kind).Returns :=
  returns_attempt fun _ => returns_pure ()

theorem emitEvent_returns (adminId : Option AdminId) (name : String) :
    (emitEvent adminId name).Returns :=
  returns_modify _ _

/-- A site in which only the journal has grown. -/
structure Site.Logs (s s' : Site) : Prop where
  rest : s' = { s with base := s'.base }
  base : Logged s.base s'.base

theorem Site.Logs.refl (s : Site) : s.Logs s := ⟨rfl, rfl⟩

theorem Site.Logs.trans (s s' s'' : Site) (h : s.Logs s') (h' : s'.Logs s'') : s.Logs s'' :=
  ⟨by rw [h'.rest, h.rest], Eq.trans h'.base h.base⟩

theorem Site.Logs.annotated {s s' : Site} (h : s.Logs s') : Annotated s s' := by
  rw [h.rest]
  exact Annotated.of_logged h.base

theorem Site.Logs.pushed {s s' : Site} (h : s.Logs s') : Pushed s s' := h.annotated.pushed

/-! ## Charges -/

/-- What a charge of a wallet may change. -/
structure Charged (w w' : World) : Prop where
  rest : ({ w' with journal := [], admins := .empty, walletTxs := [] } : World) =
    { w with journal := [], admins := .empty, walletTxs := [] }
  role : ∀ id, (w'.admins.get? id).map Admin.role = (w.admins.get? id).map Admin.role

theorem Charged.refl (w : World) : Charged w w := ⟨rfl, fun _ => rfl⟩

theorem Charged.of_logged {w w' : World} (h : Logged w w') : Charged w w' := by
  refine ⟨?_, fun id => ?_⟩
  · exact congrArg (fun v : World => ({ v with admins := .empty, walletTxs := [] } : World)) h
  · have hadmins : ({ w' with journal := [] } : World).admins = w.admins := by rw [h]
    rw [show w'.admins = w.admins from hadmins]

theorem commitCharge_keeps_charged (row : WalletTx AdminId) : (commitCharge row).Keeps Charged := by
  refine keeps_step fun w => ?_
  cases ha : w.admins.get? row.holder with
  | none => exact Charged.refl w
  | some a =>
      refine ⟨rfl, fun id => ?_⟩
      show ((w.admins.modify row.holder _).get? id).map _ = _
      rw [Table.get?_modify]
      split
      · rw [Option.map_map]
        rfl
      · rfl

theorem lowBalanceAlert_keeps_logged (adminId : AdminId) (before after : ℤ) :
    (lowBalanceAlert adminId before after).Keeps Logged := by
  refine keeps_attempt (keeps_bind (keeps_query Logged.refl _ _) fun limit =>
    keeps_ite (keeps_pure ()) (keeps_bind (keeps_query Logged.refl _ _)
      fun a => ?_)) fun _ => keeps_pure ()
  cases a with
  | none => exact keeps_pure ()
  | some a => exact keeps_ite (keeps_pure ()) (notify_keeps_logged _)

theorem alertAfter_keeps_logged (row : WalletTx AdminId) : (alertAfter row).Keeps Logged :=
  keeps_ite (lowBalanceAlert_keeps_logged _ _ _) (keeps_pure ())

theorem alertAfter_returns (row : WalletTx AdminId) : (alertAfter row).Returns :=
  returns_ite (returns_attempt fun _ => returns_pure ()) (returns_pure ())

theorem chargeWallet_keeps_charged (target : Actor) (amount : ℤ) (kind : WalletTxKind) (ref : TxRef)
    (byAdminId : Option AdminId) (allowNegative : Bool) :
    (chargeWallet target amount kind ref byAdminId allowNegative).Keeps Charged := by
  refine keeps_ite (keeps_pure _) (keeps_ite (keeps_pure _)
    (keeps_bind ?_ fun limit => keeps_bind (keeps_query Charged.refl _ _) fun a => ?_))
  · exact keeps_ite (keeps_query Charged.refl _ _) (keeps_pure _)
  · cases a with
    | none => exact keeps_throw _
    | some a =>
        refine keeps_ite (keeps_throw _) (keeps_bind (commitCharge_keeps_charged _)
          fun row => keeps_bind ?_ fun _ => keeps_pure _)
        exact (alertAfter_keeps_logged row).mono fun _ _ h => .of_logged h

namespace Site

/-- A service that only logs. -/
theorem lift_logs {α : Type} {p : Service α} (hp : p.Keeps Logged) : (lift p).Keeps Logs :=
  (hp.zoom Site.world Mark.base).mono fun _ _ h => ⟨h.2.symm, h.1⟩

theorem lift_annotated {α : Type} {p : Service α} (hp : p.Keeps Logged) :
    (lift p).Keeps Annotated :=
  (lift_logs hp).mono fun _ _ h => h.annotated

theorem lift_pushed {α : Type} {p : Service α} (hp : p.Keeps Logged) : (lift p).Keeps Pushed :=
  (lift_logs hp).mono fun _ _ h => h.pushed

/-- A procedure that only pushes, in the frame of a recomputation. -/
theorem pushed_of_annotated {α : Type} {t : Task α} (ht : t.Keeps Annotated) : t.Keeps Pushed :=
  ht.mono fun _ _ h => h.pushed

theorem refuseIf_reads {V : Site → Site → Prop} (c : Bool) (e : AppError) :
    (refuseIf c e).Reads V :=
  reads_ite (reads_throw e) (reads_pure ())

/-- An operation of an adapter stays within a frame that allows more calls and its effect on the
panel. -/
theorem callPanel_keeps {R : Site → Site → Prop} {f : Remote → Remote}
    (hcalls : ∀ s : Site, R s { s with calls := s.calls + 1 })
    (hf : ∀ s : Site, R s { s with remote := f s.remote, calls := s.calls + 1 }) :
      (callPanel f).Keeps R := by
  refine keeps_bind (keeps_step fun s => ?_) fun there =>
    keeps_ite (keeps_pure ()) (keeps_throw _)
  cases s.replies s.calls with
  | done => exact hf s
  | fails message => exact hcalls s
  | missing => exact hcalls s

/-- Adding a client to a panel stays within a frame that allows more calls and new remote clients.
-/
theorem addAttempts_keeps {R : Site → Site → Prop}
    (hcalls : ∀ s : Site, R s { s with calls := s.calls + 1 })
      (hadd : ∀ (s : Site) k c, s.remote.get? k = none →
        R s { s with remote := s.remote.set k c, calls := s.calls + 1 })
    {group : PanelGroup} {client : Client} {baseEmail : String} {expiry : Option ℤ} {n attempt : ℕ}
    {email : String} {last : AppError} :
    (addAttempts group client baseEmail expiry n attempt email last).Keeps R := by
  induction n generalizing attempt email last with
  | zero => exact keeps_throw last
  | succ n ih =>
      refine keeps_bind (keeps_attempt (keeps_bind (keeps_step fun s => ?_)
        fun _ => keeps_pure _) fun _ => keeps_pure _) fun answer => ?_
      · cases s.replies s.calls with
        | done =>
            cases hfree : s.remote.get? (group.serverId, email) with
            | none => exact hadd s _ _ hfree
            | some _ => exact hcalls s
        | fails message => exact hcalls s
        | missing => exact hcalls s
      · cases answer with
        | none => exact keeps_pure _
        | some err =>
            exact keeps_ite (keeps_throw _) (keeps_ite ih (keeps_ite ih (keeps_throw _)))

theorem callPanel_wp (f : Remote → Remote) {Q : Unit → Site → Prop} {E : AppError → Site → Prop}
    {s : Site} : Prog.wp (callPanel f) Q E s ↔ match s.replies s.calls with
      | .done => Q () { s with remote := f s.remote, calls := s.calls + 1 }
      | .fails message => E ⟨message, 502, "panel_error"⟩ { s with calls := s.calls + 1 }
      | .missing => E missingEndpoint { s with calls := s.calls + 1 } := by
  rw [callPanel, wp_bind, callRoute, wp_step]
  cases s.replies s.calls with
  | done => exact Iff.rfl
  | fails message => exact Iff.rfl
  | missing => exact Iff.rfl

theorem callPanel_annotated (f : Remote → Remote)
    (hf : ∀ r k, ((f r).get? k).isSome = (r.get? k).isSome) : (callPanel f).Keeps Annotated :=
  callPanel_keeps (fun _ => ⟨rfl, fun _ => rfl⟩) fun s => ⟨rfl, fun k => hf s.remote k⟩

theorem caught_annotated {t : Task Unit} (ht : t.Keeps Annotated) : (caught t).Keeps Annotated :=
  keeps_attempt (keeps_bind ht fun _ => keeps_pure _) fun _ => keeps_pure _

theorem updateAttempts_annotated (group : LinkGroup) (client : Client) (flow : String)
    (expiry : Option ℤ) (limitHwid n attempt : ℕ) (last : AppError) :
    (updateAttempts group client flow expiry limitHwid n attempt last).Keeps Annotated := by
  induction n generalizing attempt last with
  | zero => exact keeps_throw last
  | succ n ih =>
      refine keeps_bind (caught_annotated (callPanel_annotated _ fun r k =>
        Table.isSome_modify r _ _ k)) fun answer => ?_
      cases answer with
      | none => exact keeps_pure ()
      | some err => exact keeps_ite (ih _ _) (keeps_throw err)

theorem updateLinks_annotated (keys : List LinkKey) (f : ClientServer → ClientServer)
    (hf : ∀ l, (f l).noted = l.noted) : (updateLinks keys f).Keeps Annotated := by
  refine keeps_modify fun s => ⟨?_, fun _ => rfl⟩
  simp only [noted, Table.mapRows_mapRows]
  congr 2
  funext k l
  split
  · exact hf l
  · rfl

theorem pushGroup_annotated (client : Client) (server : Server) (expiry : Option ℤ) (limitHwid : ℕ)
    (group : LinkGroup) : (pushGroup client server expiry limitHwid group).Keeps Annotated := by
  refine keeps_attempt (keeps_bind ?_ fun _ => keeps_bind ?_ fun _ => keeps_pure _)
    fun err => keeps_bind ?_ fun _ => keeps_pure _
  · exact updateAttempts_annotated group client _ expiry limitHwid _ _ _
  · exact updateLinks_annotated _ _ fun _ => rfl
  · exact updateLinks_annotated _ _ fun _ => rfl

theorem updateLinks_returns (keys : List LinkKey) (f : ClientServer → ClientServer) :
    (updateLinks keys f).Returns := returns_modify _ _

theorem pushGroup_returns (client : Client) (server : Server) (expiry : Option ℤ) (limitHwid : ℕ)
    (group : LinkGroup) : (pushGroup client server expiry limitHwid group).Returns :=
  returns_attempt fun _ => returns_bind (updateLinks_returns _ _) fun _ => returns_pure _

theorem pushGroups_annotated (client : Client) (servers : List (ServerId × Server))
    (expiry : Option ℤ) (limitHwid : ℕ) (groups : List LinkGroup) :
    (pushGroups client servers expiry limitHwid groups).Keeps Annotated := by
  induction groups with
  | nil => exact keeps_pure _
  | cons group rest ih =>
      refine keeps_bind ?_ fun _ => keeps_bind ih fun _ => keeps_pure _
      cases servers.find? fun s => s.1 = group.serverId with
      | none => exact keeps_pure _
      | some server => exact pushGroup_annotated client server.2 expiry limitHwid group

theorem pushGroups_returns (client : Client) (servers : List (ServerId × Server))
    (expiry : Option ℤ) (limitHwid : ℕ) (groups : List LinkGroup) :
    (pushGroups client servers expiry limitHwid groups).Returns := by
  induction groups with
  | nil => exact returns_pure _
  | cons group rest ih =>
      refine returns_bind ?_ fun _ => returns_bind ih fun _ => returns_pure _
      cases servers.find? fun s => s.1 = group.serverId with
      | none => exact returns_pure _
      | some server => exact pushGroup_returns client server.2 expiry limitHwid group

theorem read_annotated {α : Type} (f : Site → α) : (read f).Keeps Annotated :=
  keeps_query Annotated.refl _ f

theorem read_pushed {α : Type} (f : Site → α) : (read f).Keeps Pushed := keeps_query Pushed.refl _ f

theorem read_returns {α : Type} (f : Site → α) : (read f).Returns := returns_query _ f

theorem pushClient_annotated (client : FullClient) : (pushClient client).Keeps Annotated :=
  keeps_bind (read_annotated _) fun _ => keeps_bind (read_annotated _) fun _ =>
    keeps_bind (read_annotated _) fun _ => pushGroups_annotated _ _ _ _ _

theorem pushClient_pushed (client : FullClient) : (pushClient client).Keeps Pushed :=
  pushed_of_annotated (pushClient_annotated client)

/-- A push to all panels cannot fail. -/
theorem pushClient_returns (client : FullClient) : (pushClient client).Returns :=
  returns_bind (read_returns _) fun _ => returns_bind (read_returns _) fun _ =>
    returns_bind (read_returns _) fun _ => pushGroups_returns _ _ _ _ _

theorem onClientStatusChanged_annotated (c : Client) (status : ClientStatus) :
    (onClientStatusChanged c status).Keeps Annotated := by
  refine keeps_ite (keeps_attempt ?_ fun _ => keeps_pure ()) (keeps_pure ())
  exact keeps_bind (lift_annotated (emitEvent_keeps_logged _ _)) fun _ =>
    lift_annotated (notify_keeps_logged _)

theorem onClientStatusChanged_returns (c : Client) (status : ClientStatus) :
    (onClientStatusChanged c status).Returns :=
  returns_ite (returns_attempt fun _ => returns_pure ()) (returns_pure ())

theorem writeRow_pushed (mark : Mark) (id : ClientId) (f : Client → Client)
    (hf : ∀ c, (f c).settled = c.settled) : (writeRow mark id f none).Keeps Pushed := by
  refine keeps_step fun s => ?_
  split
  · exact Pushed.refl s
  · refine ⟨?_, fun _ => rfl⟩
    simp only [lasting, noted]
    rw [Table.mapRows_modify _ _ _ _ hf]
    rfl

theorem recomputeClient_pushed (id : ClientId) : (recomputeClient id).Keeps Pushed := by
  refine keeps_bind (read_pushed _) fun found => ?_
  rcases found with _ | ⟨c, links, t⟩
  · exact keeps_pure ()
  · refine keeps_bind (writeRow_pushed _ _ _ fun _ => rfl) fun _ => ?_
    exact keeps_ite (keeps_pure ()) (pushed_of_annotated (onClientStatusChanged_annotated c _))

theorem getClientForActor_pushed (actor : Actor) (id : ClientId) :
    (getClientForActor actor id).Keeps Pushed := by
  refine keeps_bind (read_pushed _) fun client => ?_
  cases client with
  | none => exact keeps_throw _
  | some client => exact keeps_pure client

theorem pushIfLimited_pushed (actor : Actor) (client : FullClient) :
    (pushIfLimited actor client).Keeps Pushed :=
  keeps_ite
    (keeps_bind (getClientForActor_pushed _ _) fun fresh =>
      keeps_bind (pushClient_pushed fresh) fun _ => keeps_pure ())
    (keeps_pure ())

/-- A procedure within the wider frame. -/
theorem synced_of_pushed {α : Type} {t : Task α} (ht : t.Keeps Pushed) : t.Keeps Synced :=
  ht.mono fun _ _ h => h.synced

theorem updateLinks_synced (keys : List LinkKey) (f : ClientServer → ClientServer)
    (hf : ∀ l, (f l).settled = l.settled) : (updateLinks keys f).Keeps Synced := by
  refine keeps_modify fun s => ⟨?_, fun _ => rfl⟩
  simp only [settled, lasting, noted, Table.mapRows_mapRows]
  congr 2
  funext k l
  split
  · exact hf l
  · rfl

theorem resetGroup_synced (server : Server) (group : LinkGroup) :
    (resetGroup server group).Keeps Synced :=
  keeps_attempt
    (keeps_bind (synced_of_pushed (pushed_of_annotated
      (callPanel_annotated _ fun r => r.isSome_modify _ _))) fun _ =>
      keeps_bind (updateLinks_synced _ _ fun _ => rfl) fun _ => keeps_pure _)
    fun _ => keeps_pure _

theorem resetGroups_synced (servers : List (ServerId × Server)) (groups : List LinkGroup) :
    (resetGroups servers groups).Keeps Synced := by
  induction groups with
  | nil => exact keeps_pure _
  | cons group rest ih =>
      refine keeps_bind ?_ fun _ => keeps_bind ih fun _ => keeps_pure _
      cases servers.find? fun s => s.1 = group.serverId with
      | none => exact keeps_pure _
      | some server => exact resetGroup_synced server.2 group

theorem resetClientTraffic_synced (actor : Actor) (id : ClientId) :
    (resetClientTraffic actor id).Keeps Synced :=
  keeps_bind (synced_of_pushed (getClientForActor_pushed _ _)) fun client =>
    keeps_bind (synced_of_pushed (read_pushed _)) fun _ =>
      keeps_bind (resetGroups_synced _ _) fun _ =>
        keeps_bind (synced_of_pushed (recomputeClient_pushed _)) fun _ =>
          keeps_bind (synced_of_pushed (pushIfLimited_pushed actor client)) fun _ =>
            keeps_bind (synced_of_pushed (lift_pushed (audit_keeps_logged _ _))) fun _ =>
              keeps_pure _

end Site

/-! ## Guards -/

/-- Two sites in which the guards of `createClient` and `updateClient` look at the same. -/
structure SameTerms (s s' : Site) : Prop where
  now : s'.base.now = s.base.now
  creditLimit : s'.base.creditLimit = s.base.creditLimit
  credit : ∀ id, (s'.base.admins.get? id).map Admin.credit =
    (s.base.admins.get? id).map Admin.credit
  accounts : s'.accounts = s.accounts
  clientTypes : s'.clientTypes = s.clientTypes
  pricing : s'.pricing = s.pricing
  servers : s'.servers = s.servers
  clients : (s'.clients.mapRows fun _ c => c.settled) = s.clients.mapRows fun _ c => c.settled

/-- Two sites in which the look-up of an order's targets finds the same. -/
structure SameStock (s s' : Site) : Prop where
  plans : s'.plans = s.plans
  services : s'.services = s.services
  servers : s'.servers = s.servers
  accounts : s'.accounts = s.accounts

namespace SameTerms

variable {s s' : Site}

theorem of_synced (h : Synced s s') : SameTerms s s' where
  now := h.same (fun s => s.base.now) fun _ => rfl
  creditLimit := h.same (fun s => s.base.creditLimit) fun _ => rfl
  credit _ := by rw [h.same (fun s => s.base.admins) fun _ => rfl]
  accounts := h.same Site.accounts fun _ => rfl
  clientTypes := h.same Site.clientTypes fun _ => rfl
  pricing := h.same Site.pricing fun _ => rfl
  servers := h.same Site.servers fun _ => rfl
  clients := congrArg Site.clients h.settled

theorem serverAccessOf (h : SameTerms s s') (id : AdminId) :
    s'.serverAccessOf id = s.serverAccessOf id := by
  rw [Site.serverAccessOf, Site.serverAccessOf, h.accounts]

/-- A selection of clients that does not look at what synchronisation writes. -/
theorem filter_map {α : Type} (h : SameTerms s s') (p : ClientId × Client → Bool)
    (g : ClientId × Client → α) (hp : ∀ r, p (r.1, r.2.settled) = p r)
    (hg : ∀ r, g (r.1, r.2.settled) = g r) :
    (s'.clients.rows.filter p).map g = (s.clients.rows.filter p).map g :=
  Table.filter_map_of_mapRows_eq h.clients p g hp hg

theorem count (h : SameTerms s s') (p : ClientId × Client → Bool)
    (hp : ∀ r, p (r.1, r.2.settled) = p r) :
    (s'.clients.rows.filter p).length = (s.clients.rows.filter p).length := by
  have hmap := congrArg List.length (h.filter_map p Prod.fst hp fun _ => rfl)
  rwa [List.length_map, List.length_map] at hmap

end SameTerms

namespace Site

theorem now_reads : now.Reads SameTerms := reads_query fun s s' h => by rw [h.now]

theorem assertServiceKind_reads {V : Site → Site → Prop} (settings : ClientTypeSettings)
    (kind : ClientKind) (serviceId : Option ServiceId) :
    (assertServiceKind settings kind serviceId).Reads V := by
  unfold assertServiceKind
  cases serviceId.bind settings.services.get? with
  | none => exact reads_pure ()
  | some sk => exact refuseIf_reads _ _

theorem assertUnlimitedMax_reads (actor : Actor) (kind : ClientKind) (allowed : KindAccess)
    (exclude : Option ClientId) : (assertUnlimitedMax actor kind allowed exclude).Reads SameTerms :=
  reads_ite
    (reads_bind (reads_query fun _ _ h => h.count _ fun _ => rfl) fun _ => refuseIf_reads _ _)
    (reads_pure ())

theorem assertClientKind_reads (actor : Actor) (kind : ClientKind) (serviceId : Option ServiceId)
    (trafficGB : ℚ) (exclude : Option ClientId) :
    (assertClientKind actor kind serviceId trafficGB exclude).Reads SameTerms :=
  reads_bind (reads_query fun _ _ h => h.clientTypes) fun settings =>
    reads_bind (refuseIf_reads _ _) fun _ => reads_bind (refuseIf_reads _ _) fun _ =>
      reads_bind (refuseIf_reads _ _) fun _ =>
        reads_bind (assertUnlimitedMax_reads actor kind _ exclude) fun _ =>
          assertServiceKind_reads settings kind serviceId

theorem assertClientLimit_reads (admin : Operator) (exclude : Option ClientId) :
    (assertClientLimit admin exclude).Reads SameTerms := by
  unfold assertClientLimit
  split
  · exact reads_bind (reads_query fun _ _ h => h.count _ fun _ => rfl)
      fun _ => refuseIf_reads _ _
  · exact reads_pure ()

theorem assertTrafficQuota_reads (admin : Operator) (extraBytes : ℤ) (exclude : Option ClientId) :
    (assertTrafficQuota admin extraBytes exclude).Reads SameTerms := by
  unfold assertTrafficQuota
  cases admin.account.trafficQuota with
  | none => exact reads_pure ()
  | some quota =>
      refine reads_bind (reads_query fun s s' h => ?_) fun _ => refuseIf_reads _ _
      exact congrArg List.sum (h.filter_map _ _ (fun _ => rfl) fun _ => rfl)

theorem assertAccess_reads (admin : Operator) (targets : List Target) :
    (assertAccess admin targets).Reads SameTerms :=
  reads_ite (reads_pure ())
    (reads_bind (reads_query fun _ _ h => h.serverAccessOf admin.id) fun _ => refuseIf_reads _ _)

theorem assertQuota_reads (admin : Operator) (extraBytes : ℤ) (targets : List Target)
    (exclude : Option ClientId) : (assertQuota admin extraBytes targets exclude).Reads SameTerms :=
  reads_ite (reads_pure ())
    (reads_bind now_reads fun _ => reads_bind (refuseIf_reads _ _) fun _ =>
      reads_bind (assertClientLimit_reads admin exclude) fun _ =>
        reads_bind (assertTrafficQuota_reads admin extraBytes exclude) fun _ =>
          assertAccess_reads admin targets)

/-- A quote only reads. -/
theorem quoteClientCost_reads (actor : Operator) (trafficGB : ℚ) (days : ℤ) :
    (quoteClientCost actor trafficGB days).Reads SameTerms :=
  reads_ite (reads_pure 0) (reads_query fun s s' h => by rw [h.pricing])

theorem assertAffordable_reads (actor : Operator) (cost : ℤ) :
    (assertAffordable actor cost).Reads SameTerms := by
  refine reads_ite (reads_pure ()) (reads_bind ?_ fun _ => reads_bind ?_ fun _ =>
    refuseIf_reads _ _)
  · exact reads_query (V := SameTerms) (f := fun s : Site => s.base.creditLimit) fun s s' h =>
      h.creditLimit
  · exact reads_query (V := SameTerms)
      (f := fun s : Site => ((s.base.admins.get? actor.id).map Admin.credit).getD 0)
        fun s s' h => by
        rw [h.credit]

theorem updateLimit_reads (actor : Operator) (current : FullClient) (trafficGB : Option ℚ) :
    (updateLimit actor current trafficGB).Reads SameTerms := by
  cases trafficGB with
  | none => exact reads_pure none
  | some gb =>
      exact reads_bind (assertClientKind_reads _ _ _ _ _) fun _ =>
        reads_bind (assertQuota_reads _ _ _ _) fun _ => reads_pure _

theorem updateData_reads (actor : Operator) (current : FullClient) (input : UpdateClientInput) :
    (updateData actor current input).Reads SameTerms :=
  reads_bind (refuseIf_reads _ _) fun _ => reads_bind (updateLimit_reads _ _ _) fun _ =>
    reads_bind now_reads fun _ => reads_pure _

theorem renewCost_reads (actor : Operator) (extraGB : ℚ) (extraDays : ℤ) :
    (renewCost actor extraGB extraDays).Reads SameTerms :=
  reads_bind (reads_query fun _ _ h => h.pricing) fun _ =>
    reads_ite (quoteClientCost_reads _ _ _) (reads_pure 0)

theorem updateCost_reads (actor : Operator) (current : FullClient) (input : UpdateClientInput) :
    (updateCost actor current input).Reads SameTerms :=
  reads_ite (reads_bind (renewCost_reads _ _ _) fun cost =>
    reads_bind (assertAffordable_reads actor cost) fun _ => reads_pure cost) (reads_pure 0)

/-! ## Rows of admins -/

theorem operator_account {s : Site} {id : AdminId} {o : Operator} (h : s.operator id = some o) :
    o.id = id ∧ s.accounts.get? id = some o.account ∧ (s.base.admins.get? id).map Admin.role =
    some o.role := by
  unfold operator at h
  cases ha : s.base.admins.get? id with
  | none => rw [ha] at h; cases h
  | some a =>
      rw [ha] at h
      cases haccount : s.accounts.get? id with
      | none => rw [haccount] at h; cases h
      | some account =>
          rw [haccount] at h
          obtain rfl := Option.some.inj h
          exact ⟨rfl, rfl, rfl⟩

/-- An admin that is found has a row. -/
theorem operator_row {s : Site} {id : AdminId} {o : Operator} (h : s.operator id = some o) :
    (s.base.admins.get? id).isSome := by
  obtain ⟨-, -, hrole⟩ := operator_account h
  obtain ⟨a, ha, -⟩ := Option.map_eq_some_iff.mp hrole
  rw [ha]
  rfl

/-! ## The look-up of targets -/

theorem listServices_reads (actor : Actor) : (listServices actor).Reads SameStock := by
  refine reads_bind (reads_query fun s s' h => by rw [h.services]) fun items =>
    reads_bind (reads_query fun s s' h => by rw [h.servers]) fun servers =>
      reads_bind (reads_ite (reads_pure none) (reads_query fun s s' h => ?_))
        fun access => reads_pure _
  rw [serverAccessOf, serverAccessOf, h.accounts]

theorem listServersFor_reads (actor : Actor) : (listServersFor actor).Reads SameStock := by
  refine reads_query fun s s' h => ?_
  simp only [serverAccessOf, h.accounts, h.servers]

theorem resolveOrderTargets_reads (seller : Actor) (snap : PlanSnapshot) (planId : Option PlanId) :
    (resolveOrderTargets seller snap planId).Reads SameStock := by
  refine reads_ite (reads_pure _) (reads_bind ?_ fun fromPlan =>
    reads_ite (reads_pure _) (reads_bind (listServices_reads seller) fun services => ?_))
  · cases planId with
    | none => exact reads_pure _
    | some id => exact reads_query fun s s' h => by rw [h.plans]
  · cases services.findSome? serviceOffer with
    | some found => exact reads_pure _
    | none =>
        refine reads_bind (listServersFor_reads seller) fun servers => ?_
        cases servers.findSome? serverOffer with
        | some found => exact reads_pure _
        | none => exact reads_throw _

end Site

end SRPanel
