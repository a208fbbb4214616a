import SRPanel.Lib.Metered
import SRPanel.Clients.Create
import SRPanel.Clients.Reset
import SRPanel.Clients.Removal
import SRPanel.Delivery.Subscriptions
import SRPanel.Model.Bulk
import SRPanel.Model.Renewals
import Mathlib.Algebra.Order.BigOperators.Group.List

/-!
# Deals

Whatever is asked about clients comes down to a few kinds of deals: a client is opened with its
bill, changed with its bill, given another cycle, or closed with its refund. Between the deals the
books stay as they are, up to counters, which only a synchronisation with the panels raises. Every
request is a chain of deals, so what a deal preserves is preserved by every run of requests.
-/

namespace SRPanel

open Interleaving Prog

namespace Site

/-! ## Books -/

/-- The traffic on the counters of a client's links. -/
def usage (s : Site) (id : ClientId) : ℤ := ((s.linksOf id).map fun l => l.2.up + l.2.down).sum

/-- The ledger rows that refer to a client. -/
def rowsOf (s : Site) (id : ClientId) : List (WalletTx AdminId) :=
  s.base.walletTxs.filter fun t => t.ref = .client id

/-- Links belong to ids that have been drawn, and no counter is negative. -/
def SoundLinks (s : Site) : Prop :=
  ∀ k l, s.links.get? k = some l → k.clientId < s.base.nextId ∧ 0 ≤ l.up ∧ 0 ≤ l.down

/-- The books are the same, up to counters that may have been lowered. -/
structure SameBooks (s s' : Site) : Prop where
  clients : (s'.clients.mapRows fun _ c => c.settled) = s.clients.mapRows fun _ c => c.settled
  rows : ∀ id, s'.rowsOf id = s.rowsOf id
  links : s.SoundLinks → s'.SoundLinks ∧ ∀ id, s'.usage id ≤ s.usage id
  clientTypes : s'.clientTypes = s.clientTypes
  pricing : s'.pricing = s.pricing
  now : s'.base.now = s.base.now
  nextId : s.base.nextId ≤ s'.base.nextId
  admins : ∀ id, (s.base.admins.get? id).isSome → (s'.base.admins.get? id).isSome

namespace SameBooks

variable {s s' : Site}

/-- Nothing happening leaves the books. -/
theorem refl (s : Site) : SameBooks s s :=
  ⟨rfl, fun _ => rfl, fun h => ⟨h, fun _ => le_rfl⟩, rfl, rfl, rfl, le_rfl, fun _ h => h⟩

/-- So do two stretches that do. -/
theorem trans (s s' s'' : Site) (h : SameBooks s s') (h' : SameBooks s' s'') : SameBooks s s'' where
  clients := h'.clients.trans h.clients
  rows id := (h'.rows id).trans (h.rows id)
  links hs := by
    obtain ⟨hsound, hle⟩ := h.links hs
    obtain ⟨hsound', hle'⟩ := h'.links hsound
    exact ⟨hsound', fun id => (hle' id).trans (hle id)⟩
  clientTypes := h'.clientTypes.trans h.clientTypes
  pricing := h'.pricing.trans h.pricing
  now := h'.now.trans h.now
  nextId := h.nextId.trans h'.nextId
  admins id ha := h'.admins id (h.admins id ha)

theorem client (h : SameBooks s s') (id : ClientId) :
    (s'.clients.get? id).map Client.settled = (s.clients.get? id).map Client.settled := by
  have hget := congrArg (fun t : Table ClientId Client => t.get? id) h.clients
  simpa only [Table.get?_mapRows] using hget

/-- A change of what the books do not have. -/
theorem of_apart (hclients : s'.clients = s.clients) (htxs : s'.base.walletTxs = s.base.walletTxs)
    (hlinks : s'.links = s.links) (htypes : s'.clientTypes = s.clientTypes)
    (hpricing : s'.pricing = s.pricing)
    (hnow : s'.base.now = s.base.now) (hnext : s.base.nextId ≤ s'.base.nextId)
    (hadmins : ∀ id, (s.base.admins.get? id).isSome → (s'.base.admins.get? id).isSome) :
    SameBooks s s' where
  clients := by rw [hclients]
  rows id := by rw [rowsOf, htxs, rowsOf]
  links hs := by
    refine ⟨fun k l hl => ?_, fun id => ?_⟩
    · rw [hlinks] at hl
      exact ⟨(hs k l hl).1.trans_le hnext, (hs k l hl).2⟩
    · rw [usage, linksOf, hlinks]
      exact le_rfl
  clientTypes := htypes
  pricing := hpricing
  now := hnow
  nextId := hnext
  admins := hadmins

/-- A synchronisation that raises no counter. -/
theorem of_synced (h : Synced s s')
    (hlinks : s.SoundLinks → s'.SoundLinks ∧ ∀ id, s'.usage id ≤ s.usage id) : SameBooks s s' where
  clients := congrArg Site.clients h.settled
  rows id := h.same (fun s => s.rowsOf id) fun _ => rfl
  links := hlinks
  clientTypes := h.same Site.clientTypes fun _ => rfl
  pricing := h.same Site.pricing fun _ => rfl
  now := h.same (fun s => s.base.now) fun _ => rfl
  nextId := (h.same (fun s => s.base.nextId) fun _ => rfl).ge
  admins id ha := by
    rw [h.same (fun s => s.base.admins) fun _ => rfl]
    exact ha

/-- The links after some counters have been zeroed. -/
theorem links_of_zeroed {keys : List LinkKey} (h : Zeroed keys s s')
    (hnext : s'.base.nextId = s.base.nextId) (hs : s.SoundLinks) :
    s'.SoundLinks ∧ ∀ id, s'.usage id ≤ s.usage id := by
  constructor
  · intro k l' hl'
    have hget := congrArg (fun t : Table LinkKey ClientServer => t.get? k) h
    simp only [Table.get?_mapRows, hl', Option.map_some] at hget
    obtain ⟨l, hl, heq⟩ := Option.map_eq_some_iff.mp hget.symm
    obtain ⟨hclient, hup, hdown⟩ := hs k l hl
    refine ⟨hnext ▸ hclient, ?_⟩
    have hups : l'.up = (l'.noted).up := rfl
    have hdowns : l'.down = (l'.noted).down := rfl
    rw [hups, hdowns, ← heq]
    split
    · exact ⟨le_rfl, le_rfl⟩
    · exact ⟨hup, hdown⟩
  · intro id
    have hmap := h.linksOf id (fun l => l.up + l.down) (fun _ => rfl) fun _ => rfl
    rw [usage, hmap]
    refine List.sum_le_sum fun l hl => ?_
    have hget := (s.links.mem_rows_iff l.1 l.2).mp (List.mem_filter.mp hl).1
    obtain ⟨-, hup, hdown⟩ := hs l.1 l.2 hget
    split
    · exact add_nonneg hup hdown
    · exact le_rfl

/-- Counters set to zero leave the books. -/
theorem of_zeroed {keys : List LinkKey} (h : Synced s s') (hzeroed : Zeroed keys s s') :
    SameBooks s s' :=
  of_synced h (links_of_zeroed hzeroed (h.same (fun s => s.base.nextId) fun _ => rfl))

/-- So does a push. -/
theorem of_pushed (h : Pushed s s') : SameBooks s s' := of_zeroed h.synced ((Zeroed.nil s).pushed h)

/-- So do lines in the journal. -/
theorem of_logs (h : s.Logs s') : SameBooks s s' := of_pushed h.pushed

/-- The links of a new client have no traffic yet. -/
theorem of_provisioned {id : ClientId} (h : Provisioned id s s') (hid : id < s.base.nextId)
    (hfree : ∀ k, k.clientId = id → s.links.get? k = none) : SameBooks s s' where
  clients := by rw [h.same_clients]
  rows id := by
    have htxs := congrArg (fun t : Site => t.base.walletTxs) h.rest
    dsimp only [unlinked] at htxs
    rw [rowsOf, htxs, rowsOf]
  links hs := by
    have hnext := congrArg (fun t : Site => t.base.nextId) h.rest
    dsimp only [unlinked] at hnext
    -- what is written on the links of the client leaves their counters at zero
    have hzero := h.fresh fun k l hk hl => by
      rw [hfree k hk] at hl
      cases hl
    refine ⟨fun k l hl => ?_, fun k => ?_⟩
    · by_cases hk : k.clientId = id
      · obtain ⟨hup, hdown⟩ := hzero k l hk hl
        rw [hk, hnext, hup, hdown]
        exact ⟨hid, le_rfl, le_rfl⟩
      · rw [h.others k hk] at hl
        rw [hnext]
        exact hs k l hl
    · by_cases hk : k = id
      · subst hk
        have hnone : s.linksOf k = [] := by
          refine List.filter_eq_nil_iff.mpr fun l hl hclient => ?_
          have hget := (s.links.mem_rows_iff l.1 l.2).mp hl
          rw [hfree l.1 (of_decide_eq_true hclient)] at hget
          cases hget
        have hall : ∀ l ∈ s'.linksOf k, l.2.up + l.2.down = 0 := by
          intro l hl
          obtain ⟨hrow, hclient⟩ := List.mem_filter.mp hl
          obtain ⟨hup, hdown⟩ := hzero l.1 l.2 (of_decide_eq_true hclient)
            ((s'.links.mem_rows_iff l.1 l.2).mp hrow)
          rw [hup, hdown, add_zero]
        rw [usage, usage, hnone, List.sum_eq_zero]
        · rfl
        · intro x hx
          obtain ⟨l, hl, rfl⟩ := List.mem_map.mp hx
          exact hall l hl
      · have hperm : (s'.linksOf k).Perm (s.linksOf k) := by
          refine Table.filter_perm_of_get? (p := fun l : LinkKey => l.clientId = k) fun l hl =>
            h.others l ?_
          rw [of_decide_eq_true hl]
          exact hk
        rw [usage, usage, (hperm.map _).sum_eq]
  clientTypes := by
    have htypes := congrArg (fun t : Site => t.clientTypes) h.rest
    exact htypes
  pricing := by
    have hpricing := congrArg (fun t : Site => t.pricing) h.rest
    exact hpricing
  now := by
    have hnow := congrArg (fun t : Site => t.base.now) h.rest
    exact hnow
  nextId := by
    have hnext := congrArg (fun t : Site => t.base.nextId) h.rest
    exact hnext.ge
  admins k ha := by
    have hadmins := congrArg (fun t : Site => t.base.admins) h.rest
    dsimp only [unlinked] at hadmins
    rw [hadmins]
    exact ha

end SameBooks

/-! ## Deals -/

/-- A cycle moves the expiry of a client. -/
def cycled (s : Site) (id : ClientId) (expiry : ℤ) : Site :=
  { s with clients := s.clients.modify id fun c => { c with expiresAt := some expiry } }

end Site

/-- What may happen to a client. -/
inductive Deal
  /-- nothing that the books have -/
  | quiet
  | opened (actor : Operator) (input : CreateClientInput) (a : Site.Admission)
  | changed (actor : Operator) (id : ClientId) (input : UpdateClientInput) (x : Change)
  | cycled (id : ClientId) (expiry : ℤ)
  | dropped (id : ClientId)
  | refunded (id : ClientId) (byAdminId : AdminId)

namespace Deal

open Site

/-- What the guards have found. -/
def Agreed (s : Site) : Deal → Prop
  | quiet => True
  | opened actor input a => s.Admitted actor input a
  | changed actor id input x => s.Accepted actor id input x
  | cycled id _ => (s.clients.get? id).isSome
  | dropped id => (s.clients.get? id).isSome
  | refunded id _ => (s.clients.get? id).isSome

/-- The books after a deal. -/
def effect (s : Site) : Deal → Site
  | quiet => s
  | opened actor input a => s.created actor input a none
  | changed actor _ input x => s.updated actor input none x
  | cycled id expiry => s.cycled id expiry
  | dropped id => s.without id
  | refunded id byAdminId => Site.refunded s s id byAdminId

/-- A deal that is agreed on leaves its effect in the books. -/
def Step (d : Deal) (s s' : Site) : Prop := d.Agreed s ∧ SameBooks (d.effect s) s'

end Deal

namespace Site

/-- An update leaves the links. -/
@[simp] theorem updated_links (s : Site) (actor : Operator) (input : UpdateClientInput)
    (cause : Option OrderId) (x : Change) : (s.updated actor input cause x).links = s.links := by
  unfold updated startSettled
  split <;> rfl

/-- A refunded client's links go. -/
@[simp] theorem refunded_links (s : Site) (id : ClientId) (byAdminId : AdminId) :
    (refunded s s id byAdminId).links = s.links.keep fun k => k.clientId ≠ id := by
  unfold refunded
  split <;> rfl

/-- A bill draws no id. -/
theorem bill_nextId (w : World) (actor : Operator) (cost : ℤ) (id : ClientId) :
    (w.bill actor cost id).nextId = w.nextId := by
  unfold World.bill
  split <;> rfl

/-- Nor does a repayment. -/
theorem repaid_nextId (w : World) (quote : RefundQuote) (byAdminId : AdminId) :
    (w.repaid quote byAdminId).nextId = w.nextId := by
  unfold World.repaid
  split <;> rfl

/-- A bill leaves the accounts there. -/
theorem bill_admins (w : World) (actor : Operator) (cost : ℤ) (id : ClientId) (k : AdminId) :
    ((w.bill actor cost id).admins.get? k).isSome = (w.admins.get? k).isSome := by
  unfold World.bill
  split
  · rw [Table.get?_modify]
    split
    · rw [Option.isSome_map]
    · rfl
  · rfl

/-- So does a repayment. -/
theorem repaid_admins (w : World) (quote : RefundQuote) (byAdminId : AdminId) (k : AdminId) :
    ((w.repaid quote byAdminId).admins.get? k).isSome = (w.admins.get? k).isSome := by
  unfold World.repaid
  split
  · rw [Table.get?_modify]
    split
    · rw [Option.isSome_map]
    · rfl
  · rfl

/-- A refund pays what it has quoted. -/
theorem refunded_base (s : Site) (id : ClientId) (byAdminId : AdminId) :
    (refunded s s id byAdminId).base = match s.refundSubject id with
      | none => s.base
      | some x => s.base.repaid (s.quoteOf id x) byAdminId := by
  unfold refunded
  cases s.refundSubject id with
  | none => rfl
  | some x => rfl

end Site

namespace Deal

open Site

/-- A deal only draws new ids. -/
theorem effect_nextId (s : Site) (d : Deal) : s.base.nextId ≤ (d.effect s).base.nextId := by
  cases d with
  | quiet => exact le_rfl
  | opened actor input a =>
      show s.base.nextId ≤ (World.bill _ _ _ _).nextId
      rw [bill_nextId]
      exact Nat.le_add_right _ _
  | changed actor id input x =>
      show s.base.nextId ≤ (World.bill _ _ _ _).nextId
      rw [bill_nextId]
  | cycled id expiry => exact le_rfl
  | dropped id => exact le_rfl
  | refunded id byAdminId =>
      show s.base.nextId ≤ (Site.refunded s s id byAdminId).base.nextId
      rw [refunded_base]
      split
      · exact le_rfl
      · rw [repaid_nextId]

/-- It leaves the accounts there. -/
theorem effect_admins (s : Site) (d : Deal) (k : AdminId) :
    ((d.effect s).base.admins.get? k).isSome = (s.base.admins.get? k).isSome := by
  cases d with
  | quiet => rfl
  | opened actor input a => exact bill_admins _ _ _ _ _
  | changed actor id input x => exact bill_admins _ _ _ _ _
  | cycled id expiry => rfl
  | dropped id => rfl
  | refunded id byAdminId =>
      show ((Site.refunded s s id byAdminId).base.admins.get? k).isSome = _
      rw [refunded_base]
      split
      · rfl
      · exact repaid_admins _ _ _ _

/-- No deal adds a link. -/
theorem effect_link {s : Site} {d : Deal} {k : LinkKey} {l : ClientServer}
    (h : (d.effect s).links.get? k = some l) : s.links.get? k = some l := by
  have hkeep : ∀ id : ClientId, (s.links.keep fun k => k.clientId ≠ id).get? k = some l →
      s.links.get? k = some l := by
    intro id h
    rw [Table.get?_keep] at h
    split at h
    · exact h
    · cases h
  cases d with
  | quiet => exact h
  | opened actor input a => exact h
  | changed actor id input x =>
      change (s.updated actor input none x).links.get? k = _ at h
      rwa [updated_links] at h
  | cycled id expiry => exact h
  | dropped id => exact hkeep id h
  | refunded id byAdminId =>
      change (Site.refunded s s id byAdminId).links.get? k = _ at h
      rw [refunded_links] at h
      exact hkeep id h

/-- It keeps the links sound. -/
theorem effect_sound {s : Site} (d : Deal) (h : s.SoundLinks) : (d.effect s).SoundLinks := by
  intro k l hl
  obtain ⟨hclient, hcounts⟩ := h k l (effect_link hl)
  exact ⟨hclient.trans_le (d.effect_nextId s), hcounts⟩

end Deal

namespace Site

/-- The admin has a row, and the links are sound: requests of the admin are deals. -/
structure Ready (id : AdminId) (s : Site) : Prop where
  links : s.SoundLinks
  admin : (s.base.admins.get? id).isSome

/-- A deal leaves the site ready for the next. -/
theorem Ready.step {id : AdminId} {s s' : Site} (h : Ready id s) {d : Deal} (hstep : d.Step s s') :
    Ready id s' := by
  refine ⟨(hstep.2.links (d.effect_sound h.links)).1, hstep.2.admins id ?_⟩
  rw [d.effect_admins]
  exact h.admin

/-- Deals of some kinds, one after the other. -/
abbrev Deals (ok : Deal → Prop) : Site → Site → Prop := Chain Deal.Step ok

/-- So do many. -/
theorem Ready.deals {id : AdminId} {ok : Deal → Prop} {s s' : Site} (h : Ready id s)
    (hdeals : Deals ok s s') : Ready id s' := hdeals.invariant h fun _ _ _ _ h hstep => h.step hstep

/-- A change that the books do not have. -/
theorem SameBooks.deals {s s' : Site} (h : SameBooks s s') {ok : Deal → Prop} (hok : ok .quiet) :
    Deals ok s s' := Chain.single hok ⟨trivial, h⟩

/-! ## Rows -/

/-- A row of the client table after a change that the books do not have. -/
theorem SameBooks.row {s s' : Site} (h : SameBooks s s') {id : ClientId} {c' : Client}
    (hc : s'.clients.get? id = some c') :
    ∃ c, s.clients.get? id = some c ∧ c'.settled = c.settled := by
  have hclient := h.client id
  rw [hc, Option.map_some] at hclient
  obtain ⟨c, hget, hsettled⟩ := Option.map_eq_some_iff.mp hclient.symm
  exact ⟨c, hget, hsettled.symm⟩

/-- The ledger row of a bill. -/
def billRow (w : World) (actor : Operator) (cost : ℤ) (id : ClientId) : WalletTx AdminId :=
  ⟨actor.id, .purchase, -cost, w.balance actor.id + -cost, .client id, none⟩

section BillRow

variable (w : World) (actor : Operator) (cost : ℤ) (id : ClientId)

/-- A bill is the actor's. -/
@[simp] theorem billRow_holder : (billRow w actor cost id).holder = actor.id := rfl

/-- It is a purchase. -/
@[simp] theorem billRow_kind : (billRow w actor cost id).kind = .purchase := rfl

/-- It takes its cost. -/
@[simp] theorem billRow_amount : (billRow w actor cost id).amount = -cost := rfl

end BillRow

/-- A bill is a row of its client, if it is paid. -/
theorem rowsOf_bill {s t : Site} {actor : Operator} {cost : ℤ} {k : ClientId}
    (h : t.base.walletTxs = (s.base.bill actor cost k).walletTxs) (id : ClientId) :
    t.rowsOf id = if actor.pays cost ∧ k = id then billRow s.base actor cost k :: s.rowsOf id
      else s.rowsOf id := by
  rw [rowsOf, h, World.bill]
  by_cases hpays : actor.pays cost = true
  · rw [if_pos hpays]
    by_cases hk : k = id
    · rw [if_pos ⟨hpays, hk⟩]
      exact List.filter_cons_of_pos (by simp [hk])
    · rw [if_neg fun hand => hk hand.2]
      exact List.filter_cons_of_neg (by simp [hk])
  · rw [if_neg hpays, if_neg fun hand => hpays hand.1, rowsOf]

/-- A new client is billed. -/
theorem created_walletTxs (s : Site) (actor : Operator) (input : CreateClientInput) (a : Admission)
    (cause : Option OrderId) : (s.created actor input a cause).base.walletTxs =
      (s.base.bill actor a.cost s.base.nextId).walletTxs := by
  show (World.bill _ _ _ _).walletTxs = _
  unfold World.bill
  split <;> rfl

/-- So is an update. -/
theorem updated_walletTxs (s : Site) (actor : Operator) (input : UpdateClientInput) (x : Change) :
    (s.updated actor input none x).base.walletTxs =
    (s.base.bill actor x.cost x.current.id).walletTxs := rfl

/-- A refund is a row of its client, if there is one. -/
theorem rowsOf_repaid {s t : Site} {quote : RefundQuote} {byAdminId : AdminId}
    (h : t.base.walletTxs = (s.base.repaid quote byAdminId).walletTxs) (id : ClientId) :
    t.rowsOf id = if 0 < quote.amount ∧ quote.clientId = id then
      ⟨quote.adminId, .refund, quote.amount, s.base.balance quote.adminId + quote.amount,
        .client quote.clientId, some byAdminId⟩ :: s.rowsOf id else s.rowsOf id := by
  rw [rowsOf, h, World.repaid]
  by_cases hpos : 0 < quote.amount
  · rw [if_pos hpos]
    by_cases hk : quote.clientId = id
    · rw [if_pos ⟨hpos, hk⟩]
      exact List.filter_cons_of_pos (by simp [hk])
    · rw [if_neg fun hand => hk hand.2]
      exact List.filter_cons_of_neg (by simp [hk])
  · rw [if_neg hpos, if_neg fun hand => hpos hand.1, rowsOf]

/-- A new client takes the next id. -/
theorem created_client (s : Site) (actor : Operator) (input : CreateClientInput) (a : Admission)
    (cause : Option OrderId) (id : ClientId) :
    (s.created actor input a cause).clients.get? id = if id = s.base.nextId then
      some (newClient actor input a.limitBytes (s.base.nextId + 1) (s.base.nextId + 2) s.base.now)
      else s.clients.get? id := Table.get?_set _ _ _ _

theorem updated_client (s : Site) (actor : Operator) (input : UpdateClientInput)
    (cause : Option OrderId) (x : Change) (id : ClientId) :
    (s.updated actor input cause x).clients.get? id =
      if id = x.current.id then (s.clients.get? id).map x.data.apply else s.clients.get? id :=
  Table.get?_modify _ _ _ _

theorem without_client (s : Site) (k id : ClientId) :
    (s.without k).clients.get? id = if id = k then none else s.clients.get? id :=
  Table.get?_erase _ _ _

theorem refunded_client (s : Site) (k id : ClientId) (byAdminId : AdminId) :
    (refunded s s k byAdminId).clients.get? id = if id = k then none else s.clients.get? id := by
  unfold refunded
  split
  · exact without_client s k id
  · exact without_client s k id

/-! ## Operations -/

/-- The cause of a new client is not in the books. -/
theorem SameBooks.created {s : Site} (actor : Operator) (input : CreateClientInput) (a : Admission)
    (cause : Option OrderId) :
    SameBooks (s.created actor input a none) (s.created actor input a cause) :=
  .of_apart rfl rfl rfl rfl rfl rfl le_rfl fun _ h => h

/-- Nor is that of an update. -/
theorem SameBooks.updated {s : Site} (actor : Operator) (input : UpdateClientInput)
    (cause : Option OrderId) (x : Change) :
    SameBooks (s.updated actor input none x) (s.updated actor input cause x) :=
  .of_apart rfl rfl rfl rfl rfl rfl le_rfl fun _ h => h

/-- Nor is a pending start. -/
theorem SameBooks.startSettled (s : Site) (id : ClientId) (input : UpdateClientInput) :
    SameBooks s (s.startSettled id input) := by
  unfold Site.startSettled
  split
  · exact .of_apart rfl rfl rfl rfl rfl rfl le_rfl fun _ h => h
  · exact .refl s

/-- What follows the charge of a new client provisions it. -/
private theorem afterCharge_provisioned (actor : Operator) (id : ClientId) (c : Client)
    (expiry : Option ℤ) (groups : List PanelGroup) : (do
      let errors ← provisionGroups id c expiry [] groups
      lift (audit (some actor.id) "client.create")
      let client ← getClientForActor actor.actor id
      pure (client, errors) : Task (FullClient × List String)).Keeps (Provisioned id) :=
  keeps_bind (provisionGroups_provisioned _ _ _ _ _) fun _ =>
    keeps_bind ((lift_logs (audit_keeps_logged _ _)).mono fun _ _ h => h.provisioned id) fun _ =>
      keeps_bind ((getClientForActor_reads _ _).keeps Provisioned.refl) fun _ => keeps_pure _

/-- A lone `createClient` leaves the new client with its bill and some of its links, or it changes
nothing. -/
theorem createClient_wp (actor : Operator) (input : CreateClientInput)
    (cause : Option OrderId) (s : Site) (hrow : (s.base.admins.get? actor.id).isSome)
    {P : Site → Prop} (hrefused : P s)
    (hopened : ∀ a s', s.Admitted actor input a →
      Provisioned s.base.nextId (s.created actor input a cause) s' →
    P s') :
    Prog.wp (createClient actor input cause) (fun _ => P) (fun _ => P) s := by
  unfold createClient
  rw [wp_bind, (admitClient_reads_state actor input).wp_iff]
  rcases hadmit : ((admitClient actor input).run s).1 with e | a
  · exact hrefused
  · have hadmitted := admitClient_admitted hadmit
    dsimp only
    rw [openClient, wp_bind, insertClient, wp_step]
    dsimp only
    rw [wp_bind, armPendingStart_wp, wp_bind]
    refine wp_mono _ (chargeFor_spec actor a.cost s.base.nextId _ hrow) (fun _ s₁ h₁ => ?_)
      fun _ _ h => absurd (assertAffordable_covers hadmitted.affordable) h.1
    have hcreated : (s.created actor input a cause).Logs s₁ := h₁.2
    have hopen : Provisioned s.base.nextId (s.created actor input a cause) s₁ :=
      hcreated.provisioned s.base.nextId
    have hdone : ∀ s', Provisioned s.base.nextId s₁ s' → P s' := by
      intro s' h
      exact hopened a s' hadmitted (hopen.trans _ _ _ h)
    refine wp_mono _ (Prog.Keeps.wp (afterCharge_provisioned actor s.base.nextId _ _ _)
      Provisioned.refl Provisioned.trans s₁) ?_ ?_
    · exact fun _ s' h => hdone s' h
    · exact fun _ s' h => hdone s' h

/-- No link is that of a client that has not been drawn. -/
theorem SoundLinks.unlinked {s : Site} (h : s.SoundLinks) {k : LinkKey}
    (hk : k.clientId = s.base.nextId) : s.links.get? k = none := by
  cases hl : s.links.get? k with
  | none => rfl
  | some l =>
      have hlt := (h k l hl).1
      rw [hk] at hlt
      exact absurd hlt (Nat.lt_irrefl _)

/-- A lone `createClient` opens a client or changes nothing. -/
theorem createClient_deals (actor : Operator) (input : CreateClientInput) (cause : Option OrderId)
    {ok : Deal → Prop} (hquiet : ok .quiet) (hok : ∀ a, ok (.opened actor input a)) :
    (createClient actor input cause).Leads (Ready actor.id) (Deals ok) := by
  refine leads_of_wp fun s hs =>
    createClient_wp actor input cause s hs.admin (P := Deals ok s) ?_ ?_
  · exact (SameBooks.refl s).deals hquiet
  · intro a s' hadmitted h
    refine Chain.single (hok a) ⟨hadmitted, ?_⟩
    refine (SameBooks.created actor input a cause).trans _ _ _ (.of_provisioned h ?_
      fun k hk => hs.links.unlinked hk)
    show s.base.nextId < (World.bill _ _ _ _).nextId
    rw [bill_nextId]
    exact Nat.lt_add_of_pos_right (Nat.succ_pos 2)

/-- A lone `updateClient` changes the client or nothing in the books. -/
theorem updateClient_deals (actor : Operator) (id : ClientId) (input : UpdateClientInput)
    (cause : Option OrderId) {ok : Deal → Prop} (hquiet : ok .quiet)
    (hok : ∀ x, ok (.changed actor id input x)) :
    (updateClient actor id input cause).Leads (Ready actor.id) (Deals ok) := by
  refine leads_of_wp fun s hs => ?_
  refine wp_mono _ (updateClient_spec actor id input cause s hs.admin)
    (fun _ s' h => ?_) fun _ s' h => ?_
  · obtain ⟨x, hverdict, hpushed, -⟩ := h
    exact Chain.single (hok x) ⟨updateVerdict_accepted hverdict,
      (SameBooks.updated actor input cause x).trans _ _ _ (.of_pushed hpushed)⟩
  · rcases h.2 with rfl | ⟨-, rfl⟩
    · exact (SameBooks.refl s').deals hquiet
    · exact (SameBooks.startSettled s id input).deals hquiet

/-- A lone reset is quiet: it may lower counters. -/
theorem resetClientTraffic_books (actor : Actor) (id : ClientId) (s : Site) :
    SameBooks s ((resetClientTraffic actor id).run s).2 := by
  refine (wp_store_iff _).mp ?_
  refine wp_mono _ (resetClientTraffic_spec actor id s) (fun _ s' h => ?_) fun _ s' h => ?_
  · exact .of_zeroed h.2.1 h.2.2.1
  · rw [h.2]
    exact .refl s

/-- Nor is what goes on at the panels. -/
theorem SameBooks.of_panelled {s s' : Site} (h : Panelled s s') : SameBooks s s' := by
  rw [h]
  exact .of_apart rfl rfl rfl rfl rfl rfl le_rfl fun _ h => h

end Site

end SRPanel
