import SRPanel.Delivery.Subscriptions
import SRPanel.Lib.Faults

/-!
# A panel order that is tried again

A fulfilment of a panel order may fail at any of its steps, and the seller may try again as often as
it takes. The account is written first and the order is closed last. An attempt that fails before
its account write leaves nothing behind, and one that fails after it has closed the order is not
repeated. But one that fails in between leaves an account and an order that is still paid, and the
next attempt takes the buyer of this very order for one who comes back: the package is granted
again.

So the package is granted once if no step fails between the two writes (`panel_order_grants_once`).
-/

namespace SRPanel

open Interleaving

/-- The package that a panel order sells. -/
def FoundOrder.package (f : FoundOrder) (link : PanelPlanLink) : PanelPackage :=
  packageOf link f.info.planSnapshot

/-- The key of the buyer of an order, under its seller. -/
def FoundOrder.buyer (f : FoundOrder) : AdminId × BuyerKey :=
  (f.seller.id, buyerKeyOf f.id f.order f.info)

/-- The order as an attempt reads it: an earlier one may have left its error. -/
def FoundOrder.withError (f : FoundOrder) (e : Option String) : FoundOrder :=
  { f with order := { f.order with error := e } }

namespace Site

/-- The accounts of a site once an order has granted its package to the account `a`: the buyer's own
account, renewed, or a new one. All others are as they were. -/
inductive Grants (s : Site) (f : FoundOrder) (link : PanelPlanLink) :
    AdminId → Table AdminId Account → Prop
  | renewed {accounts : Table AdminId Account} {previous : PanelAccount} {existing :
      Operator} (now : ℤ) : link.topUp → s.returningBuyer f.buyer = some (previous, existing) →
      (∀ k, accounts.get? k = if k = existing.id then
        some (renewedAccount existing.account (f.package link) f.order.customerTelegramId now)
        else s.accounts.get? k) →
      Grants s f link existing.id accounts
  | opened {accounts : Table AdminId Account} {a : AdminId} (access : List (ServerId × List ℕ))
      (username : String) (password : Draw) (now : ℤ) :
      (link.topUp → s.returningBuyer f.buyer = none) → s.accounts.get? a = none →
      (∀ k, accounts.get? k = if k =
        a then some (newAccount f (f.package link) access username password now)
        else s.accounts.get? k) →
      Grants s f link a accounts

/-- The order has granted its package once, and the account is known as the one of its buyer. -/
def GrantedOnce (s : Site) (f : FoundOrder) (link : PanelPlanLink) (s' : Site) : Prop :=
  ∃ a, s.Grants f link a s'.accounts ∧
    (s'.book.accounts.get? f.buyer).map PanelAccount.adminId = some a

/-- Ids that have not been drawn have no account. -/
def FreshAccounts (s : Site) : Prop := ∀ k, s.base.nextId ≤ k → s.accounts.get? k = none

/-- The clock goes on. -/
def TimePasses (s s' : Site) : Prop :=
  ∃ t, s.base.now ≤ t ∧ s' = { s with base := { s.base with now := t } }

/-- An attempt to fulfil an order. -/
inductive Attempt
  | fulfill
  | retry (actor : Actor)

/-- The call of an attempt. -/
def attempt (id : OrderId) : Attempt → Task Unit
  | .fulfill => (fulfillOrder id).void
  | .retry actor => (retryFulfill actor id).void

/-- No step fails between the write of the account and the one that closes the order. -/
def Uncut (id : OrderId) (_ : Mark) (s : Site) : Prop :=
  id ∉ s.deliveries.delivered ∨ s.orderStatus id = some .fulfilled

instance (id : OrderId) (m : Mark) (s : Site) : Decidable (Uncut id m s) :=
  inferInstanceAs (Decidable (_ ∨ _))

/-! ## The states of the order -/

section States

variable {s t t' : Site} {f : FoundOrder} {link : PanelPlanLink}

/-- Nothing has been granted yet. -/
structure Unserved (s : Site) (f : FoundOrder) (t : Site) : Prop where
  accounts : t.accounts = s.accounts
  admins : t.base.admins = s.base.admins
  book : t.book = s.book
  info : t.orderInfo.get? f.id = some f.info
  order : ∃ e, t.base.orders.get? f.id = some { f.order with error := e }
  undelivered : f.id ∉ t.deliveries.delivered
  nextId : s.base.nextId ≤ t.base.nextId

/-- The account is written and the order is still paid. -/
structure Serving (s : Site) (f : FoundOrder) (link : PanelPlanLink) (a : AdminId)
    (t : Site) : Prop where
  grants : s.Grants f link a t.accounts
  order : ∃ e, t.base.orders.get? f.id = some { f.order with error := e }
  delivered : f.id ∈ t.deliveries.delivered

/-- The order is closed. -/
structure Closed (s : Site) (f : FoundOrder) (link : PanelPlanLink) (t : Site) : Prop where
  once : s.GrantedOnce f link t
  status : t.orderStatus f.id = some .fulfilled

/-- Where an attempt begins and ends. -/
def Settled (s : Site) (f : FoundOrder) (link : PanelPlanLink) (t : Site) : Prop :=
  s.Unserved f t ∨ s.Closed f link t

theorem Unserved.same (h : s.Unserved f t) (haccounts : t'.accounts = t.accounts)
    (hadmins : t'.base.admins = t.base.admins) (hbook : t'.book = t.book)
    (hinfo : t'.orderInfo = t.orderInfo)
    (horders : t'.base.orders = t.base.orders)
    (hdelivered : t'.deliveries.delivered = t.deliveries.delivered)
    (hnext : t.base.nextId ≤ t'.base.nextId) : s.Unserved f t' where
  accounts := haccounts.trans h.accounts
  admins := hadmins.trans h.admins
  book := hbook.trans h.book
  info := hinfo ▸ h.info
  order := horders ▸ h.order
  undelivered := hdelivered ▸ h.undelivered
  nextId := h.nextId.trans hnext

theorem Serving.same {a : AdminId} (h : s.Serving f link a t) (haccounts : t'.accounts = t.accounts)
    (horders : t'.base.orders = t.base.orders)
    (hdelivered : t'.deliveries.delivered = t.deliveries.delivered) :
    s.Serving f link a t' where
  grants := haccounts ▸ h.grants
  order := horders ▸ h.order
  delivered := hdelivered ▸ h.delivered

theorem Closed.same (h : s.Closed f link t) (haccounts : t'.accounts = t.accounts)
    (hbook : t'.book = t.book) (horders : t'.orderStatus f.id = t.orderStatus f.id) :
    s.Closed f link t' where
  once := by
    obtain ⟨a, hgrants, hknown⟩ := h.once
    exact ⟨a, haccounts ▸ hgrants, hbook ▸ hknown⟩
  status := horders.trans h.status

/-- While the order is being served, a failure is a cut. -/
theorem Serving.not_uncut {a : AdminId} (h : s.Serving f link a t) (hpaid : f.order.status = .paid)
    (m : Mark) : ¬Uncut f.id m t := by
  obtain ⟨e, horder⟩ := h.order
  rintro (hnot | hdone)
  · exact hnot h.delivered
  · rw [orderStatus, horder] at hdone
    exact absurd (hpaid.symm.trans (Option.some.inj hdone)) (by decide)

/-- The logs and the clock do not matter. -/
theorem Logs.unserved (h : t.Logs t') (hs : s.Unserved f t) : s.Unserved f t' := by
  have hrest := h.rest
  refine hs.same ?_ (h.base.same World.admins fun _ =>
    rfl) ?_ ?_ (h.base.same World.orders fun _ => rfl) ?_ (h.base.same World.nextId fun _ => rfl).ge
  all_goals rw [hrest]

theorem Logs.closed (h : t.Logs t') (hs : s.Closed f link t) : s.Closed f link t' := by
  have horders : t'.base.orders = t.base.orders := h.base.same World.orders fun _ => rfl
  have hrest := h.rest
  refine hs.same ?_ ?_ (by rw [orderStatus, horders, orderStatus])
  all_goals rw [hrest]

theorem Logs.settled (h : t.Logs t') (hs : s.Settled f link t) : s.Settled f link t' :=
  hs.imp (Logs.unserved h) (Logs.closed h)

end States

/-! ## One attempt -/

/-- However the attempt fails outside the cut, `Q` holds of its result and `E` of an error. -/
abbrev Tries {α : Type} (id : OrderId) (Q : α → Site → Prop) (E : Site → Prop) (p : Task α)
    (t : Site) : Prop :=
  Ensures (fun _ _ => True) (Uncut id) Q (fun _ t => E t) p t

section Attempts

variable {s t : Site} {f : FoundOrder} {link : PanelPlanLink}

theorem tries_read {α : Type} {Q : α → Site → Prop} {E : Site → Prop} {id : OrderId} {g : Site → α}
    (hQ : Q (g t) t) (hE : E t) : Tries id Q E (read g) t :=
  ensures_query (fun _ => hQ) fun _ _ => hE

/-- What only logs keeps a settled order settled. -/
theorem tries_logs {α : Type} {p : Service α} (hp : p.Keeps Logged) (h : s.Settled f link t) :
    Tries f.id (fun _ u => s.Settled f link u) (s.Settled f link) (lift p) t :=
  ensures_of_keeps (lift_logs hp) (fun _ _ h hs => h.settled hs) h

theorem Unserved.operator (h : s.Unserved f t) (k : AdminId) : t.operator k = s.operator k := by
  unfold Site.operator
  rw [h.accounts, h.admins]

/-- The look-up finds whom the site before the first attempt knew. -/
theorem findReturning_tries (h : s.Unserved f t) :
    Tries f.id (fun found u =>
      s.Unserved f u ∧ found = if link.topUp then s.returningBuyer f.buyer else none) (s.Unserved f)
        (findReturning link f.buyer) t := by
  unfold findReturning
  refine ensures_bind (P := fun previous u => s.Unserved f u ∧
    previous = if link.topUp then s.book.accounts.get? f.buyer else none) (tries_read ⟨h, by
      rw [h.book]⟩ h) ?_
  rintro previous u ⟨hu, hprevious⟩
  cases previous with
  | none =>
      refine ensures_pure ⟨hu, ?_⟩
      split
      · next htop =>
          rw [if_pos htop] at hprevious
          rw [returningBuyer, ← hprevious]
          rfl
      · rfl
  | some previous =>
      refine ensures_bind (P := fun existing u =>
        s.Unserved f u ∧ existing = s.operator previous.adminId) (tries_read ⟨hu,
          hu.operator _⟩ hu) ?_
      rintro existing v ⟨hv, rfl⟩
      refine ensures_pure ⟨hv, ?_⟩
      split at hprevious
      · rw [if_pos ‹_›, returningBuyer, ← hprevious]
        rfl
      · cases hprevious

theorem draw_tries (h : s.Unserved f t) :
    Tries f.id (fun _ u => s.Unserved f u) (s.Unserved f) draw t :=
  ensures_step (fun _ => ⟨fun _ _ => h.same rfl rfl rfl rfl rfl rfl (Nat.le_succ _), by
    rintro _ ⟨⟩⟩) fun _ _ => h

/-- The renewal writes the account at once. -/
theorem renewPanel_tries (h : s.Unserved f t) (e : Option String) (now : ℤ)
    {previous : PanelAccount} {existing : Operator} (htop : link.topUp)
    (hbuyer : s.returningBuyer f.buyer = some (previous, existing)) :
    Tries f.id (fun granted u => s.Serving f link granted.1.adminId u) (s.Unserved f)
      (renewPanel (f.withError e) (f.package link) now previous existing) t := by
  obtain ⟨-, hoperator, -⟩ := returningBuyer_some hbuyer
  obtain ⟨hid, haccount, -⟩ := operator_account hoperator
  refine ensures_bind (P := fun _ u => s.Serving f link existing.id u) ?_ fun _ u hu =>
    ensures_pure (hid ▸ hu)
  refine ensures_step (fun _ => ?_) fun _ _ => h
  have hfound : t.operator existing.id = some existing := by rw [h.operator, hid, hoperator]
  simp only [hfound]
  refine ⟨fun _ _ => ⟨.renewed now htop hbuyer fun k => ?_, h.order, ?_⟩, by rintro _ ⟨⟩⟩
  · show (t.accounts.modify existing.id _).get? k = _
    rw [h.accounts, Table.get?_modify]
    split
    · next hk =>
        rw [hk, hid, haccount]
        rfl
    · rfl
  · exact List.mem_append_left _ (List.mem_singleton.mpr rfl)

/-- Looking for a free username only draws. -/
theorem freeUsername_tries (h : s.Unserved f t) (base : String) (n : ℕ) :
    Tries f.id (fun _ u => s.Unserved f u) (s.Unserved f) (freeUsername base n) t := by
  induction n generalizing t with
  | zero => exact ensures_throw h
  | succ n ih =>
      refine ensures_bind (P := fun _ u => s.Unserved f u) (draw_tries h) fun d u hu => ?_
      refine ensures_bind (P := fun _ u => s.Unserved f u) (tries_read hu hu) fun candidate v hv =>
        ?_
      refine ensures_bind (P := fun _ u => s.Unserved f u) (tries_read hv hv) fun taken w hw => ?_
      exact ensures_ite (fun _ => ih hw) fun _ => ensures_pure hw

/-- The id of a new account is one that was not there before the first attempt. -/
theorem createAccount_tries (h : s.Unserved f t) (hfresh : s.FreshAccounts)
    (hbuyer : link.topUp → s.returningBuyer f.buyer = none) (access : List (ServerId × List ℕ))
    (username : String) (password : Draw) (now : ℤ) :
    Tries f.id (fun a u => s.Serving f link a u) (s.Unserved f)
      (createAccount (newAccount f (f.package link) access username password now) f.id) t := by
  refine ensures_step (fun _ => ?_) fun _ _ => h
  split
  · exact ⟨by rintro _ ⟨⟩, fun _ _ => h⟩
  · refine ⟨?_, by rintro _ ⟨⟩⟩
    rintro a ⟨⟩
    refine ⟨.opened access username password now hbuyer (hfresh _ h.nextId) fun k => ?_,
      h.order, ?_⟩
    · show (t.accounts.set t.base.nextId _).get? k = _
      rw [h.accounts, Table.get?_set]
    · exact List.mem_append_left _ (List.mem_singleton.mpr rfl)

theorem openPanel_tries (h : s.Unserved f t) (hfresh : s.FreshAccounts)
    (e : Option String) (now : ℤ) (hbuyer : link.topUp → s.returningBuyer f.buyer = none) :
    Tries f.id (fun granted u => s.Serving f link granted.1.adminId u) (s.Unserved f)
      (openPanel (f.withError e) link (f.package link) now) t := by
  refine ensures_bind (P := fun _ u => s.Unserved f u) (draw_tries h) fun password u hu => ?_
  refine ensures_bind (P := fun _ u => s.Unserved f u) (freeUsername_tries hu _ _)
    fun username v hv => ?_
  exact ensures_bind (createAccount_tries hv hfresh hbuyer _ username password now)
    fun a w hw => ensures_pure hw

/-- The grant either fails and leaves nothing, or the account is written. -/
theorem grantPanel_tries (h : s.Unserved f t) (hfresh : s.FreshAccounts)
    (e : Option String) (now : ℤ) :
      Tries f.id (fun granted u => s.Serving f link granted.1.adminId u) (s.Unserved f)
        (grantPanel (f.withError e) link (f.package link) now f.buyer) t := by
  refine ensures_bind (findReturning_tries h) ?_
  rintro found u ⟨hu, hfound⟩
  cases found with
  | none =>
      refine openPanel_tries hu hfresh e now fun htop => ?_
      rw [if_pos htop] at hfound
      exact hfound.symm
  | some buyer =>
      obtain ⟨previous, existing⟩ := buyer
      split at hfound
      · next htop => exact renewPanel_tries hu e now htop hfound.symm
      · cases hfound

/-- The account is recorded as the one of the buyer. -/
theorem saveAccount_tries (hpaid : f.order.status = .paid) (account : PanelAccount)
    (h : s.Serving f link account.adminId t) :
    Tries f.id (fun _ u => s.Serving f link account.adminId u ∧
      (u.book.accounts.get? f.buyer).map PanelAccount.adminId =
      some account.adminId) (s.Settled f link)
      (saveAccount f.buyer account) t := by
  refine ensures_bind (P := fun _ u => s.Serving f link account.adminId u)
    (ensures_query (fun _ => h) fun _ hfails => absurd hfails (h.not_uncut hpaid _))
      fun fresh u hu => ?_
  refine ensures_step (fun _ => ⟨fun _ _ => ⟨hu.same rfl rfl rfl, ?_⟩, by rintro _ ⟨⟩⟩)
    fun _ hfails => absurd hfails (hu.not_uncut hpaid _)
  show ((fresh.accounts.set f.buyer account).get? f.buyer).map _ = _
  rw [Table.get?_set_self]
  rfl

/-- Parking the handoff is beside the grant. -/
theorem parkHandoff_tries (hpaid : f.order.status = .paid) {a : AdminId} (h : s.Serving f link a t)
    (hknown : (t.book.accounts.get? f.buyer).map PanelAccount.adminId = some a)
    (handoff : PanelHandoff)
    (reached : List String) :
    Tries f.id (fun _ u => s.Serving f link a u ∧
      (u.book.accounts.get? f.buyer).map PanelAccount.adminId = some a) (s.Settled f link)
      (parkHandoff f.id handoff reached) t := by
  refine ensures_ite (fun _ => ?_) fun _ => ensures_pure ⟨h, hknown⟩
  refine ensures_bind (P := fun _ u => u = t) (ensures_query (fun _ => rfl) fun _ hfails =>
    absurd hfails (h.not_uncut hpaid _)) ?_
  rintro items u rfl
  exact ensures_step (fun _ => ⟨fun _ _ => ⟨h.same rfl rfl rfl, hknown⟩, by rintro _ ⟨⟩⟩)
    fun _ hfails => absurd hfails (h.not_uncut hpaid _)

/-- The write that closes the order. -/
theorem closeServing_tries (hpaid : f.order.status = .paid) {a : AdminId} (h : s.Serving f link a t)
    (hknown : (t.book.accounts.get? f.buyer).map PanelAccount.adminId = some a)
    (g : OrderInfo → OrderInfo) :
    Tries f.id (fun _ u => s.Settled f link u) (s.Settled f link)
      (closeOrder f.id (fun o => { o with status := .fulfilled, error := none }) g) t := by
  obtain ⟨e, horder⟩ := h.order
  refine ensures_step (fun _ => ?_) fun _ hfails => absurd hfails (h.not_uncut hpaid _)
  simp only [horder]
  refine ⟨fun _ _ => .inr ⟨⟨a, h.grants, hknown⟩, ?_⟩, by rintro _ ⟨⟩⟩
  show ((t.base.orders.modify f.id _).get? f.id).map Order.status = _
  rw [Table.get?_modify_self, horder]
  rfl

/-- What follows the close only counts and logs. -/
theorem countSale_tries (planId : Option PlanId) (h : s.Settled f link t) :
    Tries f.id (fun _ u => s.Settled f link u) (s.Settled f link) (countSale planId) t :=
  ensures_of_keeps (countSale_keeps (R := fun t u => s.Settled f link t → s.Settled f link u)
    (fun _ _ hs => hs.imp (fun h => h.same rfl rfl rfl rfl rfl rfl le_rfl) fun h =>
      h.same rfl rfl rfl) planId)
    (fun _ _ h => h) h

/-- The grant and its bookkeeping. -/
theorem providePanel_tries (hpaid : f.order.status = .paid) (hfresh : s.FreshAccounts)
    (h : s.Unserved f t) (e : Option String) :
    Tries f.id (fun _ u => s.Settled f link u) (s.Settled f link)
      (providePanel (f.withError e) link) t := by
  refine ensures_bind (P := fun _ u => s.Unserved f u) ?_ fun _ u hu => ?_
  · refine ensures_bind (P := fun _ u => s.Unserved f u) (tries_read h (.inl h)) fun has u hu => ?_
    exact ensures_ite (fun _ => ensures_throw (.inl hu)) fun _ => ensures_pure hu
  refine ensures_bind (P := fun _ u => s.Unserved f u) (tries_read hu (.inl hu)) fun now u hu => ?_
  refine ensures_bind (ensures_mono (grantPanel_tries hu hfresh e now) (fun _ _ h => h) fun _ _ h =>
    .inl h) fun granted v hv => ?_
  refine ensures_bind (saveAccount_tries hpaid granted.1 hv) ?_
  rintro - w ⟨hw, hknown⟩
  refine ensures_bind (P := fun _ u => s.Serving f link granted.1.adminId u ∧
      (u.book.accounts.get? f.buyer).map PanelAccount.adminId = some granted.1.adminId)
    (ensures_query (fun _ => ⟨hw, hknown⟩) fun _ hfails => absurd hfails (hw.not_uncut hpaid _)) ?_
  rintro reached w ⟨hw, hknown⟩
  refine ensures_bind (parkHandoff_tries hpaid hw hknown _ reached) ?_
  rintro - w ⟨hw, hknown⟩
  refine ensures_bind (closeServing_tries hpaid hw hknown _) fun done w hw => ?_
  refine ensures_bind (countSale_tries _ hw) fun _ w hw => ?_
  refine ensures_bind (tries_logs (audit_keeps_logged _ _) hw) fun _ w hw => ?_
  refine ensures_bind (tries_logs (emitEvent_keeps_logged _ _) hw) fun _ w hw => ?_
  refine ensures_bind (tries_logs (notify_keeps_logged _) hw) fun _ w hw => ?_
  exact ensures_pure hw

/-- The handler leaves its message in the order, which is settled as before. -/
theorem failOrder_tries (err : AppError) (h : s.Settled f link t) :
    Tries f.id (fun _ u => s.Settled f link u) (s.Settled f link) (failOrder f.id err) t := by
  refine ensures_bind (P := fun _ u => s.Settled f link u) ?_ fun failed u hu =>
    ensures_bind (tries_logs (notify_keeps_logged _) hu) fun _ u hu => ensures_pure hu
  refine ensures_step (fun _ => ?_) fun _ _ => h
  rcases h with h | h
  · obtain ⟨e, horder⟩ := h.order
    simp only [horder]
    refine ⟨fun _ _ => .inl { h with info := ?_, order := ⟨some (sliceTo 500 err.message), ?_⟩ }, by
      rintro _ ⟨⟩⟩
    · show (t.orderInfo.modify f.id _).get? f.id = _
      rw [Table.get?_modify_self, h.info]
      rfl
    · show (t.base.orders.modify f.id _).get? f.id = _
      rw [Table.get?_modify_self, horder]
      rfl
  · obtain ⟨o, horder, hstatus⟩ := Option.map_eq_some_iff.mp h.status
    simp only [horder]
    refine ⟨fun _ _ => .inr (h.same rfl rfl ?_), by rintro _ ⟨⟩⟩
    show ((t.base.orders.modify f.id _).get? f.id).map Order.status = _
    rw [Table.get?_modify_self, orderStatus, horder]
    rfl

/-- While nothing is granted, an attempt reads the order as it was placed, up to the error. -/
theorem Unserved.findOrder (h : s.Unserved f t)
    (hseller : s.operator f.order.adminId = some f.seller) :
    ∃ e, t.findOrder f.id = some (f.withError e) := by
  obtain ⟨e, horder⟩ := h.order
  refine ⟨e, ?_⟩
  unfold Site.findOrder
  rw [horder, h.info]
  show (t.operator f.order.adminId).bind _ = _
  rw [h.operator, hseller]
  rfl

/-- Once the order is closed, an attempt finds it closed or does not find it. -/
theorem Closed.findOrder (h : s.Closed f link t) {f' : FoundOrder}
    (hfound : t.findOrder f.id = some f') : f'.order.status = .fulfilled := by
  obtain ⟨o, horder, hstatus⟩ := Option.map_eq_some_iff.mp h.status
  obtain ⟨-, horder', -⟩ := findOrder_some hfound
  rwa [← Option.some.inj (horder.symm.trans horder')]

/-- One fulfilment, from its read of the order on. -/
theorem fulfillOrder_tries (hpaid : f.order.status = .paid) (hfresh : s.FreshAccounts)
    (hseller : s.operator f.order.adminId = some f.seller)
    (hlink : s.linkOf f.info.planId = some link)
    (h : s.Settled f link t) :
    Tries f.id (fun _ u => s.Settled f link u) (s.Settled f link) (fulfillOrder f.id) t := by
  have hreads : ∀ d : Deliveries, d.delivered = t.deliveries.delivered →
      s.Settled f link { t with deliveries := d } :=
    fun d hd => h.imp (fun h => h.same rfl rfl rfl rfl rfl hd le_rfl) fun h => h.same rfl rfl rfl
  refine ensures_bind (P := fun found u => s.Settled f link u ∧
    ((s.Unserved f u ∧ ∃ e, found = some (f.withError e)) ∨
      ∀ f', found = some f' → f'.order.status = .fulfilled)) ?_ ?_
  · refine ensures_step (fun _ => ⟨?_, by rintro _ ⟨⟩⟩) fun _ _ => h
    rintro found ⟨⟩
    refine ⟨hreads _ ?_, ?_⟩
    · cases t.findOrder f.id with
      | none => rfl
      | some f' =>
          show (t.deliveries.begin f.id f'.order.status).delivered = _
          unfold Deliveries.begin
          split <;> rfl
    · rcases h with h | h
      · obtain ⟨e, hfound⟩ := h.findOrder hseller
        refine .inl ⟨h.same rfl rfl rfl rfl rfl ?_ le_rfl, e, hfound⟩
        rw [hfound]
        show (t.deliveries.begin f.id _).delivered = _
        unfold Deliveries.begin
        split <;> rfl
      · exact .inr fun f' => h.findOrder
  · rintro found u ⟨hu, ⟨hunserved, e, rfl⟩ | hclosed⟩
    · refine ensures_ite (fun _ => ensures_pure hu) fun _ => ensures_ite (fun _ => ensures_throw hu) fun _ => ?_
      -- the order has a plan, since its panel link is found by it
      have hplan : ∃ id, f.info.planId = some id := by
        cases hplan : f.info.planId with
        | none =>
            rw [hplan] at hlink
            cases hlink
        | some id => exact ⟨id, rfl⟩
      obtain ⟨id, hplan⟩ := hplan
      refine ensures_bind (P := fun found u => s.Unserved f u ∧ found = some link) ?_ ?_
      · show Tries f.id _ _ (panelPlanFor f.info.planId) u
        rw [hplan]
        refine tries_read ⟨hunserved, ?_⟩ hu
        rw [linkOf, hunserved.book, ← hlink, linkOf, hplan]
      · rintro found v ⟨hv, rfl⟩
        exact ensures_attempt (providePanel_tries hpaid hfresh hv e) fun err w hw =>
          failOrder_tries err hw
    · cases found with
      | none => exact ensures_throw hu
      | some f' => exact ensures_ite (fun _ => ensures_pure hu) fun hopen => absurd (hclosed f' rfl) hopen

/-- One retry. -/
theorem retryFulfill_tries (hpaid : f.order.status = .paid) (hfresh : s.FreshAccounts)
    (hseller : s.operator f.order.adminId = some f.seller)
    (hlink : s.linkOf f.info.planId = some link)
    (actor : Actor) (h : s.Settled f link t) :
    Tries f.id (fun _ u => s.Settled f link u) (s.Settled f link) (retryFulfill actor f.id) t := by
  refine ensures_bind (P := fun found u =>
    s.Settled f link u ∧ found = t.base.orders.get? f.id) ?_ ?_
  · rw [lift, Db.read, Prog.zoom_query]
    exact ensures_query (fun _ => ⟨h, rfl⟩) fun _ _ => h
  · rintro found u ⟨hu, rfl⟩
    cases horder : t.base.orders.get? f.id with
    | none => exact ensures_throw hu
    | some o =>
        refine ensures_ite (fun _ => ensures_throw hu) fun _ => ?_
        have hopen : o.status ≠ .pending := by
          rcases h with h | h
          · obtain ⟨e, he⟩ := h.order
            rw [← Option.some.inj (he.symm.trans horder)]
            exact fun hpending => absurd (hpaid.symm.trans hpending) (by decide)
          · have hstatus := h.status
            rw [orderStatus, horder] at hstatus
            exact fun hpending => absurd (hpending.symm.trans (Option.some.inj hstatus)) (by decide)
        rw [payManually, if_neg hopen]
        exact fulfillOrder_tries hpaid hfresh hseller hlink hu

end Attempts

/-! ## All attempts -/

/-- A panel order grants its package exactly once, whatever steps of its attempts fail, if none of
them fails between the write of the account and the one that closes the order. -/
theorem panel_order_grants_once {id : OrderId} {f : FoundOrder} {link : PanelPlanLink} {s s' : Site}
    (hfound : s.findOrder id = some f) (hlink : s.linkOf f.info.planId = some link)
    (hpaid : f.order.status = .paid)
    (hundelivered : id ∉ s.deliveries.delivered) (hfresh : s.FreshAccounts)
    (hrun : Serial.Trials (attempt id) TimePasses (fun _ _ => True) (Uncut id)
      (fun _ _ => True) s s')
    (hdone : s'.orderStatus id = some .fulfilled) : s.GrantedOnce f link s' := by
  obtain ⟨rfl, horder, hinfo, hseller⟩ := findOrder_some hfound
  have hstart : s.Settled f link s :=
    .inl ⟨rfl, rfl, rfl, hinfo, ⟨f.order.error, horder⟩, hundelivered, le_rfl⟩
  have hend : s.Settled f link s' := by
    refine hrun.invariant hstart (fun c t ht _ => ?_) fun t t' ht hpass => ?_
    · cases c with
      | fulfill => exact ensures_void (fulfillOrder_tries hpaid hfresh hseller hlink ht)
      | retry actor => exact ensures_void (retryFulfill_tries hpaid hfresh hseller hlink actor ht)
    · obtain ⟨now, -, rfl⟩ := hpass
      exact ht.imp (fun h => h.same rfl rfl rfl rfl rfl rfl le_rfl) fun h => h.same rfl rfl rfl
  rcases hend with h | h
  · obtain ⟨e, he⟩ := h.order
    rw [orderStatus, he] at hdone
    exact absurd (hpaid.symm.trans (Option.some.inj hdone)) (by decide)
  · exact h.once

/-- An owner who has sold a package of 10 GB and 30 days to a new buyer. -/
def panelShop : Site :=
  { Site.blank with
    base := { World.blank with
      admins := Table.empty.set 1 ⟨.owner, 0, 0⟩
      orders := Table.empty.set 5 ⟨"t", 1, .paid, 1000, none, none, some 0⟩ }
    accounts := Table.empty.set 1 ⟨"o", 0, none, true, none, none, none, none, none, none, none, []⟩
    orderInfo := Table.empty.set 5
      ⟨some 3, none, none, none, none, none, some "a@b.c", none, ⟨"p", 10, 30, 0, []⟩, none⟩
    book := ⟨Table.empty.set 3 ⟨true, 10, 30, 5, "sp", false, true, ""⟩, .empty⟩ }

/-- The order of the shop, as a fulfilment reads it. -/
def panelOrder : FoundOrder :=
  ⟨5, ⟨"t", 1, .paid, 1000, none, none, some 0⟩,
    ⟨some 3, none, none, none, none, none, some "a@b.c", none, ⟨"p", 10, 30, 0, []⟩, none⟩,
    ⟨1, .owner, ⟨"o", 0, none, true, none, none, none, none, none, none, none, []⟩⟩⟩

/-- A fulfilment with a connection error at its step `n`, and a retry. -/
def triedAgain (n : ℕ) : Site :=
  ((attempt 5 (.retry ⟨1, .owner⟩)).run
    ((attempt 5 .fulfill).runFaults (badRequest "connection reset")
      (List.replicate n false ++ [true]) panelShop).2).2

theorem triedAgain_trials {fails : Mark → Site → Prop} [∀ m s, Decidable (fails m s)] (n : ℕ)
    (h : (attempt 5 .fulfill).mayFail (fun m s => fails m s) (badRequest "connection reset")
      (List.replicate n false ++ [true]) panelShop) :
    Serial.Trials (attempt 5) TimePasses (fun _ _ => True) fails
      (fun _ _ => True) panelShop (triedAgain n) :=
  .tail (.single (.call .fulfill trivial (.runFaults _ _ h)))
    (.call (.retry ⟨1, .owner⟩) trivial (.run_free _ _))

/-- The attempt fails where it closes the order, and the buyer ends with two packages. -/
theorem cut_order_grants_twice :
    Serial.Trials (attempt 5) TimePasses (fun _ _ => True) (fun _ _ => True)
        (fun _ _ => True) panelShop (triedAgain 15) ∧
      (triedAgain 15).orderStatus 5 = some .fulfilled ∧
      ¬panelShop.GrantedOnce panelOrder ⟨true, 10, 30, 5, "sp", false, true,
        ""⟩ (triedAgain 15) := by
  refine ⟨triedAgain_trials 15 (by decide +kernel), by decide +kernel, ?_⟩
  rintro ⟨a, hgrants, -⟩
  have hquotas : ∀ r ∈ (triedAgain 15).accounts.rows, r.2.trafficQuota ≠ some 10737418240 :=
    by decide +kernel
  cases hgrants with
  | renewed now htop hbuyer =>
      rw [show panelShop.returningBuyer panelOrder.buyer = none by decide +kernel] at hbuyer
      cases hbuyer
  | opened access username password now hbuyer hnone hrows =>
      have hrow := hrows a
      rw [if_pos rfl] at hrow
      refine hquotas _ (((triedAgain 15).accounts.mem_rows_iff _ _).mpr hrow) ?_
      show (if 0 < 10 then some (gbToBytes (10 : ℕ)) else none) = _
      decide +kernel

/-- The attempt fails while it looks for a username. -/
theorem panel_order_grants_once_early :
    panelShop.GrantedOnce panelOrder ⟨true, 10, 30, 5, "sp", false, true, ""⟩ (triedAgain 7) := by
  refine panel_order_grants_once (by decide +kernel) (by decide +kernel) rfl (by decide) ?_
    (triedAgain_trials 7 (by decide +kernel)) (by decide +kernel)
  intro k hk
  show (Table.empty.set 1 _).get? k = none
  rw [Table.get?_set, if_neg, Table.get?_empty]
  rintro rfl
  exact absurd hk (by decide)

end Site

end SRPanel
