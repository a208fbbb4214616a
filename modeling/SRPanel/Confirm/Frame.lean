import SRPanel.Model.Plugins
import SRPanel.Model.Topups
import SRPanel.Lib.Pool

/-!
# What the helper services leave alone

`Aside` relates two worlds that agree on everything that statements about payments mention:
messages, audit lines, the gateway and the state of orders may differ. Every helper that the
procedures of the payment services call between their own writes stays within it; for the operations
on the plugin book the frame is `Booked`.
-/

namespace SRPanel

open Interleaving Prog

/-- What an order is about, apart from its progress. -/
def Order.terms (o : Order) : String × AdminId × ℤ := (o.token, o.adminId, o.amount)

/-- The order stands where it stood, or has expired. -/
def Order.Stands (o o' : Order) : Prop :=
  o'.status = o.status ∨ o.status = .pending ∧ o'.status = .expired

theorem Order.Stands.trans {o₁ o₂ o₃ : Order} (h : o₁.Stands o₂) (h' : o₂.Stands o₃) :
    o₁.Stands o₃ := by
  rcases h with h | ⟨h, hx⟩
  · rcases h' with h' | ⟨h', hx'⟩
    · exact .inl (h'.trans h)
    · exact .inr ⟨h ▸ h', hx'⟩
  · rcases h' with h' | ⟨h', -⟩
    · exact .inr ⟨h, h'.trans hx⟩
    · rw [hx] at h'
      cases h'

/-- Every order stands where it stood, or has expired. -/
def OrdersStand (t t' : Table OrderId Order) : Prop :=
  ∀ id o, t.get? id = some o → ∃ o', t'.get? id = some o' ∧ o.Stands o'

theorem OrdersStand.refl (t : Table OrderId Order) : OrdersStand t t :=
  fun _ o h => ⟨o, h, .inl rfl⟩

/-- Orders stand over two stretches. -/
theorem OrdersStand.trans {t₁ t₂ t₃ : Table OrderId Order} (h : OrdersStand t₁ t₂)
    (h' : OrdersStand t₂ t₃) : OrdersStand t₁ t₃ := by
  intro id o ho
  obtain ⟨o₂, ho₂, hs⟩ := h id o ho
  obtain ⟨o₃, ho₃, hs'⟩ := h' id o₂ ho₂
  exact ⟨o₃, ho₃, hs.trans hs'⟩

theorem OrdersStand.modify (t : Table OrderId Order) (orderId : OrderId) {f : Order → Order}
    (hf : ∀ o, Order.Stands o (f o)) : OrdersStand t (t.modify orderId f) := by
  intro id o ho
  rw [Table.get?_modify, ho]
  split
  · exact ⟨f o, rfl, hf o⟩
  · exact ⟨o, rfl, .inl rfl⟩

/-- The two worlds agree on payments, wallets, ledgers, shops, settings and history, and on the
terms of all orders; an order may have expired. -/
structure Aside (w w' : World) : Prop where
  now : w'.now = w.now
  nextId : w'.nextId = w.nextId
  payments : w'.payments = w.payments
  admins : w'.admins = w.admins
  customers : w'.customers = w.customers
  shops : w'.shops = w.shops
  walletTxs : w'.walletTxs = w.walletTxs
  customerTxs : w'.customerTxs = w.customerTxs
  plugins : w'.plugins = w.plugins
  cards : w'.cards = w.cards
  outside : w'.outside = w.outside
  history : w'.history = w.history
  orders : ∀ id, (w'.orders.get? id).map Order.terms = (w.orders.get? id).map Order.terms
  standing : OrdersStand w.orders w'.orders

theorem Aside.refl (w : World) : Aside w w :=
  ⟨rfl, rfl, rfl, rfl, rfl, rfl, rfl, rfl, rfl, rfl, rfl, rfl, fun _ => rfl, .refl _⟩

theorem Aside.trans (w₁ w₂ w₃ : World) (h : Aside w₁ w₂) (h' : Aside w₂ w₃) : Aside w₁ w₃ where
  now := h'.now.trans h.now
  nextId := h'.nextId.trans h.nextId
  payments := h'.payments.trans h.payments
  admins := h'.admins.trans h.admins
  customers := h'.customers.trans h.customers
  shops := h'.shops.trans h.shops
  walletTxs := h'.walletTxs.trans h.walletTxs
  customerTxs := h'.customerTxs.trans h.customerTxs
  plugins := h'.plugins.trans h.plugins
  cards := h'.cards.trans h.cards
  outside := h'.outside.trans h.outside
  history := h'.history.trans h.history
  orders id := (h'.orders id).trans (h.orders id)
  standing := h.standing.trans h'.standing

/-- A change of one order that keeps its terms. -/
theorem orders_modify_terms (t : Table OrderId Order) (orderId : OrderId) {f : Order → Order}
    (hf : ∀ o, (f o).terms = o.terms) (id : OrderId) :
    ((t.modify orderId f).get? id).map Order.terms = (t.get? id).map Order.terms := by
  rw [Table.get?_modify]
  split
  · rw [Option.map_map]
    exact congrArg (fun g => Option.map g _) (funext hf)
  · rfl

/-! ## Reads and messages -/

/-- A query changes nothing. -/
theorem query_keeps {α : Type} (l : Stmt) (f : World → α) : (.query l f : Service α).Keeps Aside :=
  keeps_query Aside.refl l f

/-- Nor does a read. -/
theorem read_keeps {α : Type} (f : World → α) : (Db.read f).Keeps Aside := query_keeps _ f

/-- Nor does the look-up of a payment. -/
theorem findPayment_keeps (id : PaymentId) : (Db.findPayment id).Keeps Aside := read_keeps _

/-- A reading of the clock is beside the payments. -/
theorem clock_keeps : clock.Keeps Aside := read_keeps _

/-- So is that of a shop's settings. -/
theorem storeSettingsByAdminId_keeps (a : AdminId) : (storeSettingsByAdminId a).Keeps Aside :=
  read_keeps _

/-- So is an entry in the journal. -/
theorem journal_keeps (e : Entry) :
    (Db.write fun w => { w with journal := e :: w.journal }).Keeps Aside :=
  keeps_modify fun _ => ⟨rfl, rfl, rfl, rfl, rfl, rfl, rfl, rfl, rfl, rfl, rfl, rfl, fun _ =>
    rfl, .refl _⟩

/-- So is an audit line. -/
theorem audit_keeps (a : Option AdminId) (action : String) : (audit a action).Keeps Aside :=
  keeps_attempt (journal_keeps _) fun _ => keeps_pure ()

/-- So is a notification. -/
theorem notify_keeps (kind : String) : (notify kind).Keeps Aside :=
  keeps_attempt (journal_keeps _) fun _ => keeps_pure ()

/-- So is an event. -/
theorem emitEvent_keeps (a : Option AdminId) (name : String) : (emitEvent a name).Keeps Aside :=
  journal_keeps _

/-- So is the announcement of a review. -/
theorem announceReview_keeps (p : Payment) : (announceReview p).Keeps Aside :=
  keeps_bind (notify_keeps _) fun _ => emitEvent_keeps _ _

/-- So is a message to the buyer. -/
theorem tellBuyer_keeps (o : Option Order) : (tellBuyer o).Keeps Aside :=
  keeps_ite (notify_keeps _) (keeps_pure ())

/-- So is the look-up of the owner. -/
theorem ownerAdmin_keeps : ownerAdmin.Keeps Aside := by
  refine keeps_bind (read_keeps _) fun o => ?_
  cases o with
  | none => exact keeps_throw _
  | some o => exact keeps_pure o

/-- So are the settings for a payment. -/
theorem settingsForPayment_keeps (p : Payment) : (settingsForPayment p).Keeps Aside :=
  keeps_ite (storeSettingsByAdminId_keeps _)
    (keeps_bind ownerAdmin_keeps fun _ => storeSettingsByAdminId_keeps _)

/-- So is the target of a callback. -/
theorem callbackTarget_keeps (p : Payment) (o : Option Order) :
    (callbackTarget p o).Keeps Aside := by
  unfold callbackTarget
  cases o with
  | some o => exact keeps_pure _
  | none =>
      exact keeps_ite
        (keeps_bind (storeSettingsByAdminId_keeps _) fun _ => keeps_pure _)
        (keeps_pure _)

/-- So is an alert of a low wallet. -/
theorem alertAfter_keeps (row : WalletTx AdminId) : (alertAfter row).Keeps Aside := by
  refine keeps_ite (keeps_attempt ?_ fun _ => keeps_pure ()) (keeps_pure ())
  refine keeps_bind (read_keeps _) fun limit => keeps_ite (keeps_pure ()) ?_
  refine keeps_bind (read_keeps _) fun a => ?_
  cases a with
  | none => exact keeps_pure ()
  | some a => exact keeps_ite (keeps_pure ()) (notify_keeps _)

/-! ## Requests to the outside -/

/-- So is the question to the chain. -/
theorem verifyTrc20Payment_keeps (txid toAddress : String) (minAmount : ℚ) :
    (verifyTrc20Payment txid toAddress minAmount).Keeps Aside := by
  unfold verifyTrc20Payment
  dsimp only
  refine keeps_ite (keeps_pure _) (keeps_bind (read_keeps _) fun r => ?_)
  cases r with
  | some r => exact keeps_pure r
  | none => exact read_keeps _

/-- So is the one to the gateway. -/
theorem zarinpalVerify_keeps (merchantId : String) (amount : ℤ) (authority : Authority) :
    (zarinpalVerify merchantId amount authority).Keeps Aside := by
  refine keeps_step fun w => ?_
  split
  · exact Aside.refl w
  · split
    · exact Aside.refl w
    · split
      · exact ⟨rfl, rfl, rfl, rfl, rfl, rfl, rfl, rfl, rfl, rfl, rfl, rfl, fun _ => rfl, .refl _⟩
      · exact Aside.refl w

/-! ## Orders -/

theorem setOrderError_keeps (orderId : OrderId) (e : String) :
    (setOrderError orderId e).Keeps Aside := by
  refine keeps_step fun w => ?_
  split
  · exact Aside.refl w
  · exact ⟨rfl, rfl, rfl, rfl, rfl, rfl, rfl, rfl, rfl, rfl, rfl, rfl,
      orders_modify_terms _ _ fun _ => rfl, .modify _ _ fun _ => .inl rfl⟩

theorem noteRejection_keeps (p : Payment) (note : Option String) :
    (noteRejection p note).Keeps Aside := by
  unfold noteRejection
  cases p.orderId with
  | none => exact keeps_pure ()
  | some orderId => exact setOrderError_keeps _ _

theorem expireOrder_keeps (orderId : OrderId) : (expireOrder orderId).Keeps Aside := by
  refine keeps_bind (read_keeps _) fun active => keeps_ite (keeps_pure ()) ?_
  refine keeps_modify fun w => ⟨rfl, rfl, rfl, rfl, rfl, rfl, rfl, rfl, rfl, rfl, rfl, rfl,
    orders_modify_terms _ _ fun o => ?_, .modify _ _ fun o => ?_⟩
  · split <;> rfl
  · split
    · next h => exact .inr ⟨h, rfl⟩
    · exact .inl rfl

theorem expireOrders_keeps (orders : List OrderId) : (orders.forM expireOrder).Keeps Aside := by
  induction orders with
  | nil => exact keeps_pure ()
  | cons o orders ih => exact keeps_bind (expireOrder_keeps o) fun _ => ih

/-- A change of one order that keeps its terms and its status. -/
theorem Aside.order {w : World} {orderId : OrderId} {o o' : Order}
    (ho : w.orders.get? orderId = some o) (h : o'.terms = o.terms) (hs : o'.status = o.status) :
    Aside w { w with orders := w.orders.modify orderId fun _ => o' } := by
  refine ⟨rfl, rfl, rfl, rfl, rfl, rfl, rfl, rfl, rfl, rfl, rfl, rfl,
    w.orders.map_get?_modify Order.terms ho h, fun id q hq => ?_⟩
  by_cases hid : id = orderId
  · subst hid
    obtain rfl : o = q := Option.some.inj (ho.symm.trans hq)
    exact ⟨o', by rw [Table.get?_modify_self, hq]; rfl, .inl hs⟩
  · exact ⟨q, (Table.get?_modify_of_ne _ _ hid).trans hq, .inl rfl⟩

theorem noteFailure_keeps (orderId : OrderId) (message : String) :
    (noteFailure orderId message).Keeps Aside := by
  refine keeps_step fun w => ?_
  cases ho : w.orders.get? orderId with
  | none => exact Aside.refl w
  | some o => exact Aside.order ho rfl rfl

/-- Fulfilment stays in a frame that its start, its success and its failure stay in. -/
theorem fulfillOrderBy_keeps {R : World → World → Prop} {start : History → History}
    {orderId : OrderId} (hrefl : ∀ w, R w w)
    (hstart : ∀ w, R w { w with history := start w.history })
    (hprovision : ∀ w o, w.orders.get? orderId = some o → R w { w with
      orders := w.orders.modify orderId fun _ => { o with status := .fulfilled, error := none }
      history := { w.history with provisioned := orderId :: w.history.provisioned } })
    (hnote : ∀ w o e, w.orders.get? orderId = some o → R w { w with
      orders := w.orders.modify orderId fun _ => { o with error := e } }) :
    (fulfillOrderBy start orderId).Keeps R := by
  refine keeps_bind (keeps_step hstart) fun order => ?_
  cases order with
  | none => exact keeps_throw _
  | some order =>
      refine keeps_ite (keeps_pure _) (keeps_ite (keeps_throw _) ?_)
      refine keeps_attempt (keeps_step fun w => ?_) fun err => keeps_step fun w => ?_
      · cases w.outside.provisioning orderId with
        | some e => exact hrefl w
        | none =>
            cases ho : w.orders.get? orderId with
            | none => exact hrefl w
            | some o => exact hprovision w o ho
      · cases ho : w.orders.get? orderId with
        | none => exact hrefl w
        | some o => exact hnote w o _ ho

/-! ## The plugin book -/

/-- The worlds may also differ in the plugin book. -/
def Booked (w w' : World) : Prop := Aside { w with plugins := w'.plugins } w'

theorem Aside.booked {w w' : World} (h : Aside w w') : Booked w w' :=
  ⟨h.now, h.nextId, h.payments, h.admins, h.customers, h.shops, h.walletTxs, h.customerTxs, rfl,
    h.cards, h.outside, h.history, h.orders, h.standing⟩

/-- Reading a plugin's book moves only that book. -/
theorem pluginBook_keeps (x : Proc) : (pluginBook x).Keeps Booked :=
  keeps_step fun _ => ⟨rfl, rfl, rfl, rfl, rfl, rfl, rfl, rfl, rfl, rfl, rfl, rfl, fun _ =>
    rfl, .refl _⟩

/-- So does saving it. -/
theorem savePluginBook_keeps (x : Proc) (seen items : PluginBook) :
    (savePluginBook x seen items).Keeps Booked :=
  keeps_modify fun _ =>
    ⟨rfl, rfl, rfl, rfl, rfl, rfl, rfl, rfl, rfl, rfl, rfl, rfl, fun _ => rfl, .refl _⟩

/-- So does the stamp of a callback. -/
theorem stamp_keeps (x : Proc) (id : PluginId) (status : String) (error : Option String)
    (confirmed : Bool) : (stamp x id status error confirmed).Keeps Booked := by
  refine keeps_bind (pluginBook_keeps x) fun items => ?_
  cases items.get? id with
  | none => exact keeps_pure ()
  | some cur =>
      exact keeps_bind (clock_keeps.mono fun _ _ => Aside.booked) fun _ =>
        savePluginBook_keeps _ _ _

/-- So does its refusal. -/
theorem refuse_keeps {α : Type} (x : Proc) (id : PluginId) (status : String) (e : AppError) :
    (refuse x id status e : Service α).Keeps Booked :=
  keeps_bind (stamp_keeps _ _ _ _ _) fun _ => keeps_throw e

/-- So does its end. -/
theorem finish_keeps (x : Proc) (id : PluginId) (action : CallbackAction) (paymentId : PaymentId)
    (status : PaymentStatus) (message : String) :
    (finish x id action paymentId status message).Keeps Booked :=
  keeps_bind (stamp_keeps _ _ _ _ _) fun _ => keeps_pure _

end SRPanel
