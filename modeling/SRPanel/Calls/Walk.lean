import SRPanel.Lib.Made
import SRPanel.Confirm.Frame
import SRPanel.Chain.Transfers
import SRPanel.Deposits.Book

/-!
# What the payment services are made of

Every call on payments consists of steps that leave payments, wallets and ledgers alone (`Quiet`)
and of a few kinds of parts that do not (`Part`): the writes to a payment, and `confirmPayment`. The
module goes through the text of each call once; a statement about runs is then a matter of the
parts.
-/

namespace SRPanel

open Interleaving Prog

/-! ## The frame -/

/-- The histories agree on confirmations, on their effects and on what was provisioned. -/
structure Noted (h h' : History) : Prop where
  confirmations : h'.confirmations = h.confirmations
  moved : h'.moved = h.moved
  handedOver : h'.handedOver = h.handedOver
  provisioned : h'.provisioned = h.provisioned

/-- Nothing happening notes nothing. -/
theorem Noted.refl (h : History) : Noted h h := ⟨rfl, rfl, rfl, rfl⟩

/-- The two worlds agree on payments, wallets, ledgers, shops and confirmations, and their orders
stand. -/
structure Quiet (w w' : World) : Prop where
  nextId : w.nextId ≤ w'.nextId
  payments : w'.payments = w.payments
  admins : w'.admins = w.admins
  customers : w'.customers = w.customers
  shops : w'.shops = w.shops
  walletTxs : w'.walletTxs = w.walletTxs
  customerTxs : w'.customerTxs = w.customerTxs
  orders : ∀ id, (w'.orders.get? id).map Order.terms = (w.orders.get? id).map Order.terms
  standing : OrdersStand w.orders w'.orders
  history : Noted w.history w'.history

/-- Nothing happening is quiet. -/
theorem Quiet.refl (w : World) : Quiet w w :=
  ⟨le_rfl, rfl, rfl, rfl, rfl, rfl, rfl, fun _ => rfl, .refl _, .refl _⟩

theorem Booked.quiet {w w' : World} (h : Booked w w') : Quiet w w' where
  nextId := h.nextId.ge
  payments := h.payments
  admins := h.admins
  customers := h.customers
  shops := h.shops
  walletTxs := h.walletTxs
  customerTxs := h.customerTxs
  orders := h.orders
  standing := h.standing
  history := by rw [h.history]; exact .refl _

theorem Aside.quiet {w w' : World} (h : Aside w w') : Quiet w w' := h.booked.quiet

/-! ## The parts -/

/-- What a payment is about: who pays whom how much for what. -/
def Payment.deal (p : Payment) : PaymentKind × Option CustomerId × AdminId × ℤ :=
  (p.kind, p.customerId, p.adminId, p.amount)

/-- The column is a verdict. -/
def Column.isVerdict : Column → Bool
  | .verdict _ => true
  | _ => false

theorem Column.isVerdict_iff (c : Column) : c.isVerdict ↔ ∃ e, c = .verdict e := by
  cases c <;> simp [isVerdict]

/-- The parts of the payment services that touch payments; the customers who top up satisfy `T`. -/
inductive Part (T : CustomerId → Prop) : ∀ {α : Type}, Service α → Prop
  | confirm (evidence : Evidence) (id : PaymentId) (opts : ConfirmOpts) :
      Part T (confirmPayment evidence id opts)
  /-- a write of a status other than `confirmed`, from a copy that was not confirmed -/
  | status {columns : List Column} {id : PaymentId} {p : Payment} {f : Payment → Payment} :
      .status ∈ columns → (∀ e, .verdict e ∉ columns) → p.status ≠ .confirmed →
      (∀ row, (f row).status ≠ .confirmed ∧ (f row).deal = row.deal) →
      Part T (Db.updatePayment (.update columns [(id, p)]) id f fun _ h => h)
  /-- the same together with the hash of a transaction -/
  | hash {columns : List Column} {id : PaymentId} {p : Payment} {txid : String}
      {f : Payment → Payment} : .status ∈ columns → (∀ e, .verdict e ∉ columns) →
      p.status ≠ .confirmed →
      (∀ row, (f row).status ≠ .confirmed ∧ (f row).deal = row.deal) →
      Part T (Db.updateTxid (.update columns [(id, p)]) id txid f)
  /-- a write that leaves the status alone -/
  | note {columns : List Column} {rows : List (PaymentId × Payment)} {id : PaymentId}
      {f : Payment → Payment} {record : Payment → History → History} :
      (∀ row, (f row).status = row.status ∧ (f row).deal = row.deal) →
      (.status ∉ columns) → (∀ p h, Noted h (record p h)) →
      Part T (Db.updatePayment (.update columns rows) id f record)
  | authority (id : PaymentId) (authority : Authority) (url : String) :
      Part T (storeAuthority id authority url)
  | expire {stale : List (PaymentId × Payment)} :
      (∀ r ∈ stale, r.2.status ≠ .confirmed) → Part T (expireRows stale)
  | create {input : BeginPaymentInput} {expiresAt : Time} {q : Option CryptoQuote} :
      0 < input.amount → Part T (Db.createPayment (newPayment input expiresAt q))
  | tag (id : PaymentId) {customerId : CustomerId} :
    T customerId → Part T (tagCustomer id customerId)

/-- The procedure is made of such parts. -/
abbrev Walk (T : CustomerId → Prop) {α : Type} (p : Service α) : Prop := Made Quiet (Part T) p

section Walks

variable {T : CustomerId → Prop}

/-- A call beside the payments is a walk. -/
theorem walk_aside {α : Type} {p : Service α} (hp : p.Keeps Aside) : Walk T p :=
  .frame (hp.mono fun _ _ => Aside.quiet)

/-- So is a note in a plugin's book. -/
theorem walk_booked {α : Type} {p : Service α} (hp : p.Keeps Booked) : Walk T p :=
  .frame (hp.mono fun _ _ => Booked.quiet)

/-! ## Proofs and reviews -/

/-- So is a confirmation. -/
theorem confirmPayment_walk (evidence : Evidence) (id : PaymentId) (opts : ConfirmOpts) :
    Walk T (confirmPayment evidence id opts) := .part (.confirm evidence id opts)

/-- So is a submitted hash. -/
private theorem submitTxid_walk {id : PaymentId} {p : Payment} (hp : p.status ≠ .confirmed)
    (s : Option StoreSettings) (proof : PaymentProof) : Walk T (submitTxid id p s proof) := by
  have review : ∀ updated : Payment, Walk T (do announceReview updated; pure updated) :=
    fun updated =>
    .bind (walk_aside (announceReview_keeps updated)) fun _ => .pure _
  unfold submitTxid
  dsimp only
  refine .ite (fun _ => .throw _) fun _ => .bind (walk_aside (read_keeps _)) fun dup => ?_
  refine .ite (fun _ => .throw _) fun _ => ?_
  refine .bind (.part (.hash (by simp) (by simp) hp fun _ => ⟨by simp, rfl⟩)) fun updated => ?_
  split
  · refine .ite (fun _ => ?_) fun _ => review updated
    refine .bind (walk_aside (verifyTrc20Payment_keeps _ _ _)) fun r => ?_
    refine .ite (fun _ => confirmPayment_walk _ _ _) fun _ => ?_
    exact .bind (.part (.note (fun _ => ⟨rfl, rfl⟩) (by simp) fun _ _ => .refl _)) review
  · exact review updated

/-- So is a submitted proof. -/
theorem submitProof_walk (id : PaymentId) (proof : PaymentProof) :
    Walk T (submitProof id proof) := by
  refine .bind (walk_aside (findPayment_keeps id)) fun p => ?_
  cases p with
  | none => exact .throw _
  | some p =>
      refine .ite (fun _ => .pure _) fun hp => .bind (walk_aside clock_keeps) fun now => ?_
      refine .ite (fun _ => .throw _) fun _ => ?_
      refine .bind (walk_aside (settingsForPayment_keeps p)) fun s => ?_
      cases p.method with
      | usdt => exact submitTxid_walk hp s proof
      | card =>
          refine .ite (fun _ => .throw _) fun _ => ?_
          refine .bind (.part (.status (by simp) (by simp) hp fun _ => ⟨by simp, rfl⟩))
            fun updated => ?_
          exact .bind (walk_aside (announceReview_keeps updated)) fun _ => .pure _
      | zarinpal => exact .throw _
      | wallet => exact .throw _
      | manual => exact .throw _

/-- So is a rejection. -/
theorem rejectPayment_walk (actor : Actor) (id : PaymentId) (note : Option String) :
    Walk T (rejectPayment actor id note) := by
  refine .bind (walk_aside (query_keeps _ _)) fun found => ?_
  cases found with
  | none => exact .throw _
  | some found =>
      refine .ite (fun _ => .throw _) fun _ => .ite (fun _ => .throw _) fun hp => ?_
      refine .bind (.part (.status (by simp) (by simp) hp fun _ => ⟨by simp, rfl⟩)) fun updated =>
        ?_
      refine .bind (walk_aside (noteRejection_keeps _ _)) fun _ => ?_
      refine .bind (walk_aside (audit_keeps _ _)) fun _ => ?_
      refine .bind (walk_aside (tellBuyer_keeps _)) fun _ => ?_
      exact .bind (walk_aside (emitEvent_keeps _ _)) fun _ => .pure _

/-- So is the expiry of payments. -/
theorem expirePayments_walk : Walk T expirePayments := by
  refine .bind (walk_aside clock_keeps) fun now => .read Quiet.refl fun w => ?_
  refine .ite (fun _ => .pure _) fun _ => ?_
  refine .bind (.part (.expire fun r hr => ?_)) fun _ => ?_
  · have hpending := (List.mem_filter.mp hr).2
    simp only [Bool.and_eq_true, decide_eq_true_eq] at hpending
    simp [hpending.1]
  · exact .bind (walk_aside (expireOrders_keeps _)) fun _ => .pure _

/-- So is the check of one pending payment. -/
private theorem verifyOne_walk (id : PaymentId) (p : Payment) : Walk T (verifyOne id p) := by
  unfold verifyOne
  dsimp only
  refine .ite (fun _ => .pure _) fun _ => .ite (fun _ => .pure _) fun _ => ?_
  refine .bind (walk_aside (settingsForPayment_keeps p)) fun s => ?_
  split
  · refine .ite (fun _ => ?_) fun _ => .pure _
    refine .bind (walk_aside (verifyTrc20Payment_keeps _ _ _)) fun r =>
      .ite (fun _ => ?_) fun _ => ?_
    · exact .bind (confirmPayment_walk _ _ _) fun _ => .pure _
    · exact .bind (.part (.note (fun _ => ⟨rfl, rfl⟩) (by simp) fun _ _ => .refl _)) fun _ =>
      .pure _
  · exact .pure _

/-- So are the checks of all, by induction on the list. -/
private theorem verifyAll_walk (items : List (PaymentId × Payment)) : Walk T (verifyAll items) := by
  induction items with
  | nil => exact .pure _
  | cons item items ih => exact .bind (verifyOne_walk _ _) fun _ => .bind ih fun _ => .pure _

/-- So is the tick that makes them. -/
theorem verifyPendingUsdt_walk : Walk T verifyPendingUsdt :=
  .bind (walk_aside clock_keeps) fun _ => .bind (walk_aside (read_keeps _)) fun _ =>
    verifyAll_walk _

/-! ## Starting payments -/

private theorem assetRate_keeps (s : StoreSettings) (asset : CryptoAsset) :
    (assetRate s asset).Keeps Aside := by
  unfold assetRate
  split
  · exact keeps_ite (keeps_throw _) (keeps_pure _)
  · refine keeps_bind (keeps_bind (read_keeps _) fun r => ?_) fun _ => keeps_pure _
    cases r with
    | none => exact keeps_throw _
    | some r => exact keeps_pure _
  · exact keeps_bind (read_keeps _) fun _ =>
      keeps_ite (keeps_throw _) (keeps_pure _)

theorem quoteCrypto_aside (s : StoreSettings) (amount : ℤ) (assetId : Option String) :
    (quoteCrypto s amount assetId).Keeps Aside := by
  refine keeps_bind (keeps_bind (read_keeps _) fun _ =>
    keeps_ite (keeps_pure _) (keeps_pure _)) fun assets => ?_
  cases assets with
  | nil => exact keeps_throw _
  | cons first rest =>
      exact keeps_bind (assetRate_keeps _ _) fun _ => keeps_bind clock_keeps fun _ =>
        keeps_pure _

private theorem zarinpalRequest_quiet (merchantId : String) (amount : ℤ) (sandbox : Bool) :
    (zarinpalRequest merchantId amount sandbox).Keeps Quiet := by
  refine keeps_step fun w => ?_
  cases w.outside.zarinpalDown with
  | some e => exact .refl w
  | none => exact ⟨Nat.le_succ _, rfl, rfl, rfl, rfl, rfl, rfl, fun _ => rfl, .refl _, .refl _⟩

theorem beginPayment_walk (s : StoreSettings) (input : BeginPaymentInput) :
    Walk T (beginPayment s input) := by
  unfold beginPayment
  refine .ite (fun _ => .throw _) fun _ => .ite (fun _ => .throw _) fun hamount => ?_
  have hpos : 0 < input.amount := not_le.mp hamount
  refine .bind (walk_aside clock_keeps) fun now => ?_
  dsimp only
  split
  · exact .bind (walk_aside (quoteCrypto_aside _ _ _)) fun q => .part (.create hpos)
  · exact .part (.create hpos)
  · refine .bind (walk_aside (read_keeps _)) fun merchant => ?_
    cases merchant with
    | none => exact .throw _
    | some merchant =>
        refine .seq (Q := fun r => r.2.status = .pending) (.part (.create hpos))
          (yields_step fun _ _ h => by rw [← Except.ok.inj h]; rfl) fun payment hpending => ?_
        refine .bind (.frame (zarinpalRequest_quiet _ _ _)) fun r => ?_
        cases r with
        | error e =>
            have hp : payment.2.status ≠ .confirmed := by rw [hpending]; decide
            refine .bind (.part (.status (by simp) (by simp) hp fun _ => ⟨by simp, rfl⟩)) fun _ =>
              ?_
            exact .throw _
        | ok r => exact .bind (.part (.authority _ _ _)) fun _ => .pure _
  · exact .throw _

theorem createTopup_walk (actor : Actor) (amount : ℤ) (method : PaymentMethod)
    (assetId : Option String) : Walk T (createTopup actor amount method assetId) := by
  refine .ite (fun _ => .throw _) fun _ => .ite (fun _ => .throw _) fun _ => ?_
  refine .bind (walk_aside ownerAdmin_keeps) fun owner => ?_
  refine .bind (walk_aside (storeSettingsByAdminId_keeps _)) fun s => ?_
  cases s with
  | none => exact .throw _
  | some s =>
      refine .ite (fun _ => .throw _) fun _ => .bind (beginPayment_walk _ _) fun r => ?_
      exact .bind (walk_aside (audit_keeps _ _)) fun _ => .pure _

theorem createCustomerTopup_walk (customerId : CustomerId) (customer : Customer) (amount : ℤ)
    (method : PaymentMethod) (assetId : Option String) (hT : T customerId) :
    Walk T (createCustomerTopup customerId customer amount method assetId) := by
  refine .bind (walk_aside (storeSettingsByAdminId_keeps _)) fun s => ?_
  cases s with
  | none => exact .throw _
  | some s =>
      dsimp only
      refine .ite (fun _ => .throw _) fun _ => .ite (fun _ => .throw _) fun _ => ?_
      refine .ite (fun _ => .throw _) fun _ => .ite (fun _ => .throw _) fun _ => ?_
      refine .bind (beginPayment_walk _ _) fun r => .bind (.part (.tag _ hT)) fun payment => ?_
      exact .bind (walk_aside (audit_keeps _ _)) fun _ => .pure _

theorem selectOrderAsset_walk (token assetId : String) :
    Walk T (selectOrderAsset token assetId) := by
  refine .bind (.bind (walk_aside (read_keeps _)) fun found => ?_) fun r => ?_
  · cases found with
    | none => exact .throw _
    | some found =>
        refine .bind (walk_aside (storeSettingsByAdminId_keeps _)) fun s => ?_
        cases s with
        | none => exact .throw _
        | some s => exact .pure _
  · obtain ⟨order, payment, s⟩ := r
    cases payment with
    | none => exact .throw _
    | some payment =>
        refine .ite (fun _ => .throw _) fun _ => .bind (walk_aside clock_keeps) fun now => ?_
        refine .ite (fun _ => .throw _) fun _ => ?_
        refine .bind (walk_aside (quoteCrypto_aside _ _ _)) fun quote => ?_
        refine .bind (.part (.note (fun _ => ⟨rfl, rfl⟩) (by simp) fun _ _ =>
          ⟨rfl, rfl, rfl, rfl⟩)) ?_
        exact fun _ => .pure _

/-! ## Callbacks -/

private theorem settlePluginCallback_walk {x : Proc} {id : PluginId} {plugin : PaymentPlugin}
    {paymentId : PaymentId} {p : Payment} (hp : p.status ≠ .confirmed) (body : CallbackBody) :
    Walk T (settlePluginCallback x id plugin paymentId p body) := by
  have close : ∀ action status message entry, Walk T (do
      audit (some plugin.adminId) entry
      finish x id action paymentId status message) := fun _ _ _ _ =>
    .bind (walk_aside (audit_keeps _ _)) fun _ => walk_booked (finish_keeps _ _ _ _ _ _)
  unfold settlePluginCallback
  dsimp only
  refine .ite (fun _ => ?_) fun _ => ?_
  · exact .bind (.part (.status (by simp) (by simp) hp fun _ => ⟨by simp, rfl⟩)) fun _ =>
    close _ _ _ _
  · split
    · exact .bind (.part (.status (by simp) (by simp) hp fun _ => ⟨by simp, rfl⟩)) fun _ =>
      close _ _ _ _
    · exact .bind (confirmPayment_walk _ _ _) fun _ => close _ _ _ _

theorem handlePaymentPluginCallback_walk (x : Proc) (id : PluginId) (rawBody : String)
    (signature : Option String) : Walk T (handlePaymentPluginCallback x id rawBody signature) := by
  have refused : ∀ status e, Walk T (refuse x id status e : Service PluginCallbackResult) :=
    fun _ _ => walk_booked (refuse_keeps _ _ _ _)
  refine .bind (walk_booked (pluginBook_keeps x)) fun items => ?_
  cases items.get? id with
  | none => exact .throw _
  | some plugin =>
      refine .ite (fun _ => .throw _) fun _ => .ite (fun _ => .throw _) fun _ => ?_
      refine .bind (walk_aside (read_keeps _)) fun _ => .ite (fun _ => refused _ _) fun _ => ?_
      refine .bind (walk_aside (read_keeps _)) fun json => ?_
      cases json with
      | none => exact refused _ _
      | some body =>
          cases hb : body.target with
          | none => simp only [hb]; exact refused _ _
          | some i =>
              simp only [hb]
              refine .bind (walk_aside (query_keeps _ _)) fun p => ?_
              cases p with
              | none => exact refused _ _
              | some p =>
                  refine .ite (fun _ => refused _ _) fun _ =>
                    .ite (fun _ => refused _ _) fun _ => ?_
                  refine .ite (fun _ => walk_booked (finish_keeps _ _ _ _ _ _)) fun hp => ?_
                  refine .ite (fun _ => walk_booked (finish_keeps _ _ _ _ _ _)) fun _ => ?_
                  exact settlePluginCallback_walk hp body

theorem handleZarinpalCallback_walk (id : PaymentId) (authority : Authority) (status : String) :
    Walk T (handleZarinpalCallback id authority status) := by
  refine .bind (walk_aside (query_keeps _ _)) fun found => ?_
  cases found with
  | none => exact .pure _
  | some found =>
      refine .bind (walk_aside (callbackTarget_keeps _ _)) fun target => .ite (fun _ => .pure _)
        fun hp => .ite (fun _ => ?_) fun _ => .ite (fun _ => .pure _) fun _ => ?_
      · exact .bind (.part (.status (by simp) (by simp) hp fun _ => ⟨by simp, rfl⟩)) fun _ =>
        .pure _
      · refine .bind (walk_aside (settingsForPayment_keeps _)) fun s => ?_
        refine .bind (walk_aside (read_keeps _)) fun merchant => ?_
        split
        · refine .bind (walk_aside (zarinpalVerify_keeps _ _ _)) fun r => ?_
          cases r with
          | error e =>
              exact .bind (.part (.status (by simp) (by simp) hp fun _ => ⟨by simp, rfl⟩)) fun _ =>
                .pure _
          | ok v => exact .bind (confirmPayment_walk _ _ _) fun _ => .pure _
        · exact .pure _

/-! ## Deposits -/

private theorem cardAutoSettings_quiet (x : Proc) (box : AdminId) :
    (cardAutoSettings x box).Keeps Quiet :=
  keeps_step fun _ => ⟨le_rfl, rfl, rfl, rfl, rfl, rfl, rfl, fun _ => rfl, .refl _, .refl _⟩

private theorem saveCardAuto_quiet (x : Proc) (box : AdminId) (seen : Option CardAuto)
    (patch : CardAutoPatch) : (saveCardAuto x box seen patch).Keeps Quiet := by
  refine keeps_bind (cardAutoSettings_quiet x box) fun r => keeps_step fun w => ?_
  split
  · exact ⟨le_rfl, rfl, rfl, rfl, rfl, rfl, rfl, fun _ => rfl, .refl _, ⟨rfl, rfl, rfl, rfl⟩⟩
  · exact .refl w

/-- The match of a deposit is a walk. -/
theorem matchDeposit_walk (box : AdminId) (s : CardAuto) (dep : Deposit) :
    Walk T (matchDeposit (settlePlainly box) box s dep) := by
  refine .ite (fun _ => .pure _) fun _ => .bind (walk_aside clock_keeps) fun now => ?_
  refine .bind (walk_aside (query_keeps _ _)) fun rows => .ite (fun _ => .pure _) fun _ => ?_
  unfold settleMatch
  split
  · exact .pure _
  · exact .ite (fun _ => .pure _) fun _ =>
      .attempt (.bind (confirmPayment_walk _ _ _) fun _ => .pure _) fun _ => .pure _
  · exact .pure _

/-- So is a new deposit. -/
theorem ingestDeposit_walk (box : AdminId) (x : Proc) (input : DepositInput) :
    Walk T (ingestDeposit (settlePlainly box) x box input) := by
  unfold ingestDeposit
  dsimp only
  refine .ite (fun _ => .pure _) fun _ => ?_
  have hreceive : (receiveDeposit x box (mathRound input.amount).toNat input).Keeps Quiet :=
    keeps_step fun _ => ⟨Nat.le_succ _, rfl, rfl, rfl, rfl, rfl, rfl,
      fun _ => rfl, .refl _, ⟨rfl, rfl, rfl, rfl⟩⟩
  refine .bind (.frame hreceive) fun r => ?_
  obtain ⟨s, dep⟩ := r
  dsimp only
  cases s.deposits.find? (isDuplicate dep) with
  | some dup =>
      have hdismiss : (dismiss dep dup).Keeps Quiet :=
        keeps_modify fun _ => ⟨le_rfl, rfl, rfl, rfl, rfl, rfl, rfl,
          fun _ => rfl, .refl _, ⟨rfl, rfl, rfl, rfl⟩⟩
      exact .bind (.frame hdismiss) fun _ => .pure _
  | none =>
      exact .bind (matchDeposit_walk box s dep) fun m =>
        .bind (.frame (saveCardAuto_quiet _ _ _ _)) fun _ => .pure _

/-- So are the matches of waiting deposits. -/
private theorem rematchAll_walk (box : AdminId) (s : CardAuto) (ds next : List Deposit) :
    Walk T (rematchAll (settlePlainly box) box s ds next) := by
  induction ds generalizing next with
  | nil => exact .pure _
  | cons d ds ih => exact .bind (matchDeposit_walk box s d) fun m => .bind (ih _) fun _ => .pure _

/-- So is the whole rematch. -/
theorem rematchDeposits_walk (box : AdminId) (x : Proc) :
    Walk T (rematchDeposits (settlePlainly box) x box) := by
  refine .bind (.frame (cardAutoSettings_quiet x box)) fun r => .ite (fun _ => .pure _) fun _ => ?_
  exact .bind (rematchAll_walk box _ _ _) fun _ =>
    .bind (.frame (saveCardAuto_quiet _ _ _ _)) fun _ => .pure _

/-- So is an import. -/
private theorem importRows_walk (box : AdminId) (x : Proc) (inputs : List DepositInput) :
    Walk T (importRows (settlePlainly box) x box inputs) := by
  induction inputs with
  | nil => exact .pure _
  | cons input inputs ih =>
    exact .bind (ingestDeposit_walk box x input) fun _ => .bind ih fun _ => .pure _

/-- So is every call about a deposit box. -/
theorem BoxCall.walk (box : AdminId) (call : BoxCall) :
    Walk T (call.prog (settlePlainly box) box) := by
  cases call with
  | ingest x input => exact .void (ingestDeposit_walk box x input)
  | rematch x => exact .void (rematchDeposits_walk box x)
  | sync x =>
      refine .void (.bind (.frame (cardAutoSettings_quiet x box)) fun r => ?_)
      refine .ite (fun _ => .pure _) fun _ => .ite (fun _ => .pure _) fun _ => ?_
      refine .bind (walk_aside (read_keeps _)) fun answer => ?_
      obtain ⟨answer, now⟩ := answer
      cases answer with
      | error e => exact .bind (.frame (saveCardAuto_quiet _ _ _ _)) fun _ => .pure _
      | ok rows =>
          refine .bind (importRows_walk box x _) fun _ =>
            .bind (walk_aside clock_keeps) fun now => ?_
          exact .bind (.frame (saveCardAuto_quiet _ _ _ _)) fun _ => .pure _
  | save x patch => exact .void (.frame (saveCardAuto_quiet _ _ _ _))

/-- So is every call about payments. -/
theorem PaymentCall.walk (call : PaymentCall) : Walk T call.prog := by
  cases call with
  | begin s input => exact .void (beginPayment_walk s input)
  | submit id proof => exact .void (submitProof_walk id proof)
  | verify => exact .void verifyPendingUsdt_walk
  | select token assetId => exact .void (selectOrderAsset_walk token assetId)
  | review actor id refId cardPan => exact .void (confirmPayment_walk _ _ _)
  | reject actor id note => exact .void (rejectPayment_walk actor id note)
  | expire => exact .void expirePayments_walk

end Walks

end SRPanel
