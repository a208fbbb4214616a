import SRPanel.Gateway.Binding

/-!
# Money that the gateway has captured

A verification that the gateway accepts captures the buyer's money. The module proves that in runs
of `beginPayment`, `expirePayments` and callbacks the payment of a captured invoice ends confirmed,
provided that every accepted callback is for the payment of its authority and that this payment has
not expired. `handleZarinpalCallback` verifies first and asks for the local status later.
-/

namespace SRPanel

open Interleaving Prog

/-! ## The property -/

/-- The gateway has verified the payment's own authority for the payment's amount. -/
def World.Captured (w : World) (p : Payment) : Prop :=
  ∃ a ∈ p.authority, ∃ i ∈ w.gateway.get? a, i.verified ∧ i.amount = p.amount

instance (w : World) (p : Payment) : Decidable (w.Captured p) :=
  inferInstanceAs (Decidable (∃ a ∈ p.authority, ∃ i ∈ w.gateway.get? a,
    i.verified ∧ i.amount = p.amount))

/-- Every payment whose money is captured is confirmed. -/
def World.CapturesKept (w : World) : Prop :=
  ∀ id p, w.payments.get? id = some p → w.Captured p → p.status = .confirmed

/-- The gateway would accept the callback's verification. -/
def World.captures (w : World) (p : Payment) (authority : Authority) (status : String) : Bool :=
  status = "OK" && w.handles p authority status && (w.callbackRefuses p authority status).isNone

/-- The payment of the authority is the one called back and has not expired, or it is confirmed
already. -/
def World.settles (w : World) (id : PaymentId) (authority : Authority) : Bool :=
  w.payments.rows.all fun r => r.2.authority ≠ some authority || r.2.status = .confirmed ||
    r.1 = id && r.2.status ≠ .expired

/-! ## What leaves the gateway alone -/

/-- The gateway's table is unchanged. -/
def SameGateway (w w' : World) : Prop := w'.gateway = w.gateway

section Frame

variable {α : Type}

private theorem same_query (l : Stmt) (f : World → α) :
    (.query l f : Service α).Keeps SameGateway :=
  keeps_query (R := SameGateway) (fun _ => rfl) l f

private theorem same_write {f : World → World} (hf : ∀ w, (f w).gateway = w.gateway) :
    (Db.write f).Keeps SameGateway := keeps_modify hf

private theorem same_audit (a : Option AdminId) (action : String) :
    (audit a action).Keeps SameGateway :=
  keeps_attempt (same_write fun _ => rfl) fun _ => keeps_pure ()

private theorem same_notify (kind : String) : (notify kind).Keeps SameGateway :=
  keeps_attempt (same_write fun _ => rfl) fun _ => keeps_pure ()

private theorem same_emitEvent (a : Option AdminId) (name : String) :
    (emitEvent a name).Keeps SameGateway :=
  same_write fun _ => rfl

private theorem same_updatePayment (l : Stmt) (id : PaymentId) (f : Payment → Payment)
    (record : Payment → History → History) :
    (Db.updatePayment l id f record).Keeps SameGateway := by
  refine keeps_step fun w => ?_
  cases w.payments.get? id with
  | none => rfl
  | some p => rfl

private theorem same_chargeWallet (target : Actor) (amount : ℤ) (kind : WalletTxKind) (ref : TxRef)
    (byAdminId : Option AdminId) (allowNegative : Bool) :
    (chargeWallet target amount kind ref byAdminId allowNegative).Keeps SameGateway := by
  refine keeps_ite (keeps_pure _) (keeps_ite (keeps_pure _) ?_)
  refine keeps_bind (keeps_ite (same_query _ _) (keeps_pure _)) fun limit => ?_
  refine keeps_bind (same_query _ _) fun a => ?_
  cases a with
  | none => exact keeps_throw _
  | some a =>
      refine keeps_ite (keeps_throw _) (keeps_bind (keeps_step fun w => ?_) fun row => ?_)
      · dsimp only
        split <;> rfl
      · refine keeps_bind (keeps_ite (keeps_attempt ?_ fun _ => keeps_pure ())
          (keeps_pure ())) fun _ => keeps_pure _
        refine keeps_bind (same_query _ _) fun limit => keeps_ite (keeps_pure ()) ?_
        refine keeps_bind (same_query _ _) fun a => ?_
        cases a with
        | none => exact keeps_pure ()
        | some a => exact keeps_ite (keeps_pure ()) (same_notify _)

private theorem same_settleCustomerTopup (id : PaymentId) :
    (settleCustomerTopup id).Keeps SameGateway := by
  refine keeps_bind (same_query _ _) fun payment => ?_
  cases payment with
  | none => exact keeps_pure _
  | some payment =>
      cases hc : payment.customerId with
      | none => simp only [hc]; exact keeps_pure _
      | some customerId =>
          simp only [hc]
          refine keeps_ite (keeps_pure _) (keeps_bind (same_query _ _) fun already => ?_)
          cases already with
          | some t => exact keeps_pure _
          | none =>
              refine keeps_bind (same_query _ _) fun store => keeps_bind ?_ fun balance =>
                keeps_bind (same_audit _ _) fun _ => keeps_pure _
              refine keeps_ite (keeps_throw _) (keeps_step fun w => ?_)
              cases w.customers.get? customerId with
              | none => rfl
              | some c => rfl

private theorem same_applyConfirmation (id : PaymentId) (p : Payment) (opts : ConfirmOpts) :
    (applyConfirmation id p opts).Keeps SameGateway := by
  have tell : ∀ kind name, (do notify kind; emitEvent (some p.adminId) name : Service Unit).Keeps
      SameGateway := fun kind name => keeps_bind (same_notify kind) fun _ => same_emitEvent _ name
  refine keeps_ite ?_ (keeps_ite ?_ ?_)
  · exact keeps_bind (same_settleCustomerTopup id) fun _ => tell _ _
  · exact keeps_bind (same_chargeWallet _ _ _ _ _ _) fun _ => tell _ _
  · cases p.orderId with
    | none => exact keeps_pure _
    | some orderId =>
        refine keeps_bind (keeps_step fun w => ?_) fun _ =>
          keeps_bind (same_emitEvent _ _) fun _ => keeps_bind ?_ fun _ => keeps_pure _
        · cases w.orders.get? orderId with
          | none => rfl
          | some o => rfl
        · exact fulfillOrderBy_keeps (fun _ => rfl) (fun _ => rfl) (fun _ _ _ => rfl) fun _ _ _ _ =>
          rfl

private theorem same_confirmPayment (evidence : Evidence) (id : PaymentId) (opts : ConfirmOpts) :
    (confirmPayment evidence id opts).Keeps SameGateway := by
  refine keeps_bind (same_query _ _) fun p => ?_
  cases p with
  | none => exact keeps_throw _
  | some p =>
      refine keeps_ite (keeps_throw _) (keeps_ite (keeps_pure _)
        (keeps_ite (keeps_throw _) ?_))
      exact keeps_bind (same_updatePayment _ _ _ _) fun _ => keeps_bind (same_audit _ _) fun _ =>
        keeps_bind (same_applyConfirmation _ _ _) fun _ => keeps_pure _

end Frame

/-! ## The callback -/

section Callback

variable {w w' : World} {id : PaymentId} {p : Payment} {authority : Authority}

/-- A write to one payment that is confirmed, or whose money is not captured. -/
theorem World.CapturesKept.withRow (h : w.CapturesKept) {p' : Payment}
    (hp : w.payments.get? id = some p) (hpay : w'.payments = w.payments.modify id fun _ => p')
    (hgate : w'.gateway = w.gateway)
    (hrow : p'.status = .confirmed ∨ ¬w.Captured p') : w'.CapturesKept := by
  intro i q hq hcap
  have hcap' : w.Captured q := by rwa [World.Captured, hgate] at hcap
  rw [hpay] at hq
  by_cases hid : i = id
  · subst hid
    rw [Table.get?_modify_self, hp] at hq
    obtain rfl : p' = q := Option.some.inj hq
    exact hrow.resolve_right fun hno => hno hcap'
  · rw [Table.get?_modify_of_ne _ _ hid] at hq
    exact h i q hq hcap'

/-- A payment that is not confirmed is not captured. -/
theorem World.CapturesKept.unconfirmed (h : w.CapturesKept) (hp : w.payments.get? id = some p)
    (hopen : p.status ≠ .confirmed) : ¬w.Captured p := fun hcap => hopen (h id p hp hcap)

/-- A verification captures the money of the payments of its authority only. -/
private theorem captured_verified {q : Payment}
    (h : ({ w with gateway := w.gateway.modify authority fun i => { i with verified := true } } :
      World).Captured q) : w.Captured q ∨ q.authority = some authority := by
  obtain ⟨a, ha, i, hi, hverified, hamount⟩ := h
  by_cases heq : a = authority
  · exact .inr (heq ▸ ha)
  · rw [Table.get?_modify_of_ne _ _ heq] at hi
    exact .inl ⟨a, ha, i, hi, hverified, hamount⟩

/-- The world after an accepted verification that leads to a confirmation, unless the payment is
expired. -/
private theorem World.CapturesKept.verified (h : w.CapturesKept) (hp : w.payments.get? id = some p)
    (hsettles : w.settles id authority)
    (hgate : w'.gateway = w.gateway.modify authority fun i => { i with verified := true })
    (hpay : p.status = .expired ∧ w'.payments = w.payments ∨
      ∃ q, q.status = .confirmed ∧ w'.payments = w.payments.modify id fun _ => q) :
      w'.CapturesKept := by
  intro i q hq hcap
  have hcap' : w.Captured q ∨ q.authority = some authority := by
    refine captured_verified ?_
    rwa [World.Captured, hgate] at hcap
  -- a payment of the authority that is stored in the earlier world
  have hstored : w.payments.get? i = some q →
      q.status = .confirmed ∨ i = id ∧ q.status ≠ .expired := by
    intro hq'
    rcases hcap' with hcap' | hauth
    · exact .inl (h i q hq' hcap')
    · have hrow := List.all_eq_true.mp hsettles (i, q) ((w.payments.mem_rows_iff i q).mpr hq')
      simp only [hauth, ne_eq, not_true, decide_false, Bool.false_or, Bool.or_eq_true,
        Bool.and_eq_true, decide_eq_true_eq] at hrow
      exact hrow
  rcases hpay with ⟨hexpired, hpay⟩ | ⟨q', hconfirmed, hpay⟩
  · rw [hpay] at hq
    refine (hstored hq).resolve_right fun hopen => ?_
    obtain ⟨rfl, hopen⟩ := hopen
    obtain rfl : p = q := Option.some.inj (hp.symm.trans hq)
    exact hopen hexpired
  · rw [hpay] at hq
    by_cases hid : i = id
    · subst hid
      rw [Table.get?_modify_self, hp] at hq
      obtain rfl : q' = q := Option.some.inj hq
      exact hconfirmed
    · rw [Table.get?_modify_of_ne _ _ hid] at hq
      exact (hstored hq).resolve_right fun hopen => hid hopen.1

/-- The part of the callback that asks the gateway. -/
private theorem settleCallback_kept (h : w.CapturesKept) (hp : w.payments.get? id = some p)
    (hc : p.status ≠ .confirmed) (hall : p.authority.all fun a => a = authority)
    (hfits : w.captures p authority "OK" → w.settles id authority) (target : String) :
    Prog.wp (settleCallback id p authority target) (fun _ => World.CapturesKept)
      (fun _ => World.CapturesKept) w := by
  have hno : ¬w.Captured p := h.unconfirmed hp hc
  unfold settleCallback
  rw [wp_bind]
  refine wp_settingsForPayment ?_ fun _ _ => h
  simp only [Db.read, wp_bind, wp_query]
  cases hs : w.payeeShop p with
  | none => exact h
  | some s =>
      have hmerchant : w.payeeMerchant p = merchantOf w.outside.decryptSecret s := by
        rw [World.payeeMerchant, hs, Option.bind_some]
      rw [Option.bind_some]
      cases hm : merchantOf w.outside.decryptSecret s with
      | none => exact h
      | some merchant =>
          rw [hm] at hmerchant
          simp only [wp_bind]
          refine wp_zarinpalVerify (fun e he => ?_) fun hok v => ?_
          · simp only [wp_bind]
            exact wp_updatePayment hp (h.withRow hp rfl rfl (.inr hno))
          · have hsettles : w.settles id authority := hfits (by
              simp [World.captures, World.handles, World.callbackRefuses, hc, hall, hmerchant, hok])
            simp only [wp_bind, wp_pure]
            refine wp_mono _ (wp_and (wp_confirmPayment_auto (p := p) (P := fun t =>
                p.status = .expired ∧ t.payments = w.payments ∨
                  ∃ q, q.status = .confirmed ∧ t.payments = w.payments.modify id fun _ => q) hp
                (fun hidle => .inl ⟨hidle.resolve_left hc, rfl⟩)
                fun _ _ q t hq _ ht => .inr ⟨q, hq, ht.payments⟩)
              ((same_confirmPayment _ _ _).wp (fun _ => rfl)
                (fun _ _ _ h h' => h'.trans h) _)) ?_ ?_
            · rintro _ t ⟨hpay, hgate⟩
              exact h.verified hp hsettles hgate hpay
            · rintro _ t ⟨hpay, hgate⟩
              exact h.verified hp hsettles hgate hpay

theorem handleZarinpalCallback_kept (h : w.CapturesKept) {status : String}
    (hfits : ∀ p ∈ w.payments.get? id, w.captures p authority status → w.settles id authority) :
    ((handleZarinpalCallback id authority status).run w).2.CapturesKept := by
  refine (wp_store_iff (P := World.CapturesKept) _).mp ?_
  unfold handleZarinpalCallback findPaymentAndOrder
  simp only [wp_bind, wp_query]
  cases hp : w.payments.get? id with
  | none => exact h
  | some p =>
      simp only [Option.map_some, wp_bind]
      refine wp_callbackTarget _ fun target => ?_
      by_cases hc : p.status = .confirmed
      · rw [if_pos hc]
        exact h
      rw [if_neg hc]
      have hno : ¬w.Captured p := h.unconfirmed hp hc
      by_cases hst : status = "OK"
      · rw [if_neg (not_not.mpr hst)]
        subst hst
        by_cases hauth : (p.authority.any fun a => a ≠ authority) = true
        · rw [if_pos hauth]
          exact h
        · rw [if_neg hauth]
          refine settleCallback_kept h hp hc ?_ (hfits p hp) target
          cases ha : p.authority <;> simp_all
      · rw [if_pos hst]
        simp only [wp_bind]
        exact wp_updatePayment hp (h.withRow hp rfl rfl (.inr hno))

end Callback

/-! ## The other calls -/

section Others

variable {w w' : World}

/-- A new payment has no authority yet. -/
private theorem World.CapturesKept.withNew (h : w.CapturesKept) {p : Payment}
    (hp : p.authority = none) : (w.withNew p).CapturesKept := by
  intro i q hq hcap
  rw [World.withNew, Table.get?_set] at hq
  split at hq
  · obtain rfl := Option.some.inj hq
    obtain ⟨a, ha, -⟩ := hcap
    rw [show _ = none from hp] at ha
    cases ha
  · exact h i q hq hcap

/-- A new invoice is not verified. -/
private theorem captured_newInvoice {q : Payment} {i : Invoice} {a : Authority} {n : ℕ}
    (hi : i.verified = false)
    (h : ({ w with gateway := w.gateway.set a i, nextId := n } : World).Captured q) :
    w.Captured q ∧ q.authority ≠ some a := by
  obtain ⟨b, hb, j, hj, hverified, hamount⟩ := h
  rw [Table.get?_set] at hj
  split at hj
  · obtain rfl := Option.some.inj hj
    rw [hi] at hverified
    cases hverified
  · next hne => exact ⟨⟨b, hb, j, hj, hverified, hamount⟩, fun ha =>
    hne (Option.some.inj (hb.symm.trans ha))⟩

/-- The authority of a new invoice is stored. -/
private theorem storeAuthority_kept (h : w.CapturesKept) {i : Invoice} (hi : i.verified = false)
    (id : PaymentId) (a : Authority) (url : String) (n : ℕ) :
    Prog.wp (storeAuthority id a url) (fun _ => World.CapturesKept) (fun _ => World.CapturesKept)
      { w with gateway := w.gateway.set a i, nextId := n } := by
  have hopened : ({ w with gateway := w.gateway.set a i, nextId := n } : World).CapturesKept :=
    fun j q hq hcap => h j q hq (captured_newInvoice hi hcap).1
  rw [storeAuthority, wp_step]
  dsimp only
  cases hp : w.payments.get? id with
  | none => exact hopened
  | some p =>
      dsimp only
      split_ifs
      · exact hopened
      · exact hopened.withRow hp rfl rfl (.inr fun hcap =>
        absurd rfl (captured_newInvoice hi hcap).2)

theorem quoteCrypto_reads (s : StoreSettings) (amount : ℤ) (assetId : Option String) :
    (quoteCrypto s amount assetId).Reads Eq := by
  have read : ∀ {α : Type} (f : World → α), (Db.read f).Reads Eq := fun f =>
    reads_query fun v v' hv => by rw [hv]
  have rate : ∀ asset, (assetRate s asset).Reads Eq := by
    intro asset
    unfold assetRate
    split
    · exact reads_ite (reads_throw _) (reads_pure _)
    · refine reads_bind (reads_bind (read _) fun r => ?_) fun _ => reads_pure _
      cases r with
      | none => exact reads_throw _
      | some r => exact reads_pure _
    · exact reads_bind (read _) fun _ => reads_ite (reads_throw _) (reads_pure _)
  refine reads_bind (reads_bind (read _) fun _ =>
    reads_ite (reads_pure _) (reads_pure _)) fun assets => ?_
  cases assets with
  | nil => exact reads_throw _
  | cons first rest =>
      exact reads_bind (rate _) fun _ => reads_bind (read _) fun _ => reads_pure _

theorem beginPayment_kept (h : w.CapturesKept) (s : StoreSettings) (input : BeginPaymentInput) :
    ((beginPayment s input).run w).2.CapturesKept := by
  refine (wp_store_iff (P := World.CapturesKept) _).mp ?_
  have hnew : ∀ expiresAt q, (w.withNew (newPayment input expiresAt q)).CapturesKept :=
    fun _ _ => h.withNew rfl
  unfold beginPayment
  split
  · exact h
  split
  · exact h
  simp only [clock, Db.read, wp_bind, wp_query]
  split
  · rw [wp_bind, (quoteCrypto_reads s input.amount input.assetId).wp_iff]
    split
    · exact wp_createPayment (hnew _ _)
    · exact h
  · exact wp_createPayment (hnew _ _)
  · simp only [wp_bind, wp_query]
    cases merchantOf w.outside.decryptSecret s with
    | none => exact h
    | some merchant =>
        simp only [wp_bind]
        refine wp_createPayment ?_
        have hcreated := hnew (w.now + s.paymentTtlMin * 60000) none
        have hrow := Table.get?_set_self w.payments w.nextId
          { newPayment input (w.now + s.paymentTtlMin * 60000) none
            with createdAt := w.now, updatedAt := w.now }
        generalize hv : w.withNew (newPayment input (w.now + s.paymentTtlMin * 60000) none) =
          v at hcreated ⊢
        have hrow' : v.payments.get? w.nextId = some
          { newPayment input (w.now + s.paymentTtlMin * 60000) none with
            createdAt := w.now, updatedAt := w.now } := hv ▸ hrow
        rw [zarinpalRequest, wp_step]
        cases hdown : v.outside.zarinpalDown with
        | some e =>
            simp only [wp_bind]
            refine wp_updatePayment hrow' (hcreated.withRow hrow' rfl rfl (.inr ?_))
            rintro ⟨a, ha, -⟩
            cases ha
        | none =>
            simp only [wp_bind]
            exact storeAuthority_kept hcreated rfl _ _ _ _
  · exact h

/-- Pending payments expire; their money is not captured. -/
private theorem World.CapturesKept.expired (h : w.CapturesKept) {stale : List (PaymentId × Payment)}
    {now : Time} (hstale : ∀ r ∈ stale, r ∈ w.payments.rows ∧ r.2.status = .pending)
    (hpay : w'.payments = w.payments.mapRows fun id p =>
      if id ∈ stale.map Prod.fst then { p with status := .expired, updatedAt := now } else p)
    (hgate : w'.gateway = w.gateway) : w'.CapturesKept := by
  intro i q hq hcap
  have hcap' : w.Captured q := by rwa [World.Captured, hgate] at hcap
  rw [hpay, Table.get?_mapRows] at hq
  obtain ⟨p, hp, rfl⟩ := Option.map_eq_some_iff.mp hq
  split at hcap'
  · next hmem =>
      obtain ⟨r, hr, rfl⟩ := List.mem_map.mp hmem
      obtain ⟨hrow, hpending⟩ := hstale r hr
      obtain rfl : p = r.2 := Option.some.inj
        (hp.symm.trans ((w.payments.mem_rows_iff _ _).mp hrow))
      have hconfirmed := h r.1 r.2 hp hcap'
      rw [hpending] at hconfirmed
      cases hconfirmed
  · next hmem =>
      rw [if_neg hmem]
      exact h i p hp hcap'

theorem expirePayments_kept (h : w.CapturesKept) : (expirePayments.run w).2.CapturesKept := by
  have order : ∀ orderId, (expireOrder orderId).Keeps fun v v' : World =>
      v'.payments = v.payments ∧ v'.gateway = v.gateway := fun orderId =>
    keeps_bind (keeps_query (fun _ => ⟨rfl, rfl⟩) _ _) fun active =>
      keeps_ite (keeps_pure ()) (keeps_modify fun _ => ⟨rfl, rfl⟩)
  have orders : ∀ ids : List OrderId, (ids.forM expireOrder).Keeps fun v v' : World =>
      v'.payments = v.payments ∧ v'.gateway = v.gateway := by
    intro ids
    induction ids with
    | nil => exact keeps_pure ()
    | cons orderId ids ih => exact keeps_bind (order orderId) fun _ => ih
  refine (wp_store_iff (P := World.CapturesKept) _).mp ?_
  unfold expirePayments
  simp only [clock, Db.read, wp_bind, wp_query]
  split
  · exact h
  · simp only [expireRows, wp_bind, wp_modify, wp_pure]
    have hstale : ∀ r ∈ w.payments.rows.filter fun r => r.2.status = .pending && r.2.overdue w.now,
        r ∈ w.payments.rows ∧ r.2.status = .pending := by
      intro r hr
      obtain ⟨hrow, hpending⟩ := List.mem_filter.mp hr
      simp only [Bool.and_eq_true, decide_eq_true_eq] at hpending
      exact ⟨hrow, hpending.1⟩
    refine wp_mono _ ((orders _).wp (fun _ => ⟨rfl, rfl⟩)
      (fun _ _ _ h h' => ⟨h'.1.trans h.1, h'.2.trans h.2⟩) _) ?_ ?_
    · rintro _ t ⟨hpay, hgate⟩
      exact h.expired hstale hpay hgate
    · rintro _ t ⟨hpay, hgate⟩
      exact h.expired hstale hpay hgate

end Others

/-! ## Runs -/

/-- A call on payments of the gateway. The customer's return and the callback are one request. -/
inductive PayPageCall
  | begin (s : StoreSettings) (input : BeginPaymentInput)
  | expire
  | callback (id : PaymentId) (authority : Authority) (status : String)

namespace PayPageCall

/-- The procedure of a call. -/
def prog : PayPageCall → Service Unit
  | begin s input => (beginPayment s input).void
  | expire => expirePayments.void
  | callback id authority status => (handleZarinpalCallback id authority status).void

/-- A callback that the gateway accepts is for the payment of its authority, which has not expired,
or this payment is confirmed already. -/
def inTime : PayPageCall → World → Prop
  | callback id authority status, w =>
      ∀ p ∈ w.payments.get? id, w.captures p authority status → w.settles id authority
  | _, _ => True

instance (c : PayPageCall) (w : World) : Decidable (c.inTime w) :=
  match c with
  | begin _ _ => isTrue trivial
  | expire => isTrue trivial
  | callback id authority status => inferInstanceAs (Decidable (∀ p ∈ w.payments.get? id,
      w.captures p authority status → w.settles id authority))

end PayPageCall

/-- What happens besides the calls: time passes and buyers pay, but the gateway verifies nothing,
and payments keep their authority, their amount and a confirmation. -/
structure PayPageCall.Meanwhile (w w' : World) : Prop where
  payments : ∀ id p', w'.payments.get? id = some p' → ∃ p, w.payments.get? id = some p ∧
    p'.authority = p.authority ∧ p'.amount = p.amount ∧
    (p.status = .confirmed → p'.status = .confirmed)
  gateway : ∀ a i', w'.gateway.get? a = some i' → i'.verified →
    ∃ i, w.gateway.get? a = some i ∧ i.verified ∧ i.amount = i'.amount

theorem World.CapturesKept.meanwhile {w w' : World} (h : w.CapturesKept)
    (hw : PayPageCall.Meanwhile w w') : w'.CapturesKept := by
  rintro id p' hp' ⟨a, ha, i', hi', hverified, hamount⟩
  obtain ⟨p, hp, hauth, hpamount, hstatus⟩ := hw.payments id p' hp'
  obtain ⟨i, hi, hverified', hiamount⟩ := hw.gateway a i' hi' hverified
  exact hstatus (h id p hp ⟨a, hauth ▸ ha, i, hi, hverified', by rw [hiamount, hamount, hpamount]⟩)

/-- In every run whose accepted callbacks are in time, captured money ends on a confirmed payment.
-/
theorem captures_kept_run {w₀ w : World} (hstart : w₀.CapturesKept)
    (hrun : Serial.Run PayPageCall.prog PayPageCall.Meanwhile PayPageCall.inTime w₀ w) :
    w.CapturesKept := by
  refine hrun.invariant hstart (fun c v h hok => ?_) fun _ _ h hw => h.meanwhile hw
  cases c with
  | begin s input =>
      rw [PayPageCall.prog, run_void]
      exact beginPayment_kept h s input
  | expire =>
      rw [PayPageCall.prog, run_void]
      exact expirePayments_kept h
  | callback id authority status =>
      rw [PayPageCall.prog, run_void]
      exact handleZarinpalCallback_kept h hok

/-! ## A payment that expires before the buyer comes back

The owner's shop takes payments by the gateway for an hour. Payment 100 gets the invoice 101.
-/

instance (w : World) : Decidable w.CapturesKept :=
  decidable_of_iff (∀ r ∈ w.payments.rows, w.Captured r.2 → r.2.status = .confirmed) <| by
    constructor
    · exact fun h id p hp => h (id, p) ((w.payments.mem_rows_iff id p).mpr hp)
    · exact fun h r hr => h r.1 r.2 ((w.payments.mem_rows_iff r.1 r.2).mp hr)

/-- A panel with that shop and no payments. -/
def payPageWorld : World := { gatewayWorld with payments := .empty, gateway := .empty }

/-- A reseller's top-up at that shop. -/
def payPageTopup : PayPageCall := .begin gatewayShop ⟨.topup, .zarinpal, 50000, 2, none, none⟩

/-- The buyer pays the invoice when the given time has passed. -/
def paidAfter (d : Time) (w : World) : World :=
  { w with now := w.now + d, gateway := w.gateway.mapRows fun _ i => { i with paid := true } }

theorem meanwhile_paidAfter (d : Time) (w : World) : PayPageCall.Meanwhile w (paidAfter d w) where
  payments _ p' hp' := ⟨p', hp', rfl, rfl, id⟩
  gateway a i' hi' hverified := by
    rw [paidAfter, Table.get?_mapRows] at hi'
    obtain ⟨i, hi, rfl⟩ := Option.map_eq_some_iff.mp hi'
    exact ⟨i, hi, hverified, rfl⟩

/-- The panel after a payment that the buyer makes when the given time has passed. -/
def paidPage (d : Time) (calls : List PayPageCall) : World :=
  Serial.calls PayPageCall.prog calls (paidAfter d (payPageTopup.prog.run payPageWorld).2)

/-- The buyer pays in the second hour: the gateway captures the money, and the payment stays
expired. -/
theorem captured_after_expiry : ∃ w, Serial.Run PayPageCall.prog PayPageCall.Meanwhile
    (fun _ _ => True) payPageWorld w ∧
    payPageWorld.CapturesKept ∧ ¬w.CapturesKept ∧
      (w.payments.get? 100).map (fun p => (p.status, p.authority)) = some (.expired, some 101) :=
  ⟨paidPage 4000000 [.expire, .callback 100 101 "OK"],
    .head (.call payPageTopup trivial)
      (.head (.env (meanwhile_paidAfter 4000000 _)) (Serial.calls_run _ _ _)),
    by decide +kernel, by decide +kernel, by decide +kernel⟩

/-- A buyer who pays in time has the payment confirmed. -/
theorem captures_kept_run_paid : (paidPage 1000 [.callback 100 101 "OK"]).CapturesKept ∧
    ((paidPage 1000 [.callback 100 101 "OK"]).payments.get? 100).map
      (fun p => (p.status, p.authority)) = some (.confirmed, some 101) :=
  ⟨@captures_kept_run payPageWorld _ (by decide +kernel) (.head (.call payPageTopup trivial)
    (.head (.env (meanwhile_paidAfter 1000 _))
      (.single (.call (PayPageCall.callback 100 101 "OK") (by decide +kernel))))),
    by decide +kernel⟩

end SRPanel
