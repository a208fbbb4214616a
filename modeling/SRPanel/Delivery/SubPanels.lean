import SRPanel.Delivery.Frame

/-!
# What a sub-panel order does

The order grants an account, and everything after that is bookkeeping: the book of sub-panels, the
handoff, the order itself and the counter of sales. So what the bookkeeping leaves alone is decided
by the grant.
-/

namespace SRPanel

open Interleaving Prog

namespace Site

/-- A site without what the bookkeeping of a sub-panel order writes. -/
def unbooked (s : Site) : Site :=
  { s with
    base := { s.base with journal := [], orders := .empty }
    orderInfo := .empty
    plans := .empty
    book := ⟨.empty, .empty⟩
    handoffs := .empty
    deliveries := ⟨[], []⟩ }

/-- A change that the bookkeeping of a sub-panel order may make. -/
def Booked (s s' : Site) : Prop := s'.unbooked = s.unbooked

theorem Booked.refl (s : Site) : Booked s s := rfl

theorem Booked.trans (s s' s'' : Site) (h : Booked s s') (h' : Booked s' s'') : Booked s s'' :=
  Eq.trans h' h

/-- Reads of what the bookkeeping does not write. -/
theorem Booked.same {s s' : Site} {α : Type} (h : Booked s s') (f : Site → α)
    (hf : ∀ s, f s.unbooked = f s) : f s' = f s := by
  rw [← hf s', show s'.unbooked = s.unbooked from h, hf s]

theorem lift_booked {α : Type} {p : Service α} (hp : p.Keeps Logged) : (lift p).Keeps Booked := by
  refine (lift_logs hp).mono fun s s' h => ?_
  have hbase : ({ s'.base with journal := [], orders := .empty } : World) =
      { s.base with journal := [], orders := .empty } :=
    congrArg (fun w : World => ({ w with orders := .empty } : World)) h.base
  rw [h.rest]
  simp only [Booked, unbooked, hbase]

theorem closeOrder_booked (id : OrderId) (f : Order → Order) (g : OrderInfo → OrderInfo) :
    (closeOrder id f g).Keeps Booked := by
  refine keeps_step fun s => ?_
  cases s.base.orders.get? id with
  | none => exact Booked.refl s
  | some o => rfl

theorem failOrder_booked (id : OrderId) (err : AppError) : (failOrder id err).Keeps Booked :=
  keeps_bind (closeOrder_booked _ _ _) fun _ =>
    keeps_bind (lift_booked (notify_keeps_logged _)) fun _ => keeps_pure _

/-- Counting a sale stays within a frame that allows more sales. -/
theorem countSale_keeps {R : Site → Site → Prop}
    (hR : ∀ (s : Site) id, R s { s with plans := s.plans.modify id fun p =>
      { p with sold := p.sold + 1 } })
    (planId : Option PlanId) : (countSale planId).Keeps R := by
  cases planId with
  | none => exact keeps_pure ()
  | some id => exact keeps_attempt (keeps_modify fun s => hR s id) fun _ => keeps_pure ()

theorem countSale_booked (planId : Option PlanId) : (countSale planId).Keeps Booked :=
  countSale_keeps (fun _ _ => rfl) planId

theorem parkHandoff_booked (id : OrderId) (handoff : PanelHandoff) (reached : List String) :
    (parkHandoff id handoff reached).Keeps Booked :=
  keeps_ite (keeps_bind (keeps_query Booked.refl _ _) fun _ => keeps_modify fun _ => rfl)
    (keeps_pure ())

theorem saveAccount_booked (key : AdminId × BuyerKey) (account : PanelAccount) :
    (saveAccount key account).Keeps Booked :=
  keeps_bind (keeps_query Booked.refl _ _) fun _ => keeps_modify fun _ => rfl

/-- The rule for a sub-panel order: what the bookkeeping keeps holds after it if it holds after the
grant, and before an order that is refused for want of the feature. -/
theorem provisionPanelOrder_wp {P : Site → Prop} (f : FoundOrder) (link : PanelPlanLink) (s : Site)
    (hP : ∀ s s', Booked s s' → P s → P s') (hrefused : s.sharedPanel = false → P s)
    (hgranted : s.sharedPanel = true →
      Prog.wp (grantPanel f link (packageOf link f.info.planSnapshot) s.base.now
        (f.seller.id, buyerKeyOf f.id f.order f.info)) (fun _ => P) (fun _ => P) s) :
    Prog.wp (provisionPanelOrder f link) (fun _ => P) (fun _ => P) s := by
  have hkeep : ∀ {α : Type} {p : Task α} {s₁ : Site}, p.Keeps Booked → P s₁ →
      Prog.wp p (fun _ => P) (fun _ => P) s₁ := fun hp h =>
    wp_mono _ (hp.wp Booked.refl Booked.trans _) (fun _ s₂ h₂ => hP _ s₂ h₂ h)
      fun _ s₂ h₂ => hP _ s₂ h₂ h
  unfold provisionPanelOrder
  rw [wp_attempt]
  refine wp_mono (E := fun _ => P) _ ?_ (fun _ _ h => h)
    fun err s₁ h => hkeep (failOrder_booked f.id err) h
  simp only [providePanel, assertSharedPanel, refuseIf, read]
  rw [wp_bind, wp_bind, wp_query]
  by_cases hshared : s.sharedPanel = true
  · rw [hshared, if_neg (by decide), wp_pure, now, read, wp_bind, wp_query, wp_bind]
    refine wp_mono _ (hgranted hshared) (fun granted s₁ h => hkeep ?_ h) fun _ _ h => h
    exact keeps_bind (saveAccount_booked _ _) fun _ =>
      keeps_bind (keeps_query Booked.refl _ _) fun reached =>
        keeps_bind (parkHandoff_booked _ _ _) fun _ =>
          keeps_bind (closeOrder_booked _ _ _) fun done =>
            keeps_bind (countSale_booked _) fun _ =>
              keeps_bind (lift_booked (audit_keeps_logged _ _)) fun _ =>
                keeps_bind (lift_booked (emitEvent_keeps_logged _ _)) fun _ =>
                  keeps_bind (lift_booked (notify_keeps_logged _)) fun _ => keeps_pure done
  · rw [Bool.not_eq_true] at hshared
    rw [hshared, if_pos (by rfl), wp_throw]
    exact hrefused hshared

/-! ## Returning buyers -/

theorem returningBuyer_some {s : Site} {key : AdminId × BuyerKey} {previous : PanelAccount}
    {existing : Operator} (h : s.returningBuyer key = some (previous, existing)) :
    s.book.accounts.get? key = some previous ∧ s.operator previous.adminId = some existing ∧
      existing.role ≠ .owner := by
  unfold returningBuyer at h
  cases hp : s.book.accounts.get? key with
  | none => rw [hp] at h; cases h
  | some p =>
      rw [hp] at h
      dsimp only [Option.bind_eq_bind, Option.bind_some] at h
      cases he : s.operator p.adminId with
      | none => rw [he] at h; cases h
      | some e =>
          rw [he] at h
          dsimp only [Option.bind_some] at h
          split at h
          · cases h
          · next hrole =>
              obtain ⟨rfl, rfl⟩ := Prod.mk.inj (Option.some.inj h)
              exact ⟨rfl, he, hrole⟩

/-- The account of a returning buyer is topped up. -/
theorem grantPanel_returning (f : FoundOrder) (link : PanelPlanLink) (pkg : PanelPackage) (now : ℤ)
    {key : AdminId × BuyerKey} {previous : PanelAccount} {existing : Operator} (s : Site)
    (htop : link.topUp)
    (hbuyer : s.returningBuyer key = some (previous, existing)) :
    Prog.wp (grantPanel f link pkg now key)
      (fun _ s' => s' = { s with accounts := s'.accounts, deliveries := s'.deliveries } ∧
        ∀ k, s'.accounts.get? k = if k = existing.id then
          some (renewedAccount existing.account pkg f.order.customerTelegramId now) else s.accounts.get? k)
      (fun _ _ => False) s := by
  obtain ⟨hprev, hoperator, hrole⟩ := returningBuyer_some hbuyer
  obtain ⟨hid, haccount, -⟩ := operator_account hoperator
  simp only [grantPanel, findReturning, read, wp_bind, wp_query, if_pos htop, hprev, hoperator,
    Option.bind_some, if_neg hrole, wp_pure]
  simp only [renewPanel, wp_bind, updateAccount, wp_step, hid, hoperator, wp_pure]
  refine ⟨trivial, fun k => ?_⟩
  rw [Table.get?_modify]
  split
  · next hk => rw [hk, haccount]; rfl
  · rfl

/-! ## The order is still there -/

/-- An order that is there stays there. -/
def KeepsOrder (id : OrderId) (s s' : Site) : Prop :=
  (s.base.orders.get? id).isSome → (s'.base.orders.get? id).isSome

theorem KeepsOrder.refl (id : OrderId) (s : Site) : KeepsOrder id s s := fun h => h

theorem KeepsOrder.trans (id : OrderId) (s s' s'' : Site) (h : KeepsOrder id s s')
    (h' : KeepsOrder id s' s'') : KeepsOrder id s s'' := fun hs => h' (h hs)

theorem keepsOrder_of_eq {id : OrderId} {s s' : Site} (h : s'.base.orders = s.base.orders) :
    KeepsOrder id s s' := fun hs => by rwa [h]

theorem closeOrder_keepsOrder (k id : OrderId) (f : Order → Order) (g : OrderInfo → OrderInfo) :
    (closeOrder id f g).Keeps (KeepsOrder k) := by
  refine keeps_step fun s => ?_
  cases s.base.orders.get? id with
  | none => exact KeepsOrder.refl k s
  | some o =>
      intro hs
      show ((s.base.orders.modify id _).get? k).isSome
      rw [Table.get?_modify]
      split
      · rw [Option.isSome_map]
        exact hs
      · exact hs

theorem lift_keepsOrder (k : OrderId) {α : Type} {p : Service α} (hp : p.Keeps Logged) :
    (lift p).Keeps (KeepsOrder k) :=
  (lift_logs hp).mono fun _ _ h => keepsOrder_of_eq (h.base.same World.orders fun _ => rfl)

theorem createAccount_keepsOrder (k : OrderId) (account : Account) (cause : OrderId) :
    (createAccount account cause).Keeps (KeepsOrder k) := by
  refine keeps_step fun s => ?_
  split
  · exact KeepsOrder.refl k s
  · exact keepsOrder_of_eq rfl

/-- What the draws and the two writes of a grant stay within, the grant stays within. -/
theorem grantPanel_keeps {R : Site → Site → Prop} (hrefl : ∀ s, R s s) (hdraw : draw.Keeps R)
    (f : FoundOrder) (hcreate : ∀ account, (createAccount account f.id).Keeps R)
    (hupdate : ∀ seen figures g, (updateAccount seen figures g (some f.id)).Keeps R)
      (link : PanelPlanLink)
    (pkg : PanelPackage) (now : ℤ) (key : AdminId × BuyerKey) :
    (grantPanel f link pkg now key).Keeps R := by
  have hread : ∀ {α : Type} (g : Site → α), (read g).Keeps R := fun g => keeps_query hrefl _ g
  have hname : ∀ base n, (freeUsername base n).Keeps R := by
    intro base n
    induction n with
    | zero => exact keeps_throw _
    | succ n ih =>
        exact keeps_bind hdraw fun _ => keeps_bind (hread _) fun _ =>
          keeps_bind (hread _) fun taken => keeps_ite ih (keeps_pure _)
  refine keeps_bind (keeps_bind (hread _) fun previous => ?_) fun found => ?_
  · cases previous with
    | none => exact keeps_pure _
    | some previous => exact keeps_bind (hread _) fun _ => keeps_pure _
  · rcases found with _ | ⟨previous, existing⟩
    · exact keeps_bind hdraw fun password => keeps_bind (hname _ _) fun username =>
        keeps_bind (hcreate _) fun _ => keeps_pure _
    · exact keeps_bind (hupdate _ _ _) fun _ => keeps_pure _

theorem grantPanel_keepsOrder (k : OrderId) (f : FoundOrder) (link : PanelPlanLink)
    (pkg : PanelPackage) (now : ℤ) (key : AdminId × BuyerKey) :
    (grantPanel f link pkg now key).Keeps (KeepsOrder k) := by
  refine grantPanel_keeps (KeepsOrder.refl k) (keeps_step fun s => keepsOrder_of_eq rfl) f
    (fun account => createAccount_keepsOrder k account f.id)
    (fun seen figures g => keeps_step fun s => ?_) link
    pkg now key
  cases s.operator seen.id with
  | none => exact KeepsOrder.refl k s
  | some o => exact keepsOrder_of_eq rfl

theorem providePanel_keepsOrder (k : OrderId) (f : FoundOrder) (link : PanelPlanLink) :
    (providePanel f link).Keeps (KeepsOrder k) := by
  have hread : ∀ {α : Type} (g : Site → α), (read g).Keeps (KeepsOrder k) := fun g =>
    keeps_query (KeepsOrder.refl k) _ g
  have hwrite : ∀ {g : Site → Site}, (∀ s, (g s).base.orders = s.base.orders) →
      (write g).Keeps (KeepsOrder k) := fun hg => keeps_modify fun s => keepsOrder_of_eq (hg s)
  refine keeps_bind (keeps_bind (hread _) fun _ => keeps_ite (keeps_throw _)
    (keeps_pure ())) fun _ => keeps_bind (hread _) fun now =>
    keeps_bind (grantPanel_keepsOrder k f link _ _ _) fun granted =>
    keeps_bind (keeps_bind (hread _) fun _ => hwrite fun _ => rfl) fun _ =>
    keeps_bind (hread _) fun reached => keeps_bind (keeps_ite ?_ (keeps_pure ())) fun _ =>
    keeps_bind (closeOrder_keepsOrder k _ _ _) fun done =>
    keeps_bind (countSale_keeps (fun _ _ => keepsOrder_of_eq rfl) _) fun _ =>
    keeps_bind (lift_keepsOrder k (audit_keeps_logged _ _)) fun _ =>
    keeps_bind (lift_keepsOrder k (emitEvent_keeps_logged _ _)) fun _ =>
    keeps_bind (lift_keepsOrder k (notify_keeps_logged _)) fun _ => keeps_pure done
  exact keeps_bind (hread _) fun _ => hwrite fun _ => rfl

/-- The error of a failed fulfilment is left in an order that is there. -/
theorem failOrder_wp (id : OrderId) (err : AppError) (s : Site)
    (hrow : (s.base.orders.get? id).isSome) :
    Prog.wp (failOrder id err) (fun _ _ => True) (fun _ _ => False) s := by
  obtain ⟨o, ho⟩ := Option.isSome_iff_exists.mp hrow
  rw [failOrder, wp_bind, closeOrder, wp_step, ho]
  dsimp only
  rw [wp_bind]
  exact wp_mono _ ((notify_returns _).zoom.wp _) (fun _ _ _ => trivial) fun _ _ h => h

/-- A sub-panel order that is there does not end with an error. -/
theorem provisionPanelOrder_returns (f : FoundOrder) (link : PanelPlanLink) (s : Site)
    (hrow : (s.base.orders.get? f.id).isSome) :
    Prog.wp (provisionPanelOrder f link) (fun _ _ => True) (fun _ _ => False) s := by
  unfold provisionPanelOrder
  rw [wp_attempt]
  refine wp_mono _ ((providePanel_keepsOrder f.id f link).wp (KeepsOrder.refl f.id)
    (KeepsOrder.trans f.id) s) (fun _ _ _ => trivial) fun err s₁ h₁ =>
      failOrder_wp f.id err s₁ (h₁ hrow)

end Site

end SRPanel
