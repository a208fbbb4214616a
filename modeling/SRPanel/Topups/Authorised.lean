import SRPanel.Deposits.Match
import SRPanel.Deposits.Book
import SRPanel.Chain.Transfers
import SRPanel.Confirm.Once
import Mathlib.Data.List.DropRight

/-!
# Who may confirm a reseller top-up

A reseller top-up is money that the reseller owes the owner of the panel, so only the owner may
decide about it. The rule is checked for reviews; the automatic sources have rules of their own. The
module proves that two of them are the only ways around it: a plugin that the reseller has created
himself, and his own deposit box. In every run in which neither comes upon a reseller top-up, each
one is confirmed by the owner or by evidence from a source that the owner controls.
-/

namespace SRPanel

open Interleaving Prog

/-! ## Evidence -/

/-- The evidence comes from a source that one of the owners `O` controls; `W` lists their wallets.
-/
def Evidence.authorised (O : List AdminId) (W : List String) : Evidence → Bool
  | .review reviewer => reviewer.role = .owner
  | .plugin p => p.master && p.adminId ∈ O
  | .deposit box _ => box ∈ O
  | .gateway seller _ => seller ∈ O
  | .transfer _ toAddress _ _ => toAddress ∈ W
  | .wallet _ => false

/-- Every reseller top-up was confirmed by an owner or by a source of an owner. -/
def World.TopupsAuthorised (O : List AdminId) (W : List String) (w : World) : Prop :=
  ∀ c ∈ w.history.confirmations, c.row.isResellerTopup → c.evidence.authorised O W

instance (O : List AdminId) (W : List String) (w : World) : Decidable (w.TopupsAuthorised O W) :=
  inferInstanceAs (Decidable (∀ c ∈ w.history.confirmations, c.row.isResellerTopup →
    c.evidence.authorised O W))

/-! ## The condition -/

/-- The payment that a deposit singles out, if it does. -/
def soleCandidate (w : World) (box : AdminId) (s : CardAuto) (dep : Deposit) (since : Time) :
    Option (PaymentId × Payment) :=
  match narrow s dep (amountOrRef s dep (openCardPayments w box since)) with
  | [r] => some r
  | _ => none

/-- A callback to a plugin that is not the owner's, and a match in a box that is not the owner's, do
not come upon a reseller top-up that they would confirm. -/
def TopupsOffLimits (O : List AdminId) : Stmt → World → Prop
  | .called plugin id, w => ¬plugin.master → ∀ p ∈ w.payments.get? id, p.adminId = plugin.adminId →
      p.method ∈ plugin.methods → ¬p.isResellerTopup
  | .look box s dep since, w => box ∉ O → s.autoConfirm →
      ∀ r ∈ soleCandidate w box s dep since, ¬r.2.isResellerTopup
  | _, _ => True

instance (O : List AdminId) (l : Stmt) (w : World) : Decidable (TopupsOffLimits O l w) :=
  match l with
  | .called plugin id => inferInstanceAs (Decidable (¬plugin.master → ∀ p ∈ w.payments.get? id,
      p.adminId = plugin.adminId → p.method ∈ plugin.methods → ¬p.isResellerTopup))
  | .look box s dep since => inferInstanceAs (Decidable (box ∉ O → s.autoConfirm →
      ∀ r ∈ soleCandidate w box s dep since, ¬r.2.isResellerTopup))
  | .other => isTrue trivial
  | .tag _ => isTrue trivial
  | .credit _ _ _ _ _ => isTrue trivial
  | .pay _ => isTrue trivial
  | .lookBack _ => isTrue trivial
  | .update _ _ => isTrue trivial
  | .callback _ _ _ => isTrue trivial
  | .receive _ _ _ => isTrue trivial
  | .release _ _ _ => isTrue trivial
  | .saveBook _ _ => isTrue trivial
  | .readPlugins _ => isTrue trivial
  | .savePlugins _ => isTrue trivial

/-! ## The invariant -/

/-- A reseller top-up belongs to no order, and a quote on it names a wallet of the owners. -/
def Payment.quotedFor (W : List String) (p : Payment) : Prop :=
  p.isResellerTopup → p.orderId = none ∧ ∀ q, p.info.bind Meta.crypto = some q → trim q.address ∈ W

/-- The settings that the owners have made lead to their own wallets. -/
structure World.Configured (O : List AdminId) (W : List String) (w : World) : Prop where
  roles : ∀ o a, w.admins.get? o = some a → a.role = .owner → o ∈ O
  shops : ∀ o s, w.shops.get? o = some s → s.adminId = o ∧
    (o ∈ O → ∀ a, s.usdtAddress = some a → trim a ∈ W)
  wallets : ∀ o ∈ O, ∀ a ∈ w.outside.cryptoAssets o, trim a.address ∈ W

/-- Master plugins are the owners'. -/
def MastersOf (O : List AdminId) (items : PluginBook) : Prop :=
  ∀ id p, items.get? id = some p → p.master → p.adminId ∈ O

/-- What the calls keep. -/
structure TopupsGuarded (O : List AdminId) (W : List String) (w : World) : Prop where
  keys : w.Keyed
  config : w.Configured O W
  plugins : w.plugins.All (MastersOf O)
  rows : ∀ id p, w.payments.get? id = some p → p.quotedFor W
  confirmed : w.TopupsAuthorised O W

section Invariant

variable {O : List AdminId} {W : List String} {w w' : World} {id : PaymentId} {p q q' : Payment}

theorem isResellerTopup_iff : p.isResellerTopup ↔ p.kind = .topup ∧ p.customerId = none := by
  simp [Payment.isResellerTopup]

/-- A copy of a reseller top-up shows a reseller top-up. -/
theorem Seen.isResellerTopup {I : World → Prop} (h : Seen I id p w)
    (hq : w.payments.get? id = some q) (hr : q.isResellerTopup) : p.isResellerTopup := by
  obtain ⟨hterms, hcustomer⟩ := h.terms hq
  rw [isResellerTopup_iff] at hr ⊢
  refine ⟨?_, ?_⟩
  · rw [← hr.1]
    exact (congrArg Prod.fst hterms).symm
  · cases hc : p.customerId with
    | none => rfl
    | some c =>
        rw [hc] at hcustomer
        exact absurd (hcustomer rfl) (by rw [hr.2]; decide)

theorem isResellerTopup_of_core (h : p.core = q.core) : p.isResellerTopup = q.isResellerTopup := by
  have hr : p.core.isResellerTopup = q.core.isResellerTopup := by rw [h]
  exact hr

theorem Payment.quotedFor.of_core (h : q.quotedFor W) (hcore : p.core = q.core) :
    p.quotedFor W := by
  intro hr
  obtain ⟨ho, hw⟩ := h (isResellerTopup_of_core hcore ▸ hr)
  have horder : p.core.orderId = q.core.orderId := by rw [hcore]
  have hinfo : p.core.info = q.core.info := by rw [hcore]
  exact ⟨horder.trans ho, fun c hc =>
    hw c (by rw [← hc]; exact congrArg (Option.bind · _) hinfo.symm)⟩

theorem World.Configured.same (h : w.Configured O W)
    (hroles : ∀ id, (w'.admins.get? id).map Admin.role = (w.admins.get? id).map Admin.role)
    (hshops : w'.shops = w.shops) (houtside : w'.outside = w.outside) : w'.Configured O W where
  roles o a ha hr := by
    have hmap := hroles o
    rw [ha, Option.map_some] at hmap
    obtain ⟨a', ha', hr'⟩ := Option.map_eq_some_iff.mp hmap.symm
    exact h.roles o a' ha' (hr'.trans hr)
  shops := by rw [hshops]; exact h.shops
  wallets := by rw [houtside]; exact h.wallets

/-- Upkeep keeps the invariant. -/
theorem TopupsGuarded.upkeep (h : TopupsGuarded O W w) (hu : Upkeep w w') :
    TopupsGuarded O W w' where
  keys := h.keys.upkeep hu
  config := h.config.same hu.roles hu.shops hu.outside
  plugins := by rw [hu.plugins]; exact h.plugins
  rows id p hp := by
    obtain ⟨q, hq, hcore⟩ := hu.payment hp
    exact (h.rows id q hq).of_core hcore
  confirmed := by
    unfold World.TopupsAuthorised
    rw [hu.confirmations]
    exact h.confirmed

/-- A change of one row, with confirmations that are authorised. -/
private theorem TopupsGuarded.withRow {hist : History} (h : TopupsGuarded O W w)
    (hq : w.payments.get? id = some q) (hrow : q'.quotedFor W)
    (hc : ∀ c ∈ hist.confirmations, c ∈ w.history.confirmations ∨
      (c.row.isResellerTopup → c.evidence.authorised O W)) :
    TopupsGuarded O W { w.withRow id q' with history := hist } where
  keys := h.keys.withRow rfl rfl
  config := h.config.same (fun _ => rfl) rfl rfl
  plugins := h.plugins
  rows i r hr := by
    rcases World.get?_withRow hq hr with ⟨-, rfl⟩ | ⟨-, hr⟩
    · exact hrow
    · exact h.rows i r hr
  confirmed c hmem := (hc c hmem).elim (h.confirmed c) fun hauth => hauth

private theorem TopupsGuarded.verdict {e : Evidence} (h : TopupsGuarded O W w)
    (hq : w.payments.get? id = some q) (hcore : q'.core = q.core)
    (he : q.isResellerTopup → e.authorised O W) : TopupsGuarded O W (w.withVerdict e id q q') :=
  h.withRow hq ((h.rows id q hq).of_core hcore) fun c hc => (List.mem_cons.mp hc).elim
    (fun heq => by subst heq; exact .inr he) .inl

/-- A row whose JSON value is written back from a copy. -/
private theorem quotedFor_of_copy {i : Meta} {txid : Option String} (h : TopupsGuarded O W w)
    (hp : Seen (TopupsGuarded O W) id p w) (hq : w.payments.get? id = some q)
    (hi : i.crypto = p.info.bind Meta.crypto)
    (hcore : q'.core = ({ q with info := some i, txid := txid } : Payment).core) :
      q'.quotedFor W := by
  have hrow : ({ q with info := some i, txid := txid } : Payment).quotedFor W := by
    intro hr
    have hrq : q.isResellerTopup := hr
    have hrp := hp.isResellerTopup hq hrq
    obtain ⟨v, hv, -, hpv⟩ := hp
    refine ⟨(h.rows id q hq hrq).1, fun c hc => (hv.rows id p hpv hrp).2 c ?_⟩
    rw [← hi]
    exact hc
  exact hrow.of_core hcore

/-- Whatever an owner's shop offers is a wallet of the owners. -/
theorem Offered.mem_wallets {s : StoreSettings} {amount : ℤ} {quote : CryptoQuote}
    (h : w.Configured O W) (hs : s.adminId ∈ O) (ha : ∀ a, s.usdtAddress = some a → trim a ∈ W)
    (ho : Offered w s amount quote) : trim quote.address ∈ W := by
  obtain ⟨a, hmem, haddr, -⟩ := ho.asset
  rw [haddr]
  unfold offeredAssets at hmem
  dsimp only at hmem
  split at hmem
  · have hlegacy : legacyAsset s = some a := by simpa using hmem
    unfold legacyAsset at hlegacy
    split at hlegacy
    · cases hlegacy
    · next address haddress =>
        split at hlegacy
        · cases hlegacy
        · obtain rfl := Option.some.inj hlegacy
          rw [trim_trim]
          exact ha address haddress
  · exact h.wallets s.adminId hs a (List.mem_filter.mp hmem).1

private theorem topupsGuarded_accepts (ok : Stmt → World → Prop) (O : List AdminId)
    (W : List String) : Accepts ok (TopupsGuarded O W) where
  upkeep hu hI := hI.upkeep hu
  fresh hI := hI.keys.fresh
  hash hI _ hseen _ hq _ _ hi hcore :=
    hI.withRow hq (quotedFor_of_copy hI hseen hq hi hcore) fun _ hc => .inl hc
  note hI _ hseen hq hi hcore :=
    hI.withRow hq (quotedFor_of_copy hI hseen hq hi hcore) fun _ hc => .inl hc
  review hI _ hseen hcan hq hcore := by
    refine hI.verdict hq hcore fun hr => ?_
    have hp := isResellerTopup_iff.mp (hseen.isResellerTopup hq hr)
    unfold canReview at hcan
    split at hcan
    · next howner => exact decide_eq_true howner
    · rw [if_neg (by rw [hp.1]; decide), hp.2] at hcan
      cases hcan
  transfer {w id p q q' p₀ s txid address r} hI _ _ hchecked hq hcore := by
    refine hI.verdict hq hcore fun hr => ?_
    have hp := hchecked.copy.isResellerTopup hq hr
    obtain ⟨hkind, hcustomer⟩ := isResellerTopup_iff.mp hp
    have hpayee := hchecked.payee
    rw [Payee, if_neg (by rw [hkind, hcustomer]; decide)] at hpayee
    -- a reseller's top-up is paid to the owner, at an address of the owner's
    obtain ⟨v, v', o, a, hv, hadmin, howner, hv', hshop⟩ := hpayee
    have ho := hv.config.roles o a hadmin howner
    have htarget := hchecked.target
    refine decide_eq_true ?_
    cases hquote : cryptoMetaOf p₀ with
    | none =>
        rw [hquote] at htarget
        exact (hv'.config.shops o s hshop).2 ho address htarget
    | some quote =>
        rw [hquote] at htarget
        obtain rfl : quote.address = address := by simpa [payAddress] using htarget
        obtain ⟨u, hu, -, hpu⟩ := hchecked.copy
        have hrow := (hu.rows id p₀ hpu hp).2
        unfold cryptoMetaOf at hquote
        split at hquote
        · cases hquote
        · next c hc =>
            split at hquote
            · cases hquote
            · obtain rfl := Option.some.inj hquote
              exact hrow c hc

end Invariant

/-! ## Automatic sources -/

section Sources

variable {O : List AdminId} {W : List String} {w : World} {id : PaymentId} {p : Payment}

/-- The promise and the invariant of this module. -/
private abbrev Guards {α : Type} (O : List AdminId) (W : List String) (p : Service α)
    (w : World) : Prop :=
  Maintains (TopupsOffLimits O) (TopupsGuarded O W) p w

private theorem guards_upkeep {α : Type} {p : Service α} (hp : p.Keeps Upkeep) : Guards O W p w :=
  maintains_upkeep (topupsGuarded_accepts _ O W) hp

private theorem guards_aside {α : Type} {p : Service α} (hp : p.Keeps Aside) : Guards O W p w :=
  maintains_aside (topupsGuarded_accepts _ O W) hp

/-- An automatic confirmation from a source that is the owner's unless the payment is not a reseller
top-up. -/
private theorem confirmAuto_guards {e : Evidence} {refId cardPan : Option String}
    (hseen : Seen (TopupsGuarded O W) id p w) (he : p.isResellerTopup → e.authorised O W) :
    Guards O W (confirmPayment e id (.auto refId cardPan)) w :=
  confirmPayment_maintains (topupsGuarded_accepts _ O W) fun ht hI _ _ _ hq hcore =>
    hI.verdict hq hcore fun hr => he ((hseen.later ht).isResellerTopup hq hr)

/-! ### The gateway -/

private theorem handleZarinpalCallback_guards (id : PaymentId) (authority : Authority)
    (status : String) : Guards O W (handleZarinpalCallback id authority status) w := by
  refine upholds_read fun v _ hI _ => ?_
  cases hp : v.payments.get? id with
  | none => exact maintains_pure _
  | some p =>
      refine Maintains.bind (guards_aside (callbackTarget_keeps _ _)) fun target t ht => ?_
      refine upholds_ite (fun _ => maintains_pure _) fun _ => ?_
      refine upholds_ite (fun _ => ?_) fun _ => upholds_ite (fun _ => maintains_pure _) fun _ => ?_
      · exact Maintains.bind (guards_upkeep (rejectByGateway_keeps _ _ _)) fun _ _ _ =>
        maintains_pure _
      · refine (settingsForPayment_provides p).bind fun s u hu hs => upholds_read fun u' hu' _ _ => ?_
        split
        · next s' merchant _ =>
            refine Maintains.bind (guards_aside (zarinpalVerify_keeps _ _ _)) fun r x hx => ?_
            cases r with
            | error e =>
                exact Maintains.bind (guards_upkeep (rejectByGateway_keeps _ _ _)) fun _ _ _ =>
                  maintains_pure _
            | ok r =>
                have hseen : Seen (TopupsGuarded O W) id p x := (Seen.now hI hp).later
                  (trans_of Lasting ht (trans_of Lasting hu (trans_of Lasting hu' hx)))
                refine Maintains.bind (confirmAuto_guards hseen fun hr => ?_) fun _ _ _ =>
                  maintains_pure _
                obtain ⟨hkind, hcustomer⟩ := isResellerTopup_iff.mp hr
                have hpayee := hs s' rfl
                rw [Payee, if_neg (by rw [hkind, hcustomer]; decide)] at hpayee
                obtain ⟨v, v', o, a, hv, hadmin, howner, hv', hshop⟩ := hpayee
                refine decide_eq_true ?_
                rw [(hv'.config.shops o s' hshop).1]
                exact hv.config.roles o a hadmin howner
        · exact maintains_pure _

/-! ### Plugins -/

private theorem pluginBook_guards (x : Proc) :
    Provides (TopupsOffLimits O) (TopupsGuarded O W) (fun items _ => MastersOf O items)
      (pluginBook x) w := by
  refine upholds_step fun t _ hI _ =>
    ⟨?_, ⟨fun _ p hp => ⟨p, hp, rfl, fun h => h⟩, fun _ h => h⟩, ?_, fun _ _ => trivial⟩
  · exact ⟨hI.keys, hI.config.same (fun _ => rfl) rfl rfl,
      hI.plugins.touch x SETTING_TTL t.now, hI.rows, hI.confirmed⟩
  · rintro items ⟨⟩
    exact hI.plugins.get x SETTING_TTL t.now

private theorem savePluginBook_guards (x : Proc) {seen items : PluginBook} (h : MastersOf O items) :
    Guards O W (savePluginBook x seen items) w :=
  upholds_step fun t _ hI _ => ⟨⟨hI.keys, hI.config.same (fun _ => rfl) rfl rfl,
    hI.plugins.put h x t.now, hI.rows, hI.confirmed⟩,
    ⟨fun _ p hp => ⟨p, hp, rfl, fun h => h⟩, fun _ h => h⟩, fun _ _ => trivial, fun _ _ => trivial⟩

private theorem MastersOf.set {items : PluginBook} (h : MastersOf O items) (id : PluginId)
    {p : PaymentPlugin} (hp : p.master → p.adminId ∈ O) : MastersOf O (items.set id p) := by
  intro i r hr
  rw [Table.get?_set] at hr
  split at hr
  · obtain rfl := Option.some.inj hr
    exact hp
  · exact h i r hr

private theorem stamp_guards (x : Proc) (id : PluginId) (status : String) (error : Option String)
    (confirmed : Bool) : Guards O W (stamp x id status error confirmed) w := by
  refine (pluginBook_guards x).bind fun items t _ hitems => ?_
  cases hcur : items.get? id with
  | none => exact maintains_pure _
  | some cur =>
      exact upholds_read fun _ _ _ _ => savePluginBook_guards x (hitems.set id (hitems id cur hcur))

private theorem finish_guards (x : Proc) (id : PluginId) (action : CallbackAction)
    (paymentId : PaymentId) (status : PaymentStatus) (message : String) :
    Guards O W (finish x id action paymentId status message) w :=
  (stamp_guards _ _ _ _ _).bind fun _ _ _ => maintains_pure _

private theorem refuse_guards {α : Type} (x : Proc) (id : PluginId) (status : String)
    (e : AppError) : Guards O W (refuse x id status e : Service α) w :=
  (stamp_guards _ _ _ _ _).bind fun _ _ _ => maintains_throw _

private theorem mine_guards (x : Proc) (actor : Actor) (id : PluginId) :
    Provides (TopupsOffLimits O) (TopupsGuarded O W) (fun r _ => MastersOf O r.1 ∧
      (r.2.master → r.2.adminId ∈ O)) (mine x actor id) w := by
  refine upholds_bind (pluginBook_guards x) fun items t _ hitems => ?_
  cases hp : items.get? id with
  | none => exact upholds_throw trivial
  | some plugin =>
      exact upholds_ite (fun _ => upholds_throw trivial) fun _ =>
        upholds_pure ⟨hitems, hitems id plugin hp⟩

/-- An admin who acts as an owner is one. -/
def Actor.genuine (O : List AdminId) (actor : Actor) : Prop := actor.role = .owner → actor.id ∈ O

private theorem drawSecret_guards {α : Type} (f : World → α) :
    Guards O W (.step .other fun w => (.ok (f w), { w with nextId := w.nextId + 1 })) w := by
  refine guards_upkeep (keeps_step fun w => ?_)
  exact ⟨rfl, Nat.le_succ _, fun _ => rfl, fun _ => rfl, rfl, rfl, rfl, rfl, rfl, fun _ => rfl⟩

private theorem createPaymentPlugin_guards (x : Proc) {actor : Actor} (ha : actor.genuine O)
    (input : PaymentPluginInput) : Guards O W (createPaymentPlugin x actor input) w := by
  refine upholds_ite (fun _ => maintains_throw _) fun _ => ?_
  refine (pluginBook_guards x).bind fun items t _ hitems => ?_
  refine upholds_ite (fun _ => maintains_throw _) fun _ => ?_
  refine Maintains.bind (drawSecret_guards fun w => (w.nextId, w.outside.randomHex w.nextId))
    fun drawn _ _ => ?_
  refine Maintains.bind (savePluginBook_guards x (hitems.set _ fun hm => ?_)) fun _ _ _ => ?_
  · exact ha (of_decide_eq_true hm)
  · exact Maintains.bind (guards_aside (audit_keeps _ _)) fun _ _ _ => maintains_pure _

private theorem rotatePaymentPluginSecret_guards (x : Proc) (actor : Actor) (id : PluginId) :
    Guards O W (rotatePaymentPluginSecret x actor id) w := by
  refine (mine_guards x actor id).bind fun r t _ ⟨hitems, hm⟩ => ?_
  refine Maintains.bind (drawSecret_guards fun w => w.outside.randomHex w.nextId) fun secret _ _ =>
    ?_
  refine Maintains.bind (savePluginBook_guards x (hitems.set id hm)) fun _ _ _ => ?_
  exact Maintains.bind (guards_aside (audit_keeps _ _)) fun _ _ _ => maintains_pure _

private theorem updatePaymentPlugin_guards (x : Proc) (actor : Actor) (id : PluginId)
    (patch : PaymentPluginPatch) : Guards O W (updatePaymentPlugin x actor id patch) w := by
  refine (mine_guards x actor id).bind fun r t _ ⟨hitems, hm⟩ => ?_
  refine Maintains.bind (savePluginBook_guards x (hitems.set id hm)) fun _ _ _ => ?_
  exact Maintains.bind (guards_aside (audit_keeps _ _)) fun _ _ _ => maintains_pure _

private theorem deletePaymentPlugin_guards (x : Proc) (actor : Actor) (id : PluginId) :
    Guards O W (deletePaymentPlugin x actor id) w := by
  refine (mine_guards x actor id).bind fun r t _ ⟨hitems, _⟩ => ?_
  refine Maintains.bind (savePluginBook_guards x fun i p hp => ?_) fun _ _ _ =>
    guards_aside (audit_keeps _ _)
  rw [Table.get?_erase] at hp
  split at hp
  · cases hp
  · exact hitems i p hp

private theorem settlePluginCallback_guards {x : Proc} {plugin : PaymentPlugin}
    {body : CallbackBody} (pluginId : PluginId) (hseen : Seen (TopupsGuarded O W) id p w)
    (he : p.isResellerTopup → (Evidence.plugin plugin).authorised O W) :
    Guards O W (settlePluginCallback x pluginId plugin id p body) w := by
  unfold settlePluginCallback
  dsimp only
  refine upholds_ite (fun _ => ?_) fun _ => ?_
  · refine Maintains.bind (guards_upkeep (updatePayment_keeps fun _ _ => rfl)) fun _ _ _ => ?_
    exact Maintains.bind (guards_aside (audit_keeps _ _)) fun _ _ _ => finish_guards _ _ _ _ _ _
  · cases reviewReason plugin p.amount (lower (trim (body.status.getD "ok"))) body with
    | some why =>
        refine Maintains.bind (guards_upkeep (updatePayment_keeps fun _ _ => rfl)) fun _ _ _ => ?_
        exact Maintains.bind (guards_aside (audit_keeps _ _)) fun _ _ _ => finish_guards _ _ _ _ _ _
    | none =>
        refine Maintains.bind (confirmAuto_guards hseen he) fun _ _ _ => ?_
        exact Maintains.bind (guards_aside (audit_keeps _ _)) fun _ _ _ => finish_guards _ _ _ _ _ _

private theorem handlePaymentPluginCallback_guards (x : Proc) (pluginId : PluginId)
    (rawBody : String) (signature : Option String) :
    Guards O W (handlePaymentPluginCallback x pluginId rawBody signature) w := by
  refine (pluginBook_guards x).bind fun items t _ hitems => ?_
  cases hplugin : items.get? pluginId with
  | none => exact maintains_throw _
  | some plugin =>
      refine upholds_ite (fun _ => maintains_throw _) fun _ => ?_
      refine upholds_ite (fun _ => maintains_throw _) fun _ => upholds_read fun _ _ _ _ => ?_
      refine upholds_ite (fun _ => refuse_guards _ _ _ _) fun _ => upholds_read fun u _ _ _ => ?_
      cases u.outside.callbackJson (if rawBody = "" then "\x7b\x7d" else rawBody) with
      | none => exact refuse_guards _ _ _ _
      | some body =>
          dsimp only
          cases body.target with
          | none => exact refuse_guards _ _ _ _
          | some id =>
              refine upholds_read fun v _ hI hok => ?_
              cases hp : v.payments.get? id with
              | none => exact refuse_guards _ _ _ _
              | some p =>
                  refine upholds_ite (fun _ => refuse_guards _ _ _ _) fun hadmin => ?_
                  refine upholds_ite (fun _ => refuse_guards _ _ _ _) fun hmethod => ?_
                  refine upholds_ite (fun _ => finish_guards _ _ _ _ _ _) fun _ => ?_
                  refine upholds_ite (fun _ => finish_guards _ _ _ _ _ _) fun _ => ?_
                  refine settlePluginCallback_guards pluginId (.now hI hp) fun hr => ?_
                  cases hmaster : plugin.master with
                  | true =>
                      have howner := hitems pluginId plugin hplugin hmaster
                      simp [Evidence.authorised, hmaster, howner]
                  | false =>
                      have hown : p.adminId = plugin.adminId := by simpa [hmaster] using hadmin
                      exact absurd hr (hok (by simp [hmaster]) p hp hown (not_not.mp hmethod))

/-! ### Deposits -/

private theorem cardAutoSettings_keeps (x : Proc) (box : AdminId) :
    (cardAutoSettings x box).Keeps Upkeep :=
  keeps_step fun _ =>
    ⟨rfl, le_rfl, fun _ => rfl, fun _ => rfl, rfl, rfl, rfl, rfl, rfl, fun _ => rfl⟩

private theorem saveCardAuto_keeps (x : Proc) (box : AdminId) (seen : Option CardAuto)
    (patch : CardAutoPatch) : (saveCardAuto x box seen patch).Keeps Upkeep := by
  refine keeps_bind (cardAutoSettings_keeps x box) fun r => keeps_step fun w => ?_
  split
  · exact ⟨rfl, le_rfl, fun _ => rfl, fun _ => rfl, rfl, rfl, rfl, rfl, rfl, fun _ => rfl⟩
  · exact Upkeep.refl w

private theorem matchDeposit_guards (box : AdminId) (s : CardAuto) (dep : Deposit) :
    Guards O W (matchDeposit (settlePlainly box) box s dep) w := by
  refine upholds_ite (fun _ => maintains_pure _) fun _ => ?_
  refine upholds_read fun t _ _ _ => upholds_read fun v _ hI hok => ?_
  refine upholds_ite (fun _ => maintains_pure _) fun _ => ?_
  unfold settleMatch
  split
  · exact maintains_pure _
  · next target hcands =>
      refine upholds_ite (fun _ => maintains_pure _) fun hauto => ?_
      have hstored : v.payments.get? target.1 = some target.2 := by
        have hmem := amountOrRef_subset (narrow_eq_singleton hcands).1
        have hrow := List.mem_of_mem_take hmem
        rw [List.mem_insertionSort, List.mem_filter] at hrow
        exact (v.payments.mem_rows_iff target.1 target.2).mp hrow.1
      have hsole : soleCandidate v box s dep (t.now - max 5 s.windowMin * 60000) = some target := by
        rw [soleCandidate, hcands]
      refine upholds_attempt (Maintains.bind (confirmAuto_guards (.now hI hstored) fun hr => ?_)
        fun _ _ _ => maintains_pure _) fun _ _ _ => maintains_pure _
      by_contra hbox
      exact hok (by simpa [Evidence.authorised] using hbox) (by simpa using hauto) target hsole hr
  · exact maintains_pure _

private theorem ingestDeposit_guards (box : AdminId) (x : Proc) (input : DepositInput) :
    Guards O W (ingestDeposit (settlePlainly box) x box input) w := by
  unfold ingestDeposit
  dsimp only
  refine upholds_ite (fun _ => maintains_pure _) fun _ => ?_
  have hreceive : (receiveDeposit x box (mathRound input.amount).toNat input).Keeps Upkeep :=
    keeps_step fun _ =>
      ⟨rfl, Nat.le_succ _, fun _ => rfl, fun _ => rfl, rfl, rfl, rfl, rfl, rfl, fun _ => rfl⟩
  refine Maintains.bind (guards_upkeep hreceive) fun r t _ => ?_
  obtain ⟨s, dep⟩ := r
  dsimp only
  cases s.deposits.find? (isDuplicate dep) with
  | some dup =>
      have hdismiss : (dismiss dep dup).Keeps Upkeep := keeps_modify fun _ =>
        ⟨rfl, le_rfl, fun _ => rfl, fun _ => rfl, rfl, rfl, rfl, rfl, rfl, fun _ => rfl⟩
      exact Maintains.bind (guards_upkeep hdismiss) fun _ _ _ => maintains_pure _
  | none =>
      refine Maintains.bind (matchDeposit_guards box s dep) fun m _ _ => ?_
      exact Maintains.bind (guards_upkeep (saveCardAuto_keeps _ _ _ _)) fun _ _ _ =>
        maintains_pure _

private theorem rematchAll_guards (box : AdminId) (s : CardAuto) (ds next : List Deposit) :
    Guards O W (rematchAll (settlePlainly box) box s ds next) w := by
  induction ds generalizing w next with
  | nil => exact maintains_pure _
  | cons d ds ih =>
      exact Maintains.bind (matchDeposit_guards box s d) fun m _ _ =>
        Maintains.bind (ih _) fun _ _ _ => maintains_pure _

private theorem importRows_guards (box : AdminId) (x : Proc) (inputs : List DepositInput) :
    Guards O W (importRows (settlePlainly box) x box inputs) w := by
  induction inputs generalizing w with
  | nil => exact maintains_pure _
  | cons input inputs ih =>
      exact Maintains.bind (ingestDeposit_guards box x input) fun _ _ _ =>
        Maintains.bind ih fun _ _ _ => maintains_pure _

private theorem boxCall_guards (box : AdminId) (call : BoxCall) :
    Guards O W (call.prog (settlePlainly box) box) w := by
  cases call with
  | ingest x input => exact upholds_void (ingestDeposit_guards box x input)
  | rematch x =>
      refine upholds_void (Maintains.bind (guards_upkeep (cardAutoSettings_keeps x box))
        fun r _ _ => ?_)
      refine upholds_ite (fun _ => maintains_pure _) fun _ => ?_
      refine Maintains.bind (rematchAll_guards box _ _ _) fun _ _ _ => ?_
      exact Maintains.bind (guards_upkeep (saveCardAuto_keeps _ _ _ _)) fun _ _ _ =>
        maintains_pure _
  | sync x =>
      refine upholds_void (Maintains.bind (guards_upkeep (cardAutoSettings_keeps x box))
        fun r _ _ => ?_)
      refine upholds_ite (fun _ => maintains_pure _) fun _ => ?_
      refine upholds_ite (fun _ => maintains_pure _) fun _ => upholds_read fun t _ _ _ => ?_
      cases t.outside.bankFeed box with
      | error e =>
          exact Maintains.bind (guards_upkeep (saveCardAuto_keeps _ _ _ _)) fun _ _ _ =>
            maintains_pure _
      | ok rows =>
          refine Maintains.bind (importRows_guards box x _) fun _ _ _ =>
            upholds_read fun _ _ _ _ => ?_
          exact Maintains.bind (guards_upkeep (saveCardAuto_keeps _ _ _ _)) fun _ _ _ =>
            maintains_pure _
  | save x patch => exact upholds_void (guards_upkeep (saveCardAuto_keeps _ _ _ _))

/-! ### Starting payments -/

private theorem TopupsGuarded.withNew {p : Payment} (h : TopupsGuarded O W w) (hp : p.quotedFor W) :
    TopupsGuarded O W (w.withNew p) where
  keys := h.keys.withNew p
  config := h.config.same (fun _ => rfl) rfl rfl
  plugins := h.plugins
  rows i r hr := by
    rcases World.get?_withNew hr with ⟨-, rfl⟩ | ⟨-, hr⟩
    · exact hp
    · exact h.rows i r hr
  confirmed := h.confirmed

/-- A payment that is neither quoted nor bound to an order. -/
private theorem quotedFor_of_no_quote {p : Payment} (horder : p.isResellerTopup → p.orderId = none)
    (hquote : p.info.bind Meta.crypto = none) : p.quotedFor W := fun hr =>
  ⟨horder hr, fun c hc => by rw [hquote] at hc; cases hc⟩

private theorem beginPayment_guards {ok : Stmt → World → Prop} {s : StoreSettings}
    {input : BeginPaymentInput}
    (hnew : ∀ {expiresAt q}, (∀ q', q = some q' → input.method = .usdt ∧
      ∃ v, TopupsGuarded O W v ∧ Offered v s input.amount q') →
      (newPayment input expiresAt q).quotedFor W) :
    Maintains ok (TopupsGuarded O W) (beginPayment s input) w := by
  refine beginPayment_maintains (topupsGuarded_accepts _ O W)
    (fun hI hq _ => hI.withNew (hnew hq)) fun _ hI _ hq _ hm => ?_
  exact hI.withRow hq (quotedFor_of_no_quote (fun hr => (hI.rows _ _ hq hr).1) hm) fun _ hc =>
    .inl hc

private theorem beginOrderPayment_guards (s : StoreSettings) {input : BeginPaymentInput}
    (hkind : input.kind = .order) : Guards O W (beginPayment s input) w := by
  refine beginPayment_guards fun _ hr => ?_
  have htopup : input.kind = .topup := (isResellerTopup_iff.mp hr).1
  rw [hkind] at htopup
  cases htopup

private theorem createTopup_guards (actor : Actor) (amount : ℤ) (method : PaymentMethod)
    (assetId : Option String) : Guards O W (createTopup actor amount method assetId) w := by
  refine upholds_ite (fun _ => maintains_throw _) fun _ => ?_
  refine upholds_ite (fun _ => maintains_throw _) fun _ => ?_
  refine ownerAdmin_provides.bind fun o t _ ⟨v, hv, hadmin, howner⟩ =>
    upholds_read fun t' _ hI _ => ?_
  have ho := hv.config.roles o.1 o.2 hadmin howner
  cases hs : t'.shops.get? o.1 with
  | none => exact maintains_throw _
  | some s =>
      obtain ⟨hid, haddress⟩ := hI.config.shops o.1 s hs
      refine upholds_ite (fun _ => maintains_throw _) fun _ => ?_
      refine Maintains.bind (beginPayment_guards fun hq _ => ⟨rfl, fun c hc => ?_⟩) fun r _ _ =>
        Maintains.bind (guards_aside (audit_keeps _ _)) fun _ _ _ => maintains_pure _
      obtain ⟨quote, rfl, rfl⟩ : ∃ quote, _ = some quote ∧ quote = c := by
        simpa [newPayment, Option.bind_map, Function.comp_def] using hc
      obtain ⟨-, u, hu, hoffer⟩ := hq quote rfl
      exact hoffer.mem_wallets hu.config (hid ▸ ho) (haddress ho)

/-- A quote only reads. -/
private theorem quoteCrypto_keeps (s : StoreSettings) (amount : ℤ) (assetId : Option String) :
    (quoteCrypto s amount assetId).Keeps fun w w' => w' = w := by
  have hread : ∀ {α : Type} (f : World → α), (Db.read f).Keeps fun w w' :
      World => w' = w := fun f =>
    keeps_query (R := fun w w' : World => w' = w) (fun _ => rfl) _ f
  have hrate : ∀ a, (assetRate s a).Keeps fun w w' => w' = w := by
    intro a
    unfold assetRate
    cases effectiveRateMode a with
    | fixed => exact keeps_ite (keeps_throw _) (keeps_pure _)
    | market =>
        refine keeps_bind (keeps_bind (hread _) fun r => ?_) fun _ => keeps_pure _
        cases r with
        | none => exact keeps_throw _
        | some r => exact keeps_pure r
    | usdt =>
        exact keeps_bind (hread _) fun _ =>
          keeps_ite (keeps_throw _) (keeps_pure _)
  refine keeps_bind (keeps_bind (hread _) fun assets =>
    keeps_ite (keeps_pure _) (keeps_pure _)) fun list => ?_
  cases list with
  | nil => exact keeps_throw _
  | cons first rest =>
      exact keeps_bind (hrate _) fun r => keeps_bind (hread _) fun _ => keeps_pure _

private theorem tagCustomer_guards {ok : Stmt → World → Prop} (id : PaymentId)
    (customerId : CustomerId) :
    Maintains ok (TopupsGuarded O W) (tagCustomer id customerId) w := by
  refine upholds_step fun t _ hI _ => ?_
  cases hq : t.payments.get? id with
  | none => exact ⟨hI, refl_of Lasting t, fun _ _ => trivial, fun _ _ => trivial⟩
  | some q =>
      refine ⟨hI.withRow hq (fun hr => ?_) fun _ hc => .inl hc, ?_, fun _ _ => trivial,
        fun _ _ => trivial⟩
      · cases (isResellerTopup_iff.mp hr).2
      · exact Lasting.of_row hq rfl (fun _ h => h) rfl fun _ => rfl

/-- The world after the start of a payment and its tag. -/
private theorem tagged_guarded (hI : TopupsGuarded O W w) (p : Payment) (customerId : CustomerId) :
    TopupsGuarded O W ((w.withNew p).withRow w.nextId { p with
      createdAt := w.now
      customerId := some customerId
      updatedAt := w.now }) ∧
    Lasting w ((w.withNew p).withRow w.nextId { p with
      createdAt := w.now
      customerId := some customerId
      updatedAt := w.now }) := by
  have hp : (w.withNew p).payments.get? w.nextId = some { p with
      createdAt := w.now
      updatedAt := w.now } := Table.get?_set_self _ _ _
  refine ⟨⟨(hI.keys.withNew p).withRow rfl rfl, hI.config.same (fun _ => rfl) rfl rfl, hI.plugins,
    fun i r hr => ?_, hI.confirmed⟩, fun i r hr => ⟨r, ?_, rfl, fun h => h⟩,
    fun _ h => List.mem_append_right _ h⟩
  · rcases World.get?_withRow hp hr with ⟨-, rfl⟩ | ⟨hi, hr⟩
    · intro hreseller
      cases (isResellerTopup_iff.mp hreseller).2
    · exact hI.rows i r ((World.get?_withNew hr).resolve_left fun h => hi h.1).2
  · have hi : i ≠ w.nextId := by
      rintro rfl
      rw [hI.keys.fresh] at hr
      cases hr
    show ((w.payments.set w.nextId _).modify w.nextId _).get? i = some r
    rw [Table.get?_modify_of_ne _ _ hi, Table.get?_set_of_ne _ _ hi, hr]

/-- The start of a payment with a quote, and its tag: the payment is nobody's reseller top-up. -/
private theorem wp_quotedTopup (hI : TopupsGuarded O W w) {s : StoreSettings}
    {input : BeginPaymentInput} (hm : input.method = .usdt) (customerId : CustomerId)
    {rest : PaymentId → Payment → Service (PaymentId × Payment)}
    (hrest : ∀ id p, (rest id p).Keeps Aside) :
    Prog.wp (do
        let r ← beginPayment s input
        let payment ← tagCustomer r.1 customerId
        rest r.1 payment)
      (fun _ t => TopupsGuarded O W t ∧ Lasting w t) (fun _ t => TopupsGuarded O W t ∧ Lasting w t)
      w := by
  have hsame : TopupsGuarded O W w ∧ Lasting w w := ⟨hI, refl_of Lasting w⟩
  simp only [wp_bind]
  unfold beginPayment
  split
  · exact hsame
  split
  · exact hsame
  simp only [clock, Db.read, wp_bind, wp_query, hm]
  have hquote : Prog.wp (quoteCrypto s input.amount input.assetId) (fun _ t =>
      t = w) (fun _ t => t = w) w := (wp_store_iff (P := fun t => t = w) _).mpr
    ((quoteCrypto_keeps s input.amount input.assetId).run (fun _ => rfl)
      (fun _ _ _ h h' => h'.trans h) w)
  refine wp_mono _ hquote (fun quote t ht => ?_) fun _ t ht => by rw [ht]; exact hsame
  subst ht
  refine wp_createPayment (wp_updatePayment (Table.get?_set_self _ _ _) ?_)
  refine (wp_store_iff (P := fun t' => TopupsGuarded O W t' ∧ Lasting t t') _).mpr ?_
  obtain ⟨hguarded, hlast⟩ := tagged_guarded hI (newPayment input
    (t.now + s.paymentTtlMin * 60000) (some quote)) customerId
  have hrun := fun p => (hrest t.nextId p).run Aside.refl Aside.trans
    ((t.withNew (newPayment input (t.now + s.paymentTtlMin * 60000) (some quote))).withRow t.nextId
      { newPayment input (t.now + s.paymentTtlMin * 60000) (some quote) with
        createdAt := t.now
        customerId := some customerId
        updatedAt := t.now })
  exact ⟨hguarded.upkeep (hrun _).upkeep, trans_of Lasting hlast (hrun _).upkeep.lasting⟩

/-- The start of any other payment, and its tag. -/
private theorem wp_plainTopup (hI : TopupsGuarded O W w) {s : StoreSettings}
    {input : BeginPaymentInput} (hm : input.method ≠ .usdt) (horder : input.orderId = none)
    (customerId : CustomerId) {rest : PaymentId → Payment → Service (PaymentId × Payment)}
    (hrest : ∀ id p, (rest id p).Keeps Aside) :
    Prog.wp (do
        let r ← beginPayment s input
        let payment ← tagCustomer r.1 customerId
        rest r.1 payment)
      (fun _ t => TopupsGuarded O W t ∧ Lasting w t) (fun _ t => TopupsGuarded O W t ∧ Lasting w t)
      w := by
  have hbegin : Maintains (fun _ _ => True) (TopupsGuarded O W) (beginPayment s input) w := by
    refine beginPayment_guards fun {expiresAt q} hq => quotedFor_of_no_quote (fun _ => horder) ?_
    cases q with
    | none => rfl
    | some quote => exact absurd (hq quote rfl).1 hm
  have hall : Maintains (fun _ _ => True) (TopupsGuarded O W) (do
      let r ← beginPayment s input
      let payment ← tagCustomer r.1 customerId
      rest r.1 payment) w :=
    Maintains.bind hbegin fun r _ _ => Maintains.bind (tagCustomer_guards r.1 customerId)
      fun p _ _ => maintains_aside (topupsGuarded_accepts _ O W) (hrest r.1 p)
  exact wp_mono _ (hall.wp hI) (fun _ _ h => ⟨h.1, h.2.1⟩) fun _ _ h => ⟨h.1, h.2.1⟩

private theorem createCustomerTopup_guards (customerId : CustomerId) (customer : Customer)
    (amount : ℤ) (method : PaymentMethod) (assetId : Option String) :
    Guards O W (Prog.atomically .other (createCustomerTopup customerId customer amount method
      assetId)) w := by
  refine upholds_atomically fun t _ hI _ => ?_
  have hsame : TopupsGuarded O W t ∧ Lasting t t := ⟨hI, refl_of Lasting t⟩
  have hrest : ∀ (id : PaymentId) (p : Payment), (do
      audit (some customer.adminId) "customer.topup_request"
      pure (id, p) : Service (PaymentId × Payment)).Keeps Aside := fun _ _ =>
    keeps_bind (audit_keeps _ _) fun _ => keeps_pure _
  have hdone : Prog.wp (createCustomerTopup customerId customer amount method assetId)
      (fun _ t' => TopupsGuarded O W t' ∧ Lasting t t')
        (fun _ t' => TopupsGuarded O W t' ∧ Lasting t t')
      t := by
    unfold createCustomerTopup
    rw [wp_bind, storeSettingsByAdminId, Db.read, wp_query]
    cases t.shops.get? customer.adminId with
    | none => exact hsame
    | some s =>
        dsimp only
        generalize (if 0 < s.minTopup then s.minTopup else MIN_TOPUP) = least
        split
        · exact hsame
        split
        · exact hsame
        split
        · exact hsame
        split
        · exact hsame
        by_cases hm : method = .usdt
        · exact wp_quotedTopup hI hm customerId hrest
        · exact wp_plainTopup hI hm rfl customerId hrest
  exact wp_mono _ hdone (fun _ _ h => ⟨h.1, h.2, trivial⟩) fun _ _ h => ⟨h.1, h.2, trivial⟩

end Sources

/-! ## Runs -/

/-- What admins and customers can do about payments. The start of a customer's top-up is one step,
so that nobody comes upon the payment before it is tagged. -/
inductive SellerCall
  | topup (actor : Actor) (amount : ℤ) (method : PaymentMethod) (assetId : Option String)
  | customerTopup (customerId : CustomerId) (customer : Customer) (amount : ℤ)
      (method : PaymentMethod) (assetId : Option String)
  /-- proofs, reviews, rejections, the worker and the payments of orders -/
  | payment (call : PaymentCall)
  | gateway (id : PaymentId) (authority : Authority) (status : String)
  | createPlugin (x : Proc) (actor : Actor) (input : PaymentPluginInput)
  | rotatePlugin (x : Proc) (actor : Actor) (id : PluginId)
  | updatePlugin (x : Proc) (actor : Actor) (id : PluginId) (patch : PaymentPluginPatch)
  | deletePlugin (x : Proc) (actor : Actor) (id : PluginId)
  | plugin (x : Proc) (id : PluginId) (rawBody : String) (signature : Option String)
  | deposits (box : AdminId) (call : BoxCall)

/-- The procedure of a call. -/
def SellerCall.prog : SellerCall → Service Unit
  | topup actor amount method assetId => (createTopup actor amount method assetId).void
  | customerTopup customerId customer amount method assetId =>
      (Prog.atomically .other (createCustomerTopup customerId customer amount method assetId)).void
  | payment call => call.prog
  | gateway id authority status => (handleZarinpalCallback id authority status).void
  | createPlugin x actor input => (createPaymentPlugin x actor input).void
  | rotatePlugin x actor id => (rotatePaymentPluginSecret x actor id).void
  | updatePlugin x actor id patch => (updatePaymentPlugin x actor id patch).void
  | deletePlugin x actor id => (deletePaymentPlugin x actor id).void
  | plugin x id rawBody signature => (handlePaymentPluginCallback x id rawBody signature).void
  | deposits box call => call.prog (settlePlainly box) box

/-- Only owners act as owners, and a payment that is not started by one of the top-up calls is for
an order. -/
def SellerCall.genuine (O : List AdminId) : SellerCall → Prop
  | payment (.begin _ input) => input.kind = .order
  | createPlugin _ actor _ => actor.genuine O
  | _ => True

/-- What happens besides the calls: payments and plugins stay as they are, and whatever the owners
configure leads to their own wallets. -/
structure Around (O : List AdminId) (W : List String) (w w' : World) : Prop where
  nextId : w.nextId ≤ w'.nextId
  payments : w'.payments = w.payments
  plugins : w'.plugins = w.plugins
  confirmations : w'.history.confirmations = w.history.confirmations
  quoted : w'.history.quoted = w.history.quoted
  config : w.Configured O W → w'.Configured O W

section Runs

variable {O : List AdminId} {W : List String} {w : World}

private theorem paymentCall_guards {call : PaymentCall}
    (hcall : (SellerCall.payment call).genuine O) : Guards O W call.prog w := by
  cases call with
  | begin s input => exact upholds_void (beginOrderPayment_guards s hcall)
  | submit id proof => exact upholds_void (submitProof_maintains
    (topupsGuarded_accepts _ O W) proof)
  | verify => exact upholds_void (verifyPendingUsdt_maintains (topupsGuarded_accepts _ O W))
  | select token assetId =>
      refine upholds_void (selectOrderAsset_maintains token assetId ?_)
      rintro t id p q q' order s quote hI - ⟨v, orderId, hv, hlast, hp, ho, -⟩ - hq hcore
      -- the payment of an order is nobody's top-up
      have hno : q.isResellerTopup ≠ true := fun hr => by
        have hpr : p.isResellerTopup := Seen.isResellerTopup (I := TopupsGuarded O W)
          ⟨v, hv, hlast, hp⟩ hq hr
        have hnone := (hv.rows id p hp hpr).1
        rw [ho] at hnone
        cases hnone
      have hkind : q'.isResellerTopup = q.isResellerTopup :=
        (isResellerTopup_of_core hcore).trans rfl
      refine hI.withRow hq (fun hr => absurd (hkind ▸ hr) hno) fun _ hc => .inl hc
  | review actor id refId cardPan =>
      exact upholds_void (reviewPayment_maintains (topupsGuarded_accepts _ O W) actor refId cardPan)
  | reject actor id note => exact upholds_void (guards_upkeep (rejectPayment_keeps actor id note))
  | expire => exact upholds_void (guards_upkeep expirePayments_keeps)

private theorem sellerCall_guards {call : SellerCall} (hcall : call.genuine O) :
    Guards O W call.prog w := by
  cases call with
  | topup actor amount method assetId =>
      exact upholds_void (createTopup_guards actor amount method assetId)
  | customerTopup customerId customer amount method assetId =>
      exact upholds_void (createCustomerTopup_guards customerId customer amount method assetId)
  | payment call => exact paymentCall_guards hcall
  | gateway id authority status =>
      exact upholds_void (handleZarinpalCallback_guards id authority status)
  | createPlugin x actor input => exact upholds_void (createPaymentPlugin_guards x hcall input)
  | rotatePlugin x actor id => exact upholds_void (rotatePaymentPluginSecret_guards x actor id)
  | updatePlugin x actor id patch =>
    exact upholds_void (updatePaymentPlugin_guards x actor id patch)
  | deletePlugin x actor id => exact upholds_void (deletePaymentPlugin_guards x actor id)
  | plugin x id rawBody signature =>
      exact upholds_void (handlePaymentPluginCallback_guards x id rawBody signature)
  | deposits box call => exact boxCall_guards box call

theorem TopupsGuarded.around {w' : World} (h : TopupsGuarded O W w) (he : Around O W w w') :
    TopupsGuarded O W w' ∧ Lasting w w' := by
  refine ⟨⟨fun id p hp => ?_, he.config h.config, ?_, fun id p hp => ?_, ?_⟩, fun id p hp => ?_, ?_⟩
  · rw [he.payments] at hp
    exact lt_of_lt_of_le (h.keys id p hp) he.nextId
  · rw [he.plugins]
    exact h.plugins
  · rw [he.payments] at hp
    exact h.rows id p hp
  · rw [World.TopupsAuthorised, he.confirmations]
    exact h.confirmed
  · exact ⟨p, by rw [he.payments]; exact hp, rfl, fun h => h⟩
  · rw [he.quoted]
    exact fun _ hq => hq

/-- In every run in which no reseller's plugin and no reseller's deposit box comes upon a reseller
top-up that it would confirm, reseller top-ups are confirmed by owners and their sources only. -/
theorem topups_authorised {calls : List SellerCall} {c : Pool Stmt World AppError}
    (h0 : TopupsGuarded O W w) (hcalls : ∀ call ∈ calls, call.genuine O)
    (hrun : Pool.Run (Around O W) (TopupsOffLimits O) ⟨w, calls.map SellerCall.prog⟩ c) :
    c.store.TopupsAuthorised O W := by
  refine (Pool.upheld_run h0 (fun p hp => ?_) (fun _ _ hI he => hI.around he) hrun).1.confirmed
  obtain ⟨call, hmem, rfl⟩ := List.mem_map.mp hp
  exact sellerCall_guards (hcalls call hmem)

end Runs

/-! ## A reseller who pays himself

The reseller 2 owes the card top-up 7 of `reviewWorld`. He has a plugin, and a box of his own.
-/

/-- The reseller's own plugin. -/
def ownPlugin : PaymentPlugin where
  adminId := 2
  master := false
  name := "mine"
  enabled := true
  secret := "key"
  methods := [.card]
  autoConfirm := true
  maxAmount := 0
  lastCallAt := none
  lastStatus := none
  lastError := none
  calls := 0
  confirmed := 0

/-- The owner's panel with that plugin, and the payment 8 of an order at the reseller's shop. -/
def pluginWorld : World :=
  { reviewWorld with
    payments := .ofRows [(7, reviewedTopup),
      (8, { newPayment ⟨.order, .card, 90000, 2, some 3, none⟩ 3600000 none
        with status := .review })]
    plugins := .fresh (.ofRows [(50, ownPlugin)])
    outside := { Outside.silent with
      callbackJson b := some ⟨some (some (if b = "seven" then 7 else 8)), none, none,
        none, none, none, none⟩ } }

/-- Calls on that panel. -/
def pluginPool (calls : List SellerCall) : Pool Stmt World AppError :=
  ⟨pluginWorld, calls.map SellerCall.prog⟩

theorem pluginWorld_guarded : TopupsGuarded [1] [] pluginWorld where
  keys id p hp := by
    have hmem := (Table.mem_rows_iff _ id p).mpr hp
    have hkeys : ∀ r ∈ pluginWorld.payments.rows, r.1 < 100 := by decide
    exact hkeys _ hmem
  config := by
    refine ⟨fun o a ha hr => ?_, fun _ _ hs => (nomatch hs), fun _ _ _ ha => nomatch ha⟩
    have hmem := (Table.mem_rows_iff _ o a).mpr ha
    have howners : ∀ r ∈ pluginWorld.admins.rows, r.2.role = .owner → r.1 ∈ [1] := by decide
    exact howners _ hmem hr
  plugins := by
    refine .fresh fun id p hp hm => ?_
    have hmem := (Table.mem_rows_iff _ id p).mpr hp
    have hmasters : ∀ r ∈ (Table.ofRows [(50, ownPlugin)]).rows, ¬r.2.master := by decide
    exact absurd hm (hmasters _ hmem)
  rows id p hp := by
    have hmem := (Table.mem_rows_iff _ id p).mpr hp
    have hrows : ∀ r ∈ pluginWorld.payments.rows, r.2.isResellerTopup → r.2.orderId = none ∧
        r.2.info = none := by decide
    refine fun hr => ⟨(hrows _ hmem hr).1, fun q hq => ?_⟩
    rw [show p.info = none from (hrows _ hmem hr).2] at hq
    cases hq
  confirmed c hc := nomatch hc

/-- Without the condition a reseller can confirm his own top-up: by a callback to his plugin, and by
a deposit that he enters in his box. -/
theorem topup_self_confirmed :
    TopupsGuarded [1] [] pluginWorld ∧
    (∃ c, Pool.Run (Around [1] []) (fun _ _ => True)
      (pluginPool [.plugin .web 50 "seven" (some "keyseven")]) c ∧
      ¬c.store.TopupsAuthorised [1] []) ∧
    ∃ c, Pool.Run (Around [1] []) (fun _ _ => True)
      (pluginPool [.deposits 2 (.ingest .web ⟨50000, none, none, none, none, none, .manual⟩)]) c ∧
      ¬c.store.TopupsAuthorised [1] [] :=
  ⟨pluginWorld_guarded,
    ⟨_, Pool.schedule_run_free _ (List.replicate 12 0) _, by decide +kernel⟩,
    _, Pool.schedule_run_free _ (List.replicate 12 0) _, by decide +kernel⟩

/-- The same plugin may confirm the order's payment, and the owner the top-up. -/
theorem topups_authorised_reviewed :
    let c := Pool.schedule (List.replicate 16 0 ++ List.replicate 8 1) (pluginPool
      [.plugin .web 50 "eight" (some "keyeight"), .payment (.review ⟨1, .owner⟩ 7 none none)])
    c.store.history.confirmations.map Confirmation.payment = [7, 8] ∧
      c.store.TopupsAuthorised [1] [] :=
  ⟨by decide +kernel, topups_authorised pluginWorld_guarded
    (by
      intro call hcall
      simp only [List.mem_cons, List.not_mem_nil, or_false] at hcall
      rcases hcall with rfl | rfl <;> trivial)
    (Pool.schedule_run (Around [1] []) (List.replicate 16 0 ++ List.replicate 8 1) _
      (by decide +kernel))⟩

end SRPanel
