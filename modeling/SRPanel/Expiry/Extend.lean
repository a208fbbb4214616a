import SRPanel.Clients.Update
import SRPanel.Delivery.SubPanels
import SRPanel.Model.Bulk
import SRPanel.Model.Renewals
import Mathlib.Data.Int.ConditionallyCompleteOrder
import Mathlib.Data.List.Dedup
import Mathlib.Order.WithBot

/-!
# Extending an expiry

Four places add days to an expiry, and each counts from the current expiry or from now, whichever is
later. An expiry of `null`, which means never, is taken for now by all of them: so an extension by
some days turns it into a date. Where the old expiry is a date, and where nothing is added, no
extension shortens.
-/

namespace SRPanel

open Interleaving Prog

/-- An expiry in the order in which `null` is the latest. -/
def expiryOrder (e : Option ℤ) : WithTop ℤ := e

/-- No expiry is the latest. -/
theorem expiryOrder_none (e : Option ℤ) : expiryOrder e ≤ expiryOrder none := le_top

/-- Dates are ordered as numbers. -/
theorem expiryOrder_some_le (a b : ℤ) : expiryOrder (some a) ≤ expiryOrder (some b) ↔ a ≤ b :=
  WithTop.coe_le_coe

/-- No date is as late as none. -/
theorem not_expiryOrder_none_le (b : ℤ) : ¬expiryOrder none ≤ expiryOrder (some b) :=
  not_le_of_gt (WithTop.coe_lt_top b)

/-- Days added to an expiry do not shorten it exactly if it was a date. -/
theorem expiryOrder_extend_iff (e : Option ℤ) (t : ℤ) {d : ℤ} (hd : 0 ≤ d) :
    expiryOrder e ≤ expiryOrder (some (max (e.getD t) t + d)) ↔ e.isSome := by
  cases e with
  | none => simp [not_expiryOrder_none_le]
  | some x =>
      rw [expiryOrder_some_le]
      have hmax : x ≤ max x t := le_max_left x t
      simp only [Option.getD_some, Option.isSome_some, iff_true]
      omega

namespace Site

/-- The expiry of a client; `none` if there is no such client. -/
def clientExpiry (s : Site) (id : ClientId) : Option (Option ℤ) :=
  (s.clients.get? id).map Client.expiresAt

/-- The expiry of an admin account; `none` if there is no such account. -/
def adminExpiry (s : Site) (id : AdminId) : Option (Option ℤ) :=
  (s.accounts.get? id).map Account.expiresAt

/-- Every client and every admin that there was expires no earlier than before. -/
structure NeverShortens (s s' : Site) : Prop where
  client : ∀ id e, s.clientExpiry id = some e → ∃ e', s'.clientExpiry id = some e' ∧
    expiryOrder e ≤ expiryOrder e'
  admin : ∀ id e, s.adminExpiry id = some e → ∃ e', s'.adminExpiry id = some e' ∧
    expiryOrder e ≤ expiryOrder e'

/-- The expiries have not changed. -/
structure SameExpiries (s s' : Site) : Prop where
  client : ∀ id, s'.clientExpiry id = s.clientExpiry id
  admin : ∀ id, s'.adminExpiry id = s.adminExpiry id

namespace SameExpiries

variable {s s' : Site}

theorem refl (s : Site) : SameExpiries s s := ⟨fun _ => rfl, fun _ => rfl⟩

theorem trans (s s' s'' : Site) (h : SameExpiries s s') (h' : SameExpiries s' s'') :
    SameExpiries s s'' :=
  ⟨fun id => (h'.client id).trans (h.client id), fun id => (h'.admin id).trans (h.admin id)⟩

theorem neverShortens (h : SameExpiries s s') : NeverShortens s s' where
  client id e he := ⟨e, (h.client id).trans he, le_rfl⟩
  admin id e he := ⟨e, (h.admin id).trans he, le_rfl⟩

/-- Synchronisation keeps them. -/
theorem of_synced (h : Synced s s') : SameExpiries s s' where
  client id := by
    have hclient := congrArg (Option.map Client.expiresAt) (h.client id)
    rw [Option.map_map, Option.map_map] at hclient
    exact hclient
  admin id := by
    show (s'.accounts.get? id).map _ = (s.accounts.get? id).map _
    rw [h.same Site.accounts fun _ => rfl]

/-- What never shortens up to a change that keeps the expiries. -/
theorem neverShortens_iff {t : Site} (h : SameExpiries s s') :
    NeverShortens t s' ↔ NeverShortens t s := by
  constructor
  · intro hn
    exact ⟨fun id e he => by rw [← h.client id]; exact hn.client id e he,
      fun id e he => by rw [← h.admin id]; exact hn.admin id e he⟩
  · intro hn
    exact ⟨fun id e he => by rw [h.client id]; exact hn.client id e he,
      fun id e he => by rw [h.admin id]; exact hn.admin id e he⟩

end SameExpiries

/-- One client is given another expiry. -/
theorem neverShortens_client_iff {s s' : Site} {id : ClientId} {e f : Option ℤ}
    (hold : s.clientExpiry id = some e) (hnew : s'.clientExpiry id = some f)
    (hclients : ∀ k, k ≠ id → s'.clientExpiry k = s.clientExpiry k)
    (hadmins : ∀ k, s'.adminExpiry k = s.adminExpiry k) :
    NeverShortens s s' ↔ expiryOrder e ≤ expiryOrder f := by
  constructor
  · intro h
    obtain ⟨f', hf', hle⟩ := h.client id e hold
    rw [hnew] at hf'
    rwa [← Option.some.inj hf'] at hle
  · refine fun hle => ⟨fun k x hx => ?_, fun k x hx => ⟨x, (hadmins k).trans hx, le_rfl⟩⟩
    by_cases hk : k = id
    · subst hk
      rw [hold] at hx
      obtain rfl := Option.some.inj hx
      exact ⟨f, hnew, hle⟩
    · exact ⟨x, (hclients k hk).trans hx, le_rfl⟩

/-! ## Updates of a client -/

/-- What an update with `addDays` needs of the state: a date, where days are added, and otherwise
that the patch names no earlier date itself. -/
def UpdateDated (s : Site) (id : ClientId) (input : UpdateClientInput) (days : ℤ) : Prop :=
  ∀ e, s.clientExpiry id = some e →
    if days = 0 then ∀ x ∈ input.expiresAt, expiryOrder e ≤ expiryOrder x else e.isSome

theorem updateClient_shortens (actor : Operator) (id : ClientId) (input : UpdateClientInput)
    (cause : Option OrderId) (s : Site) (hrow : (s.base.admins.get? actor.id).isSome) {days : ℤ}
    (hdays : input.addDays = some days) (hle : 0 ≤ days) :
    Prog.wp (updateClient actor id input cause)
      (fun _ s' => NeverShortens s s' ↔ s.UpdateDated id input days)
      (fun _ s' => NeverShortens s s') s := by
  refine wp_mono _ (updateClient_spec actor id input cause s hrow) (fun r s' h => ?_) fun e s' h =>
    ?_
  · obtain ⟨x, hverdict, hpushed, -⟩ := h
    have hok := updateVerdict_accepted hverdict
    obtain ⟨hid, hget, -⟩ := clientOf_id hok.found
    rw [(SameExpiries.of_synced hpushed.synced).neverShortens_iff]
    have hold : s.clientExpiry id = some x.current.row.expiresAt := by rw [clientExpiry, hget]; rfl
    have hnew : (s.updated actor input cause x).clientExpiry id =
        some ((newExpiry x.current.row input s.base.now).getD x.current.row.expiresAt) := by
      rw [clientExpiry, updated, hid, Table.get?_modify_self, hget, ← hok.expiry]
      rfl
    rw [neverShortens_client_iff hold hnew]
    · unfold UpdateDated
      simp only [hold, Option.some.injEq, forall_eq', newExpiry, hdays]
      by_cases hzero : days = 0
      · rw [if_pos hzero, Option.filter_some, if_neg (by simp [hzero])]
        cases input.expiresAt with
        | none => simp
        | some x => simp
      · rw [if_neg hzero, Option.filter_some, if_pos (by simpa using hzero)]
        exact expiryOrder_extend_iff _ _ (mul_nonneg hle (by decide))
    · intro k hk
      show ((s.clients.modify x.current.id _).get? k).map _ = _
      rw [hid, Table.get?_modify_of_ne _ _ hk]
      rfl
    · intro k
      show ((s.updated actor input cause x).accounts.get? k).map _ = _
      unfold updated startSettled
      split <;> rfl
  · rcases h.2 with rfl | ⟨-, rfl⟩
    · exact (SameExpiries.refl s').neverShortens
    · refine SameExpiries.neverShortens ⟨fun k => ?_, fun k => ?_⟩
      · rw [clientExpiry, startSettled_clients, clientExpiry]
      · unfold adminExpiry startSettled
        split <;> rfl

/-! ## Cycles of an automatic renewal -/

/-- What a cycle needs of the state: a date, if it is due and extends the expiry. -/
def CycleDated (s : Site) (t : ℤ) (id : ClientId) (rule : AutoRenewRule) : Prop :=
  rule.extendExpiry → rule.nextAt ≤ t → ∀ c, s.clients.get? id = some c →
    (s.operator c.adminId).isSome → c.expiresAt.isSome

/-- A write to other tables keeps them. -/
theorem write_sameExpiries {f : Site → Site} (hclients : ∀ s, (f s).clients = s.clients)
    (haccounts : ∀ s, (f s).accounts = s.accounts) : (write f).Keeps SameExpiries :=
  keeps_modify fun s => ⟨fun id => by rw [clientExpiry, hclients, clientExpiry],
    fun id => by rw [adminExpiry, haccounts, adminExpiry]⟩

/-- So does a service on the books. -/
theorem lift_sameExpiries {α : Type} (p : Service α) : (lift p).Keeps SameExpiries := by
  refine (zoom_frame Site.world Mark.base p).mono fun s s' h => ?_
  have hs : s' = { s with base := s'.base } := h.symm
  rw [hs]
  exact ⟨fun _ => rfl, fun _ => rfl⟩

theorem resetOfCycle_synced (admin : Operator) (id : ClientId) :
    (resetOfCycle admin id).Keeps Synced :=
  keeps_attempt (keeps_bind (resetClientTraffic_synced _ _) fun _ => keeps_pure _)
    fun _ => keeps_pure _

theorem resetOfCycle_returns (admin : Operator) (id : ClientId) : (resetOfCycle admin id).Returns :=
  returns_attempt fun _ => returns_pure _

/-- The push of a cycle. -/
theorem pushOfCycle_synced (admin : Operator) (id : ClientId) :
    (Prog.attempt (do
      let client ← getClientForActor admin.actor id
      let _ ← pushClient client
      pure false) fun _ => pure true : Task Bool).Keeps Synced :=
  synced_of_pushed (keeps_attempt (keeps_bind (getClientForActor_pushed _ _) fun client =>
    keeps_bind (pushClient_pushed client) fun _ => keeps_pure _) fun _ => keeps_pure _)

theorem endCycle_sameExpiries (id : ClientId) (rule : AutoRenewRule) (t : ℤ) :
    (endCycle id rule t).Keeps SameExpiries :=
  keeps_ite
    (keeps_bind (write_sameExpiries (fun _ => rfl) fun _ => rfl) fun _ => keeps_pure _)
    (keeps_bind (write_sameExpiries (fun _ => rfl) fun _ => rfl) fun _ => keeps_pure _)

/-- A cycle leaves its client with the expiry that it writes, if it extends it. -/
theorem runCycle_shortens (t : ℤ) (id : ClientId) (rule : AutoRenewRule) (c : Client)
    (admin : Operator) (s : Site) (hget : s.clients.get? id = some c) :
    Prog.wp (runCycle t id rule c admin)
      (fun _ s' => NeverShortens s s' ↔ rule.extendExpiry → c.expiresAt.isSome)
      (fun _ _ => False) s := by
  have hold : s.clientExpiry id = some c.expiresAt := by rw [clientExpiry, hget]; rfl
  unfold runCycle
  rw [wp_bind]
  refine wp_mono _ (wp_and ((resetOfCycle_synced admin id).wp Synced.refl Synced.trans s)
    ((resetOfCycle_returns admin id).wp s)) (fun resetFailed s₁ h₁ => ?_) fun _ _ h => h.2.elim
  have h₁ := SameExpiries.of_synced h₁.1
  -- what follows the extension keeps the expiries, and cannot fail
  have hend : ∀ (s₂ : Site) (pushFailed : Bool),
      Prog.wp (do
        lift (audit (some admin.id) "client.auto_renew")
        let last ← endCycle id rule t
        pure (⟨1, last.toNat, resetFailed.toNat + pushFailed.toNat⟩ : AutoRenewTick))
        (fun _ s' => SameExpiries s₂ s') (fun _ _ => False) s₂ := by
    intro s₂ pushFailed
    refine wp_mono _ (wp_and ((keeps_bind (lift_sameExpiries _) fun _ =>
      keeps_bind (endCycle_sameExpiries id rule t) fun _ => keeps_pure _).wp SameExpiries.refl
      SameExpiries.trans s₂) (Prog.Returns.wp (returns_bind (audit_returns _ _).zoom fun _ =>
        returns_bind (returns_ite ?_ ?_) fun _ => returns_pure _) s₂))
      (fun _ _ h => h.1) fun _ _ h => h.2
    · exact returns_bind (returns_modify _ _) fun _ => returns_pure _
    · exact returns_bind (returns_modify _ _) fun _ => returns_pure _
  rw [wp_bind]
  by_cases hext : rule.extendExpiry = true
  · rw [if_pos hext]
    have hclient : s₁.clientExpiry id = some c.expiresAt := (h₁.client id).trans hold
    obtain ⟨c₁, hc₁, -⟩ := Option.map_eq_some_iff.mp hclient
    rw [extendOfCycle, wp_bind, updateRow, writeRow, wp_step, hc₁]
    dsimp only
    refine wp_mono _ (wp_and ((pushOfCycle_synced admin id).wp Synced.refl Synced.trans _)
      (Prog.Returns.wp (returns_attempt fun _ => returns_pure _) _)) (fun pushFailed s₂ h₂ => ?_)
      fun _ _ h => h.2.elim
    have h₂ := SameExpiries.of_synced h₂.1
    refine wp_mono _ (hend s₂ pushFailed) (fun _ s' h => ?_) fun _ _ h => h
    rw [(h₂.trans _ _ _ h).neverShortens_iff, neverShortens_client_iff hold
      (f := some (cycleExpiry c.expiresAt rule.everyDays t)), cycleExpiry, expiryOrder_extend_iff]
    · simp [hext]
    · exact mul_nonneg (by omega) (by decide)
    · show ((s₁.clients.modify id _).get? id).map _ = _
      rw [Table.get?_modify_self, hc₁]
      rfl
    · intro k hk
      show ((s₁.clients.modify id _).get? k).map _ = _
      rw [Table.get?_modify_of_ne _ _ hk]
      exact h₁.client k
    · exact fun k => h₁.admin k
  · rw [if_neg hext, wp_pure]
    refine wp_mono _ (hend s₁ false) (fun _ s' h => ?_) fun _ _ h => h
    exact iff_of_true (h₁.trans _ _ _ h).neverShortens fun h => absurd h hext

theorem runRule_shortens (t : ℤ) (id : ClientId) (rule : AutoRenewRule) (s : Site) :
    Prog.wp (runRule t id rule) (fun _ s' => NeverShortens s s' ↔ s.CycleDated t id rule)
      (fun _ s' => NeverShortens s s') s := by
  have hdrop : ∀ P : Prop, P → Prog.wp (do
      dropRule id
      pure (⟨0, 0, 0⟩ : AutoRenewTick)) (fun _ s' => NeverShortens s s' ↔ P)
      (fun _ s' => NeverShortens s s') s := fun P hP => by
    simp only [dropRule, write, wp_bind, wp_modify, wp_pure]
    exact iff_of_true (SameExpiries.neverShortens ⟨fun _ => rfl, fun _ => rfl⟩) hP
  simp only [runRule, read, wp_bind, wp_query]
  cases hget : s.clients.get? id with
  | none =>
      refine hdrop _ fun _ _ c hc => ?_
      rw [hget] at hc
      cases hc
  | some c =>
      dsimp only
      by_cases hdue : t < rule.nextAt
      · rw [if_pos hdue, wp_pure]
        exact iff_of_true (SameExpiries.refl s).neverShortens fun _ h => absurd h (by omega)
      · rw [if_neg hdue]
        simp only [wp_bind, wp_query]
        cases hadmin : s.operator c.adminId with
        | none =>
            refine hdrop _ fun _ _ c' hc' h => ?_
            rw [hget] at hc'
            obtain rfl := Option.some.inj hc'
            rw [hadmin] at h
            cases h
        | some admin =>
            refine wp_mono _ (runCycle_shortens t id rule c admin s hget) (fun _ s' h => ?_)
              fun _ _ h => h.elim
            rw [h]
            constructor
            · intro hsome hext _ c' hc' _
              rw [hget] at hc'
              obtain rfl := Option.some.inj hc'
              exact hsome hext
            · intro hdated hext
              exact hdated hext (by omega) c hget (by rw [hadmin]; rfl)

/-! ## Repeat orders of a sub-panel -/

/-- What a repeat order needs of the state: a date, if the package has days. -/
def PanelDated (s : Site) (f : FoundOrder) (link : PanelPlanLink) (existing : Operator) : Prop :=
  s.sharedPanel → 0 < (packageOf link f.info.planSnapshot).days → existing.account.expiresAt.isSome

/-- One admin is given another expiry. -/
theorem neverShortens_admin_iff {s s' : Site} (id : AdminId) {e f : Option ℤ}
    (hold : s.adminExpiry id = some e) (hnew : s'.adminExpiry id = some f)
    (hadmins : ∀ k, k ≠ id → s'.adminExpiry k = s.adminExpiry k)
    (hclients : ∀ k, s'.clientExpiry k = s.clientExpiry k) :
    NeverShortens s s' ↔ expiryOrder e ≤ expiryOrder f := by
  constructor
  · intro h
    obtain ⟨f', hf', hle⟩ := h.admin id e hold
    rw [hnew] at hf'
    rwa [← Option.some.inj hf'] at hle
  · refine fun hle => ⟨fun k x hx => ⟨x, (hclients k).trans hx, le_rfl⟩, fun k x hx => ?_⟩
    by_cases hk : k = id
    · subst hk
      rw [hold] at hx
      obtain rfl := Option.some.inj hx
      exact ⟨f, hnew, hle⟩
    · exact ⟨x, (hadmins k hk).trans hx, le_rfl⟩

/-- Bookkeeping keeps the expiries. -/
theorem SameExpiries.of_booked {s s' : Site} (h : Booked s s') : SameExpiries s s' where
  client id := by rw [clientExpiry, h.same clients fun _ => rfl, clientExpiry]
  admin id := by rw [adminExpiry, h.same accounts fun _ => rfl, adminExpiry]

/-- A repeat order gives the account of its buyer the expiry of the renewed one. -/
theorem provisionPanelOrder_shortens (f : FoundOrder) (link : PanelPlanLink)
    (previous : PanelAccount) (existing : Operator) (s : Site) (htop : link.topUp)
    (hbuyer : s.returningBuyer (f.seller.id, buyerKeyOf f.id f.order f.info) =
      some (previous, existing)) :
    Prog.wp (provisionPanelOrder f link)
      (fun _ s' => NeverShortens s s' ↔ s.PanelDated f link existing)
      (fun _ s' => NeverShortens s s' ↔ s.PanelDated f link existing) s := by
  obtain ⟨-, hoperator, -⟩ := returningBuyer_some hbuyer
  obtain ⟨hid, haccount, -⟩ := operator_account hoperator
  refine provisionPanelOrder_wp (P := fun s' => NeverShortens s s' ↔
    s.PanelDated f link existing) f link s (fun s₁ s₂ hbooked h =>
      (SameExpiries.of_booked hbooked).neverShortens_iff.trans h) (fun hshared => ?_)
    fun hshared => ?_
  · exact iff_of_true (SameExpiries.refl s).neverShortens fun h => by rw [hshared] at h; cases h
  · refine wp_mono _ (grantPanel_returning f link _ _ s htop hbuyer) (fun _ s' h => ?_)
      fun _ _ h => h.elim
    obtain ⟨hrest, haccounts⟩ := h
    have hclients : s'.clients = s.clients := by rw [hrest]
    rw [neverShortens_admin_iff existing.id (e := existing.account.expiresAt)
      (f := (renewedAccount existing.account (packageOf link f.info.planSnapshot)
        f.order.customerTelegramId s.base.now).expiresAt)]
    · unfold PanelDated renewedAccount
      by_cases hpkg : 0 < (packageOf link f.info.planSnapshot).days
      · rw [if_pos hpkg, expiryOrder_extend_iff _ _ (mul_nonneg (by omega) (by decide))]
        simp [hshared, hpkg]
      · rw [if_neg hpkg]
        simp [expiryOrder_none, hpkg]
    · rw [adminExpiry, hid, haccount]
      rfl
    · rw [adminExpiry, haccounts, if_pos rfl]
      rfl
    · intro k hk
      rw [adminExpiry, haccounts, if_neg hk, adminExpiry]
    · intro k
      rw [clientExpiry, hclients, clientExpiry]

/-! ## Bulk extensions of admins -/

/-- What a bulk extension needs of the state: a date, for every admin that is not the owner. -/
def AdminsDated (s : Site) (ids : List AdminId) : Prop :=
  ∀ id ∈ ids, ∀ target, s.operator id = some target → target.role ≠ .owner →
    target.account.expiresAt.isSome

/-- The admins of a list, read in the state `s`, have got some days more in the state `s'`. -/
structure Extended (days : ℤ) (ids : List AdminId) (s s' : Site) : Prop where
  now : s'.base.now = s.base.now
  admins : s'.base.admins = s.base.admins
  clients : s'.clients = s.clients
  accounts : ∀ id, s'.accounts.get? id =
    if id ∈ ids ∧ ∃ o, s.operator id = some o ∧ o.role ≠ .owner then
      (s.accounts.get? id).map fun a =>
        { a with expiresAt := some (max (a.expiresAt.getD s.base.now) s.base.now + days * DAY_MS) }
    else s.accounts.get? id

theorem bulkPatch_extend (e : Option ℤ) (t days : ℤ) {role : AdminRole} (hrole : role ≠ .owner)
    (hash : Draw) (a : Account) :
    (bulkPatch (.extend days) e t).apply role hash a =
      { a with expiresAt := some (max (e.getD t) t + days * DAY_MS) } := by
  simp [bulkPatch, AdminPatch.apply, AdminPatch.none, hrole]

/-- The extension of one admin. -/
theorem bulkAdmin_extended (actor : Operator) (hactor : actor.role = .owner) (days : ℤ)
    (id : AdminId) (s : Site) : Prog.wp (bulkAdmin actor (.extend days) (s.operator id) id)
      (fun _ s' => Extended days [id] s s') (fun _ _ => False) s := by
  have hsame : ∀ s' : Site, s.Logs s' → (∀ o, s.operator id = some o → o.role = .owner) →
      Extended days [id] s s' := by
    intro s' hlogs howner
    refine ⟨hlogs.base.same World.now fun _ => rfl, hlogs.base.same World.admins fun _ => rfl,
      by rw [hlogs.rest], fun k => ?_⟩
    rw [if_neg, hlogs.rest]
    rintro ⟨hk, o, ho, hrole⟩
    obtain rfl := List.mem_singleton.mp hk
    exact hrole (howner o ho)
  unfold bulkAdmin
  cases htarget : s.operator id with
  | none =>
      rw [wp_pure]
      exact hsame s (Logs.refl s) fun o ho => by rw [htarget] at ho; cases ho
  | some target =>
      dsimp only
      by_cases hrole : target.role = .owner
      · rw [if_pos hrole, wp_pure]
        refine hsame s (Logs.refl s) fun o ho => ?_
        rw [htarget] at ho
        rw [← Option.some.inj ho, hrole]
      · rw [if_neg hrole, wp_attempt]
        obtain ⟨-, haccount, -⟩ := operator_account htarget
        have hnone : (bulkPatch (.extend days) target.account.expiresAt s.base.now).password =
            none := rfl
        simp only [now, read, updateAdmin, assertOwner, refuseIf, wp_bind, wp_query, hactor, ne_eq,
          not_true, decide_false, Bool.false_eq_true, if_false, wp_pure, htarget, hnone,
          Option.any_none,
          updateAdminRow, wp_step]
        refine wp_mono _ (wp_and ((lift_logs (audit_keeps_logged _ _)).wp Logs.refl Logs.trans _)
          ((audit_returns _ _).zoom.wp _)) (fun _ s' h => ?_) fun _ _ h => h.2.elim
        have hlogs := h.1
        refine ⟨hlogs.base.same World.now fun _ => rfl, hlogs.base.same World.admins fun _ => rfl,
          by rw [hlogs.rest], fun k => ?_⟩
        rw [hlogs.rest]
        show (s.accounts.modify id _).get? k = _
        rw [Table.get?_modify]
        by_cases hk : k = id
        · subst hk
          rw [if_pos rfl, if_pos ⟨List.mem_singleton_self k, target, htarget, hrole⟩, haccount,
            Option.map_some, Option.map_some, bulkPatch_extend _ _ _ hrole]
        · rw [if_neg hk, if_neg fun h => hk (List.mem_singleton.mp h.1)]

theorem Extended.operator {days : ℤ} {ids : List AdminId} {s s' : Site} (h : Extended days ids s s')
    {id : AdminId} (hid : id ∉ ids) : s'.operator id = s.operator id := by
  unfold Site.operator
  rw [h.admins, h.accounts id, if_neg fun h => hid h.1]

/-- Two extensions of different admins. -/
theorem Extended.append {days : ℤ} {id : AdminId} {ids : List AdminId} {s s₁ s' : Site}
    (hid : id ∉ ids) (h₁ : Extended days [id] s s₁) (h : Extended days ids s₁ s') :
    Extended days (id :: ids) s s' where
  now := h.now.trans h₁.now
  admins := h.admins.trans h₁.admins
  clients := h.clients.trans h₁.clients
  accounts k := by
    rw [h.accounts k, h₁.now]
    by_cases hk : k = id
    · subst hk
      rw [if_neg fun h => hid h.1, h₁.accounts k]
      simp only [List.mem_cons, true_or, true_and]
    · have hop : s₁.operator k = s.operator k := h₁.operator fun h => hk (List.mem_singleton.mp h)
      have hacc : s₁.accounts.get? k = s.accounts.get? k := by
        rw [h₁.accounts k, if_neg fun h => hk (List.mem_singleton.mp h.1)]
      rw [hop, hacc]
      simp only [List.mem_cons, hk, false_or]

theorem bulkAdmins_extended (actor : Operator) (hactor : actor.role = .owner) (days : ℤ)
    (ids : List AdminId) (hnodup : ids.Nodup) (s₀ s : Site)
    (hrows : ∀ id ∈ ids, s.operator id = s₀.operator id) :
    Prog.wp (bulkAdmins actor (.extend days) (ids.map fun id => (id, s₀.operator id)))
      (fun _ s' => Extended days ids s s') (fun _ _ => False) s := by
  induction ids generalizing s with
  | nil => exact ⟨rfl, rfl, rfl, fun _ => by rw [if_neg fun h => by cases h.1]⟩
  | cons id ids ih =>
      obtain ⟨hid, hnodup⟩ := List.nodup_cons.mp hnodup
      rw [List.map_cons, bulkAdmins, wp_bind, ← hrows id List.mem_cons_self]
      refine wp_mono _ (bulkAdmin_extended actor hactor days id s) (fun skipped s₁ h₁ => ?_)
        fun _ _ h => h
      rw [wp_bind]
      refine wp_mono _ (ih hnodup s₁ fun k hk => ?_) (fun others s' h => ?_) fun _ _ h => h
      · rw [h₁.operator, hrows k (List.mem_cons_of_mem id hk)]
        rintro hk'
        obtain rfl := List.mem_singleton.mp hk'
        exact hid hk
      · exact Extended.append hid h₁ h

theorem Extended.neverShortens_iff {days : ℤ} (hdays : 0 ≤ days) {ids : List AdminId} {s s' : Site}
    (h : Extended days ids s s') : NeverShortens s s' ↔ s.AdminsDated ids := by
  have hstep : 0 ≤ days * DAY_MS := mul_nonneg hdays (by decide)
  constructor
  · intro hn id hid target htarget hrole
    obtain ⟨-, haccount, -⟩ := operator_account htarget
    obtain ⟨e', he', hle⟩ := hn.admin id target.account.expiresAt
      (by rw [adminExpiry, haccount]; rfl)
    rw [adminExpiry, h.accounts id, if_pos ⟨hid, target, htarget, hrole⟩, haccount] at he'
    rw [← Option.some.inj he'] at hle
    exact (expiryOrder_extend_iff _ _ hstep).mp hle
  · intro hdated
    refine ⟨fun id e he => ⟨e, by rw [clientExpiry, h.clients]; exact he, le_rfl⟩,
      fun id e he => ?_⟩
    by_cases hid : id ∈ ids ∧ ∃ o, s.operator id = some o ∧ o.role ≠ .owner
    · obtain ⟨hmem, o, ho, hrole⟩ := hid
      obtain ⟨-, haccount, -⟩ := operator_account ho
      rw [adminExpiry, haccount] at he
      obtain rfl := Option.some.inj he
      refine ⟨_, by rw [adminExpiry, h.accounts id, if_pos ⟨hmem, o, ho, hrole⟩, haccount]; rfl, ?_⟩
      exact (expiryOrder_extend_iff _ _ hstep).mpr (hdated id hmem o ho hrole)
    · exact ⟨e, by rw [adminExpiry, h.accounts id, if_neg hid]; exact he, le_rfl⟩

theorem bulkAdminAction_shortens (actor : Operator) (ids : List AdminId) {days : ℤ}
    (hdays : 0 ≤ days) (s : Site) : Prog.wp (bulkAdminAction actor ids (.extend days))
      (fun _ s' => NeverShortens s s' ↔ s.AdminsDated ids) (fun _ s' => NeverShortens s s') s := by
  have hrefl := (SameExpiries.refl s).neverShortens
  unfold bulkAdminAction assertOwner
  dsimp only
  by_cases hactor : actor.role = .owner
  · simp only [refuseIf, wp_bind, hactor, ne_eq, not_true, decide_false,
      Bool.false_eq_true, if_false, wp_pure]
    split
    · exact hrefl
    · rw [wp_pure]
      split
      · exact hrefl
      · rw [wp_pure]
        split
        · exact hrefl
        · rw [wp_pure, read, wp_query]
          refine wp_mono _ (bulkAdmins_extended actor hactor days ids.dedup
            (List.nodup_dedup ids) s s fun _ _ => rfl)
              (fun outcomes s₁ h₁ => ?_) fun _ _ h => h.elim
          have hiff : NeverShortens s s₁ ↔ s.AdminsDated ids := by
            rw [h₁.neverShortens_iff hdays]
            unfold AdminsDated
            simp only [List.mem_dedup]
          refine wp_mono _
            (wp_and ((lift_sameExpiries _).wp SameExpiries.refl SameExpiries.trans s₁)
              ((audit_returns _ _).zoom.wp s₁)) (fun _ s₂ h₂ => ?_) fun _ _ h => h.2.elim
          exact h₂.1.neverShortens_iff.trans hiff
  · simp only [refuseIf, wp_bind, hactor, ne_eq, not_false_eq_true, decide_true, if_true, wp_throw]
    exact hrefl

/-! ## All extensions -/

/-- A call that extends an expiry. A cycle and a repeat order are given what was read before them.
-/
inductive Extension
  | update (actor : Operator) (id : ClientId) (input : UpdateClientInput)
    (cause : Option OrderId) (days : ℤ)
  | cycle (t : ℤ) (id : ClientId) (rule : AutoRenewRule)
  | panel (f : FoundOrder) (link : PanelPlanLink) (previous : PanelAccount) (existing : Operator)
  | bulk (actor : Operator) (ids : List AdminId) (days : ℤ)

namespace Extension

/-- The call. -/
def task : Extension → Task Unit
  | update actor id input cause _ => do
      let _ ← updateClient actor id input cause
      pure ()
  | cycle t id rule => do
      let _ ← runRule t id rule
      pure ()
  | panel f link _ _ => do
      let _ ← provisionPanelOrder f link
      pure ()
  | bulk actor ids days => do
      let _ ← bulkAdminAction actor ids (.extend days)
      pure ()

/-- The call adds no negative number of days, and what was read before it is there: the row of the
acting admin, or the order with its returning buyer. -/
def Fits (s : Site) : Extension → Prop
  | update actor _ input _ days =>
      (s.base.admins.get? actor.id).isSome ∧ input.addDays = some days ∧ 0 ≤ days
  | cycle _ _ _ => True
  | panel f link previous existing =>
      link.topUp = true ∧ (s.base.orders.get? f.id).isSome ∧
        s.returningBuyer (f.seller.id, buyerKeyOf f.id f.order f.info) = some (previous, existing)
  | bulk _ _ days => 0 ≤ days

/-- Every expiry that the call would turn into a date is a date already. -/
def Dated (s : Site) : Extension → Prop
  | update _ id input _ days => s.UpdateDated id input days
  | cycle t id rule => s.CycleDated t id rule
  | panel f link _ existing => s.PanelDated f link existing
  | bulk _ ids _ => s.AdminsDated ids

end Extension

/-- A refused extension shortens nothing, and an accepted one shortens nothing exactly if every
expiry that it extends is a date. -/
theorem extension_neverShortens_iff (x : Extension) (s : Site) (hfits : x.Fits s) :
    Prog.wp x.task (fun _ s' => NeverShortens s s' ↔ x.Dated s)
      (fun _ s' => NeverShortens s s') s := by
  cases x with
  | update actor id input cause days =>
      obtain ⟨hrow, hdays, hle⟩ := hfits
      exact (wp_bind _ _).mpr (updateClient_shortens actor id input cause s hrow hdays hle)
  | cycle t id rule => exact (wp_bind _ _).mpr (runRule_shortens t id rule s)
  | panel f link previous existing =>
      obtain ⟨htop, hrow, hbuyer⟩ := hfits
      refine (wp_bind _ _).mpr (wp_mono _ (wp_and
        (provisionPanelOrder_shortens f link previous existing s htop hbuyer)
        (provisionPanelOrder_returns f link s hrow)) (fun _ _ h => h.1) fun _ _ h => h.2.elim)
  | bulk actor ids days => exact (wp_bind _ _).mpr (bulkAdminAction_shortens actor ids hfits s)

/-- A client of the owner that never expires. -/
def endlessSite : Site :=
  { Site.blank with
    base := { World.blank with admins := Table.empty.set 1 ⟨.owner, 0, 0⟩ }
    clients := Table.empty.set 7 ⟨1, "a", none, none, 8, 9, 0, 0, 0, none, 0, .active, none, none,
      none, none⟩ }

/-- An owner, for the example. -/
def endlessOwner : Operator :=
  ⟨1, .owner, ⟨"o", 0, none, true, none, none, none, none, none, none, none, []⟩⟩

/-- An extension by one day. -/
def oneDay : Extension :=
  .update endlessOwner 7 { UpdateClientInput.none with addDays := some 1 } none 1

/-- One day added to an expiry of never makes the client expire tomorrow. -/
theorem extension_shortens_never :
    oneDay.Fits endlessSite ∧ (oneDay.task.run endlessSite).1 = .ok () ∧
      ¬NeverShortens endlessSite (oneDay.task.run endlessSite).2 := by
  have hold : endlessSite.clientExpiry 7 = some none := by decide
  have hnew : ((oneDay.task.run endlessSite).2).clientExpiry 7 = some (some 86400000) :=
    by decide +kernel
  refine ⟨⟨by decide, rfl, by decide⟩, by decide +kernel, fun h => ?_⟩
  obtain ⟨e, he, hle⟩ := h.client 7 none hold
  rw [hnew] at he
  rw [← Option.some.inj he] at hle
  exact not_expiryOrder_none_le _ hle

theorem extension_neverShortens_iff_oneDay :
    Prog.wp oneDay.task (fun _ s' => NeverShortens endlessSite s' ↔ oneDay.Dated endlessSite)
      (fun _ s' => NeverShortens endlessSite s') endlessSite :=
  extension_neverShortens_iff oneDay endlessSite ⟨by decide, rfl, by decide⟩

end Site

end SRPanel
