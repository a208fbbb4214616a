import SRPanel.Clients.Volumes

/-!
# Requests

What a seller or the scheduler may ask for that reaches clients, and which deals each request comes
to. A request that runs alone amounts to a chain of the deals that it allows: so a run of requests
is a run of deals, and an invariant of the deals holds after it.
-/

namespace SRPanel

open Interleaving Prog

/-- `UnauthorizedError`. -/
def unauthorizedError (message : String) : AppError := ⟨message, 401, "unauthorized"⟩

/-- What the admin of a session may ask for. -/
inductive ClientRequest
  | create (input : CreateClientInput)
  | update (id : ClientId) (input : UpdateClientInput)
  | resetTraffic (id : ClientId)
  | delete (id : ClientId)
  | deleteWithRefund (id : ClientId)
  | bulk (input : ClientBulkInput)
  | setAutoRenew (id : ClientId) (input : AutoRenewInput)

/-- A request of an admin, a tick of the scheduler, or the fulfilment of an order. -/
inductive Request
  | admin (adminId : AdminId) (r : ClientRequest)
  | autoRenew (limit : ℕ)
  | fulfill (orderId : OrderId)

/-- The patches of a bulk action that is asked for in the state `s`, for a client with a limit of
these bytes there: each client is visited once, so this is the limit that it adds to. -/
def ClientBulkInput.Patch (input : ClientBulkInput) (bytes : ℤ)
    (patch : UpdateClientInput) : Prop :=
  match input.action with
  | .enable => patch = { UpdateClientInput.none with enabled := some true }
  | .disable => patch = { UpdateClientInput.none with enabled := some false }
  | .addDays => patch = { UpdateClientInput.none with addDays := some input.days }
  | .addGb => patch = { UpdateClientInput.none
    with trafficGB := some (max 1 (bytesToGb bytes + input.gb)) }
  | _ => False

/-- The deals that a request of an admin may come to when it is made in the state `s`. -/
def ClientRequest.allows (actor : Operator) (s : Site) (r : ClientRequest) (d : Deal) : Prop :=
  d = .quiet ∨ match r with
    | create input => ∃ a, d = .opened actor input a
    | update id input => ∃ x, d = .changed actor id input x
    | resetTraffic _ => False
    | delete id => d = .dropped id
    | deleteWithRefund id => d = .refunded id actor.id
    | bulk input => (∃ id ∈ (s.bulkTargets actor input).map Prod.fst, ∃ bytes patch x,
        s.clientLimit id = some bytes ∧ input.Patch bytes patch ∧ d = .changed actor id patch x) ∨
        ∃ id, d = .refunded id actor.id
    | setAutoRenew _ _ => False

namespace Site

/-- A request, once the admin of the session is known. -/
def serveAdmin (actor : Operator) : ClientRequest → Task Unit
  | .create input => (createClient actor input none).void
  | .update id input => (updateClient actor id input none).void
  | .resetTraffic id => (resetClientTraffic actor.actor id).void
  | .delete id => (deleteClient actor id).void
  | .deleteWithRefund id => (deleteClientWithRefund actor id).void
  | .bulk input => (runClientBulk actor input).void
  | .setAutoRenew id input => (setAutoRenew actor id input).void

/-- A request is served; `requireAdmin` looks the admin up. -/
def serve : Request → Task Unit
  | .admin adminId r => do
      let actor ← read fun s => s.operator adminId
      match actor with
      | none => throw (unauthorizedError "ورود لازم است")
      | some actor => serveAdmin actor r
  | .autoRenew limit => (runAutoRenew limit).void
  | .fulfill orderId => (fulfillOrder orderId).void

end Site

/-- The deals that a request may come to when it is made in the state `s`. -/
def Request.allows (s : Site) (r : Request) (d : Deal) : Prop :=
  d = .quiet ∨ match r with
    | admin adminId r => ∃ actor, s.operator adminId = some actor ∧ r.allows actor s d
    | autoRenew limit => ∃ row ∈ s.autoRenews.rows.take (max 1 limit), row.2.extendExpiry ∧
        row.2.nextAt ≤ (s.base.now : ℤ) ∧ ∃ expiry, d = .cycled row.1 expiry
    | fulfill orderId => ∃ f, s.findOrder orderId = some f ∧
        ((∃ name targets via a, d = .opened f.seller (Site.orderedClient f name targets via) a) ∨
          ∃ id x, f.info.renewClientId = some id ∧
          d = .changed f.seller id (Site.renewal f.info.planSnapshot) x)

/-- The deal is about the client, or about none. -/
def Deal.IsOn (k : ClientId) : Deal → Prop
  | .quiet => True
  | .changed _ id _ _ => id = k
  | .refunded id _ => id = k
  | _ => False

namespace Site

/-! ## Quiet procedures -/

section

variable {I : Site → Prop} {ok : Deal → Prop} (hquiet : ok .quiet)

include hquiet

/-- A call that leaves the books makes no deal. -/
theorem deals_of_keeps {α : Type} {p : Task α} (hp : p.Keeps SameBooks) : p.Leads I (Deals ok) :=
  fun s _ => (hp.run SameBooks.refl SameBooks.trans s).deals hquiet

/-- Nor does one that only logs. -/
theorem deals_of_logs {α : Type} {p : Service α} (hp : p.Keeps Logged) :
    (lift p).Leads I (Deals ok) :=
  deals_of_keeps hquiet ((lift_logs hp).mono fun _ _ h => .of_logs h)

/-- Nor does one that only reads. -/
theorem deals_of_reads {α : Type} {V : Site → Site → Prop} {p : Task α} (hp : p.Reads V) :
    p.Leads I (Deals ok) := deals_of_keeps hquiet (hp.keeps SameBooks.refl)

/-- Nor does a reset. -/
theorem resetClientTraffic_deals (actor : Actor) (id : ClientId) :
    (resetClientTraffic actor id).Leads I (Deals ok) :=
  fun s _ => (resetClientTraffic_books actor id s).deals hquiet

/-- Nor does a push. -/
theorem pushClient_deals (client : FullClient) : (pushClient client).Leads I (Deals ok) :=
  deals_of_keeps hquiet ((pushClient_annotated client).mono fun _ _ h => .of_pushed h.pushed)

end

/-- A write outside the books. -/
theorem deals_of_write {I : Site → Prop} {ok : Deal → Prop} (hquiet : ok .quiet) {f : Site → Site}
    (hf : ∀ s, SameBooks s (f s)) : (write f).Leads I (Deals ok) :=
  deals_of_keeps hquiet (keeps_modify hf)

theorem SameBooks.of_rules (s : Site) (rules : Table ClientId AutoRenewRule) :
    SameBooks s { s with autoRenews := rules } :=
  .of_apart rfl rfl rfl rfl rfl rfl le_rfl fun _ h => h

/-! ## Deletions -/

section

variable {I : Site → Prop} {ok : Deal → Prop}

theorem getClientForActor_error {actor : Actor} {id : ClientId} {s : Site}
    (h : s.clientOf actor id = none) :
    (getClientForActor actor id).run s = (.error (notFoundError "کلاینت پیدا نشد"), s) := by
  rw [getClientForActor_run, h]

/-- A lone `deleteClient` drops the client or finds none. -/
theorem deleteClient_deals (actor : Operator) (id : ClientId) (hquiet : ok .quiet)
    (hok : ok (.dropped id)) : (deleteClient actor id).Leads I (Deals ok) := by
  refine leads_of_wp fun s _ => ?_
  cases hfound : s.clientOf actor.actor id with
  | none =>
      unfold deleteClient
      rw [wp_bind, Prog.wp, getClientForActor_error hfound]
      exact (SameBooks.refl s).deals hquiet
  | some client =>
      have hget := (clientOf_id hfound).2.1
      refine wp_mono _ (deleteClient_wp actor id s hfound (P := fun _ => True) ?_)
        (fun _ s' h => ?_) fun _ _ h => h.elim
      · exact wp_mono _ (s.unlinking_wp id client.row) (fun _ _ _ => trivial) fun _ _ h => h
      · obtain ⟨s₁, hpanels, -, hlogs⟩ := h
        refine Chain.single hok ⟨by rw [Deal.Agreed, hget]; rfl, ?_⟩
        refine SameBooks.trans _ _ _ (SameBooks.of_panelled ?_) (.of_logs hlogs)
        rw [hpanels]
        rfl

/-- A lone `deleteClientWithRefund` refunds and drops the client, or finds none. -/
theorem deleteClientWithRefund_deals (actor : Operator) (id : ClientId) (hquiet : ok .quiet)
    (hok : ok (.refunded id actor.id)) : (deleteClientWithRefund actor id).Leads I (Deals ok) := by
  refine leads_of_wp fun s _ => ?_
  cases hfound : s.clientOf actor.actor id with
  | none =>
      unfold deleteClientWithRefund
      rw [wp_bind]
      refine wp_mono _ (takenQuote_wp id s) (fun quote s₀ h₀ => ?_) fun _ _ h => h.elim
      obtain ⟨-, rfl⟩ := h₀
      unfold deleteClient
      rw [wp_bind, wp_bind, Prog.wp, getClientForActor_error hfound]
      exact (SameBooks.refl s₀).deals hquiet
  | some client =>
      have hget := (clientOf_id hfound).2.1
      refine wp_mono _ (deleteClientWithRefund_wp actor id s hfound (P := fun _ => True) ?_)
        (fun _ s' h => ?_) fun _ _ h => h.elim
      · exact wp_mono _ (s.unlinking_wp id client.row) (fun _ _ _ => trivial) fun _ _ h => h
      · obtain ⟨-, s₁, hpanels, -, hlogs⟩ := h
        refine Chain.single hok ⟨by rw [Deal.Agreed, hget]; rfl, ?_⟩
        refine SameBooks.trans _ _ _ (SameBooks.of_panelled ?_) (.of_logs hlogs)
        show Panelled (refunded s s id actor.id) (refunded s s₁ id actor.id)
        unfold refunded
        rw [hpanels]
        cases s.refundSubject id with
        | none => rfl
        | some x => rfl

end

/-! ## Bulk actions -/

section

variable {ok : Deal → Prop}

/-- Deals keep what requests of an admin start from. -/
theorem ready_deals (id : AdminId) (s s' : Site) (h : Deals ok s s') (hs : Ready id s) :
    Ready id s' := hs.deals h

/-- One procedure after the other. -/
theorem deals_bind {α β : Type} {id : AdminId} {p : Task β} {f : β → Task α}
    (hp : p.Leads (Ready id) (Deals ok)) (hf : ∀ b, (f b).Leads (Ready id) (Deals ok)) :
    (p >>= f).Leads (Ready id) (Deals ok) :=
  leads_bind (fun _ _ _ h h' => h.trans h') (ready_deals id) hp hf

/-- A value makes no deal. -/
theorem deals_pure {α : Type} {I : Site → Prop} (a : α) : (pure a : Task α).Leads I (Deals ok) :=
  fun s _ => Chain.refl s

variable (hquiet : ok .quiet)

include hquiet

omit hquiet in
/-- Deals about one client leave the limits of the others alone. -/
theorem clientLimit_deals {k k' : ClientId} (hk : k ≠ k') (hon : ∀ d, ok d → d.IsOn k')
    {s s' : Site} (h : Deals ok s s') : s'.clientLimit k = s.clientLimit k := by
  refine h.invariant (I := fun t => t.clientLimit k = s.clientLimit k) rfl fun d t t' hd ht hstep =>
  ?_
  obtain ⟨hagreed, hbooks⟩ := hstep
  have heffect : (d.effect t).clients.get? k = t.clients.get? k := by
    have hthis := hon d hd
    cases d with
    | quiet => rfl
    | opened actor input a => exact hthis.elim
    | changed actor id input x =>
        obtain ⟨hid, -, -⟩ := clientOf_id hagreed.found
        show (t.updated actor input none x).clients.get? k = _
        rw [updated_client, if_neg]
        rw [hid, show id = k' from hthis]
        exact hk
    | cycled id expiry => exact hthis.elim
    | dropped id => exact hthis.elim
    | refunded id byAdminId =>
        show (refunded t t id byAdminId).clients.get? k = _
        rw [refunded_client, if_neg]
        rw [show id = k' from hthis]
        exact hk
  have hsettled := congrArg (fun T : Table ClientId Client =>
    (T.get? k).map Client.trafficLimit) hbooks.clients
  simp only [Table.get?_mapRows, Option.map_map] at hsettled
  rw [← ht, clientLimit, clientLimit, ← heffect]
  exact hsettled

theorem updateClient_done_deals (actor : Operator) (id : ClientId) (patch : UpdateClientInput)
    (hok : ∀ x, ok (.changed actor id patch x)) : (do
      let updated ← updateClient actor id patch none
      pure (.done updated.2 0) : Task BulkOutcome).Leads (Ready actor.id) (Deals ok) :=
  deals_bind (updateClient_deals actor id patch none hquiet hok) fun _ => deals_pure _

theorem bulkAddGb_deals (actor : Operator) (id : ClientId) (gb bytes : ℤ)
      (hok : ∀ x, ok (.changed actor id { UpdateClientInput.none
        with trafficGB := some (max 1 (bytesToGb bytes + gb)) } x)) :
    (bulkAddGb actor id gb).Leads (fun t => Ready actor.id t ∧ t.clientLimit id = some bytes)
    (Deals ok) := by
  refine leads_of_wp fun s hs => ?_
  obtain ⟨hready, hlimit⟩ := hs
  unfold bulkAddGb
  rw [wp_bind, (getClientForActor_reads actor.actor id).wp_iff]
  rcases hclient : ((getClientForActor actor.actor id).run s).1 with e | client
  · exact Chain.refl s
  · have hget := (clientOf_id (clientOf_of_run hclient)).2.1
    have hrow : client.row.trafficLimit = bytes := by
      rw [clientLimit, hget] at hlimit
      exact Option.some.inj hlimit
    dsimp only
    rw [hrow]
    split
    · exact Chain.refl s
    · rw [wp_bind, (assertClientKind_reads _ _ _ _ _).wp_iff]
      rcases ((assertClientKind actor.actor .limited none _ (some client.id)).run s).1 with e | _
      · exact Chain.refl s
      · exact (wp_store_iff _).mpr (updateClient_done_deals hquiet actor id _ hok s hready)

/-- What a bulk action does to one client, whose limit is this. -/
theorem bulkOne_deals (actor : Operator) (input : ClientBulkInput) (id : ClientId) (bytes : ℤ)
    (hchanged : ∀ patch x, input.Patch bytes patch → ok (.changed actor id patch x))
    (hrefunded : ok (.refunded id actor.id)) :
    (bulkOne actor input id).Leads (fun t => Ready actor.id t ∧ t.clientLimit id = some bytes)
    (Deals ok) := by
  have hready : ∀ {p : Task BulkOutcome}, p.Leads (Ready actor.id) (Deals ok) →
      p.Leads (fun t => Ready actor.id t ∧ t.clientLimit id = some bytes) (Deals ok) :=
    fun hp t ht => hp t ht.1
  unfold bulkOne
  unfold ClientBulkInput.Patch at hchanged
  cases haction : input.action with
  | enable =>
      rw [haction] at hchanged
      exact hready (updateClient_done_deals hquiet actor id _ fun x => hchanged _ x rfl)
  | disable =>
      rw [haction] at hchanged
      exact hready (updateClient_done_deals hquiet actor id _ fun x => hchanged _ x rfl)
  | addDays =>
      rw [haction] at hchanged
      exact hready (updateClient_done_deals hquiet actor id _ fun x => hchanged _ x rfl)
  | addGb =>
      rw [haction] at hchanged
      exact bulkAddGb_deals hquiet actor id input.gb bytes fun x => hchanged _ x rfl
  | resetTraffic =>
      exact hready (deals_bind (resetClientTraffic_deals hquiet _ _) fun _ => deals_pure _)
  | repush =>
      exact hready (deals_bind (deals_of_reads hquiet (getClientForActor_reads _ _)) fun client =>
        deals_bind (pushClient_deals hquiet client) fun _ => deals_pure _)
  | delete =>
      exact hready (deals_bind (deleteClientWithRefund_deals actor id hquiet hrefunded) fun _ =>
        deals_pure _)

/-- The targets of a bulk action one after the other, from a state in which the limits are still
those of `s`. -/
theorem bulkAll_deals (actor : Operator) (input : ClientBulkInput) (s : Site)
    (targets : List (ClientId × Client)) (hchanged : ∀ id ∈ targets.map Prod.fst, ∀ bytes patch x,
      s.clientLimit id = some bytes → input.Patch bytes patch → ok (.changed actor id patch x))
    (hrefunded : ∀ id, ok (.refunded id actor.id)) (htargets : (targets.map Prod.fst).Nodup)
    (r : ClientBulkResult) (t : Site) (ht : Ready actor.id t)
    (hlimits : ∀ k ∈ targets.map Prod.fst,
      (s.clientLimit k).isSome ∧ t.clientLimit k = s.clientLimit k) :
    Deals ok t ((bulkAll actor input targets r).run t).2 := by
  induction targets generalizing r t with
  | nil => exact Chain.refl t
  | cons target rest ih =>
      obtain ⟨hfresh, hrest⟩ := List.nodup_cons.mp htargets
      obtain ⟨hthere, hsame⟩ := hlimits _ List.mem_cons_self
      obtain ⟨bytes, hbytes⟩ := Option.isSome_iff_exists.mp hthere
      have hone : Deals (fun d => ok d ∧ d.IsOn target.1) t
          ((bulkOne actor input target.1).run t).2 :=
        bulkOne_deals ⟨hquiet, trivial⟩ actor input target.1 bytes
          (fun patch x hpatch => ⟨hchanged _ List.mem_cons_self bytes patch x hbytes hpatch, rfl⟩)
          ⟨hrefunded _, rfl⟩ t ⟨ht, hsame.trans hbytes⟩
      have hlater : ∀ r' t', Deals (fun d => ok d ∧ d.IsOn target.1) t t' →
          Deals ok t ((bulkAll actor input rest r').run t').2 := by
        intro r' t' h
        have hdeals : Deals ok t t' := h.mono fun _ hd => hd.1
        refine hdeals.trans (ih (fun id hid => hchanged id (List.mem_cons_of_mem _ hid)) hrest r' t'
          (ht.deals hdeals) fun k hk => ?_)
        have hne : k ≠ target.1 := fun heq => hfresh (heq ▸ hk)
        rw [clientLimit_deals hne (fun _ hd => hd.2) h]
        exact hlimits k (List.mem_cons_of_mem _ hk)
      refine (wp_store_iff _).mp ?_
      rw [bulkAll, wp_bind, wp_attempt, wp_bind]
      refine wp_mono _ ((wp_store_iff _).mpr hone) (fun _ t' h => ?_) fun _ t' h => ?_
      · exact (wp_store_iff _).mpr (hlater _ t' h)
      · exact (wp_store_iff _).mpr (hlater _ t' h)

theorem runClientBulk_deals (actor : Operator) (input : ClientBulkInput) (s : Site)
    (hs : Ready actor.id s) (hchanged : ∀ id ∈ (s.bulkTargets actor input).map Prod.fst,
      ∀ bytes patch x, s.clientLimit id = some bytes → input.Patch bytes patch →
      ok (.changed actor id patch x))
    (hrefunded : ∀ id, ok (.refunded id actor.id)) :
    Deals ok s ((runClientBulk actor input).run s).2 := by
  refine (wp_store_iff _).mp ?_
  unfold runClientBulk
  rw [wp_bind]
  refine wp_mono _ (resolveBulkClients_spec actor input s) (fun targets s₁ h => ?_) fun _ s₁ h => ?_
  · obtain ⟨hnodup, hthere, rfl, rfl⟩ := h
    dsimp only
    split
    · exact Chain.refl _
    split
    · exact Chain.refl _
    · rw [wp_bind]
      have hall := bulkAll_deals hquiet actor input s₁ _ hchanged hrefunded hnodup
        ⟨(s₁.bulkTargets actor input).length, 0, 0, 0, 0, [], []⟩ s₁ hs fun k hk =>
          ⟨hthere k hk, rfl⟩
      have haudit := fun t => deals_of_logs (I := fun _ => True) hquiet
        (audit_keeps_logged (some actor.id) "client.bulk") t trivial
      refine wp_mono _ ((wp_store_iff _).mpr hall) (fun r t h => ?_) fun _ t h => h
      exact (wp_bind _ _).mpr (wp_mono _ ((wp_store_iff _).mpr (haudit t))
        (fun _ _ h' => h.trans h') fun _ _ h' => h.trans h')
  · rw [h]
    exact Chain.refl s

end

/-! ## Automatic renewals -/

section

variable {ok : Deal → Prop}

/-- One scheduler procedure after the other. -/
theorem ticks_bind {α β : Type} {p : Task β} {f : β → Task α}
    (hp : p.Leads (fun _ => True) (Deals ok)) (hf : ∀ b, (f b).Leads (fun _ => True) (Deals ok)) :
    (p >>= f).Leads (fun _ => True) (Deals ok) :=
  leads_bind (fun _ _ _ h h' => h.trans h') (fun _ _ _ _ => trivial) hp hf

theorem ticks_attempt {α : Type} {p : Task α} {H : AppError → Task α}
    (hp : p.Leads (fun _ => True) (Deals ok)) (hH : ∀ e, (H e).Leads (fun _ => True) (Deals ok)) :
    (p.attempt H).Leads (fun _ => True) (Deals ok) :=
  leads_attempt (fun _ _ _ h h' => h.trans h') (fun _ _ _ _ => trivial) hp hH

variable (hquiet : ok .quiet)

include hquiet

/-- A rule makes no deal. -/
theorem setAutoRenew_deals (actor : Operator) (id : ClientId) (input : AutoRenewInput) :
    (setAutoRenew actor id input).Leads (Ready actor.id) (Deals ok) := by
  refine deals_bind (deals_of_reads hquiet (getClientForActor_reads _ _)) fun client =>
    deals_bind (deals_of_reads hquiet (V := (· = ·)) (reads_query fun _ _ h => by rw [h]))
      fun prev =>
      deals_bind (deals_of_reads hquiet now_reads) fun t =>
        deals_bind (deals_of_reads hquiet (V := (· = ·)) (refuseIf_reads _ _)) fun _ => ?_
  exact deals_bind (deals_of_write hquiet fun s => .of_rules s _) fun _ =>
    deals_bind (deals_of_logs hquiet (audit_keeps_logged _ _)) fun _ => deals_pure _

/-- Nor does its removal. -/
theorem dropRule_deals (id : ClientId) : (dropRule id).Leads (fun _ => True) (Deals ok) :=
  deals_of_write hquiet fun s => .of_rules s _

theorem extendOfCycle_deals (admin : Operator) (id : ClientId) (expiry : ℤ)
    (hok : ok (.cycled id expiry)) :
    (extendOfCycle admin id expiry).Leads (fun _ => True) (Deals ok) := by
  refine ticks_bind (fun s _ => ?_) fun _ => ticks_attempt ?_ fun _ => deals_pure _
  · rw [updateRow, writeRow, run_step]
    cases hget : s.clients.get? id with
    | none => exact (SameBooks.refl s).deals hquiet
    | some c => exact Chain.single hok ⟨by rw [Deal.Agreed, hget]; rfl,
        .of_apart rfl rfl rfl rfl rfl rfl le_rfl fun _ h => h⟩
  · exact ticks_bind (deals_of_reads hquiet (getClientForActor_reads _ _)) fun client =>
      ticks_bind (pushClient_deals hquiet client) fun _ => deals_pure _

/-- A cycle makes that one. -/
theorem runCycle_deals (t : ℤ) (id : ClientId) (rule : AutoRenewRule) (client : Client)
    (admin : Operator) (hok : rule.extendExpiry → ∀ expiry, ok (.cycled id expiry)) :
    (runCycle t id rule client admin).Leads (fun _ => True) (Deals ok) := by
  have hextend : (if rule.extendExpiry then
      extendOfCycle admin id (cycleExpiry client.expiresAt rule.everyDays t) else pure false).Leads
      (fun _ => True) (Deals ok) := by
    by_cases h : rule.extendExpiry
    · rw [if_pos h]
      exact extendOfCycle_deals hquiet admin id _ (hok h _)
    · rw [if_neg h]
      exact deals_pure _
  refine ticks_bind (ticks_attempt (ticks_bind (resetClientTraffic_deals hquiet _ _) fun _ =>
    deals_pure _) fun _ => deals_pure _) fun _ => ticks_bind hextend fun _ =>
      ticks_bind (deals_of_logs hquiet (audit_keeps_logged _ _)) fun _ =>
        ticks_bind (leads_ite ?_ ?_) fun _ => deals_pure _
  · exact ticks_bind (dropRule_deals hquiet id) fun _ => deals_pure _
  · exact ticks_bind (deals_of_write hquiet fun s => .of_rules s _) fun _ => deals_pure _

/-- A tick extends clients by the rules that it reads and that are due. -/
theorem runAutoRenew_deals (limit : ℕ) (s : Site)
    (hok : ∀ row ∈ s.autoRenews.rows.take (max 1 limit), row.2.extendExpiry →
      row.2.nextAt ≤ (s.base.now : ℤ) → ∀ expiry, ok (.cycled row.1 expiry)) :
      Deals ok s ((runAutoRenew limit).run s).2 := by
  have hread : ∀ {α : Type} (g : Site → α), (read g).Leads (fun _ => True) (Deals ok) := fun g =>
    deals_of_reads hquiet (V := (· = ·)) (reads_query fun _ _ h => by rw [h])
  have hrule : ∀ t id rule,
      (rule.extendExpiry → rule.nextAt ≤ t → ∀ expiry, ok (.cycled id expiry)) →
      (runRule t id rule).Leads (fun _ => True) (Deals ok) := by
    refine fun t id rule hdue => ticks_bind (hread _) fun client => ?_
    cases client with
    | none => exact ticks_bind (dropRule_deals hquiet id) fun _ => deals_pure _
    | some client =>
        dsimp only
        by_cases hlater : t < rule.nextAt
        · rw [if_pos hlater]
          exact deals_pure _
        · rw [if_neg hlater]
          refine ticks_bind (hread _) fun admin => ?_
          cases admin with
          | none => exact ticks_bind (dropRule_deals hquiet id) fun _ => deals_pure _
          | some admin =>
              exact runCycle_deals hquiet t id rule client admin fun h => hdue h (not_lt.mp hlater)
  have hrules : ∀ t rows, (∀ row ∈ rows, row.2.extendExpiry → row.2.nextAt ≤ t →
      ∀ expiry, ok (.cycled row.1 expiry)) → (runRules t rows).Leads
        (fun _ => True) (Deals ok) := by
    intro t rows hrows
    induction rows with
    | nil => exact deals_pure _
    | cons row rows ih =>
        exact ticks_bind (hrule t row.1 row.2 (hrows row List.mem_cons_self)) fun _ =>
          ticks_bind (ih fun r hr => hrows r (List.mem_cons_of_mem _ hr)) fun _ => deals_pure _
  exact hrules s.base.now _ hok s trivial

end

/-! ## Orders -/

section

variable {ok : Deal → Prop} (hquiet : ok .quiet)

/-- Bookkeeping leaves the books of clients. -/
theorem SameBooks.of_booked {s s' : Site} (h : Booked s s') : SameBooks s s' :=
  .of_apart (h.same Site.clients fun _ => rfl) (h.same (fun s => s.base.walletTxs) fun _ => rfl)
    (h.same Site.links fun _ => rfl) (h.same Site.clientTypes fun _ => rfl)
    (h.same Site.pricing fun _ => rfl)
    (h.same (fun s => s.base.now) fun _ => rfl)
    (h.same (fun s => s.base.nextId) fun _ => rfl).ge fun id ha => by
      rw [h.same (fun s => s.base.admins) fun _ => rfl]
      exact ha

/-- So does a draw. -/
theorem draw_books : draw.Keeps SameBooks :=
  keeps_step fun _ => .of_apart rfl rfl rfl rfl rfl rfl (Nat.le_succ _) fun _ h => h

/-- The grant of a package is outside the books. -/
theorem grantPanel_books (f : FoundOrder) (link : PanelPlanLink) (pkg : PanelPackage) (now : ℤ)
    (key : AdminId × BuyerKey) : (grantPanel f link pkg now key).Keeps SameBooks := by
  refine grantPanel_keeps SameBooks.refl draw_books f (fun account => ?_)
    (fun seen figures g => ?_) link pkg now key
  · refine keeps_step fun s => ?_
    split
    · exact .refl s
    · refine .of_apart rfl rfl rfl rfl rfl rfl (Nat.le_succ _) fun id h => ?_
      show ((s.base.admins.set _ _).get? id).isSome
      rw [Table.get?_set]
      split
      · rfl
      · exact h
  · refine keeps_step fun s => ?_
    cases s.operator seen.id with
    | none => exact .refl s
    | some o => exact .of_apart rfl rfl rfl rfl rfl rfl le_rfl fun _ h => h

/-- So does an order for a panel. -/
theorem provisionPanelOrder_books (f : FoundOrder) (link : PanelPlanLink) (s : Site) :
    SameBooks s ((provisionPanelOrder f link).run s).2 := by
  refine (wp_store_iff _).mp
    (provisionPanelOrder_wp f link s (fun s₁ s₂ h h₁ => ?_) (fun _ => .refl s) fun _ =>
      (grantPanel_books f link _ _ _).wp SameBooks.refl SameBooks.trans s)
  exact h₁.trans _ _ _ (.of_booked h)

include hquiet

theorem orderConfig_deals (f : FoundOrder)
    (hopened : ∀ name targets via a, ok (.opened f.seller (orderedClient f name targets via) a))
    (hchanged : ∀ id x, f.info.renewClientId = some id →
      ok (.changed f.seller id (renewal f.info.planSnapshot) x)) :
    (orderConfig f).Leads (Ready f.seller.id) (Deals ok) := by
  have hread : ∀ {α : Type} (g : Site → α),
      (read g).Leads (Ready f.seller.id) (Deals ok) := fun g =>
    deals_of_reads hquiet (V := (· = ·)) (reads_query fun _ _ h => by rw [h])
  unfold orderConfig
  cases hrenew : f.info.renewClientId with
  | some id =>
      refine deals_bind (hread _) fun existing => ?_
      cases existing with
      | none => exact deals_of_reads hquiet (V := (· = ·)) (reads_throw _)
      | some links =>
          exact deals_bind (resetClientTraffic_deals hquiet _ _) fun _ =>
            deals_bind (updateClient_deals f.seller id _ _ hquiet fun x =>
              hchanged id x hrenew) fun _ =>
              deals_pure _
  | none =>
      refine deals_bind (deals_of_reads hquiet (resolveOrderTargets_reads _ _ _)) fun found =>
        deals_bind (deals_bind (deals_of_keeps hquiet draw_books) fun _ => hread _) fun name =>
          deals_bind (createClient_deals f.seller _ _ hquiet (hopened name found.1 found.2))
            fun _ => deals_pure _

theorem fulfillOrder_deals (id : OrderId) (s : Site) (hlinks : s.SoundLinks)
    (hopened : ∀ f, s.findOrder id = some f → ∀ name targets via a,
      ok (.opened f.seller (orderedClient f name targets via) a))
    (hchanged : ∀ f, s.findOrder id = some f → ∀ client x, f.info.renewClientId = some client →
      ok (.changed f.seller client (renewal f.info.planSnapshot) x)) :
    Deals ok s ((fulfillOrder id).run s).2 := by
  have hbegun : ∀ d, SameBooks s { s with deliveries := d } :=
    fun d => .of_apart rfl rfl rfl rfl rfl rfl le_rfl fun _ h => h
  unfold fulfillOrder
  rw [run_bind, run_step]
  dsimp only
  cases hfound : s.findOrder id with
  | none => exact (hbegun s.deliveries).deals hquiet
  | some f =>
      refine ((hbegun (s.deliveries.begin id f.order.status)).deals hquiet).trans ?_
      dsimp only
      have hready : Ready f.seller.id { s
          with deliveries := s.deliveries.begin id f.order.status } :=
        ⟨hlinks, (findOrder_seller hfound).1⟩
      refine leads_ite (deals_pure _) (leads_ite (deals_of_reads hquiet (V := (· = ·))
        (reads_throw _)) ?_) _ hready
      refine deals_bind (deals_of_reads hquiet (V := (· = ·)) ?_) fun link => ?_
      · cases f.info.planId with
        | none => exact reads_pure _
        | some plan => exact reads_query fun _ _ h => by rw [h]
      · cases link with
        | some link => exact fun t _ => (provisionPanelOrder_books f link t).deals hquiet
        | none =>
            refine leads_attempt (fun _ _ _ h h' => h.trans h') (ready_deals _)
              (deals_bind (orderConfig_deals hquiet f (hopened f hfound) (hchanged f hfound))
                fun config => ?_)
              fun e => ?_
            · exact deals_bind (deals_of_reads hquiet now_reads) fun t =>
                deals_bind (deals_of_keeps hquiet ((closeOrder_booked _ _ _).mono fun _ _ h =>
                  .of_booked h)) fun _ => deals_bind (deals_of_keeps hquiet
                    ((announce_booked _ _).mono fun _ _ h => .of_booked h))
                  fun _ => deals_pure _
            · exact deals_of_keeps hquiet ((failOrder_booked _ _).mono fun _ _ h => .of_booked h)

end

/-! ## Requests -/

theorem serveAdmin_deals (actor : Operator) (r : ClientRequest) (s : Site) (hs : Ready actor.id s) :
    Deals (r.allows actor s) s ((serveAdmin actor r).run s).2 := by
  have hquiet : r.allows actor s .quiet := .inl rfl
  cases r with
  | create input =>
      exact leads_void (createClient_deals actor input none hquiet fun a => .inr ⟨a, rfl⟩) s hs
  | update id input =>
      exact leads_void (updateClient_deals actor id input none hquiet fun x => .inr ⟨x, rfl⟩) s hs
  | resetTraffic id => exact leads_void (resetClientTraffic_deals hquiet actor.actor id) s hs
  | delete id => exact leads_void (deleteClient_deals actor id hquiet (.inr rfl)) s hs
  | deleteWithRefund id =>
      exact leads_void (deleteClientWithRefund_deals actor id hquiet (.inr rfl)) s hs
  | bulk input =>
      rw [serveAdmin, run_void]
      exact runClientBulk_deals hquiet actor input s hs
        (fun id hid bytes patch x hbytes hpatch =>
          .inr (.inl ⟨id, hid, bytes, patch, x, hbytes, hpatch, rfl⟩))
        fun id => .inr (.inr ⟨id, rfl⟩)
  | setAutoRenew id input => exact leads_void (setAutoRenew_deals hquiet actor id input) s hs

/-- A request that runs alone comes to deals that it allows. -/
theorem serve_deals (r : Request) (s : Site) (hlinks : s.SoundLinks) :
    Deals (r.allows s) s ((serve r).run s).2 := by
  cases r with
  | admin adminId r =>
      rw [serve, run_bind, read, run_query]
      dsimp only
      cases hactor : s.operator adminId with
      | none => exact Chain.refl s
      | some actor =>
          have hid := (operator_account hactor).1
          have hready : Ready actor.id s := ⟨hlinks, hid ▸ operator_row hactor⟩
          refine (serveAdmin_deals actor r s hready).mono fun d hd => .inr ⟨actor, hactor, hd⟩
  | autoRenew limit =>
      rw [serve, run_void]
      exact runAutoRenew_deals (.inl rfl) limit s fun row hrow hextend hdue expiry =>
        .inr ⟨row, hrow, hextend, hdue, expiry, rfl⟩
  | fulfill orderId =>
      rw [serve, run_void]
      exact fulfillOrder_deals (.inl rfl) orderId s hlinks
        (fun f hf name targets via a => .inr ⟨f, hf, .inl ⟨name, targets, via, a, rfl⟩⟩)
        fun f hf client x hrenew => .inr ⟨f, hf, .inr ⟨client, x, hrenew, rfl⟩⟩

/-- A reseller with credit and access to the one server, who has no client yet. -/
def unopenedSite : Site :=
  { Site.blank with
    base := { World.blank with admins := Table.empty.set 2 ⟨.admin, 100000, 0⟩ }
    accounts := Table.empty.set 2 ⟨"r", 0, none, true, none, none, none, none, none, none,
      none, [(3, [])]⟩
    pricing := ⟨true, 1000, 0, true⟩
    servers := Table.empty.set 3 ⟨"s", true, [⟨1, "vless", true, "none", "tcp", []⟩]⟩ }

end Site

end SRPanel
