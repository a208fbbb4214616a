import SRPanel.Clients.Touches
import SRPanel.Lib.Warrant

/-!
# Tenants

Many sellers share one panel. A request looks first whether a client is in the scope of its admin
and acts later, while other requests run. A client never changes hands and no id is given twice, so
what a request was allowed to touch when it looked is still its admin's when it acts: no
interleaving takes a request into the books of another seller.
-/

namespace SRPanel

open Interleaving Prog

namespace Site

/-! ## Ids and owners -/

/-- The ids in use have been drawn. -/
structure Numbered (s : Site) : Prop where
  clients : ∀ id, (s.clients.get? id).isSome → id < s.base.nextId
  admins : ∀ a, (s.base.admins.get? a).isSome → a < s.base.nextId

/-- A client stays with its admin and an admin keeps the role; the ids of new ones have been drawn
since. -/
structure Tenure (s s' : Site) : Prop where
  nextId : s.base.nextId ≤ s'.base.nextId
  clients : ∀ id c', s'.clients.get? id = some c' →
    (∃ c, s.clients.get? id = some c ∧ c.adminId = c'.adminId) ∨ s.base.nextId ≤ id ∧
    id < s'.base.nextId
  admins : ∀ a r', s'.base.admins.get? a = some r' →
    (∃ r, s.base.admins.get? a = some r ∧ r.role = r'.role) ∨ s.base.nextId ≤ a ∧ a < s'.base.nextId

/-- A state and a later one. -/
structure After (s s' : Site) : Prop where
  numbered : s.Numbered
  tenure : Tenure s s'

/-- Nobody's books change but those of the admins in `P` and of their clients. -/
structure Confined (P : AdminId → Prop) (s s' : Site) : Prop where
  tenure : Tenure s s'
  clients : ∀ id c, s.clients.get? id = some c → ¬P c.adminId → SparesClient id s s'
  born : ∀ id c', s'.clients.get? id = some c' → s.clients.get? id = none → P c'.adminId
  wallets : ∀ a, ¬P a → SparesWallet a s s'

section

variable {s s' s'' : Site} {P P' : AdminId → Prop}

theorem Tenure.refl (s : Site) : Tenure s s :=
  ⟨le_rfl, fun _ c h => .inl ⟨c, h, rfl⟩, fun _ r h => .inl ⟨r, h, rfl⟩⟩

theorem Tenure.trans (h : Tenure s s') (h' : Tenure s' s'') : Tenure s s'' where
  nextId := h.nextId.trans h'.nextId
  clients id c'' hc'' := by
    rcases h'.clients id c'' hc'' with ⟨c', hc', howner'⟩ | ⟨hlow, hhigh⟩
    · rcases h.clients id c' hc' with ⟨c, hc, howner⟩ | ⟨hlow, hhigh⟩
      · exact .inl ⟨c, hc, howner.trans howner'⟩
      · exact .inr ⟨hlow, hhigh.trans_le h'.nextId⟩
    · exact .inr ⟨h.nextId.trans hlow, hhigh⟩
  admins a r'' hr'' := by
    rcases h'.admins a r'' hr'' with ⟨r', hr', hrole'⟩ | ⟨hlow, hhigh⟩
    · rcases h.admins a r' hr' with ⟨r, hr, hrole⟩ | ⟨hlow, hhigh⟩
      · exact .inl ⟨r, hr, hrole.trans hrole'⟩
      · exact .inr ⟨hlow, hhigh.trans_le h'.nextId⟩
    · exact .inr ⟨h.nextId.trans hlow, hhigh⟩

/-- Numbers stay below the next one. -/
theorem Numbered.tenure (hs : s.Numbered) (h : Tenure s s') : s'.Numbered where
  clients id hid := by
    obtain ⟨c', hc'⟩ := Option.isSome_iff_exists.mp hid
    rcases h.clients id c' hc' with ⟨c, hc, -⟩ | ⟨-, hhigh⟩
    · exact (hs.clients id (by rw [hc]; rfl)).trans_le h.nextId
    · exact hhigh
  admins a ha := by
    obtain ⟨r', hr'⟩ := Option.isSome_iff_exists.mp ha
    rcases h.admins a r' hr' with ⟨r, hr, -⟩ | ⟨-, hhigh⟩
    · exact (hs.admins a (by rw [hr]; rfl)).trans_le h.nextId
    · exact hhigh

/-- Later than later is later. -/
theorem After.trans (s s' s'' : Site) (h : After s s') (h' : After s' s'') : After s s'' :=
  ⟨h.numbered, h.tenure.trans h'.tenure⟩

/-- A client that is still there is still its admin's. -/
theorem After.owner (h : After s s') {id : ClientId} {c c' : Client}
    (hc : s.clients.get? id = some c) (hc' : s'.clients.get? id = some c') :
    c'.adminId = c.adminId := by
  rcases h.tenure.clients id c' hc' with ⟨c₀, hc₀, howner⟩ | ⟨hlow, -⟩
  · obtain rfl := Option.some.inj (hc.symm.trans hc₀)
    exact howner.symm
  · have hdrawn : id < s.base.nextId := h.numbered.clients id (by rw [hc]; rfl)
    exact absurd hlow hdrawn.not_ge

/-- An admin that is still there has the same role. -/
theorem After.role (h : After s s') {a : AdminId} {r r' : Admin}
    (hr : s.base.admins.get? a = some r) (hr' : s'.base.admins.get? a = some r') :
    r'.role = r.role := by
  rcases h.tenure.admins a r' hr' with ⟨r₀, hr₀, hrole⟩ | ⟨hlow, -⟩
  · obtain rfl := Option.some.inj (hr.symm.trans hr₀)
    exact hrole.symm
  · have hdrawn : a < s.base.nextId := h.numbered.admins a (by rw [hr]; rfl)
    exact absurd hlow hdrawn.not_ge

theorem Confined.mono (h : Confined P s s') (hP : ∀ a, P a → P' a) : Confined P' s s' where
  tenure := h.tenure
  clients id c hc hnot := h.clients id c hc fun hmem => hnot (hP _ hmem)
  born id c' hc' hnone := hP _ (h.born id c' hc' hnone)
  wallets a hnot := h.wallets a fun hmem => hnot (hP _ hmem)

theorem Touches.confined {ids : Set ClientId} {tills : Set AdminId} (h : Touches ids tills s s')
    (hids : ∀ id ∈ ids, ∀ c, s.clients.get? id = some c → P c.adminId) (htills : ∀ a ∈ tills, P a) :
    Confined P s s' where
  tenure := ⟨h.nextId, fun id c' hc' => .inl (h.owners id c' hc'), fun a r hr =>
    .inl (h.admins a r hr)⟩
  clients id c hc hnot := h.clients id fun hmem => hnot (hids id hmem c hc)
  born id c' hc' hnone := by
    obtain ⟨c, hc, -⟩ := h.owners id c' hc'
    rw [hnone] at hc
    cases hc
  wallets a hnot := h.wallets a fun hmem => hnot (htills a hmem)

end

/-! ## Confined procedures -/

/-- `P` says whom a procedure may act for, by the states that it has seen: the more it has seen, the
more it may. -/
def Grows (P : Set Site → AdminId → Prop) : Prop :=
  ∀ seen seen', seen ⊆ seen' → ∀ a, P seen a → P seen' a

/-- Every step of the procedure is confined to those it may act for. -/
abbrev Confines {α : Type} (P : Set Site → AdminId → Prop) (Q : α → Set Site → Prop) (p : Task α)
    (seen : Set Site) : Prop :=
  Warranted Numbered After (fun seen => Confined (P seen)) Q (fun _ _ => True) p seen

/-- Whatever has happened since, the client belongs to one whom the procedure may act for. -/
def Held (P : Set Site → AdminId → Prop) (seen : Set Site) (id : ClientId) : Prop :=
  ∀ s, s.Numbered → (∀ t ∈ seen, After t s) → ∀ c, s.clients.get? id = some c →
    P (insert s seen) c.adminId

section

variable {P : Set Site → AdminId → Prop} {seen seen' : Set Site} {id : ClientId} {α β : Type}

theorem Held.mono (hP : Grows P) (h : Held P seen id) (hsub : seen ⊆ seen') : Held P seen' id :=
  fun s hs hlater c hc => hP _ _ (Set.insert_subset_insert hsub) _
    (h s hs (fun t ht => hlater t (hsub ht)) c hc)

/-- A client seen with one whom the procedure may act for. -/
theorem Held.of_seen (hP : Grows P) {t : Site} (ht : t ∈ seen) {c : Client}
    (hc : t.clients.get? id = some c) (howner : P seen c.adminId) : Held P seen id := by
  intro s _ hlater c' hc'
  rw [(hlater t ht).owner hc hc']
  exact hP _ _ (Set.subset_insert s seen) _ howner

theorem confined_of_books {P : AdminId → Prop} {s s' : Site} (h : s'.books = s.books)
    (hnext : s.base.nextId ≤ s'.base.nextId) : Confined P s s' := by
  have htouches : Touches ∅ ∅ s s' := .of_books h hnext
  exact htouches.confined (fun _ h => h.elim) fun _ h => h.elim

/-- Nothing happening is confined. -/
theorem confined_refl {P : AdminId → Prop} (s : Site) : Confined P s s :=
  confined_of_books rfl le_rfl

theorem confines_keeps (K : Set Site → Prop) (hK : ∀ seen seen', seen ⊆ seen' → K seen → K seen')
    (hseen : K seen) (hP : Grows P) (ids : Set ClientId) (tills : Set AdminId)
    (hids : ∀ id ∈ ids, Held P seen id)
    (htills : ∀ a ∈ tills, P seen a) {p : Task α} (hp : p.Keeps (Touches ids tills)) :
    Confines P (fun _ => K) p seen := by
  have hall := warranted_keeps (ℓ := Mark) (ε := AppError) (I := Numbered) (G := After)
    (W := fun seen => Confined (P seen))
    (P := fun seen => K seen ∧ (∀ id ∈ ids, Held P seen id) ∧ ∀ a ∈ tills, P seen a)
    (fun seen seen' hsub h => ⟨hK _ _ hsub h.1, fun k hk => (h.2.1 k hk).mono hP hsub,
      fun a ha => hP _ _ hsub _ (h.2.2 a ha)⟩)
    ⟨hseen, hids, htills⟩
    (fun seen s s' h hs hlater ht => ht.confined (fun k hk => h.2.1 k hk s hs hlater) fun a ha =>
      hP _ _ (Set.subset_insert s seen) _ (h.2.2 a ha)) hp
  exact hall.weaken fun _ _ h => h.1

/-- A procedure that touches one client and one wallet. -/
theorem confines_touches (hP : Grows P) {a : AdminId} (hid : Held P seen id) (ha : P seen a)
    {p : Task α} (hp : p.Keeps (Touches {id} {a})) : Confines P (fun _ _ => True) p seen :=
  confines_keeps (fun _ => True) (fun _ _ _ h => h) trivial hP {id} {a}
    (fun _ hk => (Set.mem_singleton_iff.mp hk) ▸ hid)
    (fun _ hk => (Set.mem_singleton_iff.mp hk) ▸ ha) hp

/-- A procedure that touches no books. -/
theorem confines_nothing (hP : Grows P) {p : Task α} (hp : p.Keeps (Touches ∅ ∅)) :
    Confines P (fun _ _ => True) p seen :=
  confines_keeps (fun _ => True) (fun _ _ _ h => h) trivial hP ∅ ∅
    (fun _ hk => hk.elim) (fun _ hk => hk.elim) hp

theorem confines_reads (hP : Grows P) {V : Site → Site → Prop} {p : Task α} (hp : p.Reads V) :
    Confines P (fun _ _ => True) p seen := confines_nothing hP (touches_of_reads hp)

/-- The actor may see only clients of those whom the procedure may act for, among them the actor. -/
structure Entitled (P : Set Site → AdminId → Prop) (seen : Set Site) (actor : Actor) : Prop where
  self : P seen actor.id
  scope : ∀ c, inScope actor c = true → P seen c.adminId

theorem Entitled.mono (hP : Grows P) {actor : Actor} (h : Entitled P seen actor)
    (hsub : seen ⊆ seen') : Entitled P seen' actor :=
  ⟨hP _ _ hsub _ h.self, fun c hc => hP _ _ hsub _ (h.scope c hc)⟩

/-- What a look-up has found: the client was there, after all that had been seen before. -/
def FoundBy (P : Set Site → AdminId → Prop) (before : Set Site) (id : ClientId)
    (seen : Set Site) : Prop :=
  ∃ u ∈ seen, (∀ t ∈ before, After t u) ∧ ∃ c, u.clients.get? id = some c ∧ P seen c.adminId

theorem FoundBy.mono (hP : Grows P) {before : Set Site} (hsub : seen ⊆ seen')
    (h : FoundBy P before id seen) : FoundBy P before id seen' := by
  obtain ⟨u, hu, hlater, c, hc, howner⟩ := h
  exact ⟨u, hsub hu, hlater, c, hc, hP _ _ hsub _ howner⟩

theorem getClientForActor_eq (actor : Actor) (id : ClientId) :
    getClientForActor actor id = read (fun s => s.clientOf actor id) >>= fun client =>
      (client.elim (throw (notFoundError "کلاینت پیدا نشد")) pure : Task FullClient) := by
  refine congrArg
    (fun k : Option FullClient → Task FullClient => read (fun s => s.clientOf actor id) >>= k) ?_
  funext client
  cases client with
  | none => rfl
  | some client => rfl

/-- An operation on a client in the scope of the actor, which is looked up first. -/
theorem confines_found (hP : Grows P) {actor : Actor} (hactor : Entitled P seen actor)
    {f : FullClient → Task α}
    (hp : (getClientForActor actor id >>= f).Keeps (Touches {id} {actor.id})) :
    Confines P (fun _ => FoundBy P seen id) (getClientForActor actor id >>= f) seen := by
  rw [getClientForActor_eq] at hp ⊢
  change Confines P _ (read (fun s => s.clientOf actor id) >>= fun client =>
    (client.elim (throw (notFoundError "کلاینت پیدا نشد")) pure : Task FullClient) >>= f) seen
  refine warranted_read (fun _ s => confined_refl s) fun s hs hlater => ?_
  have hsub : seen ⊆ insert s seen := Set.subset_insert s seen
  have hrest : Prog.Keeps (Touches {id} {actor.id})
      (((s.clientOf actor id).elim (throw (notFoundError "کلاینت پیدا نشد")) pure :
        Task FullClient) >>= f) := by
    cases hp with
    | act _ hk _ => exact hk s
  cases hfound : s.clientOf actor id with
  | none => exact warranted_throw trivial
  | some client =>
      rw [hfound] at hrest
      obtain ⟨c, hc, -⟩ := Option.map_eq_some_iff.mp hfound
      obtain ⟨hc, hscope⟩ := Option.filter_eq_some_iff.mp hc
      have howner : P (insert s seen) c.adminId := (hactor.mono hP hsub).scope c hscope
      refine confines_keeps _ (fun _ _ h => FoundBy.mono hP h) ⟨s, Set.mem_insert s seen, hlater, c,
        hc, howner⟩ hP {id} {actor.id} (fun k hk => ?_) (fun a ha => ?_) hrest
      · rw [Set.mem_singleton_iff.mp hk]
        exact .of_seen hP (Set.mem_insert s seen) hc howner
      · rw [Set.mem_singleton_iff.mp ha]
        exact (hactor.mono hP hsub).self

/-! ## Operations -/

theorem updateClient_confines (hP : Grows P) {actor : Operator}
    (hactor : Entitled P seen actor.actor) (id : ClientId) (input : UpdateClientInput)
    (cause : Option OrderId) :
    Confines P (fun _ _ => True) (updateClient actor id input cause) seen :=
  (confines_found hP hactor (updateClient_touches actor id input cause)).weaken fun _ _ _ => trivial

theorem resetClientTraffic_confines (hP : Grows P) {actor : Actor} (hactor : Entitled P seen actor)
    (id : ClientId) : Confines P (fun _ _ => True) (resetClientTraffic actor id) seen :=
  (confines_found hP hactor (resetClientTraffic_touches actor id)).weaken fun _ _ _ => trivial

theorem deleteClient_confines (hP : Grows P) {actor : Operator}
    (hactor : Entitled P seen actor.actor) (id : ClientId) :
    Confines P (fun _ => FoundBy P seen id) (deleteClient actor id) seen :=
  confines_found hP hactor (deleteClient_touches actor id)

theorem setAutoRenew_confines (hP : Grows P) {actor : Operator}
    (hactor : Entitled P seen actor.actor) (id : ClientId) (input : AutoRenewInput) :
    Confines P (fun _ _ => True) (setAutoRenew actor id input) seen :=
  (confines_found hP hactor (setAutoRenew_touches actor id input)).weaken fun _ _ _ => trivial

/-- The client has been seen with this admin. -/
def SeenWith (id : ClientId) (a : AdminId) (seen : Set Site) : Prop :=
  ∃ t ∈ seen, ∃ c, t.clients.get? id = some c ∧ c.adminId = a

theorem quoteRefund_confines (hP : Grows P) (id : ClientId) :
    Confines P (fun quote => SeenWith id quote.adminId) (quoteRefund id) seen := by
  refine warranted_read (fun _ s => confined_refl s) fun s hs hlater => ?_
  cases hfound : s.refundSubject id with
  | none => exact warranted_throw trivial
  | some subject =>
      obtain ⟨c, hc, hrest⟩ := Option.bind_eq_some_iff.mp hfound
      obtain ⟨admin, -, heq⟩ := Option.bind_eq_some_iff.mp hrest
      obtain rfl := Option.some.inj heq
      have hread : ∀ {γ : Type} (f : Site → γ), (read f).Keeps (Touches ∅ ∅) :=
        fun f => read_touches f
      refine ((confines_keeps (SeenWith id c.adminId) ?_ ⟨s, Set.mem_insert s seen, c, hc, rfl⟩ hP
        ∅ ∅ (fun _ hk => hk.elim) (fun _ hk => hk.elim) ?_).yields
        (R := fun quote => quote.adminId = c.adminId) ?_).weaken ?_
      · rintro seen seen' hsub ⟨t, ht, hmem⟩
        exact ⟨t, hsub ht, hmem⟩
      · exact keeps_bind (hread _) fun _ => keeps_bind (hread _) fun _ =>
        keeps_bind (hread _) fun _ =>
          keeps_bind (keeps_ite (keeps_pure _) (hread _)) fun _ => keeps_bind (hread _) fun _ =>
            keeps_pure _
      · have hany : ∀ {γ : Type} (p : Task γ), p.Yields fun _ => True := yields_true
        exact yields_bind (hany _) fun _ _ => yields_bind (hany _) fun _ _ =>
          yields_bind (hany _) fun _ _ => yields_bind (hany _) fun _ _ =>
            yields_bind (hany _) fun _ _ => yields_pure rfl
      · rintro quote seen' ⟨heq, hseen⟩
        rwa [heq]

/-- The refund goes to the admin of the client, although the quote is taken before the scope is
looked at. -/
theorem deleteClientWithRefund_confines (hP : Grows P) {actor : Operator}
    (hactor : Entitled P seen actor.actor) (id : ClientId) :
    Confines P (fun _ _ => True) (deleteClientWithRefund actor id) seen := by
  refine warranted_bind (R := fun quote seen => ∀ q ∈ quote, SeenWith id q.adminId seen) ?_
    fun quote seen₁ hsub₁ hquote => ?_
  · refine warranted_attempt (F := fun _ _ =>
    True) (warranted_bind (quoteRefund_confines hP id) fun quote _ _ hq =>
      warranted_pure ?_) fun _ _ _ _ => warranted_pure fun q hq => by cases hq
    rintro q hmem
    obtain rfl := Option.some.inj hmem
    exact hq
  refine warranted_bind (deleteClient_confines hP (hactor.mono hP hsub₁) id)
    fun errors seen₂ hsub₂ hfound => ?_
  obtain ⟨u, hu, hlater, c, hc, howner⟩ := hfound
  have hself : P seen₂ actor.id := hP _ _ (hsub₁.trans hsub₂) _ hactor.self
  refine warranted_bind (R := fun _ _ => True) (warranted_attempt (F := fun _ _ => True)
    (confines_touches hP (.of_seen hP hu hc howner) hself (clearPendingStart_touches id))
      fun _ _ _ _ =>
      warranted_pure trivial) fun _ seen₃ hsub₃ _ => ?_
  cases quote with
  | none => exact warranted_pure trivial
  | some quote =>
      refine warranted_ite (fun _ => warranted_pure trivial) fun _ => ?_
      obtain ⟨t, ht, c₀, hc₀, hadmin⟩ := hquote quote rfl
      have hpaid : P seen₃ quote.adminId := by
        rw [← hadmin, ← (hlater t ht).owner hc₀ hc]
        exact hP _ _ hsub₃ _ howner
      have htill : (⟨quote.adminId, .admin⟩ : Actor).id ∈ ({quote.adminId} : Set AdminId) :=
        Set.mem_singleton _
      refine confines_keeps (fun _ => True) (fun _ _ _ h => h) trivial hP ∅ {quote.adminId}
        (fun _ hk => hk.elim) (fun a ha => (Set.mem_singleton_iff.mp ha) ▸ hpaid)
          (keeps_attempt ?_ fun _ => keeps_pure _)
      exact keeps_bind (lift_touches (chargeWallet_pays htill _ _ _ _ _)) fun _ =>
        keeps_bind (logs_touches (audit_keeps_logged _ _)) fun _ =>
          keeps_bind (logs_touches (notify_keeps_logged _)) fun _ => keeps_pure _

/-- A new client is the actor's. -/
theorem createClient_confines (hP : Grows P) {actor : Operator} (hself : P seen actor.id)
    (input : CreateClientInput) (cause : Option OrderId) :
    Confines P (fun _ _ => True) (createClient actor input cause) seen := by
  refine warranted_bind (confines_reads hP (admitClient_reads_state actor input))
    fun a seen₁ hsub₁ _ => ?_
  refine warranted_bind (R := fun created seen => ∃ u ∈ seen, ∃ c,
    u.clients.get? created.1 = some c ∧ c.adminId = actor.id) (warranted_step fun s hs hlater =>
      ⟨?_, fun created hcreated => ?_, fun _ _ => trivial⟩)
    fun created seen₂ hsub₂ hcreated => ?_
  · have hnone : s.clients.get? s.base.nextId = none := by
      by_contra hsome
      exact absurd (hs.clients _ (Option.isSome_iff_ne_none.mpr hsome)) (lt_irrefl _)
    have howner : P (insert s seen₁) actor.id :=
      hP _ _ (hsub₁.trans (Set.subset_insert s _)) _ hself
    refine ⟨⟨Nat.le_add_right _ _, fun id c' hc' => ?_, fun _ r hr => .inl ⟨r, hr, rfl⟩⟩,
      fun id c hc _ => ?_, fun id c' hc' hid => ?_, fun _ _ => ⟨fun _ h => h, rfl⟩⟩
    · change (s.clients.set s.base.nextId _).get? id = some c' at hc'
      rw [Table.get?_set] at hc'
      split at hc'
      · next heq => exact .inr ⟨heq.ge, heq.trans_lt (Nat.lt_add_of_pos_right (by decide))⟩
      · exact .inl ⟨c', hc', rfl⟩
    · have hne : id ≠ s.base.nextId := by
        rintro rfl
        rw [hnone] at hc
        cases hc
      exact ⟨Table.get?_set_of_ne _ _ hne, fun _ _ => rfl, rfl, rfl, rfl⟩
    · change (s.clients.set s.base.nextId _).get? id = some c' at hc'
      rw [Table.get?_set] at hc'
      split at hc'
      · obtain rfl := Option.some.inj hc'
        exact howner
      · rw [hid] at hc'
        cases hc'
  · obtain rfl := Except.ok.inj hcreated
    exact ⟨_, Set.mem_insert _ _, _, Table.get?_set_self _ _ _, rfl⟩
  · obtain ⟨u, hu, c, hc, hadmin⟩ := hcreated
    have howner : P seen₂ actor.id := hP _ _ (hsub₁.trans hsub₂) _ hself
    refine confines_touches hP (.of_seen hP hu hc (hadmin ▸ howner)) howner ?_
    exact keeps_bind (armPendingStart_touches _ _) fun _ =>
      keeps_bind (chargeFor_touches (Set.mem_singleton _) _ _) fun _ =>
        keeps_bind (provisioned_touches (provisionGroups_provisioned _ _ _ _ _)) fun _ =>
          keeps_bind (logs_touches (audit_keeps_logged _ _)) fun _ =>
            keeps_bind (touches_of_reads (getClientForActor_reads _ _)) fun _ => keeps_pure _

/-! ## Requests of admins -/

theorem bulkOne_confines (hP : Grows P) {actor : Operator} (hactor : Entitled P seen actor.actor)
    (input : ClientBulkInput) (id : ClientId) :
    Confines P (fun _ _ => True) (bulkOne actor input id) seen := by
  unfold bulkOne
  cases input.action with
  | enable => exact warranted_bind (updateClient_confines hP hactor _ _ _) fun _ _ _ _ =>
    warranted_pure trivial
  | disable => exact warranted_bind (updateClient_confines hP hactor _ _ _) fun _ _ _ _ =>
    warranted_pure trivial
  | addDays => exact warranted_bind (updateClient_confines hP hactor _ _ _) fun _ _ _ _ =>
    warranted_pure trivial
  | addGb =>
      refine warranted_bind (confines_reads hP (getClientForActor_reads _ _))
        fun client _ hsub₁ _ =>
        warranted_ite (fun _ => warranted_pure trivial) fun _ =>
          warranted_bind (confines_reads hP (assertClientKind_reads _ _ _ _ _)) fun _ _ hsub₂ _ =>
            ?_
      exact warranted_bind (updateClient_confines hP (hactor.mono hP (hsub₁.trans hsub₂)) _ _ _)
        fun _ _ _ _ =>
        warranted_pure trivial
  | resetTraffic =>
      exact warranted_bind (resetClientTraffic_confines hP hactor _) fun _ _ _ _ =>
        warranted_pure trivial
  | repush =>
      refine (confines_found hP hactor (found_touches fun client h => ?_)).weaken fun _ _ _ =>
        trivial
      exact keeps_bind (pushClient_touches h) fun _ => keeps_pure _
  | delete => exact warranted_bind (deleteClientWithRefund_confines hP hactor _) fun _ _ _ _ =>
    warranted_pure trivial

theorem bulkAll_confines (hP : Grows P) {actor : Operator} (hactor : Entitled P seen actor.actor)
    (input : ClientBulkInput) (targets : List (ClientId × Client)) (r : ClientBulkResult) :
    Confines P (fun _ _ => True) (bulkAll actor input targets r) seen := by
  induction targets generalizing seen r with
  | nil => exact warranted_pure trivial
  | cons target rest ih =>
      refine warranted_bind (R := fun _ _ => True) (warranted_attempt (F := fun _ _ => True)
        (warranted_bind (bulkOne_confines hP hactor input target.1) fun _ _ _ _ =>
          warranted_pure trivial)
        fun _ _ _ _ => warranted_pure trivial) fun r' _ hsub _ => ih (hactor.mono hP hsub) r'

theorem runClientBulk_confines (hP : Grows P) {actor : Operator}
    (hactor : Entitled P seen actor.actor) (input : ClientBulkInput) :
    Confines P (fun _ _ => True) (runClientBulk actor input) seen := by
  have hresolve : (resolveBulkClients actor input).Keeps (Touches ∅ ∅) := by
    refine keeps_ite (read_touches _) ?_
    cases input.filter with
    | none => exact keeps_pure _
    | some filter => exact read_touches _
  refine warranted_bind (confines_nothing hP hresolve) fun targets _ hsub _ => ?_
  refine warranted_ite (fun _ => warranted_pure trivial) fun _ =>
    warranted_ite (fun _ => warranted_pure trivial) fun _ =>
      warranted_bind (bulkAll_confines hP (hactor.mono hP hsub) _ _ _) fun r _ _ _ => ?_
  exact confines_nothing hP (keeps_bind (logs_touches (audit_keeps_logged _ _)) fun _ =>
    keeps_pure _)

theorem serveAdmin_confines (hP : Grows P) {actor : Operator} (hactor : Entitled P seen actor.actor)
    (r : ClientRequest) : Confines P (fun _ _ => True) (serveAdmin actor r) seen := by
  cases r with
  | create input => exact warranted_void (createClient_confines hP hactor.self input none)
  | update id input => exact warranted_void (updateClient_confines hP hactor id input none)
  | resetTraffic id => exact warranted_void (resetClientTraffic_confines hP hactor id)
  | delete id => exact warranted_void ((deleteClient_confines hP hactor id).weaken fun _ _ _ =>
    trivial)
  | deleteWithRefund id => exact warranted_void (deleteClientWithRefund_confines hP hactor id)
  | bulk input => exact warranted_void (runClientBulk_confines hP hactor input)
  | setAutoRenew id input => exact warranted_void (setAutoRenew_confines hP hactor id input)

/-! ## The scheduler -/

theorem runRules_confines (hP : Grows P) (t : ℤ) {rows : List (ClientId × AutoRenewRule)}
    (hrows : ∀ row ∈ rows, Held P seen row.1) :
    Confines P (fun _ _ => True) (runRules t rows) seen := by
  induction rows generalizing seen with
  | nil => exact warranted_pure trivial
  | cons row rows ih =>
      refine warranted_bind (R := fun _ _ => True) ?_ fun tick _ hsub _ =>
        warranted_bind (ih fun row' hmem =>
          (hrows row' (List.mem_cons_of_mem row hmem)).mono hP hsub) fun _ _ _ _ =>
          warranted_pure trivial
      exact confines_keeps (fun _ => True) (fun _ _ _ h => h) trivial hP {row.1} ∅
        (fun _ hk => (Set.mem_singleton_iff.mp hk) ▸ hrows row List.mem_cons_self)
          (fun _ hk => hk.elim)
        (runRule_touches t row.1 row.2)

/-! ## Orders -/

/-- A step that leaves all books alone, where ids are given once. -/
def Stills (s s' : Site) : Prop := s.Numbered → Confined (fun _ => False) s s'

theorem stills_of_touches {p : Task α} (hp : p.Keeps (Touches ∅ ∅)) : p.Keeps Stills :=
  hp.mono fun _ _ h _ => h.confined (fun _ hk => hk.elim) fun _ hk => hk.elim

theorem confines_stills {p : Task α} (hp : p.Keeps Stills) : Confines P (fun _ _ => True) p seen :=
  warranted_keeps (fun _ _ _ h => h) trivial (fun _ _ _ _ hs _ h => (h hs).mono fun _ =>
    False.elim) hp

theorem createAccount_stills (account : Account) (cause : OrderId) :
    (createAccount account cause).Keeps Stills := by
  refine keeps_step fun s hs => ?_
  have hfresh : ∀ a, (s.base.admins.get? a).isSome → a ≠ s.base.nextId :=
    fun a ha => (hs.admins a ha).ne
  split
  · exact confined_refl s
  · refine ⟨⟨Nat.le_succ _, fun id c hc => .inl ⟨c, hc, rfl⟩, fun a r' hr' => ?_⟩,
      fun id _ _ _ => ?_, fun id c hc hnone => ?_, fun a _ => ⟨fun r hr => ?_, rfl⟩⟩
    · change (s.base.admins.set s.base.nextId _).get? a = some r' at hr'
      rw [Table.get?_set] at hr'
      split at hr'
      · next heq => exact .inr ⟨heq.ge, heq.trans_lt (Nat.lt_succ_self _)⟩
      · exact .inl ⟨r', hr', rfl⟩
    · exact ⟨rfl, fun _ _ => rfl, rfl, rfl, rfl⟩
    · rw [show s.clients.get? id = some c from hc] at hnone
      cases hnone
    · exact (Table.get?_set_of_ne _ _ (hfresh a (by rw [hr]; rfl))).trans hr

/-- The end of an order touches no client and no till. -/
theorem closeOrder_touches (id : OrderId) (f : Order → Order) (g : OrderInfo → OrderInfo) :
    (closeOrder id f g).Keeps (Touches ∅ ∅) := by
  refine keeps_step fun s => ?_
  cases s.base.orders.get? id with
  | none => exact .refl s
  | some o => exact .of_books rfl le_rfl

/-- Nor does its failure. -/
theorem failOrder_touches (id : OrderId) (err : AppError) :
    (failOrder id err).Keeps (Touches ∅ ∅) :=
  keeps_bind (closeOrder_touches _ _ _) fun _ =>
    keeps_bind (logs_touches (notify_keeps_logged _)) fun _ =>
    keeps_pure _

/-- Nor does the count of a sale. -/
theorem countSale_touches (planId : Option PlanId) : (countSale planId).Keeps (Touches ∅ ∅) := by
  cases planId with
  | none => exact keeps_pure _
  | some id => exact keeps_attempt (keeps_modify fun _ =>
    .of_books rfl le_rfl) fun _ => keeps_pure _

theorem provisionPanelOrder_stills (f : FoundOrder) (link : PanelPlanLink) :
    (provisionPanelOrder f link).Keeps Stills := by
  have hread : ∀ {γ : Type} (g : Site → γ), (read g).Keeps Stills :=
    fun g => stills_of_touches (read_touches g)
  have hlog : ∀ {p : Service Unit}, p.Keeps Logged → (lift p).Keeps Stills := fun hp =>
    stills_of_touches (logs_touches hp)
  have hwrite : ∀ {g : Site → Site}, (∀ s, (g s).books = s.books ∧ (g s).base = s.base) →
      (write g).Keeps Stills := fun hg =>
    stills_of_touches (keeps_modify fun s => .of_books (hg s).1 (by rw [(hg s).2]))
  refine keeps_attempt (keeps_bind (keeps_bind (hread _) fun _ => keeps_ite (keeps_throw _)
    (keeps_pure _)) fun _ => keeps_bind (hread _) fun now => keeps_bind ?_ fun granted => ?_)
    fun err => stills_of_touches (failOrder_touches _ _)
  · refine grantPanel_keeps (fun s _ => confined_refl s) (stills_of_touches (keeps_step fun s =>
      .of_books rfl (Nat.le_succ _))) f (fun account => createAccount_stills account f.id)
      (fun seen figures g => ?_) _ _ _ _
    refine stills_of_touches (keeps_step fun s => ?_)
    cases s.operator seen.id with
    | none => exact .refl s
    | some o => exact .of_books rfl le_rfl
  · refine keeps_bind (keeps_bind (hread _) fun _ => hwrite fun _ => ⟨rfl, rfl⟩) fun _ =>
      keeps_bind (hread _) fun reached => keeps_bind (keeps_ite (keeps_bind (hread _) fun _ =>
        hwrite fun _ => ⟨rfl, rfl⟩) (keeps_pure _)) fun _ => ?_
    exact keeps_bind (stills_of_touches (closeOrder_touches _ _ _)) fun done =>
      keeps_bind (stills_of_touches (countSale_touches _)) fun _ =>
        keeps_bind (hlog (audit_keeps_logged _ _)) fun _ =>
          keeps_bind (hlog (emitEvent_keeps_logged _ _)) fun _ =>
            keeps_bind (hlog (notify_keeps_logged _)) fun _ => keeps_pure _

theorem announce_touches (f : FoundOrder) (warnings : List String) :
    (announce f warnings).Keeps (Touches ∅ ∅) :=
  keeps_bind (countSale_touches _) fun _ =>
    keeps_bind (logs_touches (audit_keeps_logged _ _)) fun _ =>
    keeps_bind (logs_touches (emitEvent_keeps_logged _ _)) fun _ =>
      keeps_bind (logs_touches (notify_keeps_logged _)) fun _ =>
        keeps_ite (keeps_pure _) (logs_touches (notify_keeps_logged _))

/-- The client of an order is one of the seller's, even where the seller owns the panel and sees
them all. -/
theorem orderConfig_confines (hP : Grows P) {f : FoundOrder} (hself : P seen f.seller.id) :
    Confines P (fun _ _ => True) (orderConfig f) seen := by
  unfold orderConfig
  cases f.info.renewClientId with
  | some id =>
      refine warranted_read (fun _ s => confined_refl s) fun s hs hlater => ?_
      have hself' : P (insert s seen) f.seller.id := hP _ _ (Set.subset_insert s seen) _ hself
      cases hfound : s.renewable f.seller.id id with
      | none => exact warranted_throw trivial
      | some links =>
          obtain ⟨c, hc, -⟩ := Option.map_eq_some_iff.mp hfound
          obtain ⟨hc, hseller⟩ := Option.filter_eq_some_iff.mp hc
          have howner : P (insert s seen) c.adminId := (of_decide_eq_true hseller) ▸ hself'
          refine confines_touches hP (.of_seen hP (Set.mem_insert s seen) hc howner) hself' ?_
          exact keeps_bind (resetClientTraffic_touches _ _) fun _ =>
            keeps_bind (updateClient_touches _ _ _ _) fun _ => keeps_pure _
  | none =>
      refine warranted_bind (confines_reads hP (resolveOrderTargets_reads _ _ _))
        fun found _ hsub₁ _ => ?_
      have hname : randomConfigName.Keeps (Touches ∅ ∅) := keeps_bind (keeps_step fun _ =>
        .of_books rfl (Nat.le_succ _)) fun _ => read_touches _
      refine warranted_bind (confines_nothing hP hname) fun name _ hsub₂ _ => ?_
      exact warranted_bind (createClient_confines hP (hP _ _ (hsub₁.trans hsub₂) _ hself) _ _)
        fun _ _ _ _ =>
        warranted_pure trivial

theorem deliver_confines (hP : Grows P) {f : FoundOrder} (hself : P seen f.seller.id) :
    Confines P (fun _ _ => True) (deliver f) seen := by
  have hlink : (panelPlanFor f.info.planId).Keeps (Touches ∅ ∅) := by
    unfold panelPlanFor
    cases f.info.planId with
    | none => exact keeps_pure _
    | some _ => exact read_touches _
  refine warranted_bind (confines_nothing hP hlink) fun link _ hsub _ => ?_
  cases link with
  | some link => exact confines_stills (provisionPanelOrder_stills f link)
  | none =>
      refine warranted_attempt (F := fun _ _ =>
        True) (warranted_bind (orderConfig_confines hP (hP _ _ hsub _ hself)) fun config _ _ _ =>
          confines_nothing hP ?_) fun err _ _ _ => confines_nothing hP (failOrder_touches _ _)
      exact keeps_bind (read_touches _) fun t => keeps_bind (closeOrder_touches _ _ _) fun done =>
        keeps_bind (announce_touches _ _) fun _ => keeps_pure _

end

end Site

/-! ## Requests -/

/-- What the admin of a session may ask for: a deal, or a change to a client that is none. -/
inductive SellerRequest
  | deal (r : ClientRequest)
  | setTargets (id : ClientId) (targets : List Target)
  | setHwidLimit (id : ClientId) (input : ℤ)
  | clearAutoRenew (id : ClientId)

/-- A request of an admin, a tick of the scheduler, or the fulfilment of an order. -/
inductive Errand
  | seller (adminId : AdminId) (r : SellerRequest)
  | autoRenew (limit : ℕ)
  | fulfill (orderId : OrderId)

/-- Whom an errand may act for, by the states that its run has passed: the admin of the session, or
all once this admin has been seen to own the panel; those whose clients have had rules; the seller
of the order. -/
def Errand.tenants (past : Set Site) : Errand → AdminId → Prop
  | seller adminId _, b =>
      b = adminId ∨ ∃ u ∈ past, ∃ r, u.base.admins.get? adminId = some r ∧ r.role = .owner
  | autoRenew _, b => ∃ id, (∃ u ∈ past, (u.autoRenews.get? id).isSome) ∧ Site.SeenWith id b past
  | fulfill orderId, b => ∃ u ∈ past, ∃ o, u.base.orders.get? orderId = some o ∧ o.adminId = b

namespace Site

/-- A request, once the admin of the session is known. -/
def serveSeller (actor : Operator) : SellerRequest → Task Unit
  | .deal r => serveAdmin actor r
  | .setTargets id targets => (setClientTargets actor id targets).void
  | .setHwidLimit id input => (setClientHwidLimit actor id input).void
  | .clearAutoRenew id => clearAutoRenew actor id

/-- An errand is run; `requireAdmin` looks the admin up. -/
def runErrand : Errand → Task Unit
  | .seller adminId r => do
      let actor ← read fun s => s.operator adminId
      match actor with
      | none => throw (unauthorizedError "ورود لازم است")
      | some actor => serveSeller actor r
  | .autoRenew limit => (runAutoRenew limit).void
  | .fulfill orderId => (fulfillOrder orderId).void

theorem SeenWith.mono {id : ClientId} {a : AdminId} {seen seen' : Set Site} (hsub : seen ⊆ seen')
    (h : SeenWith id a seen) : SeenWith id a seen' := by
  obtain ⟨t, ht, hrest⟩ := h
  exact ⟨t, hsub ht, hrest⟩

theorem tenants_grows (r : Errand) : Grows fun seen => r.tenants seen := by
  intro seen seen' hsub b hb
  cases r with
  | seller adminId r => exact hb.imp_right fun ⟨u, hu, hrest⟩ => ⟨u, hsub hu, hrest⟩
  | autoRenew limit =>
      obtain ⟨id, ⟨u, hu, hrule⟩, hseen⟩ := hb
      exact ⟨id, ⟨u, hsub hu, hrule⟩, hseen.mono hsub⟩
  | fulfill orderId =>
      obtain ⟨u, hu, hrest⟩ := hb
      exact ⟨u, hsub hu, hrest⟩

theorem operator_admin {s : Site} {adminId : AdminId} {actor : Operator}
    (h : s.operator adminId = some actor) :
    actor.id = adminId ∧ ∃ r, s.base.admins.get? adminId = some r ∧ r.role = actor.role := by
  obtain ⟨r, hr, hrest⟩ := Option.bind_eq_some_iff.mp h
  obtain ⟨account, -, heq⟩ := Option.bind_eq_some_iff.mp hrest
  obtain rfl := Option.some.inj heq
  exact ⟨rfl, r, hr, rfl⟩

/-- The admin of a session sees the clients of those whom the request may act for. -/
theorem entitled_admin {s : Site} {seen : Set Site} (hs : s ∈ seen) {adminId : AdminId}
    {actor : Operator} (h : s.operator adminId = some actor) (r : SellerRequest) :
    Entitled (fun seen => (Errand.seller adminId r).tenants seen) seen actor.actor := by
  obtain ⟨hid, row, hrow, hrole⟩ := operator_admin h
  refine ⟨.inl hid, fun c hc => ?_⟩
  rcases Bool.or_eq_true_iff.mp hc with howner | hself
  · exact .inr ⟨s, hs, row, hrow, hrole.trans (of_decide_eq_true howner)⟩
  · exact .inl ((of_decide_eq_true hself).trans hid)

theorem serveSeller_confines {P : Set Site → AdminId → Prop} {seen : Set Site} (hP : Grows P)
    {actor : Operator} (hactor : Entitled P seen actor.actor) (r : SellerRequest) :
    Confines P (fun _ _ => True) (serveSeller actor r) seen := by
  cases r with
  | deal r => exact serveAdmin_confines hP hactor r
  | setTargets id targets =>
      exact warranted_void ((confines_found hP hactor
        (setClientTargets_touches actor id targets)).weaken fun _ _ _ => trivial)
  | setHwidLimit id input =>
      exact warranted_void ((confines_found hP hactor
        (setClientHwidLimit_touches actor id input)).weaken fun _ _ _ => trivial)
  | clearAutoRenew id =>
      exact (confines_found hP hactor (clearAutoRenew_touches actor id)).weaken fun _ _ _ => trivial

theorem runErrand_confines (r : Errand) :
    Confines (fun seen => r.tenants seen) (fun _ _ => True) (runErrand r) ∅ := by
  have hP := tenants_grows r
  cases r with
  | seller adminId r =>
      refine warranted_read (fun _ s => confined_refl s) fun s hs hlater => ?_
      cases hactor : s.operator adminId with
      | none => exact warranted_throw trivial
      | some actor => exact serveSeller_confines hP (entitled_admin (Set.mem_insert s _) hactor r) r
  | autoRenew limit =>
      refine warranted_void (warranted_read (fun _ s => confined_refl s) fun s hs hlater => ?_)
      refine warranted_bind (confines_nothing hP (read_touches _)) fun t seen hsub _ => ?_
      refine runRules_confines hP t fun row hmem s' hs' hlater' c hc => ?_
      have hrule : s.autoRenews.get? row.1 = some row.2 :=
        (Table.mem_rows_iff _ _ _).mp (List.mem_of_mem_take hmem)
      refine ⟨row.1, ⟨s, Set.mem_insert_of_mem s' (hsub (Set.mem_insert s _)), by rw [hrule]; rfl⟩,
        s', Set.mem_insert s' _, c, hc, rfl⟩
  | fulfill orderId =>
      refine warranted_void (warranted_bind (R := fun found seen => ∀ f ∈ found,
        (Errand.fulfill orderId).tenants seen f.seller.id) (warranted_step fun s hs hlater =>
          ⟨?_, fun found hfound f hf => ?_, fun _ _ => trivial⟩) fun found seen _ hseller => ?_)
      · exact confined_of_books rfl le_rfl
      · obtain rfl := Except.ok.inj hfound
        obtain ⟨o, ho, hrest⟩ := Option.bind_eq_some_iff.mp hf
        obtain ⟨info, -, hrest⟩ := Option.bind_eq_some_iff.mp hrest
        obtain ⟨seller, hseller, heq⟩ := Option.bind_eq_some_iff.mp hrest
        obtain rfl := Option.some.inj heq
        exact ⟨s, Set.mem_insert_of_mem _ (Set.mem_insert s _), o, ho,
          (operator_admin hseller).1.symm⟩
      · cases found with
        | none => exact warranted_throw trivial
        | some f =>
            exact warranted_ite (fun _ => warranted_pure trivial) fun _ =>
              warranted_ite (fun _ => warranted_throw trivial) fun _ =>
                deliver_confines hP (hseller f rfl)

/-- Nothing of what belongs to an admin changes: its clients, their books and its wallet, and it
gets no new ones. -/
structure Spares (b : AdminId) (s s' : Site) : Prop where
  clients : ∀ id c, s.clients.get? id = some c → c.adminId = b → SparesClient id s s'
  born : ∀ id c', s'.clients.get? id = some c' → c'.adminId = b → (s.clients.get? id).isSome
  wallet : SparesWallet b s s'

theorem Confined.spares {P : AdminId → Prop} {s s' : Site} (h : Confined P s s') {b : AdminId}
    (hb : ¬P b) : Spares b s s' where
  clients id c hc hadmin := h.clients id c hc (hadmin ▸ hb)
  born id c' hc' hadmin := by
    by_contra hnone
    exact hb (hadmin ▸ h.born id c' hc' (Option.not_isSome_iff_eq_none.mp hnone))
  wallet := h.wallets b hb

section

variable {env : Site → Site → Prop} {ok : Mark → Site → Prop} {rs : List Errand} {s : Site}
variable {c c' : Pool Mark Site AppError}

theorem errands_after (henv : ∀ s t, s.Numbered → env s t → Tenure s t) (hs : s.Numbered)
    (h : Pool.Run env ok ⟨s, rs.map runErrand⟩ c) (h' : Pool.Run env ok c c') :
    After c.store c'.store := by
  refine (Pool.secured (G := After) (W := fun _ _ => Tenure) (Q := fun _ _ _ =>
    True) hs (fun s hs => ⟨hs, .refl s⟩) After.trans (fun s t hs he => ?_)
      (fun i p hp => ?_) (fun i seen s t hs ht => ?_) h h').2
  · exact ⟨hs.tenure (henv s t hs he), hs, henv s t hs he⟩
  · rw [List.getElem?_map] at hp
    obtain ⟨r, -, rfl⟩ := Option.map_eq_some_iff.mp hp
    exact (runErrand_confines r).wider fun _ _ _ h => h.tenure
  · exact ⟨hs.tenure ht, hs, ht⟩

/-- No step of an errand touches what belongs to one whom it may not act for, whatever other errands
and other code do between its steps. -/
theorem tenants_apart (henv : ∀ s t, s.Numbered → env s t → Tenure s t) (hs : s.Numbered)
    (h : Pool.Run env ok ⟨s, rs.map runErrand⟩ c) {i : ℕ} {r : Errand} (hr : rs[i]? = some r)
    {u : Site → Site}
    (hu : c.Acts i u) {b : AdminId} (hb : ¬r.tenants (Pool.Past env ok ⟨s, rs.map runErrand⟩ c) b) :
    Spares b c.store (u c.store) := by
  have hconfined := Pool.warranted (I := Numbered) (G := After) (W := fun seen =>
    Confined (r.tenants seen)) (Q := fun _ _ => True)
    (fun d d' hd hdd' => ⟨(errands_after henv hs hd hdd').numbered, errands_after henv hs hd hdd'⟩)
    (fun seen seen' _ _ hsub hc => hc.mono fun a => tenants_grows r seen seen' hsub a)
    (fun p hp => ?_) h hu
  · exact hconfined.spares hb
  · rw [List.getElem?_map, hr] at hp
    obtain rfl := Option.some.inj hp
    exact runErrand_confines r

end

/-- The account of a seller. -/
def sellerAccount : Account := ⟨"r", 0, none, true, none, none, none, none, none, none, none, []⟩

/-- A client of a seller. -/
def sellerClient (adminId : AdminId) : Client :=
  ⟨adminId, "a", none, none, 8, 9, 0, 0, 0, none, 0, .active, none, none, none, none⟩

/-- Two sellers with a client each. -/
def sharedSite : Site :=
  { Site.blank with
    base := { World.blank with admins := (Table.empty.set 2 ⟨.admin, 0, 0⟩).set 3 ⟨.admin, 0, 0⟩ }
    accounts := (Table.empty.set 2 sellerAccount).set 3 sellerAccount
    clients := (Table.empty.set 8 (sellerClient 2)).set 9 (sellerClient 3) }

theorem sharedSite_numbered : sharedSite.Numbered where
  clients id hid := by
    change (((Table.empty.set 8 (sellerClient 2)).set 9 (sellerClient 3)).get? id).isSome at hid
    simp only [Table.get?_set, Table.get?_empty] at hid
    split at hid
    · subst id; decide
    · split at hid
      · subst id; decide
      · cases hid
  admins a ha := by
    change (((Table.empty.set 2 (⟨.admin, 0, 0⟩ : Admin)).set 3 ⟨.admin, 0, 0⟩).get? a).isSome at ha
    simp only [Table.get?_set, Table.get?_empty] at ha
    split at ha
    · subst a; decide
    · split at ha
      · subst a; decide
      · cases ha

/-- A seller asks to move the other's client and to delete an own one, and is about to delete the
row. -/
def sharedPool : Pool Mark Site AppError := Pool.schedule [0, 0, 1, 1, 1]
  ⟨sharedSite, ([.seller 2 (.setTargets 9 []), .seller 2 (.deal (.delete 8))] :
    List Errand).map runErrand⟩

theorem tenants_apart_delete :
    ∃ u, sharedPool.Acts 1 u ∧ ((u sharedPool.store).clients.get? 8).isNone ∧
    Spares 3 sharedPool.store (u sharedPool.store) := by
  have hrun : Pool.Run (fun _ _ => False) (fun _ _ => True)
      ⟨sharedSite, ([.seller 2 (.setTargets 9 []), .seller 2 (.deal (.delete 8))] :
        List Errand).map runErrand⟩ sharedPool :=
    Pool.schedule_run_free _ _ _
  have henv : ∀ s t : Site, s.Numbered → False → Tenure s t := fun _ _ _ h => h.elim
  obtain ⟨u, hu, hgone⟩ : ∃ u, sharedPool.Acts 1 u ∧ ((u sharedPool.store).clients.get? 8).isNone :=
    ⟨_, ⟨_, _, _, rfl⟩, by decide +kernel⟩
  refine ⟨u, hu, hgone, tenants_apart henv sharedSite_numbered hrun
    (r := .seller 2 (.deal (.delete 8))) rfl hu ?_⟩
  rintro (hself | ⟨v, ⟨d, hd, hdc, rfl⟩, row, hrow, hrole⟩)
  · cases hself
  · have hlater := errands_after henv sharedSite_numbered .refl hd
    have hstart : sharedSite.base.admins.get? 2 = some ⟨.admin, 0, 0⟩ := by decide +kernel
    rw [hlater.role hstart hrow] at hrole
    cases hrole

end Site

end SRPanel
