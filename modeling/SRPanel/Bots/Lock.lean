import SRPanel.Clients.Requests
import SRPanel.Model.ResellerBots

/-!
# The lock on sales bots

The owner's lock and the mark that the activation fee has been paid are columns of the bot's row,
which the reseller may delete. As long as no row with one of them is deleted, a blocked bot stays
stopped and the fee is charged once.
-/

namespace SRPanel

open Interleaving Prog

namespace BotDesk

/-- A request, once the admin of the session is known. -/
def serveBots (actor : Operator) : BotRequest → BotTask Unit
  | .config input => saveResellerBotsConfig actor input
  | .set token => setResellerBot actor token
  | .enable enabled => setResellerBotEnabled actor enabled
  | .delete adminId => deleteResellerBot actor adminId
  | .block adminId blocked => setResellerBotBlocked actor adminId blocked

/-- A request of an admin; `requireAdmin` looks the admin up. -/
def serve (c : AdminId × BotRequest) : BotTask Unit := do
  let actor ← .query .other fun d => d.site.operator c.1
  match actor with
  | none => throw (unauthorizedError "ورود لازم است")
  | some actor => serveBots actor c.2

/-- How often an admin has been charged the activation fee. -/
def feesPaid (d : BotDesk) (a : AdminId) : ℕ :=
  (d.site.base.walletTxs.filter fun t => t.holder = a ∧ t.kind = .purchase ∧
    t.ref = botFeeRef a).length

def roleOf (d : BotDesk) (a : AdminId) : Option AdminRole :=
  (d.site.base.admins.get? a).map Admin.role

/-- The owner has locked the bot. -/
def Blocked (d : BotDesk) (a : AdminId) : Prop := ∃ b ∈ d.book.bots.get? a, b.blocked

/-! ## What one request does -/

/-- The ledger has the same fees, and every admin has the same role. -/
structure SameFees (d d' : BotDesk) : Prop where
  fees : ∀ a, d'.feesPaid a = d.feesPaid a
  roles : ∀ a, d'.roleOf a = d.roleOf a

/-- What a request may do to the bots and to the ledger. -/
inductive Effect (actor : Operator) (d d' : BotDesk) : BotRequest → Prop
  | quiet (r : BotRequest) : d'.book.bots = d.book.bots → SameFees d d' → Effect actor d d' r
  | registered (token clean : String) (username : Option String) (fee : ℕ) (now : ℤ) :
      (actor.role ≠ .owner → ¬d.Blocked actor.id) →
      fee = activationFee actor d.book (d.book.bots.get? actor.id) →
      d'.book.bots = d.book.bots.set actor.id
        (registered (d.book.bots.get? actor.id) clean username fee now) →
      (∀ a, d'.feesPaid a = d.feesPaid a + if a = actor.id ∧ 0 < fee then 1 else 0) →
      (∀ a, d'.roleOf a = d.roleOf a) → Effect actor d d' (.set token)
  | paused (enabled : Bool) (b : ResellerBot) : d.book.bots.get? actor.id = some b →
      d'.book.bots = d.book.bots.set actor.id { b with enabled := enabled } → SameFees d d' →
      Effect actor d d' (.enable enabled)
  | deleted (adminId : Option AdminId) :
      (deleteTarget actor adminId = actor.id ∨ actor.role = .owner) →
      d'.book.bots = d.book.bots.erase (deleteTarget actor adminId) → SameFees d d' →
      Effect actor d d' (.delete adminId)
  | locked (adminId : AdminId) (blocked : Bool) (b : ResellerBot) : actor.role = .owner →
      d.book.bots.get? adminId = some b →
      d'.book.bots = d.book.bots.set adminId
        { b with blocked := blocked, enabled := if blocked then false else b.enabled } →
          SameFees d d' →
      Effect actor d d' (.block adminId blocked)

theorem SameFees.refl (d : BotDesk) : SameFees d d := ⟨fun _ => rfl, fun _ => rfl⟩

/-- A site with the same ledger and the same roles. -/
theorem SameFees.of_world {d d' : BotDesk} (htxs : d'.site.base.walletTxs = d.site.base.walletTxs)
    (hadmins : d'.site.base.admins = d.site.base.admins) : SameFees d d' where
  fees a := by rw [feesPaid, htxs, feesPaid]
  roles a := by rw [roleOf, hadmins, roleOf]

/-- The audit row of an operation changes nothing else. -/
theorem note_wp (actor : Operator) (action : String) (d : BotDesk) :
    Prog.wp (note actor action) (fun _ d' => d'.book = d.book ∧ SameFees d d')
      (fun _ _ => False) d := by
  unfold note onSite Site.lift
  rw [wp_zoom, wp_zoom]
  have hframe := (audit_keeps_logged (some actor.id) action).wp Logged.refl
    (fun _ _ _ h h' => h'.trans h) d.site.base
  have hreturns := (audit_returns (some actor.id) action).wp d.site.base
  refine wp_mono _ (wp_and hframe hreturns) (fun _ w h => ⟨rfl, ?_⟩) fun _ _ h => h.2
  exact .of_world (h.1.same World.walletTxs fun _ => rfl) (h.1.same World.admins fun _ => rfl)

/-- A purchase that the wallet covers is one more row in the ledger. -/
theorem chargeWallet_wp (target : Actor) (cost : ℕ) (ref : TxRef) (w : World) (hcost : 0 < cost)
    (hrole : target.role ≠ .owner) :
    Prog.wp (chargeWallet target (-(cost : ℤ)) .purchase ref none false)
      (fun _ w' => ∃ after, w'.walletTxs = ⟨target.id, .purchase, -cost, after, ref, none⟩ ::
        w.walletTxs ∧ ∀ a, (w'.admins.get? a).map Admin.role = (w.admins.get? a).map Admin.role)
      (fun _ w' => w' = w) w := by
  unfold chargeWallet
  rw [if_neg (by simp [hrole]), if_neg (by omega)]
  simp only [wp_bind, debitLimit, Db.read]
  rw [if_pos (by simp; omega)]
  simp only [wp_query]
  split
  · rw [wp_throw]
  · next a ha =>
    split
    · rw [wp_throw]
    · simp only [wp_bind, commitCharge, wp_step]
      rw [ha]
      dsimp only
      have hframe := (alertAfter_keeps_logged
        ⟨target.id, .purchase, -cost, a.credit + -cost, ref, none⟩).wp Logged.refl
          (fun _ _ _ h h' => h'.trans h)
      have hreturns := (alertAfter_returns ⟨target.id, .purchase, -cost, a.credit + -cost,
        ref, none⟩).wp
      refine wp_mono _ (wp_and (hframe _) (hreturns _)) (fun _ w' h => ?_) fun _ _ h => h.2.elim
      rw [wp_pure]
      refine ⟨a.credit + -cost, h.1.same World.walletTxs fun _ => rfl, fun id => ?_⟩
      have hadmins := h.1.same World.admins fun _ => rfl
      rw [hadmins]
      dsimp only
      rw [Table.get?_modify]
      split
      · next heq =>
        rw [heq, ha]
        rfl
      · rfl

/-- The ledger after a charge of the fee. -/
structure Charged (actor : Operator) (fee : ℕ) (s s' : Site) : Prop where
  fees : ∃ rows, s'.base.walletTxs = rows ++ s.base.walletTxs ∧
    rows.map (fun t => (t.holder, t.kind, t.ref)) =
      if 0 < fee then [(actor.id, WalletTxKind.purchase, botFeeRef actor.id)] else []
  roles : ∀ a, (s'.base.admins.get? a).map Admin.role = (s.base.admins.get? a).map Admin.role

/-- The fees on the ledger after a charge. -/
theorem Charged.feesPaid {actor : Operator} {fee : ℕ} {s' : Site} (d : BotDesk)
    (h : Charged actor fee d.site s') (a : AdminId) {book : ResellerBotsSettings} :
    BotDesk.feesPaid { d with site := s', book := book } a =
      d.feesPaid a + if a = actor.id ∧ 0 < fee then 1 else 0 := by
  obtain ⟨rows, htxs, hrows⟩ := h.fees
  let isFee : AdminId × WalletTxKind × TxRef → Bool :=
    fun k => k.1 = a ∧ k.2.1 = .purchase ∧ k.2.2 = botFeeRef a
  have hcount : (rows.filter fun t => isFee (t.holder, t.kind, t.ref)).length =
      ((rows.map fun t => (t.holder, t.kind, t.ref)).filter isFee).length := by
    rw [List.filter_map, List.length_map]
    rfl
  show ((s'.base.walletTxs).filter fun t => isFee (t.holder, t.kind, t.ref)).length = _
  rw [htxs, List.filter_append, List.length_append, hcount, hrows, add_comm]
  refine congrArg (d.feesPaid a + ·) ?_
  by_cases hfee : 0 < fee
  · by_cases ha : a = actor.id
    · subst ha
      simp [hfee, isFee]
    · have hne : ¬actor.id = a := fun h => ha h.symm
      simp [hfee, isFee, ha, hne]
  · simp [hfee]

/-- The fee is charged once, or the request is refused and nothing has changed. -/
theorem chargeFee_wp (actor : Operator) (fee : ℕ) (s : Site)
    (hrole : 0 < fee → actor.role ≠ .owner) :
    Prog.wp (chargeFee actor fee) (fun _ s' => Charged actor fee s s') (fun _ s' => s' = s) s := by
  unfold chargeFee
  by_cases hfee : 0 < fee
  · rw [if_pos hfee]
    have hnotOwner := hrole hfee
    unfold Site.assertAffordable
    rw [if_neg (by simp [hnotOwner]; omega)]
    simp only [Site.lift, wp_bind, wp_zoom, Db.read, wp_query, Site.walletBalance,
      Focus.put_get]
    unfold Site.refuseIf
    split
    · rw [wp_throw]
    · rw [wp_pure]
      refine wp_mono _ (chargeWallet_wp actor.actor fee (botFeeRef actor.id) s.base hfee hnotOwner)
        (fun _ w h => ?_) fun _ w h => ?_
      · rw [wp_pure]
        obtain ⟨after, htxs, hroles⟩ := h
        exact ⟨⟨[_], htxs, by rw [if_pos hfee]; rfl⟩, hroles⟩
      · rw [h]
        rfl
  · rw [if_neg hfee, wp_pure]
    exact ⟨⟨[], rfl, by rw [if_neg hfee]; rfl⟩, fun _ => rfl⟩

theorem refuseIf_wp {c : Bool} {e : AppError} {d : BotDesk} {Q : Unit → BotDesk → Prop}
    {E : AppError → BotDesk → Prop} (hok : c = false → Q () d) (hrefuse : c = true → E e d) :
    Prog.wp (refuseIf c e) Q E d := by
  unfold refuseIf
  cases c with
  | false => exact hok rfl
  | true => exact hrefuse rfl

section Requests

variable (actor : Operator) (d : BotDesk)

/-- After an operation on the book the audit row changes nothing more. -/
theorem persist_note_wp {r : BotRequest} (book : ResellerBotsSettings) (action : String)
    (h : ∀ d' : BotDesk, d'.book = book → SameFees d d' → Effect actor d d' r) :
    Prog.wp (persist book >>= fun _ => note actor action) (fun _ d' => Effect actor d d' r)
      (fun _ d' => Effect actor d d' r) d := by
  rw [wp_bind, persist, wp_modify]
  refine wp_mono _ (note_wp actor action _) (fun _ d' hnote => ?_) fun _ _ h => h.elim
  exact h d' hnote.1 ⟨hnote.2.fees, hnote.2.roles⟩

theorem saveResellerBotsConfig_wp (input : BotsConfigInput) :
    Prog.wp (saveResellerBotsConfig actor input) (fun _ d' => Effect actor d d' (.config input))
      (fun _ d' => Effect actor d d' (.config input)) d := by
  unfold saveResellerBotsConfig
  rw [wp_bind]
  refine refuseIf_wp (fun _ => ?_) fun _ => .quiet _ rfl (.refl d)
  rw [wp_bind, getResellerBots, wp_query]
  exact persist_note_wp actor d _ _ fun d' hbook hfees => .quiet _ (by rw [hbook]) hfees

theorem setResellerBotEnabled_wp (enabled : Bool) :
    Prog.wp (setResellerBotEnabled actor enabled) (fun _ d' => Effect actor d d' (.enable enabled))
      (fun _ d' => Effect actor d d' (.enable enabled)) d := by
  unfold setResellerBotEnabled
  rw [wp_bind, getResellerBots, wp_query]
  split
  · exact .quiet _ rfl (.refl d)
  · next b hb =>
    rw [wp_bind]
    refine refuseIf_wp (fun _ => ?_) fun _ => .quiet _ rfl (.refl d)
    rw [wp_bind]
    refine refuseIf_wp (fun _ => ?_) fun _ => .quiet _ rfl (.refl d)
    rw [persist, wp_modify]
    exact .paused enabled b (Option.filter_eq_some_iff.mp hb).1 rfl (.of_world rfl rfl)

theorem deleteResellerBot_wp (adminId : Option AdminId) :
    Prog.wp (deleteResellerBot actor adminId) (fun _ d' => Effect actor d d' (.delete adminId))
      (fun _ d' => Effect actor d d' (.delete adminId)) d := by
  unfold deleteResellerBot
  rw [wp_bind]
  refine refuseIf_wp (fun hpass => ?_) fun _ => .quiet _ rfl (.refl d)
  rw [wp_bind, getResellerBots, wp_query]
  refine persist_note_wp actor d _ _ fun d' hbook hfees => .deleted adminId ?_ (by rw [hbook]) hfees
  by_contra hnot
  obtain ⟨htarget, howner⟩ := not_or.mp hnot
  simp [htarget, howner] at hpass

theorem setResellerBotBlocked_wp (adminId : AdminId) (blocked : Bool) :
    Prog.wp (setResellerBotBlocked actor adminId blocked)
      (fun _ d' => Effect actor d d' (.block adminId blocked))
        (fun _ d' => Effect actor d d' (.block adminId blocked)) d := by
  unfold setResellerBotBlocked
  rw [wp_bind]
  refine refuseIf_wp (fun hpass => ?_) fun _ => .quiet _ rfl (.refl d)
  rw [wp_bind, getResellerBots, wp_query]
  have howner : actor.role = .owner := by simpa using hpass
  split
  · exact .quiet _ rfl (.refl d)
  · next b hb =>
    exact persist_note_wp actor d _ _ fun d' hbook hfees =>
      .locked adminId blocked b howner (Option.filter_eq_some_iff.mp hb).1
        (by rw [hbook]; rfl) hfees

/-- A registration that goes through charges its fee and writes the row, and one that is refused
does neither. -/
theorem activate_wp (token : String) (username : Option String) (fee : ℕ)
    (hrole : 0 < fee → actor.role ≠ .owner) : Prog.wp (activate actor d.book token username fee)
      (fun _ d' => ∃ now : ℤ,
        d'.book.bots = d.book.bots.set actor.id
          (registered (d.book.bots.get? actor.id) token username fee now) ∧
          (∀ a, d'.feesPaid a = d.feesPaid a + if a = actor.id ∧ 0 < fee then 1 else 0) ∧
          ∀ a, d'.roleOf a = d.roleOf a)
      (fun _ d' => d' = d) d := by
  unfold activate onSite
  rw [wp_bind, wp_zoom]
  refine wp_mono _ (chargeFee_wp actor fee d.site hrole) (fun _ s' hcharged => ?_) fun _ s' hsame =>
    ?_
  · rw [wp_bind, wp_zoom, Site.now, Site.read, wp_query, wp_bind, persist, wp_modify]
    refine wp_mono _ (note_wp actor "resellerBot.set" _) (fun _ d' hnote => ?_) fun _ _ h => h.elim
    obtain ⟨hbook, hfees⟩ := hnote
    refine ⟨s'.base.now, by rw [hbook]; rfl, fun a => ?_, fun a => ?_⟩
    · rw [hfees.fees a]
      exact hcharged.feesPaid d a
    · rw [hfees.roles a]
      exact hcharged.roles a
  · rw [hsame]
    rfl

theorem setResellerBot_wp (token : String) :
    Prog.wp (setResellerBot actor token) (fun _ d' => Effect actor d d' (.set token))
      (fun _ d' => Effect actor d d' (.set token)) d := by
  have hquiet : Effect actor d d (.set token) := .quiet _ rfl (.refl d)
  unfold setResellerBot
  rw [wp_bind, getResellerBots, wp_query]
  dsimp only
  generalize trim token = clean
  generalize isBotToken clean = fits
  rw [wp_bind]
  refine refuseIf_wp (fun _ => ?_) fun _ => hquiet
  rw [wp_bind]
  refine refuseIf_wp (fun hopen => ?_) fun _ => hquiet
  rw [wp_bind]
  refine refuseIf_wp (fun _ => ?_) fun _ => hquiet
  rw [wp_bind]
  refine refuseIf_wp (fun _ => ?_) fun _ => hquiet
  rw [wp_bind, wp_query]
  split
  · exact hquiet
  · next username _ =>
    have hunlocked : actor.role ≠ .owner → ¬d.Blocked actor.id := by
      rintro hrole ⟨b, hb, hblocked⟩
      rw [Option.mem_def.mp hb] at hopen
      simp [hrole, hblocked] at hopen
    have hfree : 0 < activationFee actor d.book (d.book.bots.get? actor.id) →
        actor.role ≠ .owner := by
      intro hfee howner
      rw [activationFee, if_pos (.inl howner)] at hfee
      exact absurd hfee (lt_irrefl 0)
    refine wp_mono _ (activate_wp actor d _ username _ hfree) (fun _ d' h => ?_) fun _ d' h => ?_
    · obtain ⟨now, hbots, hfees, hroles⟩ := h
      exact .registered token _ username _ now hunlocked rfl hbots hfees hroles
    · rw [h]
      exact hquiet

end Requests

/-- What a request of an admin may do. -/
theorem serve_wp (c : AdminId × BotRequest) (d : BotDesk) :
    Prog.wp (serve c)
      (fun _ d' => d' = d ∨ ∃ actor, d.site.operator c.1 = some actor ∧ Effect actor d d' c.2)
      (fun _ d' => d' = d ∨ ∃ actor, d.site.operator c.1 = some actor ∧
        Effect actor d d' c.2) d := by
  unfold serve
  rw [wp_bind, wp_query]
  split
  · exact .inl rfl
  · next actor hactor =>
    have heffect : Prog.wp (serveBots actor c.2) (fun _ d' => Effect actor d d' c.2)
        (fun _ d' => Effect actor d d' c.2) d := by
      cases c.2 with
      | config input => exact saveResellerBotsConfig_wp actor d input
      | set token => exact setResellerBot_wp actor d token
      | enable enabled => exact setResellerBotEnabled_wp actor d enabled
      | delete adminId => exact deleteResellerBot_wp actor d adminId
      | block adminId blocked => exact setResellerBotBlocked_wp actor d adminId blocked
    exact wp_mono _ heffect (fun _ _ h => .inr ⟨actor, hactor, h⟩) fun _ _ h =>
      .inr ⟨actor, hactor, h⟩

/-! ## Runs -/

/-- The admin of a request is the owner of the panel. -/
def byOwner (c : AdminId × BotRequest) (d : BotDesk) : Prop :=
  ∃ actor ∈ d.site.operator c.1, actor.role = .owner

/-- The request deletes the bot of `a`: the reseller's own request, or the owner's. -/
def Deletes (a : AdminId) (c : AdminId × BotRequest) (d : BotDesk) : Prop :=
  ∃ adminId : Option AdminId, c.2 = .delete adminId ∧ adminId.getD c.1 = a ∧ (c.1 = a ∨ byOwner c d)

/-- The request does not delete a row of `a` that is blocked or has been paid for. -/
def KeepsRow (a : AdminId) (c : AdminId × BotRequest) (d : BotDesk) : Prop :=
  Deletes a c d → ∀ b ∈ d.book.bots.get? a, ¬b.blocked ∧ b.paid = 0

/-- The owner unblocks the bot of `a`. -/
def Unblocks (a : AdminId) (c : AdminId × BotRequest) (d : BotDesk) : Prop :=
  c.2 = .block a false ∧ byOwner c d

/-- What else happens: the clock goes on, wallets are charged for other things, accounts change. -/
structure Elsewhere (a : AdminId) (d d' : BotDesk) : Prop where
  book : d'.book = d.book
  fees : d'.feesPaid a = d.feesPaid a
  role : d'.roleOf a = d.roleOf a

/-- The activation fee has been charged once at most, and only for a row that says so. -/
structure FeeNoted (d : BotDesk) (a : AdminId) : Prop where
  reseller : d.roleOf a = some .admin
  once : d.feesPaid a ≤ 1
  noted : 0 < d.feesPaid a → ∃ b ∈ d.book.bots.get? a, 0 < b.paid

section Steps

variable {a : AdminId} {c : AdminId × BotRequest} {d d' : BotDesk} {actor : Operator}

/-- The role of an admin is the one that the request has read. -/
theorem role_of_operator (hactor : d.site.operator c.1 = some actor) :
    actor.id = c.1 ∧ d.roleOf c.1 = some actor.role := by
  unfold Site.operator at hactor
  cases hadmin : d.site.base.admins.get? c.1 with
  | none =>
      rw [hadmin] at hactor
      cases hactor
  | some row =>
      cases haccount : d.site.accounts.get? c.1 with
      | none =>
          rw [hadmin, haccount] at hactor
          cases hactor
      | some account =>
          rw [hadmin, haccount] at hactor
          obtain rfl := Option.some.inj hactor
          refine ⟨rfl, ?_⟩
          rw [roleOf, hadmin]
          rfl

/-- A reseller is not the owner. -/
theorem not_owner (hrole : d.roleOf a = some .admin) (hactor : d.site.operator c.1 = some actor)
    (hid : actor.id = a) : actor.role ≠ .owner := by
  obtain ⟨hc, hread⟩ := role_of_operator hactor
  rw [← hc, hid, hrole] at hread
  intro howner
  rw [howner] at hread
  cases hread

/-- A row that is rewritten keeps what its columns had. -/
theorem rewritten_row {P : ResellerBot → Prop} {b : ResellerBot} {k : AdminId}
    {f : ResellerBot → ResellerBot} (hP : ∀ b, P b → P (f b)) (hb : d.book.bots.get? k = some b)
    (hbots : d'.book.bots = d.book.bots.set k (f b))
    (h : ∃ b ∈ d.book.bots.get? a, P b) : ∃ b ∈ d'.book.bots.get? a, P b := by
  obtain ⟨b', hb', hrow⟩ := h
  rw [hbots, Table.get?_set]
  split
  · next hk =>
    subst hk
    rw [Option.mem_def.mp hb'] at hb
    obtain rfl := Option.some.inj hb
    exact ⟨_, rfl, hP b' hrow⟩
  · exact ⟨b', hb', hrow⟩

/-- A deletion takes no row that is to be kept. -/
theorem kept_row {P : ResellerBot → Prop} {adminId : Option AdminId} (hkeep : KeepsRow a c d)
    (hactor : d.site.operator c.1 = some actor) (hc : c.2 = .delete adminId)
    (hby : deleteTarget actor adminId = actor.id ∨ actor.role = .owner)
    (hbots : d'.book.bots = d.book.bots.erase (deleteTarget actor adminId))
    (hP : ∀ b, P b → b.blocked ∨ b.paid ≠ 0) (h : ∃ b ∈ d.book.bots.get? a, P b) :
    ∃ b ∈ d'.book.bots.get? a, P b := by
  obtain ⟨hid, -⟩ := role_of_operator hactor
  obtain ⟨b, hb, hrow⟩ := h
  rw [hbots, Table.get?_erase]
  split
  · next htarget =>
    have hdeletes : Deletes a c d := by
      refine ⟨adminId, hc, ?_, ?_⟩
      · rw [htarget, deleteTarget, hid]
      · rcases hby with hown | howner
        · exact .inl (by rw [htarget, hown, hid])
        · exact .inr ⟨actor, hactor, howner⟩
    obtain ⟨hopen, hunpaid⟩ := hkeep hdeletes b hb
    exact ((hP b hrow).elim hopen fun hpaid => hpaid hunpaid).elim
  · exact ⟨b, hb, hrow⟩

/-- The fee stays noted as long as no row is deleted that it was paid for. -/
theorem FeeNoted.step (h : d.FeeNoted a) (hkeep : KeepsRow a c d)
    (hactor : d.site.operator c.1 = some actor) (heffect : Effect actor d d' c.2) :
    d'.FeeNoted a := by
  have hsame : SameFees d d' →
      ((∃ b ∈ d.book.bots.get? a, 0 < b.paid) → ∃ b ∈ d'.book.bots.get? a, 0 < b.paid) →
      d'.FeeNoted a := by
    intro hfees hrows
    refine ⟨(hfees.roles a).trans h.reseller, (hfees.fees a).le.trans h.once, fun hpos => ?_⟩
    rw [hfees.fees a] at hpos
    exact hrows (h.noted hpos)
  generalize hr : c.2 = r at heffect
  -- only a deletion could lose the row, and only a registration charges
  cases heffect with
  | quiet _ hbots hfees => exact hsame hfees fun hrow => by rw [hbots]; exact hrow
  | paused enabled b hb hbots hfees =>
      exact hsame hfees (rewritten_row (f := fun b => { b with enabled := enabled })
        (fun _ h => h) hb hbots)
  | locked adminId blocked b _ hb hbots hfees =>
      exact hsame hfees (rewritten_row
        (f := fun b => { b with blocked := blocked, enabled := if blocked then
          false else b.enabled })
        (fun _ h => h) hb hbots)
  | deleted adminId hby hbots hfees =>
      exact hsame hfees (kept_row hkeep hactor hr hby hbots fun b hpaid => .inr (by omega))
  | registered token clean username fee now _ hfee hbots hfees hroles =>
      by_cases ha : a = actor.id
      · subst ha
        have hnew := hfees actor.id
        have hpaid : 0 < d.feesPaid actor.id →
            0 < ((d.book.bots.get? actor.id).map ResellerBot.paid).getD 0 := by
          intro hpos
          obtain ⟨b, hb, hrow⟩ := h.noted hpos
          rw [Option.mem_def.mp hb]
          exact hrow
        by_cases hcharge : 0 < fee
        -- a fee is charged when the row has none, and so does the ledger
        · have hnone : d.feesPaid actor.id = 0 := by
            by_contra hsome
            rw [hfee, activationFee, if_pos (.inr (hpaid (Nat.pos_of_ne_zero hsome)))] at hcharge
            exact lt_irrefl 0 hcharge
          rw [if_pos ⟨rfl, hcharge⟩, hnone] at hnew
          refine ⟨(hroles _).trans h.reseller, hnew.le, fun _ => ?_⟩
          rw [hbots, Table.get?_set, if_pos rfl]
          exact ⟨_, rfl, Nat.add_pos_right _ hcharge⟩
        · rw [if_neg fun hand => hcharge hand.2, add_zero] at hnew
          refine ⟨(hroles _).trans h.reseller, hnew.le.trans h.once, fun hpos => ?_⟩
          rw [hnew] at hpos
          rw [hbots, Table.get?_set, if_pos rfl]
          exact ⟨_, rfl, Nat.add_pos_left (hpaid hpos) _⟩
      · refine ⟨(hroles a).trans h.reseller, ?_, fun hpos => ?_⟩
        · rw [hfees, if_neg fun hand => ha hand.1, add_zero]
          exact h.once
        · rw [hfees, if_neg fun hand => ha hand.1, add_zero] at hpos
          rw [hbots, Table.get?_set, if_neg ha]
          exact h.noted hpos

/-- A blocked bot stays blocked until the owner unblocks it, as long as its row is not deleted. -/
theorem Blocked.step (h : d.Blocked a) (hrole : d.roleOf a = some .admin) (hkeep : KeepsRow a c d)
    (hlocked : ¬Unblocks a c d) (hactor : d.site.operator c.1 = some actor)
    (heffect : Effect actor d d' c.2) :
    d'.Blocked a := by
  generalize hr : c.2 = r at heffect
  cases heffect with
  | quiet _ hbots _ =>
      rw [Blocked, hbots]
      exact h
  | paused enabled b hb hbots _ =>
    exact rewritten_row (f := fun b => { b with enabled := enabled }) (fun _ h => h) hb hbots h
  | locked adminId blocked b howner hb hbots _ =>
      by_cases ha : adminId = a
      · subst ha
        cases blocked with
        | false => exact (hlocked ⟨hr, actor, hactor, howner⟩).elim
        | true =>
            rw [Blocked, hbots, Table.get?_set, if_pos rfl]
            exact ⟨_, rfl, rfl⟩
      · rw [Blocked, hbots, Table.get?_set, if_neg fun heq => ha heq.symm]
        exact h
  | deleted adminId hby hbots _ =>
    exact kept_row hkeep hactor hr hby hbots (fun b hblocked => .inl hblocked) h
  | registered token clean username fee now hopen _ hbots _ _ =>
      by_cases ha : a = actor.id
      · exact (hopen (not_owner hrole hactor ha.symm) (ha ▸ h)).elim
      · rw [Blocked, hbots, Table.get?_set, if_neg ha]
        exact h

/-- What each of the runs' steps keeps. -/
theorem FeeNoted.call (h : d.FeeNoted a) (hkeep : KeepsRow a c d) :
    ((serve c).run d).2.FeeNoted a := by
  refine (wp_store_iff (P := fun d' => d'.FeeNoted a) _).mp
    (wp_mono _ (serve_wp c d) (fun _ d' h' => ?_) fun _ d' h' => ?_)
  · rcases h' with rfl | ⟨actor, hactor, heffect⟩
    · exact h
    · exact h.step hkeep hactor heffect
  · rcases h' with rfl | ⟨actor, hactor, heffect⟩
    · exact h
    · exact h.step hkeep hactor heffect

theorem Blocked.call (h : d.Blocked a) (hrole : d.roleOf a = some .admin) (hkeep : KeepsRow a c d)
    (hlocked : ¬Unblocks a c d) : ((serve c).run d).2.Blocked a := by
  refine (wp_store_iff (P := fun d' => d'.Blocked a) _).mp
    (wp_mono _ (serve_wp c d) (fun _ d' h' => ?_) fun _ d' h' => ?_)
  · rcases h' with rfl | ⟨actor, hactor, heffect⟩
    · exact h
    · exact h.step hrole hkeep hlocked hactor heffect
  · rcases h' with rfl | ⟨actor, hactor, heffect⟩
    · exact h
    · exact h.step hrole hkeep hlocked hactor heffect

theorem FeeNoted.elsewhere (h : d.FeeNoted a) (he : Elsewhere a d d') : d'.FeeNoted a where
  reseller := he.role.trans h.reseller
  once := he.fees.le.trans h.once
  noted hpos := by
    rw [he.fees] at hpos
    rw [he.book]
    exact h.noted hpos

end Steps

/-- The owner 1, the reseller 2 with 1000 in his wallet, and a fee of 100 for a bot. -/
def botDesk : BotDesk where
  site := { Site.blank with
    base := { World.blank with admins := (Table.empty.set 1 ⟨.owner, 0, 0⟩).set 2 ⟨.admin, 1000,
      0⟩ }
    accounts := (Table.empty.set 1 ⟨"o", 0, none, true, none, none, none, none, none, none,
      none, []⟩).set 2 ⟨"r", 0, none, true, none, none, none, none, none, none, none, []⟩ }
  book := ⟨true, 100, "", Table.empty⟩
  getMe _ := .ok (some "shopbot")

/-- The reseller registers his bot. -/
def registerBot : AdminId × BotRequest := (2, .set "123456:abcdefghijklmnopqrst")

/-- He registers his bot and the owner blocks it; he deletes the bot and registers it again. -/
def lockDodge : List (AdminId × BotRequest) :=
  [registerBot, (1, .block 2 true), (2, .delete none), registerBot]

end BotDesk

end SRPanel
