import SRPanel.Lib.Warrant
import SRPanel.Admins.Frame

/-!
# Signing out

`signed_out_for_good`: a session that a request ends is over when the request has returned, whatever
other requests do at the same time, and it never opens the account again.
-/

namespace SRPanel.AdminStore

open Interleaving Prog

variable {env : AdminEnv} {s t : AdminStore}

/-- From `s` on, a procedure leads to `Q` or fails with `E`, amid the steps of others. -/
abbrev Leads (env : AdminEnv) {α : Type} (Q : α → AdminStore → Prop)
    (E : AppError → AdminStore → Prop) (p : AdminProg α) (s : AdminStore) : Prop :=
  Upholds (fun _ _ => True) (Sound env) (Later env) Q E p s

section Rules

variable {α β : Type} {Q : α → AdminStore → Prop} {E : AppError → AdminStore → Prop}

theorem leads_keeps (hd : env.Distinct) {p : AdminProg α} (hp : p.Keeps (Change env)) :
    Leads env (fun _ _ => True) (fun _ _ => True) p s :=
  upholds_of_keeps hp fun _ _ h hs => ⟨h.sound hs, h.later hd⟩

/-- The rule for one step that is a change. -/
theorem leads_step (hd : env.Distinct) {F : AdminStore → Except AppError α × AdminStore}
    (hF : ∀ t, Change env t (F t).2)
    (h : ∀ t, Later env s t → Sound env t →
      (∀ a, (F t).1 = .ok a → Q a (F t).2) ∧ ∀ e, (F t).1 = .error e → E e (F t).2) :
    Leads env Q E (Prog.step () F) s :=
  upholds_step fun t ht hs _ => ⟨(hF t).sound hs, (hF t).later hd, h t ht hs⟩

theorem leads_skip (hd : env.Distinct) {p : AdminProg β} {f : β → AdminProg α}
    (hp : p.Keeps (Change env))
    (hf : ∀ b t, Later env s t → Leads env Q (fun _ _ => True) (f b) t) :
    Leads env Q (fun _ _ => True) (p >>= f) s :=
  upholds_bind (leads_keeps hd hp) fun b t ht _ => hf b t ht

theorem leads_refuseIf {c : Bool} {e : AppError} (hc : c = true → E e s) :
    Leads env (fun _ t => c = false ∧ Later env s t) E (refuseIf c e) s := by
  unfold refuseIf
  split
  · next h => exact upholds_throw (hc h)
  · next h => exact upholds_pure ⟨by simpa using h, Later.refl s⟩

end Rules

/-! ## Runs -/

theorem upheld_install (hd : env.Distinct) (now : ℤ) (requests : List Request) :
    (install env now requests).Upheld (fun _ _ => True) (Sound env) (Later env) := by
  refine ⟨sound_start now, fun p hp => ⟨_, Later.refl _, ?_⟩⟩
  obtain ⟨r, -, rfl⟩ := List.mem_map.mp hp
  exact leads_keeps hd r.keeps

theorem upheld_run {c c' : Pool Unit AdminStore AppError}
    (hc : c.Upheld (fun _ _ => True) (Sound env) (Later env)) (h : Run c c') :
    c'.Upheld (fun _ _ => True) (Sound env) (Later env) ∧ Later env c.store c'.store :=
  hc.run (fun _ _ hs hw => ⟨hw.sound hs, hw.later⟩) h

theorem upheld_between {c b b' : Pool Unit AdminStore AppError}
    (hc : c.Upheld (fun _ _ => True) (Sound env) (Later env)) (h : Run c b) (h' : Run b b') :
    Sound env b.store ∧ Later env b.store b'.store := by
  obtain ⟨hb, -⟩ := upheld_run hc h
  exact ⟨hb.1, (upheld_run hb h').2⟩

/-- On a run the accounts are sound, and what has gone does not come back. -/
theorem run_sound (hd : env.Distinct) {now : ℤ} {requests : List Request}
    {c c' : Pool Unit AdminStore AppError} (h₀ : Run (install env now requests) c) (h : Run c c') :
    Sound env c.store ∧ Sound env c'.store ∧ Later env c.store c'.store := by
  obtain ⟨hc, -⟩ := upheld_run (upheld_install hd now requests) h₀
  obtain ⟨hc', hl⟩ := upheld_run hc h
  exact ⟨hc.1, hc'.1, hl⟩

/-! ## The end of a session -/

/-- A session of the accounts `s₀`. -/
structure Known (env : AdminEnv) (s₀ : AdminStore) (h : String) (row : Session) : Prop where
  here : s₀.sessions.get? h = some row
  token : ∃ n < s₀.drawn, h = env.tokenHash n
  admin : ∃ a, s₀.admins.get? row.adminId = some a ∧ row.adminId < s₀.nextAdmin

theorem Sound.known (hs : Sound env s) {h : String} {row : Session}
    (hrow : s.sessions.get? h = some row) : Known env s h row := by
  obtain ⟨htoken, hadmin⟩ := hs.session h row hrow
  obtain ⟨a, ha⟩ := Option.isSome_iff_exists.mp hadmin
  exact ⟨hrow, htoken, a, ha, hs.admin _ a ha⟩

section Known

variable {s₀ : AdminStore} {h : String} {row : Session}

/-- A session is still there or it has ended. -/
theorem Known.later (hk : Known env s₀ h row) (hl : Later env s₀ t) :
    t.sessions.get? h = some row ∨ t.sessions.get? h = none := by
  obtain ⟨n, hn, rfl⟩ := hk.token
  cases ht : t.sessions.get? (env.tokenHash n) with
  | none => exact .inr rfl
  | some r =>
      have hr := hl.session n hn r ht
      exact .inl (congrArg some (Option.some.inj (hr.symm.trans hk.here)))

/-- A session that has ended is over. -/
theorem Known.over (hk : Known env s₀ h row) (hl : Later env s₀ s) (hs : s.sessions.get? h = none)
    (hl' : Later env s t) : t.sessions.get? h = none := by
  obtain ⟨n, hn, rfl⟩ := hk.token
  cases ht : t.sessions.get? (env.tokenHash n) with
  | none => rfl
  | some r => rw [hl'.session n (hn.trans_le hl.drawn) r ht] at hs; cases hs

theorem Known.signOut (hk : Known env s₀ h row) (hl : Later env s₀ t)
    {gone : String → Session → Bool} (hgone : gone h row = true) :
    (t.signOut gone).sessions.get? h = none := by
  rw [signOut_get?]
  rcases hk.later hl with hr | hr
  · rw [hr]
    simp [Option.filter, hgone]
  · rw [hr]
    rfl

/-- Without its admin a session is over. -/
theorem Known.orphan (hk : Known env s₀ h row) (hl : Later env s₀ t) (hs : Sound env t)
    (hgone : t.admins.get? row.adminId = none) : t.sessions.get? h = none := by
  rcases hk.later hl with hr | hr
  · obtain ⟨-, hadmin⟩ := hs.session h row hr
    rw [hgone] at hadmin
    cases hadmin
  · exact hr

variable {E : AppError → AdminStore → Prop}

theorem leads_signOut (hd : env.Distinct) (hk : Known env s₀ h row) (hl : Later env s₀ s)
    {gone : String → Session → Bool} (hgone : gone h row = true) :
    Leads env (fun _ t => t.sessions.get? h = none) E
      (Prog.modify () (AdminStore.signOut gone)) s :=
  leads_step hd (fun t => .signOut t gone) fun _ ht _ =>
    ⟨fun _ _ => hk.signOut (hl.trans ht) hgone, fun e he => by cases he⟩

theorem leads_logout (hd : env.Distinct) (hk : Known env s₀ h row) (hl : Later env s₀ s)
    {cookie : Option String} {token : String} (hcookie : cookie.bind orNull = some token)
    (htoken : h = env.sha256 token) :
    Leads env (fun _ t => t.sessions.get? h = none) E (logout env cookie) s := by
  unfold logout
  rw [hcookie]
  exact leads_signOut hd hk hl (decide_eq_true htoken)

theorem leads_updateAdmin (hd : env.Distinct) (hk : Known env s₀ h row) (hl : Later env s₀ s)
    (actor : AdminId × Admin) {p : AdminPatch}
    (hp : p.isActive = some false ∨ (newPassword p).isSome) :
    Leads env (fun _ t => t.sessions.get? h = none)
      (fun _ _ => True) (updateAdmin env actor row.adminId p) s := by
  refine leads_skip hd (keeps_refuseIf _ _) fun _ t₁ h₁ =>
    leads_skip hd (keeps_query _) fun target t₂ h₂ => ?_
  cases target with
  | none => exact upholds_throw trivial
  | some target =>
      refine leads_skip hd (keeps_refuseIf _ _) fun _ t₃ h₃ =>
        leads_skip hd (keeps_saveAdmin _ _ _) fun _ t₄ h₄ => ?_
      have hc : (decide (p.isActive = some false) || (newPassword p).isSome) = true := by
        rcases hp with hp | hp
        · rw [hp]; rfl
        · rw [hp, Bool.or_true]
      rw [if_pos hc]
      exact leads_signOut hd hk ((((hl.trans h₁).trans h₂).trans h₃).trans h₄) (decide_eq_true rfl)

theorem leads_deleteAdmin (hd : env.Distinct) (hk : Known env s₀ h row) (hl : Later env s₀ s)
    (actor : AdminId × Admin) :
    Leads env (fun _ t => t.sessions.get? h = none)
      (fun _ _ => True) (deleteAdmin actor row.adminId) s := by
  refine leads_skip hd (keeps_refuseIf _ _) fun _ t₁ h₁ =>
    leads_skip hd (keeps_query _) fun target t₂ h₂ => ?_
  split
  · exact upholds_throw trivial
  · refine leads_skip hd (keeps_refuseIf _ _) fun _ t₃ h₃ => leads_skip hd (keeps_refuseIf _ _) fun _ t₄ h₄ => ?_
    have hl₄ := (((hl.trans h₁).trans h₂).trans h₃).trans h₄
    refine leads_step hd (fun t => ?_) fun t ht _ => ⟨fun a ha => ?_, fun _ _ => trivial⟩
    · split
      · exact .idle t
      · exact .drop t row.adminId
    · split at ha
      · cases ha
      · next hsome =>
        rw [if_neg hsome]
        exact hk.signOut (hl₄.trans ht) (decide_eq_true rfl)

theorem leads_resetPanelAccountPassword (hd : env.Distinct) (hk : Known env s₀ h row)
    (hl : Later env s₀ s) (actor : AdminId × Admin) :
    Leads env (fun _ t => t.sessions.get? h = none) (fun _ _ => True)
      (resetPanelAccountPassword env actor row.adminId) s := by
  refine leads_skip hd (keeps_query _) fun account t₁ h₁ => ?_
  cases account with
  | none => exact upholds_throw trivial
  | some account =>
      refine leads_skip hd (keeps_refuseIf _ _) fun _ t₂ h₂ =>
        leads_skip hd (keeps_query _) fun target t₃ h₃ => ?_
      cases target with
      | none => exact upholds_throw trivial
      | some target =>
          refine leads_skip hd (keeps_refuseIf _ _) fun _ t₄ h₄ =>
            leads_skip hd (keeps_edit _ (fun _ _ => rfl) fun _ _ => rfl) fun _ t₅ h₅ => ?_
          exact leads_signOut hd hk (((((hl.trans h₁).trans h₂).trans h₃).trans h₄).trans h₅)
            (decide_eq_true rfl)

/-! ### Many at once -/

/-- Switching an account off ends the session even where it fails: then the account is gone. -/
theorem leads_deactivate (hd : env.Distinct) (hk : Known env s₀ h row) (hl : Later env s₀ s)
    {actor : AdminId × Admin} (hactor : actor.2.role = .owner) (expiresAt : Option ℤ) (now : ℤ) :
    Leads env (fun _ t => t.sessions.get? h = none) (fun _ t => t.sessions.get? h = none)
      (updateAdmin env actor row.adminId (Site.bulkPatch .deactivate expiresAt now)) s := by
  have hassert : Leads env (fun _ t => Later env s t) (fun _ t => t.sessions.get? h = none)
      (assertOwner actor) s := by
    refine upholds_mono (leads_refuseIf fun hc => ?_) (fun _ _ h => h.2) fun _ _ h => h
    simp [hactor] at hc
  refine upholds_bind hassert fun _ t₁ h₁ _ => upholds_read fun t₂ h₂ hs₂ _ => ?_
  have hl₂ := (hl.trans h₁).trans h₂
  cases htarget : t₂.admins.get? row.adminId with
  | none => exact upholds_throw (hk.orphan hl₂ hs₂ htarget)
  | some target =>
      refine upholds_bind (leads_refuseIf fun hc => by cases hc) fun _ t₃ h₃ _ => ?_
      have hl₃ := hl₂.trans h₃
      have hkeeps : (saveAdmin env row.adminId target.role
          (Site.bulkPatch .deactivate expiresAt now)).Keeps (Change env) :=
        keeps_saveAdmin _ _ _
      have hsaved : Leads env (fun _ _ => True) (fun _ t => t.sessions.get? h = none)
          (saveAdmin env row.adminId target.role
            (Site.bulkPatch .deactivate expiresAt now)) t₃ := by
        refine leads_step hd hkeeps.of_step fun t ht hs => ⟨fun _ _ => trivial, fun e he => ?_⟩
        have hgone : t.admins.get? row.adminId = none := by
          cases ha : t.admins.get? row.adminId with
          | none => rfl
          | some a => simp [Site.bulkPatch, AdminPatch.none, ha] at he
        exact hk.over (hl₃.trans ht) (hk.orphan (hl₃.trans ht) hs hgone)
          ((hkeeps.of_step t).later hd)
      exact upholds_bind hsaved fun _ t₄ h₄ _ =>
        leads_signOut hd hk (hl₃.trans h₄) (decide_eq_true rfl)

/-- A session that is over stays over. -/
theorem leads_over (hd : env.Distinct) (hk : Known env s₀ h row) (hl : Later env s₀ s)
    (hs : s.sessions.get? h = none) {α : Type} {p : AdminProg α} (hp : p.Keeps (Change env)) :
    Leads env (fun _ t => t.sessions.get? h = none) (fun _ t => t.sessions.get? h = none) p s :=
  upholds_mono (upholds_since (leads_keeps hd hp)) (fun _ _ h' => hk.over hl hs h'.1) fun _ _ h' =>
    hk.over hl hs h'.1

theorem leads_bulkOne (hd : env.Distinct) (hk : Known env s₀ h row) (hl : Later env s₀ s)
    {actor : AdminId × Admin} (hactor : actor.2.role = .owner) {target : Option Admin}
    (hnone : target = none → s.sessions.get? h = none)
    (hrole : ∀ a, target = some a → a.role ≠ .owner) :
    Leads env (fun _ t => t.sessions.get? h = none) (fun _ _ => True)
      (bulkOne env actor .deactivate row.adminId target) s := by
  cases target with
  | none => exact upholds_pure (hnone rfl)
  | some target =>
      unfold bulkOne
      dsimp only
      rw [if_neg (hrole target rfl)]
      refine leads_skip hd keeps_clock fun now t ht => ?_
      refine upholds_attempt (upholds_bind (leads_deactivate hd hk (hl.trans ht) hactor _ _)
        fun _ _ _ h => ?_) fun _ _ h => upholds_pure h
      exact upholds_pure h

theorem leads_bulkEach (hd : env.Distinct) (hk : Known env s₀ h row) {actor : AdminId × Admin}
    (hactor : actor.2.role = .owner) {targets : List (AdminId × Option Admin)} (hl : Later env s₀ s)
    (target : Option Admin) (hmem : (row.adminId, target) ∈ targets)
    (hnone : target = none → s.sessions.get? h = none)
    (hrole : ∀ a, target = some a → a.role ≠ .owner) :
    Leads env (fun _ t => t.sessions.get? h = none)
      (fun _ _ => True) (bulkEach env actor .deactivate targets) s := by
  induction targets generalizing s with
  | nil => cases hmem
  | cons first rest ih =>
      rcases List.mem_cons.mp hmem with rfl | hmem
      · refine upholds_bind (leads_bulkOne hd hk hl hactor hnone hrole) fun skipped t ht hgone => ?_
        have hrest := leads_over hd hk (hl.trans ht) hgone
          (@keeps_bulkEach env actor .deactivate rest)
        exact upholds_bind (upholds_mono hrest (fun _ _ h => h) fun _ _ _ =>
          trivial) fun others u _ h => upholds_pure h
      · refine leads_skip hd (keeps_bulkOne _ _ _ _) fun skipped t ht => ?_
        exact upholds_bind (ih (hl.trans ht) hmem fun h => hk.over hl (hnone h) ht)
          fun others u _ h => upholds_pure h

theorem leads_bulkAdminAction (hd : env.Distinct) (hk : Known env s₀ h row) (hl : Later env s₀ s)
    {actor : AdminId × Admin} (hactor : actor.2.role = .owner) {ids : List AdminId}
    (hmem : row.adminId ∈ ids)
    (hrole : ∀ a, s₀.admins.get? row.adminId = some a → a.role ≠ .owner) :
    Leads env (fun _ t => t.sessions.get? h = none) (fun _ _ => True)
      (bulkAdminAction env actor ids .deactivate) s := by
  refine leads_skip hd (keeps_refuseIf _ _) fun _ t₁ h₁ =>
    leads_skip hd (keeps_refuseIf _ _) fun _ t₂ h₂ =>
    leads_skip hd (keeps_refuseIf _ _) fun _ t₃ h₃ =>
      leads_skip hd (keeps_refuseIf _ _) fun _ t₄ h₄ =>
      upholds_read fun t ht hs _ => ?_
  have hlt := ((((hl.trans h₁).trans h₂).trans h₃).trans h₄).trans ht
  refine leads_bulkEach hd hk hactor hlt (t.admins.get? row.adminId) ?_ (hk.orphan hlt hs)
    fun a ha => ?_
  · exact List.mem_map.mpr ⟨row.adminId, List.mem_eraseDups.mpr hmem, rfl⟩
  · obtain ⟨-, -, hadmin⟩ := hk.admin
    obtain ⟨a₀, ha₀, hrole₀, -⟩ := hlt.admin row.adminId hadmin a ha
    exact hrole₀ ▸ hrole a₀ ha₀

/-! ### By name, and by oneself -/

theorem leads_cliResetPassword (hd : env.Distinct) (hk : Known env s₀ h row) (hl : Later env s₀ s)
    {username password : String} {a : Admin} (ha : s₀.admins.get? row.adminId = some a)
    (hname : a.username = lower (trim username)) :
    Leads env (fun _ t => t.sessions.get? h = none)
      (fun _ _ => True) (cliResetPassword env username password) s := by
  refine leads_skip hd (keeps_refuseIf _ _) fun _ t₁ h₁ =>
    leads_skip hd (keeps_refuseIf _ _) fun _ t₂ h₂ =>
    upholds_read fun t ht hs _ => ?_
  have hlt := ((hl.trans h₁).trans h₂).trans ht
  have hrest : t.admins.get? row.adminId = none → ∀ {p : AdminProg Unit}, p.Keeps (Change env) →
      Leads env (fun _ t => t.sessions.get? h = none) (fun _ _ => True) p t := fun hgone _ hp =>
    upholds_mono (leads_over hd hk hlt (hk.orphan hlt hs hgone) hp) (fun _ _ h => h) fun _ _ _ =>
      trivial
  have hfound : ∀ b, t.admins.get? row.adminId = some b →
      t.byUsername (lower (trim username)) = some (row.adminId, b) := by
    intro b hb
    obtain ⟨-, -, hadmin⟩ := hk.admin
    obtain ⟨a', ha', -, hname'⟩ := hlt.admin row.adminId hadmin b hb
    obtain rfl : a' = a := Option.some.inj (ha'.symm.trans ha)
    rw [← hname, ← hname']
    exact hs.byUsername hb
  have hreset := fun id => @keeps_cliReset env id password
  split
  · next id b hb =>
    cases hadmin : t.admins.get? row.adminId with
    | none => exact hrest hadmin (hreset id)
    | some c =>
        obtain rfl : row.adminId = id :=
          congrArg Prod.fst (Option.some.inj ((hfound c hadmin).symm.trans hb))
        refine leads_step hd (hreset row.adminId).of_step fun u hu _ =>
          ⟨fun a ha => ?_, fun _ _ => trivial⟩
        split at ha
        · cases ha
        · exact hk.signOut (hlt.trans hu) (decide_eq_true rfl)
  · next hb =>
    have hgone : t.admins.get? row.adminId = none := by
      cases hadmin : t.admins.get? row.adminId with
      | none => rfl
      | some c => rw [hfound c hadmin] at hb; cases hb
    exact hrest hgone (keeps_bind (keeps_query _) fun _ => keeps_bind (keeps_refuseIf _ _) fun _ =>
      keeps_bind (keeps_create _ _) fun _ => keeps_pure ())

/-- The session of a cookie opens the account that it has always opened. -/
theorem leads_requireAdmin {token : String} {own : Session}
    (hown : Known env s₀ (env.sha256 token) own) (hl : Later env s₀ s) :
    Leads env (fun actor _ => actor.1 = own.adminId ∧ token ≠ "")
      (fun _ _ => True) (requireAdmin env (some token)) s := by
  refine upholds_read fun t ht hs _ => ?_
  cases hfound : (some token).bind fun token => t.sessionAdmin env token with
  | none => exact upholds_throw trivial
  | some actor =>
      refine upholds_pure ?_
      obtain ⟨row, hrow, htoken, hid, -⟩ := @sessionAdmin_row env t token actor.1 actor.2 hfound
      rcases hown.later (hl.trans ht) with hr | hr
      · obtain rfl : own = row := Option.some.inj (hr.symm.trans hrow)
        exact ⟨hid.symm, htoken⟩
      · rw [hr] at hrow
        cases hrow

theorem leads_requireOwner (hd : env.Distinct) (cookie : Option String) :
    Leads env (fun actor _ => actor.2.role = .owner)
      (fun _ _ => True) (requireOwner env cookie) s := by
  refine leads_skip hd (keeps_requireAdmin cookie) fun actor t _ => ?_
  refine upholds_bind (leads_refuseIf fun _ => trivial) fun _ u _ hc => upholds_pure ?_
  simpa using hc.1

theorem leads_changePassword (hd : env.Distinct) (hk : Known env s₀ h row) (hl : Later env s₀ s)
    {token current next : String} {own : Session} (hown : Known env s₀ (env.sha256 token) own)
    (hadmin : own.adminId = row.adminId) (hne : env.sha256 token ≠ h) :
    Leads env (fun _ t => t.sessions.get? h = none) (fun _ _ => True)
      (changePassword env (some token) current next true) s := by
  refine upholds_bind (leads_requireAdmin hown hl) fun actor t₁ h₁ hactor => ?_
  refine leads_skip hd ?_ fun _ t₂ h₂ => ?_
  · exact keeps_bind (keeps_refuseIf _ _) fun _ => keeps_bind (keeps_refuseIf _ _) fun _ =>
      keeps_edit _ (fun _ _ => rfl) fun _ _ => rfl
  · refine leads_signOut hd hk ((hl.trans h₁).trans h₂) ?_
    have horn : (some token).bind orNull = some token := by
      change orNull token = some token
      rw [orNull, if_neg hactor.2]
    rw [horn, hactor.1, hadmin]
    simp [hne.symm]

end Known

/-! ## The requests that end a session -/

/-- The request ends the session of `token`, which opens the account `id` of `s`. -/
def Request.Ends (env : AdminEnv) (s : AdminStore) (token : String) (id : AdminId) : Request → Prop
  | logout cookie => cookie = some token
  | changePassword cookie _ _ revoke => revoke = true ∧ ∃ other own, cookie = some other ∧
      s.sessions.get? (env.sha256 other) = some own ∧ own.adminId = id ∧ env.sha256 other ≠
        env.sha256 token
  | updateAdmin _ id' p => id' = id ∧ (p.isActive = some false ∨ (newPassword p).isSome)
  | deleteAdmin _ id' => id' = id
  | bulkAdmins _ ids action => action = .deactivate ∧ id ∈ ids ∧ ∀ a, s.admins.get? id = some a →
  a.role ≠ .owner
  | resetPanelPassword _ id' => id' = id
  | cliResetPassword username _ => ∃ a,
  s.admins.get? id = some a ∧ a.username = lower (trim username)
  | _ => False

theorem leads_of_ends (hd : env.Distinct) {token : String} {row : Session} (hs : Sound env s)
    (hrow : s.sessions.get? (env.sha256 token) = some row) (htoken : token ≠ "") {r : Request}
    (hends : r.Ends env s token row.adminId) :
    Leads env (fun _ t => t.sessions.get? (env.sha256 token) = none)
      (fun _ _ => True) (r.task env) s := by
  have hk := hs.known hrow
  have hl : Later env s s := Later.refl s
  cases r with
  | logout cookie =>
      obtain rfl : cookie = some token := hends
      refine leads_logout hd hk hl ?_ rfl
      change orNull token = some token
      rw [orNull, if_neg htoken]
  | changePassword cookie current next revoke =>
      obtain ⟨rfl, other, own, rfl, hown, hadmin, hne⟩ := hends
      exact leads_changePassword hd hk hl (hs.known hown) hadmin hne
  | updateAdmin cookie id p =>
      obtain ⟨rfl, hp⟩ := hends
      exact leads_skip hd (keeps_requireOwner _) fun actor t ht =>
        leads_updateAdmin hd hk ht actor hp
  | deleteAdmin cookie id =>
      obtain rfl : id = row.adminId := hends
      exact leads_skip hd (keeps_requireOwner _) fun actor t ht => leads_deleteAdmin hd hk ht actor
  | bulkAdmins cookie ids action =>
      obtain ⟨rfl, hmem, hrole⟩ := hends
      refine upholds_bind (leads_requireOwner hd cookie) fun actor t ht hactor => ?_
      exact upholds_bind (leads_bulkAdminAction hd hk ht hactor hmem hrole) fun _ _ _ h =>
        upholds_pure h
  | resetPanelPassword cookie id =>
      obtain rfl : id = row.adminId := hends
      exact leads_skip hd (keeps_requireAdmin _) fun actor t ht =>
        leads_resetPanelAccountPassword hd hk ht actor
  | cliResetPassword username password =>
      obtain ⟨a, ha, hname⟩ := hends
      exact leads_cliResetPassword hd hk hl ha hname
  | _ => exact hends.elim

/-- In every run a session that a request ends is over when the request has returned, and its token
never opens an account again. -/
theorem signed_out_for_good (hd : env.Distinct) {now : ℤ} {requests : List Request}
    {c₀ c₁ c₂ : Pool Unit AdminStore AppError} (h₀ : Run (install env now requests) c₀) {i : ℕ}
    {r : Request}
    (hnew : c₀.threads[i]? = some (r.task env)) (h₁ : Run c₀ c₁)
    (hok : c₁.threads[i]? = some (.ret ()))
    (h₂ : Run c₁ c₂) {token : String} {id : AdminId} {a : Admin}
    (hopen : c₀.store.sessionAdmin env token = some (id, a))
    (hends : r.Ends env c₀.store token id) :
    c₂.store.sessionAdmin env token = none := by
  obtain ⟨hc₀, -⟩ := upheld_run (upheld_install hd now requests) h₀
  obtain ⟨row, hrow, htoken, rfl, -⟩ := sessionAdmin_row hopen
  have hk := hc₀.1.known hrow
  -- only the request at `i` promises anything
  have hdelivers : c₀.Delivers (fun _ _ => True) (Sound env) (Later env) fun j r t =>
      j = i → r = .ok () → Later env c₀.store t ∧ t.sessions.get? (env.sha256 token) = none := by
    refine ⟨hc₀.1, fun j p hp => ?_⟩
    by_cases hj : j = i
    · subst hj
      obtain rfl : r.task env = p := Option.some.inj (hnew.symm.trans hp)
      have hleads := upholds_since (leads_of_ends hd hc₀.1 hrow htoken hends)
      exact ⟨c₀.store, Later.refl _, upholds_mono hleads (fun _ _ h _ _ => h) fun _ _ _ _ hr =>
        by cases hr⟩
    · obtain ⟨s, hs, hup⟩ := hc₀.2 p (List.mem_of_getElem? hp)
      exact ⟨s, hs, upholds_mono hup (fun _ _ _ h => absurd h hj) fun _ _ _ h => absurd h hj⟩
  obtain ⟨s, hs, hgone⟩ := (hdelivers.run
    (fun _ _ hs hw => ⟨hw.sound hs, hw.later⟩) h₁).ended hok rfl
  obtain ⟨hl, hgone⟩ := hgone rfl rfl
  obtain ⟨hc₁, -⟩ := upheld_run hc₀ h₁
  obtain ⟨-, hl₂⟩ := upheld_run hc₁ h₂
  have hover := hk.over hl hgone (hs.trans hl₂)
  cases hfinal : c₂.store.sessionAdmin env token with
  | none => rfl
  | some r =>
      obtain ⟨row', hrow', -⟩ := @sessionAdmin_row env c₂.store token r.1 r.2 hfinal
      rw [hover] at hrow'
      cases hrow'

/-- A runtime whose hashes keep what is hashed. -/
def plainEnv : AdminEnv where
  randomToken := fun _ n => .ofList (List.replicate (n + 1) 't')
  sha256 := fun s => s
  hashPassword := fun password _ => password
  verifyPassword := fun password hash => password = hash
  verifyTotp := fun secret code _ => secret = code
  generateTotpSecret := fun _ => "secret"
  newPanelPassword := fun _ => "sub-panel"
  ownerUsername := "owner"
  ownerPassword := "owner-password"

theorem plainEnv_distinct : plainEnv.Distinct where
  token := fun m n h => by
    have hlen := congrArg (fun s : String => s.toList.length) h
    simpa [AdminEnv.tokenHash, plainEnv] using hlen
  key := fun m n h => by
    have hlen := congrArg (fun s : String => s.toList.length) h
    simpa [AdminEnv.keyHash, plainEnv] using hlen

/-- The owner's name is short enough. -/
theorem ownerName_le : "owner".toList.length ≤ 64 := by decide

/-- The owner logs in and logs out, and changes the password. -/
def visit : List Request :=
  [.login 0 ⟨"owner", "owner-password", none, none, ownerName_le⟩ none none ⟨none, false, false⟩,
    .logout (some "tt"),
    .changePassword (some "tt") "owner-password" "a-new-password" true]

/-- The owner has logged in. -/
def visited : Pool Unit AdminStore AppError :=
  Pool.schedule (List.replicate 10 0) (install plainEnv 0 visit)

theorem visited_run : Run (install plainEnv 0 visit) visited := Pool.schedule_run_free _ _ _

/-- The account of the owner then. -/
def visitor : Admin :=
  ⟨"owner", "owner-password", .owner, some "Owner", true, none, none, none, none, false, none,
    some 0, none⟩

theorem visited_open : visited.store.sessionAdmin plainEnv "tt" = some (0, visitor) :=
  by decide +kernel

/-- After its logout it is not. -/
theorem signed_out_visit : (Pool.schedule [1] visited).store.sessionAdmin plainEnv "tt" = none := by
  have hnew : visited.threads[1]? = some ((Request.logout (some "tt")).task plainEnv) := rfl
  have hok : (Pool.schedule [1] visited).threads[1]? = some (.ret ()) := rfl
  exact signed_out_for_good plainEnv_distinct visited_run hnew (Pool.schedule_run_free _ [1] _) hok
    Relation.ReflTransGen.refl visited_open rfl

end SRPanel.AdminStore
