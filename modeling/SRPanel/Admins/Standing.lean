import SRPanel.Admins.Authority

/-!
# Who is in, and who can get in

`sessions_earned`: a session that opens an account was begun by a login with the right factors. An
owner's account cannot be deleted, switched off or left to expire, so `owner_never_locked_out`:
whatever has happened, an attempt with the right factors that the guard lets through opens it.
`command_line_recovers`: the command line gives an account a new password and takes its
authenticator away.
-/

namespace SRPanel.AdminStore

open Interleaving Prog

open Relation (ReflTransGen)

variable {env : AdminEnv} {s t : AdminStore} {now : ℤ} {requests : List Request}
    {c₀ c : Pool Unit AdminStore AppError}

/-! ## Runs from the start -/

theorem run_past (hd : env.Distinct) {u : AdminStore}
    (hu : u ∈ Pool.Past World (fun _ _ => True) (install env now requests) c) :
    Later env u c.store := by
  obtain ⟨b, hb, hbc, rfl⟩ := hu
  exact (run_sound hd hb hbc).2.2

/-- A procedure of the run is the task of a request. -/
theorem acts_request (hc : Run (install env now requests) c) {i : ℕ} {u : AdminStore → AdminStore}
    (hi : c.Acts i u) : ∃ r, requests[i]? = some r ∧ (install env now requests).threads[i]? =
    some (r.task env) := by
  obtain ⟨l, k, h, hi⟩ := hi
  have hlt : i < requests.length := by
    have hlen : c.threads.length = requests.length := hc.length.trans (List.length_map _)
    exact hlen ▸ (List.getElem?_eq_some_iff.mp hi).1
  refine ⟨requests[i], List.getElem?_eq_getElem hlt, ?_⟩
  change (requests.map (Request.task env))[i]? = _
  rw [List.getElem?_map, List.getElem?_eq_getElem hlt]
  rfl

/-- Every step is within the rights of one of the requests. -/
theorem run_authorised (hd : env.Distinct) (hc : Run (install env now requests) c) {i : ℕ}
    {u : AdminStore → AdminStore} (hi : c.Acts i u) :
    ∃ r, requests[i]? = some r ∧
      Authorised env r (Pool.Past World (fun _ _ => True) (install env now requests) c) c.store
        (u c.store) := by
  obtain ⟨r, hr, hnew⟩ := acts_request hc hi
  exact ⟨r, hr, authorised_step (upheld_install hd now requests) hnew hc hi⟩

/-! ## Sessions -/

theorem World.sessions (h : World s t) : t.sessions = s.sessions := by
  cases h <;> rfl

/-- In the run from `c₀` to `c`, a step of the procedure `i` at `b` has made the session under the
hash `h` what it is at the end. -/
def BegunAt (c₀ c : Pool Unit AdminStore AppError) (h : String) (i : ℕ)
    (b : Pool Unit AdminStore AppError) : Prop :=
  Run c₀ b ∧ Run b c ∧ ∃ u, b.Acts i u ∧ b.store.sessions.get? h ≠ c.store.sessions.get? h ∧
    (u b.store).sessions.get? h = c.store.sessions.get? h

/-- An account of the owner is in force for good. -/
def Standing (o : Option Admin) : Prop :=
  ∀ a, o = some a → a.role = .owner → a.isActive ∧ a.expiresAt = none

/-- An update leaves an account of the owner in force. -/
theorem patched_owner (p : AdminPatch) (n : ℕ) (a : Admin) :
    (patched env p .owner n a).isActive = a.isActive ∧ (patched env p .owner n a).expiresAt =
    a.expiresAt :=
  ⟨rfl, rfl⟩

theorem First.standing {seen : Set AdminStore} {before after : Option Admin}
    (h : First seen before after) : Standing after := by
  obtain ⟨-, -, a, rfl, -, hactive, hexpires⟩ := h
  rintro b hb -
  obtain rfl := Option.some.inj hb
  exact ⟨hactive, hexpires⟩

/-- What a request may make of an account keeps the owner's in force. -/
theorem Request.MayWrite.standing {r : Request} {seen : Set AdminStore} {id : AdminId}
    {before after : Option Admin} (h : r.MayWrite env seen id before after) (hs : Standing before) :
    Standing after := by
  -- a row that keeps its role, and is no less in force
  have hkept : ∀ a b : Admin, before = some a → after = some b → b.role = a.role →
      (a.role = .owner → a.isActive → b.isActive) → (a.role = .owner → b.expiresAt = a.expiresAt) →
      Standing after := by
    rintro a b rfl rfl hrole hactive hexpires c hc hc'
    obtain rfl := Option.some.inj hc
    have howner : a.role = .owner := hrole.symm.trans hc'
    obtain ⟨h₁, h₂⟩ := hs a rfl howner
    exact ⟨hactive howner h₁, (hexpires howner).trans h₂⟩
  cases r with
  | login proc body ip userAgent gate =>
      rcases h with h | ⟨a, x, y, n, hb, ha, -⟩
      · exact h.standing
      · exact hkept a _ hb ha rfl (fun _ h => h) fun _ => rfl
  | changePassword cookie current next revoke =>
      obtain ⟨a, hash, hb, ha, -⟩ := h
      exact hkept a _ hb ha rfl (fun _ h => h) fun _ => rfl
  | beginTotp cookie =>
      obtain ⟨a, x, y, hb, ha, -⟩ := h
      exact hkept a _ hb ha rfl (fun _ h => h) fun _ => rfl
  | confirmTotp cookie code =>
      obtain ⟨a, x, y, hb, ha, -⟩ := h
      exact hkept a _ hb ha rfl (fun _ h => h) fun _ => rfl
  | disableTotp cookie code =>
      obtain ⟨a, x, y, hb, ha, -⟩ := h
      exact hkept a _ hb ha rfl (fun _ h => h) fun _ => rfl
  | createAdmin cookie input =>
      obtain ⟨-, -, a, rfl, hrole, -⟩ := h
      intro b hb hb'
      obtain rfl := Option.some.inj hb
      rw [hrole] at hb'
      cases hb'
  | updateAdmin cookie id' p =>
      obtain ⟨-, -, a, n, hb, ha⟩ := h
      refine hkept a _ hb ha (patched_role p _ n a) (fun howner => ?_) fun howner => ?_
      · rw [howner, (patched_owner p n a).1]
        exact fun h => h
      · rw [howner, (patched_owner p n a).2]
  | bulkAdmins cookie ids action =>
      obtain ⟨-, -, a, n, x, y, hb, hrole, ha⟩ := h
      exact hkept a _ hb ha (patched_role _ _ n a) (fun h => absurd h hrole) fun h => absurd h hrole
  | deleteAdmin cookie id' =>
      obtain ⟨-, -, a, -, -, rfl⟩ := h
      exact fun b hb => by cases hb
  | resetPanelPassword cookie id' =>
      obtain ⟨-, -, a, hash, hb, -, ha⟩ := h
      exact hkept a _ hb ha rfl (fun _ h => h) fun _ => rfl
  | cliResetPassword username password =>
      rcases h with h | ⟨a, hash, hb, -, ha⟩
      · exact h.standing
      · exact hkept a _ hb ha rfl (fun _ _ => rfl) fun _ => rfl
  | cliDisable2fa username =>
      obtain ⟨a, hb, -, ha⟩ := h
      exact hkept a _ hb ha rfl (fun _ h => h) fun _ => rfl
  | cliUnlock username =>
      obtain ⟨a, hb, -, ha⟩ := h
      exact hkept a _ hb ha rfl (fun _ _ => rfl) fun _ => rfl
  | _ => exact h.elim

/-- No request may delete an account of the owner. -/
theorem Request.MayWrite.owner_stays {r : Request} {seen : Set AdminStore}
    {id : AdminId} {a : Admin} {after : Option Admin} (h : r.MayWrite env seen id (some a) after)
    (howner : a.role = .owner) : after ≠ none := by
  rintro rfl
  cases r with
  | login proc body ip userAgent gate =>
      rcases h with ⟨h, -⟩ | ⟨b, x, y, n, -, h, -⟩
      · cases h
      · cases h
  | cliResetPassword username password =>
      rcases h with ⟨h, -⟩ | ⟨b, hash, -, -, h⟩
      · cases h
      · cases h
  | deleteAdmin cookie id' =>
      obtain ⟨-, -, b, hb, hrole, -⟩ := h
      obtain rfl := Option.some.inj hb
      exact hrole howner
  | changePassword cookie current next revoke => obtain ⟨b, hash, -, h, -⟩ := h; cases h
  | beginTotp cookie => obtain ⟨b, x, y, -, h, -⟩ := h; cases h
  | confirmTotp cookie code => obtain ⟨b, x, y, -, h, -⟩ := h; cases h
  | disableTotp cookie code => obtain ⟨b, x, y, -, h, -⟩ := h; cases h
  | createAdmin cookie input => obtain ⟨h, -⟩ := h; cases h
  | updateAdmin cookie id' p => obtain ⟨-, -, b, n, -, h⟩ := h; cases h
  | bulkAdmins cookie ids action => obtain ⟨-, -, b, n, x, y, -, -, h⟩ := h; cases h
  | resetPanelPassword cookie id' => obtain ⟨-, -, b, hash, -, -, h⟩ := h; cases h
  | cliDisable2fa username => obtain ⟨b, -, -, h⟩ := h; cases h
  | cliUnlock username => obtain ⟨b, -, -, h⟩ := h; cases h
  | _ => exact h.elim

/-- The accounts of the owner are in force. -/
def Stands (s : AdminStore) : Prop := ∀ id, Standing (s.admins.get? id)

theorem World.stands (h : World s t) (hs : Stands s) : Stands t := by
  cases h with
  | sell a grants hrole hname =>
      intro id b hb hb'
      rw [Table.get?_set] at hb
      split at hb
      · obtain rfl := Option.some.inj hb
        rw [hrole] at hb'
        cases hb'
      · exact hs id b hb hb'
  | topUp id a quota limit expiresAt telegramId ha hrole =>
      intro i b hb hb'
      rw [Table.get?_set] at hb
      split at hb
      · obtain rfl := Option.some.inj hb
        exact absurd hb' hrole
      · exact hs i b hb hb'
  | _ => exact hs

theorem run_stands (hd : env.Distinct) (hc : Run (install env now requests) c) :
    Stands c.store := by
  induction hc with
  | refl => exact fun id a ha => by cases ha
  | @tail b c hb hstep ih =>
      cases hstep with
      | env hw => exact hw.stands ih
      | @act s T i l u k hh hi hok =>
          obtain ⟨r, -, hauth⟩ := run_authorised hd hb ⟨l, k, hh, hi⟩
          intro id
          by_cases hsame : (u s).admins.get? id = s.admins.get? id
          · exact hsame ▸ ih id
          · exact (hauth.account id hsame).standing (ih id)

theorem World.keeps_admin (h : World s t) {id : AdminId} (ht : t.admins.get? id = none) :
    s.admins.get? id = none := by
  cases h with
  | sell a grants hrole hname =>
      rw [Table.get?_set] at ht
      split at ht
      · cases ht
      · exact ht
  | topUp i a quota limit expiresAt telegramId ha hrole =>
      rw [Table.get?_set] at ht
      split at ht
      · cases ht
      · exact ht
  | _ => exact ht

/-- An account of the owner is never deleted, and keeps its name and its force. -/
theorem owner_stays (hd : env.Distinct) (h₀ : Run (install env now requests) c₀) (h : Run c₀ c)
    {id : AdminId} {a : Admin} (ha : c₀.store.admins.get? id = some a) (howner : a.role = .owner) :
    ∃ b, c.store.admins.get? id = some b ∧ b.role = .owner ∧ b.username = a.username ∧ b.isActive ∧
      b.expiresAt = none := by
  cases hb : c.store.admins.get? id with
  | some b =>
      obtain ⟨hs, -, hl⟩ := run_sound hd h₀ h
      obtain ⟨hrole, hname⟩ := later_admin hs hl ha hb
      obtain ⟨hactive, hexpires⟩ := run_stands hd (h₀.trans h) id b hb (hrole.trans howner)
      exact ⟨b, rfl, hrole.trans howner, hname, hactive, hexpires⟩
  | none =>
      obtain ⟨d, i, u, hd₀, -, hi, hbefore, hafter⟩ :=
        h.begun (P := fun s => s.admins.get? id = none) (fun s t hw ht => hw.keeps_admin ht)
          (by rw [ha]; exact fun h => by cases h) hb
      obtain ⟨b, hrow⟩ := Option.ne_none_iff_exists'.mp hbefore
      obtain ⟨hs, -, hl⟩ := run_sound hd h₀ hd₀
      obtain ⟨hrole, -⟩ := later_admin hs hl ha hrow
      obtain ⟨r, -, hauth⟩ := run_authorised hd (h₀.trans hd₀) hi
      have hwrite := hauth.account id (by rw [hafter, hrow]; exact fun h => by cases h)
      rw [hrow] at hwrite
      exact absurd hafter (hwrite.owner_stays (hrole.trans howner))

/-! ## Getting in -/

theorem rows_ne_nil {id : AdminId} {a : Admin} (ha : s.admins.get? id = some a) :
    s.admins.rows ≠ [] := by
  intro h
  have hmem := (s.admins.mem_rows_iff id a).mpr ha
  rw [h] at hmem
  cases hmem

/-- Where there are accounts, only the flag of the process changes. -/
theorem ensureOwner_run (proc : ℕ) (hrows : s.admins.rows ≠ []) :
    ∃ f, (ensureOwner env proc).run s = (.ok (), { s with ensured := f }) := by
  unfold ensureOwner
  rw [run_bind, run_query]
  dsimp only
  split
  · exact ⟨s.ensured, rfl⟩
  · rw [run_bind, run_query]
    dsimp only
    rw [if_neg (fun h => hrows (List.eq_nil_of_length_eq_zero h))]
    exact ⟨_, run_modify _ _ _⟩

/-- In sound accounts the next token is a new one. -/
theorem Sound.fresh (hd : env.Distinct) (hs : Sound env s) :
    s.sessions.get? (env.tokenHash s.drawn) = none := by
  cases h : s.sessions.get? (env.tokenHash s.drawn) with
  | none => rfl
  | some row =>
      obtain ⟨⟨n, hn, heq⟩, -⟩ := hs.session _ row h
      exact absurd (hd.token _ _ heq) hn.ne'

/-- Nobody else around, the right factors open an account that is in force. -/
theorem loginWithPassword_opens (hd : env.Distinct) (htoken : ∀ n, env.randomToken 32 n ≠ "")
    (hs : Sound env s) {id : AdminId} {a : Admin} (ha : s.admins.get? id = some a)
    (hactive : a.isActive) (proc : ℕ) {body : LoginBody}
    (ip userAgent : Option String) (hname : lower (trim body.username) = a.username)
    (hfits : a.refusal env body s.now = none) :
    ∃ token b t, (loginWithPassword env proc body ip userAgent).run s = (.ok (.ok (token, id)), t) ∧
      t.sessionAdmin env token = some (id, b) ∧ b.role = a.role := by
  obtain ⟨f, hensure⟩ := @ensureOwner_run env s proc (rows_ne_nil ha)
  have hfound : ({ s with ensured := f } : AdminStore).byUsername (lower (trim body.username)) =
    some (id, a) := by
    rw [hname]
    exact hs.byUsername ha
  have hfresh : s.sessions.get? (env.sha256 (env.randomToken 32 s.drawn)) = none := hs.fresh hd
  refine ⟨env.randomToken 32 s.drawn,
    { a with lastLoginAt := some s.now, lastLoginIp := ip },
    { s with
      admins := s.admins.set id { a with lastLoginAt := some s.now, lastLoginIp := ip }
      sessions := s.sessions.set (env.sha256 (env.randomToken 32 s.drawn))
        ⟨id, ip, userAgent.map (sliceTo 300), s.now + LoginStore.SESSION_DAYS * DAY_MS⟩
      drawn := s.drawn + 1 + 1
      ensured := f }, ?_, ?_, rfl⟩
  · unfold loginWithPassword
    rw [run_bind, hensure]
    simp only [run_bind, run_query, clock, hfound, hfits, createSession, run_step, ha, hfresh,
      Option.isNone_some, Option.isSome_none, Bool.false_eq_true, if_false, edit, run_pure]
  · have hdays : s.now ≤ s.now + LoginStore.SESSION_DAYS * DAY_MS := by
      have : (0 : ℤ) ≤ LoginStore.SESSION_DAYS * DAY_MS := by decide
      omega
    exact @sessionAdmin_eq env _ _ _ ⟨id, ip, userAgent.map (sliceTo 300),
      s.now + LoginStore.SESSION_DAYS * DAY_MS⟩ (Table.get?_set_self _ _ _) (htoken _)
        (Table.get?_set_self _ _ _) hactive hdays

/-- The route hands the session out, if the attempt passes. -/
theorem login_opens (hd : env.Distinct) (htoken : ∀ n, env.randomToken 32 n ≠ "") (hs : Sound env s)
    {id : AdminId} {a : Admin} (ha : s.admins.get? id = some a) (hactive : a.isActive) (proc : ℕ)
    {body : LoginBody}
    (ip userAgent : Option String) {gate : LoginGate} (hpasses : gate.Passes body)
    (hname : lower (trim body.username) = a.username) (hfits : a.refusal env body s.now = none) :
    ∃ token b t, (login env proc body ip userAgent gate).run s = (.ok (.ok (token, id)), t) ∧
      t.sessionAdmin env token = some (id, b) ∧ b.role = a.role := by
  obtain ⟨f, hensure⟩ := @ensureOwner_run env s proc (rows_ne_nil ha)
  have hs' : Sound env { s with ensured := f } :=
    ⟨hs.admin, hs.username, hs.session, hs.key, hs.keyHash⟩
  obtain ⟨token, b, t, hrun, hopen⟩ :=
    loginWithPassword_opens hd htoken hs' ha hactive proc ip userAgent hname hfits
  refine ⟨token, b, t, ?_, hopen⟩
  unfold login
  rw [run_bind, run_attempt, hensure, hpasses.1]
  dsimp only
  rw [run_bind, hrun, hpasses.2]
  rfl

/-- The password fits, and so does the code of the authenticator where there is one. -/
def Admin.Knows (env : AdminEnv) (a : Admin) (body : LoginBody) (now : ℤ) : Prop :=
  env.verifyPassword body.password a.passwordHash ∧
    ∀ secret, a.secret = some secret →
    ∃ code, body.totp.bind orNull = some code ∧ env.verifyTotp secret code now

theorem Admin.Knows.refusal {a : Admin} {body : LoginBody} {now : ℤ} (h : a.Knows env body now)
    (hactive : a.isActive) (hexpires : a.expiresAt = none) : a.refusal env body now = none := by
  obtain ⟨hpassword, hsecond⟩ := h
  unfold Admin.refusal
  rw [hpassword, hactive, hexpires]
  cases hsecret : a.secret with
  | none => rfl
  | some secret =>
      obtain ⟨code, hcode, hverify⟩ := hsecond secret hsecret
      simp [hcode, hverify]

/-- Whatever the run has done since, an owner's account is there, and an attempt to log in with the
right factors opens it, if the guard lets it through, the code by e-mail is right where one is asked
for, and nobody gets in the way. -/
theorem owner_never_locked_out (hd : env.Distinct) (htoken : ∀ n, env.randomToken 32 n ≠ "")
    (h₀ : Run (install env now requests) c₀) (h : Run c₀ c) {id : AdminId} {a : Admin}
    (ha : c₀.store.admins.get? id = some a) (howner : a.role = .owner) :
    ∃ b, c.store.admins.get? id = some b ∧ b.role = .owner ∧ b.username = a.username ∧
      ∀ proc body ip userAgent (gate : LoginGate), lower (trim body.username) = a.username →
        b.Knows env body c.store.now → gate.Passes body →
        ∃ token b t, (login env proc body ip userAgent gate).run c.store =
          (.ok (.ok (token, id)), t) ∧ t.sessionAdmin env token = some (id, b) ∧
          b.role = .owner := by
  obtain ⟨b, hb, hrole, hname, hactive, hexpires⟩ := owner_stays hd h₀ h ha howner
  obtain ⟨-, hs, -⟩ := run_sound hd h₀ h
  refine ⟨b, hb, hrole, hname, fun proc body ip userAgent gate htyped hknows hpasses => ?_⟩
  rw [← hrole]
  exact login_opens hd htoken hs hb hactive proc ip userAgent hpasses (htyped.trans hname.symm)
    (hknows.refusal hactive hexpires)

theorem plainEnv_token (n : ℕ) : plainEnv.randomToken 32 n ≠ "" := by
  intro h
  have hlen := congrArg (fun s : String => s.toList.length) h
  simp [plainEnv] at hlen

theorem visited_owner : visited.store.admins.get? 0 = some visitor := by decide +kernel

theorem owner_never_locked_out_visit :
    ∃ b, (Pool.schedule [1] visited).store.admins.get? 0 = some b ∧ b.role = .owner ∧
      b.username = "owner" ∧ ∀ proc body ip userAgent (gate : LoginGate),
        lower (trim body.username) = "owner" →
        b.Knows plainEnv body (Pool.schedule [1] visited).store.now → gate.Passes body →
        ∃ token b t, (login plainEnv proc body ip userAgent gate).run
            (Pool.schedule [1] visited).store = (.ok (.ok (token, 0)), t) ∧
          t.sessionAdmin plainEnv token = some (0, b) ∧ b.role = .owner :=
  owner_never_locked_out plainEnv_distinct plainEnv_token visited_run
    (Pool.schedule_run_free _ [1] _) visited_owner rfl

/-! ## The command line -/

theorem refuseIf_run {b : Bool} {e : AppError} (hb : b = false) :
    (refuseIf b e).run s = (.ok (), s) := by
  subst hb
  rfl

theorem cliEdit_run (hs : Sound env s) {username : String} (hne : lower (trim username) ≠ "")
    {id : AdminId} {a : Admin} (ha : s.admins.get? id = some a)
    (hname : lower (trim username) = a.username) {f : Admin → Admin}
    (hrole : (f a).role = a.role) (hkept : (f a).username = a.username) :
    ∃ t, (cliEdit username f).run s = (.ok (), t) ∧ Sound env t ∧ t.admins.get? id = some (f a) ∧
    t.now = s.now := by
  have hfound := hs.byUsername ha
  rw [← hname] at hfound
  refine ⟨{ s with admins := s.admins.set id (f a), drawn := s.drawn + 1 }, ?_,
    (Change.edit (f a) s.access ha hrole hkept).sound hs, Table.get?_set_self _ _ _, rfl⟩
  unfold cliEdit
  rw [run_bind, refuseIf_run (decide_eq_false hne)]
  dsimp only
  rw [run_bind, run_query, hfound]
  dsimp only
  rw [edit, run_step, ha]

theorem cliResetPassword_run (hs : Sound env s) {username password : String}
    (hne : lower (trim username) ≠ "") (hlong : 6 ≤ textLength password) {id : AdminId} {a : Admin}
    (ha : s.admins.get? id = some a)
    (hname : lower (trim username) = a.username) :
    ∃ t n, (cliResetPassword env username password).run s = (.ok (), t) ∧ Sound env t ∧
      t.admins.get? id = some { a
        with passwordHash := env.hashPassword password n, isActive := true } ∧
      t.now = s.now := by
  have hfound := hs.byUsername ha
  rw [← hname] at hfound
  refine ⟨{ s.signOut fun _ row => row.adminId = id with
    admins := s.admins.set id { a
      with passwordHash := env.hashPassword password s.drawn, isActive := true }
    drawn := s.drawn + 1 }, s.drawn, ?_, ?_, Table.get?_set_self _ _ _, rfl⟩
  · unfold cliResetPassword
    rw [run_bind, refuseIf_run (decide_eq_false hne)]
    dsimp only
    rw [run_bind, refuseIf_run (decide_eq_false (not_lt.mpr hlong))]
    dsimp only
    rw [run_bind, run_query, hfound]
    dsimp only
    rw [cliReset, run_step, ha]
  · exact (Change.reset
      { a with passwordHash := env.hashPassword password s.drawn, isActive := true }
      (fun _ row => row.adminId = id) ha rfl rfl).sound hs

/-- In whatever state a run has left an account that has not expired, deactivated or with its
password and its authenticator lost: `disable-2fa` and `reset-password` for its username, and an
attempt with the new password that the guard lets through, with the right code by e-mail where one
is asked for, opens it. -/
theorem command_line_recovers (hd : env.Distinct) (htoken : ∀ n, env.randomToken 32 n ≠ "")
    (hverify : ∀ password n, env.verifyPassword password (env.hashPassword password n))
    (hc : Run (install env now requests) c) {id : AdminId} {a : Admin}
    (ha : c.store.admins.get? id = some a)
    (hexpires : a.expiresAt.any (· < c.store.now) = false) {username : String}
    (hname : lower (trim username) = a.username)
    (hne : a.username ≠ "") (proc : ℕ) {body : LoginBody} (ip userAgent : Option String)
    {gate : LoginGate}
    (hpasses : gate.Passes body) (hbody : lower (trim body.username) = a.username)
    (hlong : 6 ≤ textLength body.password) :
    ∃ token b t, Prog.run (do
        cliDisable2fa username
        cliResetPassword env username body.password
        login env proc body ip userAgent gate) c.store = (.ok (.ok (token, id)), t) ∧
      t.sessionAdmin env token = some (id, b) ∧ b.role = a.role := by
  obtain ⟨⟨hs, -⟩, -⟩ := upheld_run (upheld_install hd now requests) hc
  have htyped : lower (trim username) ≠ "" := hname ▸ hne
  -- the authenticator goes
  obtain ⟨s₁, hrun₁, hs₁, ha₁, hnow₁⟩ :=
    cliEdit_run (f := fun a =>
      { a with totpEnabled := false, totpSecret := none }) hs htyped ha hname rfl rfl
  -- the password is new, and the account is on
  obtain ⟨s₂, n, hrun₂, hs₂, ha₂, hnow₂⟩ := cliResetPassword_run hs₁ htyped hlong ha₁ hname
  rw [run_bind, cliDisable2fa, hrun₁]
  dsimp only
  rw [run_bind, hrun₂]
  refine login_opens hd htoken hs₂ ha₂ rfl proc ip userAgent hpasses hbody ?_
  rw [Admin.refusal, hverify, hnow₂, hnow₁, hexpires]
  rfl

/-- The owner with a new password and a code by e-mail. -/
def regained : LoginBody := ⟨"owner", "regained", none, some "123456", ownerName_le⟩

theorem command_line_recovers_visit : ∃ token b t, Prog.run (do
      cliDisable2fa "Owner"
      cliResetPassword plainEnv "Owner" regained.password
      login plainEnv 1 regained none none ⟨none, true, true⟩) visited.store = (.ok (.ok (token, 0)),
        t) ∧
      t.sessionAdmin plainEnv token = some (0, b) ∧ b.role = .owner := by
  have hname : lower (trim "Owner") = visitor.username := by decide +kernel
  have hbody : lower (trim regained.username) = visitor.username := by decide +kernel
  have hlong : 6 ≤ textLength regained.password := by decide +kernel
  exact command_line_recovers plainEnv_distinct plainEnv_token (fun password _ =>
    decide_eq_true rfl) visited_run visited_owner rfl hname (by decide) 1 none none ⟨rfl,
      rfl⟩ hbody hlong

end SRPanel.AdminStore
