import SRPanel.Admins.SignOut

/-!
# Authority

Every request checks who is asking at its start and writes later. `changes_authorised`: whatever a
step of a request changes in the accounts, the sessions or the keys, the request had the right to
it, by what it had seen at moments that the run has passed.
-/

namespace SRPanel.AdminStore

open Interleaving

variable {env : AdminEnv} {s t : AdminStore} {seen : Set AdminStore}

/-! ## Rights -/

/-- The cookie opens the account `id`, with the row `a`. -/
def Opens (env : AdminEnv) (u : AdminStore) (cookie : Option String) (id : AdminId)
    (a : Admin) : Prop :=
  (cookie.bind fun token => u.sessionAdmin env token) = some (id, a)

/-- The cookie has opened the account `id`. -/
def AsSelf (env : AdminEnv) (seen : Set AdminStore) (cookie : Option String)
    (id : AdminId) : Prop :=
  ∃ u ∈ seen, ∃ a, Opens env u cookie id a

/-- The cookie has opened an account of the owner. -/
def AsOwner (env : AdminEnv) (seen : Set AdminStore) (cookie : Option String) : Prop :=
  ∃ u ∈ seen, ∃ id a, Opens env u cookie id a ∧ a.role = .owner

/-- The cookie has opened the account of the owner or of the seller of the sub-panel `id`. -/
def AsSeller (env : AdminEnv) (seen : Set AdminStore) (cookie : Option String)
    (id : AdminId) : Prop :=
  ∃ u ∈ seen, ∃ actor a, Opens env u cookie actor a ∧
    (a.role = .owner ∨ ∃ v ∈ seen, ∃ account ∈ v.sold,
      account.adminId = id ∧ account.sellerId = actor)

/-- The factors of the login have opened the account `id`: username and password at one moment, and
at another the account was in force and the code of the authenticator right. -/
def Proves (env : AdminEnv) (seen : Set AdminStore) (body : LoginBody) (id : AdminId)
    (now : ℤ) : Prop :=
  ∃ u ∈ seen, ∃ a, u.byUsername (lower (trim body.username)) = some (id, a) ∧
    a.refusal env body now = none ∧ ∃ v ∈ seen, v.now = now

/-- The first account: the panel had none. -/
def First (seen : Set AdminStore) (before after : Option Admin) : Prop :=
  before = none ∧ (∃ u ∈ seen, u.admins.rows = []) ∧
    ∃ a, after = some a ∧ a.role = .owner ∧ a.isActive ∧ a.expiresAt = none

/-- What a request may make of an account. -/
def Request.MayWrite (env : AdminEnv) (seen : Set AdminStore) (id : AdminId)
    (before after : Option Admin) : Request → Prop
  | login _ body _ _ _ => First seen before after ∨ ∃ a lastLoginAt lastLoginIp now,
  before = some a ∧
      after = some { a with lastLoginAt := lastLoginAt, lastLoginIp := lastLoginIp } ∧
        Proves env seen body id now
  | changePassword cookie current _ _ => ∃ a hash,
      before = some a ∧ after = some { a with passwordHash := hash } ∧ ∃ u ∈ seen, ∃ row,
        Opens env u cookie id row ∧ env.verifyPassword current row.passwordHash
  | beginTotp cookie | confirmTotp cookie _ | disableTotp cookie _ => ∃ a secret enabled,
  before = some a ∧
      after = some { a with totpSecret := secret, totpEnabled := enabled } ∧
        AsSelf env seen cookie id
  | createAdmin cookie input => before = none ∧ AsOwner env seen cookie ∧
      ∃ a, after = some a ∧ a.role = .admin ∧ a.username = lower (trim input.username)
  | updateAdmin cookie id' p => id = id' ∧ AsOwner env seen cookie ∧
      ∃ a n, before = some a ∧ after = some (patched env p a.role n a)
  | bulkAdmins cookie ids action => id ∈ ids ∧ AsOwner env seen cookie ∧ ∃ a n expiresAt now,
      before = some a ∧ a.role ≠ .owner ∧
      after = some (patched env (Site.bulkPatch action expiresAt now) a.role n a)
  | deleteAdmin cookie id' => id = id' ∧ AsOwner env seen cookie ∧
      ∃ a, before = some a ∧ a.role ≠ .owner ∧ after = none
  | resetPanelPassword cookie id' => id = id' ∧ AsSeller env seen cookie id ∧
      ∃ a hash, before = some a ∧ a.role ≠ .owner ∧ after = some { a with passwordHash := hash }
  | cliResetPassword username _ => First seen before after ∨ ∃ a hash, before = some a ∧
      a.username = lower (trim username) ∧
      after = some { a with passwordHash := hash, isActive := true }
  | cliDisable2fa username => ∃ a, before = some a ∧ a.username = lower (trim username) ∧
      after = some { a with totpEnabled := false, totpSecret := none }
  | cliUnlock username => ∃ a, before = some a ∧ a.username = lower (trim username) ∧
      after = some { a with isActive := true }
  | _ => False

/-- When a request may begin a session. -/
def Request.MayBegin (env : AdminEnv) (seen : Set AdminStore) (row : Session) : Request → Prop
  | login _ body _ _ _ => ∃ now, Proves env seen body row.adminId now ∧
      row.expiresAt = now + LoginStore.SESSION_DAYS * DAY_MS
  | _ => False

/-- When a request may end the session with the hash `h`. A login ends only the session that it has
begun. -/
def Request.MayEnd (env : AdminEnv) (seen : Set AdminStore) (now : ℤ) (h : String) (row : Session) :
    Request → Prop
  | login _ body _ _ gate => gate.refusal body ≠ none ∧
      ∃ u ∈ seen, h = env.tokenHash u.drawn ∧ u.sessions.get? h = none
  | logout cookie => ∃ token, cookie = some token ∧ h = env.sha256 token
  | changePassword cookie _ _ revoke => revoke = true ∧ AsSelf env seen cookie row.adminId ∧
      ∀ token, cookie = some token → h ≠ env.sha256 token
  | updateAdmin cookie id p => row.adminId = id ∧ AsOwner env seen cookie ∧
      (p.isActive = some false ∨ (newPassword p).isSome)
  | deleteAdmin cookie id => row.adminId = id ∧ AsOwner env seen cookie
  | bulkAdmins cookie ids action => row.adminId ∈ ids ∧ AsOwner env seen cookie ∧
  action = .deactivate
  | resetPanelPassword cookie id => row.adminId = id ∧ AsSeller env seen cookie id
  | cliResetPassword username _ => ∃ u ∈ seen, ∃ a, u.admins.get? row.adminId = some a ∧
      a.username = lower (trim username)
  | pruneSessions => row.expiresAt < now
  | _ => False

/-- What a request may make of an API key. -/
def Request.MayWriteKey (env : AdminEnv) (seen : Set AdminStore) (k : ApiKeyId)
    (before after : Option ApiKey) : Request → Prop
  | createApiKey cookie _ => before = none ∧ ∃ key,
      after = some key ∧ AsSelf env seen cookie key.adminId ∧ ∃ u ∈ seen,
      u.activeKeys key.adminId < 20
  | revokeApiKey cookie k' => k = k' ∧ ∃ key revokedAt, before = some key ∧
      after = some { key with revokedAt := some revokedAt } ∧ AsSelf env seen cookie key.adminId
  | apiCall authorization _ => ∃ key lastUsedAt,
      before = some key ∧ after = some { key with lastUsedAt := lastUsedAt } ∧ ∃ text,
        bearerKey (authorization.getD "") = some text ∧ key.keyHash = env.sha256 text
  | deleteAdmin cookie id => ∃ key, before = some key ∧ key.adminId = id ∧ after = none ∧
  AsOwner env seen cookie
  | _ => False

/-- The request `r` may do what leads from `s` to `t`, by what it has seen. -/
structure Authorised (env : AdminEnv) (r : Request) (seen : Set AdminStore)
    (s t : AdminStore) : Prop where
  account : ∀ id, t.admins.get? id ≠ s.admins.get? id →
  r.MayWrite env seen id (s.admins.get? id) (t.admins.get? id)
  begun : ∀ h row, t.sessions.get? h = some row → s.sessions.get? h ≠ some row →
  r.MayBegin env seen row
  ended : ∀ h row, s.sessions.get? h = some row → t.sessions.get? h ≠ some row →
  r.MayEnd env seen s.now h row
  key : ∀ k, t.apiKeys.get? k ≠ s.apiKeys.get? k →
    r.MayWriteKey env seen k (s.apiKeys.get? k) (t.apiKeys.get? k)

/-! ## More has been seen -/

section Mono

variable {seen' : Set AdminStore} (hsub : seen ⊆ seen')

include hsub

theorem AsSelf.mono {cookie : Option String} {id : AdminId} (h : AsSelf env seen cookie id) :
    AsSelf env seen' cookie id := by
  obtain ⟨u, hu, a, ha⟩ := h
  exact ⟨u, hsub hu, a, ha⟩

theorem AsOwner.mono {cookie : Option String} (h : AsOwner env seen cookie) :
    AsOwner env seen' cookie := by
  obtain ⟨u, hu, hrest⟩ := h
  exact ⟨u, hsub hu, hrest⟩

theorem AsSeller.mono {cookie : Option String} {id : AdminId} (h : AsSeller env seen cookie id) :
    AsSeller env seen' cookie id := by
  obtain ⟨u, hu, actor, a, ha, hor⟩ := h
  refine ⟨u, hsub hu, actor, a, ha, hor.imp_right ?_⟩
  rintro ⟨v, hv, hrest⟩
  exact ⟨v, hsub hv, hrest⟩

theorem Proves.mono {body : LoginBody} {id : AdminId} {now : ℤ} (h : Proves env seen body id now) :
    Proves env seen' body id now := by
  obtain ⟨u, hu, a, ha, hfits, v, hv, hnow⟩ := h
  exact ⟨u, hsub hu, a, ha, hfits, v, hsub hv, hnow⟩

theorem First.mono {before after : Option Admin} (h : First seen before after) :
    First seen' before after := by
  obtain ⟨hb, ⟨u, hu, he⟩, hafter⟩ := h
  exact ⟨hb, ⟨u, hsub hu, he⟩, hafter⟩

theorem Request.MayWrite.mono {r : Request} {id : AdminId} {before after : Option Admin}
    (h : r.MayWrite env seen id before after) : r.MayWrite env seen' id before after := by
  cases r with
  | login proc body ip userAgent gate =>
      refine h.imp (First.mono hsub) ?_
      rintro ⟨a, at', ip', now, hb, ha, hp⟩
      exact ⟨a, at', ip', now, hb, ha, hp.mono hsub⟩
  | changePassword cookie current next revoke =>
      obtain ⟨a, hash, hb, ha, u, hu, hrest⟩ := h
      exact ⟨a, hash, hb, ha, u, hsub hu, hrest⟩
  | beginTotp cookie =>
      obtain ⟨a, x, y, hb, ha, hself⟩ := h
      exact ⟨a, x, y, hb, ha, hself.mono hsub⟩
  | confirmTotp cookie code =>
      obtain ⟨a, x, y, hb, ha, hself⟩ := h
      exact ⟨a, x, y, hb, ha, hself.mono hsub⟩
  | disableTotp cookie code =>
      obtain ⟨a, x, y, hb, ha, hself⟩ := h
      exact ⟨a, x, y, hb, ha, hself.mono hsub⟩
  | createAdmin cookie input => exact ⟨h.1, h.2.1.mono hsub, h.2.2⟩
  | updateAdmin cookie id' p => exact ⟨h.1, h.2.1.mono hsub, h.2.2⟩
  | bulkAdmins cookie ids action => exact ⟨h.1, h.2.1.mono hsub, h.2.2⟩
  | deleteAdmin cookie id' => exact ⟨h.1, h.2.1.mono hsub, h.2.2⟩
  | resetPanelPassword cookie id' => exact ⟨h.1, h.2.1.mono hsub, h.2.2⟩
  | cliResetPassword username password => exact h.imp_left (First.mono hsub)
  | cliDisable2fa username => exact h
  | cliUnlock username => exact h
  | logout | createApiKey | revokeApiKey | apiCall | pruneSessions => exact h.elim

theorem Request.MayBegin.mono {r : Request} {row : Session} (h : r.MayBegin env seen row) :
    r.MayBegin env seen' row := by
  cases r with
  | login proc body ip userAgent gate =>
      obtain ⟨now, hp, he⟩ := h
      exact ⟨now, hp.mono hsub, he⟩
  | _ => exact h.elim

theorem Request.MayEnd.mono {r : Request} {now : ℤ} {h : String} {row : Session}
    (hm : r.MayEnd env seen now h row) : r.MayEnd env seen' now h row := by
  cases r with
  | login proc body ip userAgent gate =>
      obtain ⟨hc, u, hu, hrest⟩ := hm
      exact ⟨hc, u, hsub hu, hrest⟩
  | changePassword cookie current next revoke => exact ⟨hm.1, hm.2.1.mono hsub, hm.2.2⟩
  | updateAdmin cookie id p => exact ⟨hm.1, hm.2.1.mono hsub, hm.2.2⟩
  | deleteAdmin cookie id => exact ⟨hm.1, hm.2.mono hsub⟩
  | bulkAdmins cookie ids action => exact ⟨hm.1, hm.2.1.mono hsub, hm.2.2⟩
  | resetPanelPassword cookie id => exact ⟨hm.1, hm.2.mono hsub⟩
  | cliResetPassword username password =>
      obtain ⟨u, hu, hrest⟩ := hm
      exact ⟨u, hsub hu, hrest⟩
  | logout | pruneSessions => exact hm
  | _ => exact hm.elim

theorem Request.MayWriteKey.mono {r : Request} {k : ApiKeyId} {before after : Option ApiKey}
    (h : r.MayWriteKey env seen k before after) : r.MayWriteKey env seen' k before after := by
  cases r with
  | createApiKey cookie input =>
      obtain ⟨hb, key, ha, hself, u, hu, hfew⟩ := h
      exact ⟨hb, key, ha, hself.mono hsub, u, hsub hu, hfew⟩
  | revokeApiKey cookie k' =>
      obtain ⟨hk, key, at', hb, ha, hself⟩ := h
      exact ⟨hk, key, at', hb, ha, hself.mono hsub⟩
  | deleteAdmin cookie id =>
      obtain ⟨key, hb, hid, ha, howner⟩ := h
      exact ⟨key, hb, hid, ha, howner.mono hsub⟩
  | apiCall authorization scope => exact h
  | _ => exact h.elim

theorem Authorised.mono {r : Request} (h : Authorised env r seen s t) :
    Authorised env r seen' s t where
  account := fun id hne => (h.account id hne).mono hsub
  begun := fun i row hrow hne => (h.begun i row hrow hne).mono hsub
  ended := fun i row hrow hne => (h.ended i row hrow hne).mono hsub
  key := fun k hne => (h.key k hne).mono hsub

end Mono

/-! ## Steps within one's rights -/

/-- Every step of a request's procedure is within its rights, and a result comes with what has been
seen. -/
abbrev Rightful (env : AdminEnv) (r : Request) {α : Type} (Q : α → Set AdminStore → Prop)
    (p : AdminProg α) (seen : Set AdminStore) : Prop :=
  Warranted (Sound env) (Later env) (Authorised env r) Q (fun _ _ => True) p seen

variable {r : Request} {α β : Type} {Q : α → Set AdminStore → Prop}

theorem authorised_same (hadmins : t.admins = s.admins) (hsessions : t.sessions = s.sessions)
    (hkeys : t.apiKeys = s.apiKeys) : Authorised env r seen s t where
  account := fun id hne => absurd (by rw [hadmins]) hne
  begun := fun h row hrow hne => absurd (hsessions ▸ hrow) hne
  ended := fun h row hrow hne => absurd (hsessions ▸ hrow) hne
  key := fun k hne => absurd (by rw [hkeys]) hne

theorem authorised_refl (seen : Set AdminStore) (s : AdminStore) : Authorised env r seen s s :=
  authorised_same rfl rfl rfl

/-- One account is written. -/
theorem authorised_set {id : AdminId} {b : Admin}
    (hm : r.MayWrite env seen id (s.admins.get? id) (some b))
    (hadmins : t.admins = s.admins.set id b)
    (hbegun : ∀ h row, t.sessions.get? h = some row → s.sessions.get? h = some row)
    (hended : ∀ h row, s.sessions.get? h = some row → t.sessions.get? h ≠ some row →
      r.MayEnd env seen s.now h row)
    (hkeys : t.apiKeys = s.apiKeys) : Authorised env r seen s t where
  account := fun i hne => by
    rw [hadmins, Table.get?_set] at hne ⊢
    split at hne
    · next hi =>
      rw [if_pos hi, hi]
      exact hm
    · exact absurd rfl hne
  begun := fun h row hrow hne => absurd (hbegun h row hrow) hne
  ended := hended
  key := fun k hne => absurd (by rw [hkeys]) hne

theorem authorised_signOut {gone : String → Session → Bool}
    (hm : ∀ h row, s.sessions.get? h = some row → gone h row = true →
      r.MayEnd env seen s.now h row) :
    ∀ h row, s.sessions.get? h = some row → (s.signOut gone).sessions.get? h ≠ some row →
      r.MayEnd env seen s.now h row := by
  intro h row hrow hne
  refine hm h row hrow ?_
  by_contra hgone
  rw [signOut_get?, hrow] at hne
  simp [Option.filter, hgone] at hne

theorem rightful_read {f : AdminStore → β} {g : β → AdminProg α}
    (h : ∀ s, Sound env s → (∀ t ∈ seen, Later env t s) →
      Rightful env r Q (g (f s)) (insert s seen)) :
    Rightful env r Q (Prog.query () f >>= g) seen :=
  warranted_read authorised_refl h

theorem rightful_refuseIf {c : Bool} {e : AppError} {g : Unit → AdminProg α}
    (h : c = false → Rightful env r Q (g ()) seen) :
    Rightful env r Q (refuseIf c e >>= g) seen := by
  unfold refuseIf
  cases c with
  | true => exact warranted_throw trivial
  | false => exact h rfl

theorem rightful_clock {g : ℤ → AdminProg α}
    (h : ∀ s, Sound env s → (∀ t ∈ seen, Later env t s) →
      Rightful env r Q (g s.now) (insert s seen)) :
    Rightful env r Q (clock >>= g) seen := rightful_read h

theorem rightful_edit {id : AdminId} {f : ℕ → Admin → Admin}
    (hm : ∀ s, Sound env s → (∀ t ∈ seen, Later env t s) → ∀ a, s.admins.get? id = some a →
      r.MayWrite env (insert s seen) id (some a) (some (f s.drawn a))) :
    Rightful env r (fun _ _ => True) (edit id f) seen := by
  refine warranted_step fun s hs hseen => ⟨?_, fun _ _ => trivial, fun _ _ => trivial⟩
  split
  · exact authorised_refl _ s
  · next a ha =>
    exact authorised_set (ha ▸ hm s hs hseen a ha) rfl (fun _ _ h => h)
      (fun _ _ h hne => absurd h hne) rfl

theorem rightful_create {row : ℕ → Admin} {grants : List (ServerId × List ℕ)}
    (hm : ∀ s, Sound env s → (∀ t ∈ seen, Later env t s) →
      r.MayWrite env (insert s seen) s.nextAdmin none (some (row s.drawn))) :
    Rightful env r (fun _ _ => True) (create row grants) seen := by
  refine warranted_step fun s hs hseen => ⟨?_, fun _ _ => trivial, fun _ _ => trivial⟩
  have hnone : s.admins.get? s.nextAdmin = none := by
    cases ha : s.admins.get? s.nextAdmin with
    | none => rfl
    | some a => exact absurd (hs.admin _ a ha) (lt_irrefl _)
  dsimp only
  split
  · exact authorised_refl _ s
  · split
    · exact authorised_refl _ s
    · split
      · exact authorised_refl _ s
      · exact authorised_set (hnone ▸ hm s hs hseen) rfl (fun _ _ h => h)
          (fun _ _ h hne => absurd h hne) rfl

theorem rightful_signOut {gone : String → Session → Bool}
    (hm : ∀ s, Sound env s → (∀ t ∈ seen, Later env t s) → ∀ h row, s.sessions.get? h = some row →
      gone h row = true → r.MayEnd env (insert s seen) s.now h row) :
    Rightful env r (fun _ _ => True) (Prog.modify () (signOut gone)) seen := by
  refine warranted_modify fun s hs hseen => ⟨?_, trivial⟩
  exact {
    account := fun id hne => absurd rfl hne
    begun := fun h row hrow hne => absurd (signOut_some hrow).1 hne
    ended := authorised_signOut (hm s hs hseen)
    key := fun k hne => absurd rfl hne }

/-! ## Who is asking -/

theorem rightful_requireAdmin {cookie : Option String} {g : AdminId × Admin → AdminProg α}
    (h : ∀ actor : AdminId × Admin, ∀ u, Sound env u → Opens env u cookie actor.1 actor.2 →
      Rightful env r Q (g actor) (insert u seen)) :
    Rightful env r Q (requireAdmin env cookie >>= g) seen := by
  unfold requireAdmin
  rw [bind_assoc]
  refine rightful_read fun s hs hseen => ?_
  cases hfound : cookie.bind fun token => s.sessionAdmin env token with
  | none => exact warranted_throw trivial
  | some actor => exact h actor s hs hfound

theorem rightful_requireOwner {cookie : Option String} {g : AdminId × Admin → AdminProg α}
    (h : ∀ actor : AdminId × Admin, ∀ u, Sound env u → Opens env u cookie actor.1 actor.2 →
      actor.2.role = .owner → Rightful env r Q (g actor) (insert u seen)) :
    Rightful env r Q (requireOwner env cookie >>= g) seen := by
  unfold requireOwner
  rw [bind_assoc]
  refine rightful_requireAdmin fun actor u hu hopen => ?_
  rw [bind_assoc]
  exact rightful_refuseIf fun hrole => h actor u hu hopen (by simpa using hrole)

/-- The role and the name that were read are the account's. -/
theorem later_admin {u : AdminStore} (hu : Sound env u) (hl : Later env u s) {id : AdminId}
    {a b : Admin} (ha : u.admins.get? id = some a) (hb : s.admins.get? id = some b) :
    b.role = a.role ∧ b.username = a.username := by
  obtain ⟨a', ha', hrole, hname⟩ := hl.admin id (hu.admin id a ha) b hb
  obtain rfl : a' = a := Option.some.inj (ha'.symm.trans ha)
  exact ⟨hrole, hname⟩

/-! ## Logging in -/

theorem rightful_ensured (proc : ℕ) :
    Rightful env r (fun _ _ => True)
      (Prog.modify () fun s : AdminStore =>
        { s with ensured := Function.update s.ensured proc true }) seen :=
  warranted_modify fun _ _ _ => ⟨authorised_same rfl rfl rfl, trivial⟩

theorem rightful_ensureOwner (proc : ℕ)
    (hm : ∀ seen id before after, First seen before after → r.MayWrite env seen id before after) :
    Rightful env r (fun _ _ => True) (ensureOwner env proc) seen := by
  unfold ensureOwner
  refine rightful_read fun s hs _ => warranted_ite (fun _ => warranted_pure trivial) fun _ => ?_
  refine rightful_read fun u hu _ => ?_
  dsimp only
  split
  · next hcount =>
    refine warranted_bind (rightful_create fun t _ _ => ?_) fun _ seen' _ _ => rightful_ensured proc
    have hempty : u.admins.rows = [] := List.eq_nil_of_length_eq_zero (by simpa using hcount)
    exact hm _ _ _ _ ⟨rfl, ⟨u, Set.mem_insert_of_mem t (Set.mem_insert u _), hempty⟩, _, rfl,
      rfl, rfl, rfl⟩
  · exact rightful_ensured proc

theorem rightful_createSession {id : AdminId} {ip userAgent : Option String} {now : ℤ}
    (hm : ∀ s, r.MayBegin env (insert s seen)
      ⟨id, ip, userAgent.map (sliceTo 300), now + LoginStore.SESSION_DAYS * DAY_MS⟩) :
    Rightful env r (fun token seen => ∃ u ∈ seen, env.sha256 token = env.tokenHash u.drawn ∧
      u.sessions.get? (env.sha256 token) = none) (createSession env id ip userAgent now) seen := by
  refine warranted_step fun s hs hseen => ?_
  dsimp only
  split
  · exact ⟨authorised_refl _ s, fun _ h => (by cases h), fun _ _ => trivial⟩
  · split
    · exact ⟨authorised_refl _ s, fun _ h => (by cases h), fun _ _ => trivial⟩
    · next hfresh =>
      have hnone : s.sessions.get? (env.sha256 (env.randomToken 32 s.drawn)) = none :=
        by simpa using hfresh
      refine ⟨?_, fun token ht => ?_, fun _ _ => trivial⟩
      · constructor
        case account => exact fun i hne => absurd rfl hne
        case key => exact fun k hne => absurd rfl hne
        case begun =>
          intro h row hrow hne
          rw [Table.get?_set] at hrow
          split at hrow
          · obtain rfl := Option.some.inj hrow
            exact hm s
          · exact absurd hrow hne
        case ended =>
          intro h row hrow hne
          rw [Table.get?_set] at hne
          split at hne
          · next heq => rw [heq, hnone] at hrow; cases hrow
          · exact absurd hrow hne
      · obtain rfl : env.randomToken 32 s.drawn = token := Except.ok.inj ht
        exact ⟨s, Set.mem_insert_of_mem _ (Set.mem_insert s seen), rfl, hnone⟩

theorem rightful_loginWithPassword (proc : ℕ) (body : LoginBody) (ip userAgent : Option String)
    (hfirst : ∀ seen id before after, First seen before after → r.MayWrite env seen id before after)
    (hwrite : ∀ seen id a lastLoginAt lastLoginIp now, Proves env seen body id now →
      r.MayWrite env seen id (some a)
        (some { a with lastLoginAt := lastLoginAt, lastLoginIp := lastLoginIp }))
    (hbegin : ∀ seen row now, Proves env seen body row.adminId now →
      row.expiresAt = now + LoginStore.SESSION_DAYS * DAY_MS → r.MayBegin env seen row) :
    Rightful env r (fun res seen => ∀ opened, res = .ok opened → ∃ u ∈ seen,
      env.sha256 opened.1 = env.tokenHash u.drawn ∧ u.sessions.get? (env.sha256 opened.1) = none)
      (loginWithPassword env proc body ip userAgent) seen := by
  refine warranted_bind (rightful_ensureOwner proc hfirst) fun _ seen₁ _ _ =>
    rightful_read fun u hu _ =>
    rightful_clock fun v hv _ => ?_
  cases hfound : u.byUsername (lower (trim body.username)) with
  | none => exact warranted_pure fun _ h => by cases h
  | some admin =>
      dsimp only
      split
      · exact warranted_pure fun _ h => by cases h
      · next hfits =>
        have hproves : Proves env (insert v (insert u seen₁)) body admin.1 v.now :=
          ⟨u, Set.mem_insert_of_mem v (Set.mem_insert u _), admin.2, hfound, hfits, v,
            Set.mem_insert v _, rfl⟩
        refine warranted_bind (rightful_createSession fun s => ?_) fun token seen₂ hsub₂ hmade => ?_
        · exact hbegin _ _ v.now (hproves.mono (Set.subset_insert s _)) rfl
        · refine rightful_clock fun w _ _ =>
          warranted_bind (rightful_edit fun s _ _ a _ => ?_) fun _ seen₃ hsub₃ _ => ?_
          · exact hwrite _ _ a _ _ v.now (hproves.mono
            ((hsub₂.trans (Set.subset_insert w _)).trans (Set.subset_insert s _)))
          · refine warranted_pure fun opened h => ?_
            obtain rfl : (token, admin.1) = opened := Except.ok.inj h
            obtain ⟨x, hx, hrest⟩ := hmade
            exact ⟨x, hsub₃ (Set.mem_insert_of_mem w hx), hrest⟩

theorem rightful_login (proc : ℕ) (body : LoginBody) (ip userAgent : Option String)
    (gate : LoginGate) : Rightful env (.login proc body ip userAgent gate) (fun _ _ => True)
      (login env proc body ip userAgent gate) seen := by
  have hfirst : ∀ seen id before after, First seen before after →
      (Request.login proc body ip userAgent gate).MayWrite env seen id before after :=
    fun _ _ _ _ h => .inl h
  unfold login
  refine warranted_bind (R := fun _ _ => True) (warranted_attempt (rightful_ensureOwner proc hfirst)
    fun _ _ _ _ => warranted_pure trivial) fun _ seen₁ _ _ => ?_
  split
  · exact warranted_pure trivial
  refine warranted_bind (rightful_loginWithPassword proc body ip userAgent hfirst
    (fun seen id a x y now hp => .inr ⟨a, x, y, now, rfl, rfl, hp⟩) fun seen row now hp he =>
      ⟨now, hp, he⟩)
    fun res seen₂ _ hmade => ?_
  cases res with
  | error reason => exact warranted_pure trivial
  | ok opened =>
      dsimp only
      split
      · exact warranted_pure trivial
      · next reason hcode =>
        -- the session that this attempt has begun goes
        refine warranted_bind (R := fun _ _ =>
          True) (rightful_signOut fun s _ _ h row _ hgone => ?_) fun _ _ _ _ =>
            warranted_pure trivial
        obtain ⟨u, hu, hhash, hnone⟩ := hmade opened rfl
        obtain rfl : h = env.sha256 opened.1 := of_decide_eq_true hgone
        exact ⟨hcode ▸ Option.some_ne_none reason, u, Set.mem_insert_of_mem s hu, hhash, hnone⟩

/-! ## The other requests -/

theorem rightful_logout (cookie : Option String) :
    Rightful env (.logout cookie) (fun _ _ => True) (logout env cookie) seen := by
  unfold logout
  split
  · exact warranted_pure trivial
  · next token htoken =>
    refine rightful_signOut fun s _ _ h row _ hgone => ⟨token, ?_, of_decide_eq_true hgone⟩
    obtain ⟨t, rfl, ht⟩ := Option.bind_eq_some_iff.mp htoken
    unfold orNull at ht
    split at ht
    · cases ht
    · exact ht

theorem rightful_changePassword (cookie : Option String) (current next : String) (revoke : Bool) :
    Rightful env (.changePassword cookie current next revoke) (fun _ _ => True)
      (changePassword env cookie current next revoke) seen := by
  refine rightful_requireAdmin fun actor u hu hopen => ?_
  refine warranted_bind (R := fun _ _ => True) ?_ fun _ seen' hsub _ => ?_
  · refine rightful_refuseIf fun hcurrent => rightful_refuseIf fun _ =>
    rightful_edit fun s _ _ a _ => ?_
    exact ⟨a, _, rfl, rfl, u, Set.mem_insert_of_mem s (Set.mem_insert u _), actor.2, hopen, by
      simpa using hcurrent⟩
  · refine warranted_ite (fun hrevoke => ?_) fun _ => warranted_pure trivial
    refine rightful_signOut fun s _ _ h row _ hgone => ?_
    obtain ⟨hid, hkeep⟩ : row.adminId = actor.1 ∧ ∀ token, cookie.bind orNull = some token →
        h ≠ env.sha256 token := by
      rw [Bool.and_eq_true, Bool.not_eq_true', Option.any_eq_false] at hgone
      exact ⟨of_decide_eq_true hgone.1, fun token ht => by simpa using hgone.2 token ht⟩
    refine ⟨hrevoke, ⟨u, Set.mem_insert_of_mem s (hsub (Set.mem_insert u _)), actor.2, hid ▸ hopen⟩,
      ?_⟩
    rintro token rfl
    obtain ⟨-, -, htoken, -⟩ := @sessionAdmin_row env u token actor.1 actor.2 hopen
    refine hkeep token ?_
    change orNull token = some token
    rw [orNull, if_neg htoken]

/-- An edit of one's own second factor. -/
theorem rightful_totp {cookie : Option String} {actor : AdminId × Admin} {u : AdminStore}
    (hopen : Opens env u cookie actor.1 actor.2) (hu : u ∈ seen) {f : ℕ → Admin → Admin}
    (hm : ∀ seen n a, AsSelf env seen cookie actor.1 →
      r.MayWrite env seen actor.1 (some a) (some (f n a))) :
    Rightful env r (fun _ _ => True) (edit actor.1 f) seen :=
  rightful_edit fun s _ _ a _ => hm _ _ a ⟨u, Set.mem_insert_of_mem s hu, actor.2, hopen⟩

theorem rightful_confirmTotp (cookie : Option String) (code : String) :
    Rightful env (.confirmTotp cookie code)
      (fun _ _ => True) ((Request.confirmTotp cookie code).task env) seen := by
  refine rightful_requireAdmin fun actor u _ hopen => rightful_read fun v _ _ =>
    rightful_clock fun w _ _ => ?_
  split
  · exact warranted_throw trivial
  · refine rightful_refuseIf fun _ => rightful_totp hopen ?_ fun seen n a hself => ⟨a, a.totpSecret, true, rfl, rfl, hself⟩
    exact Set.mem_insert_of_mem w (Set.mem_insert_of_mem v (Set.mem_insert u _))

theorem rightful_disableTotp (cookie : Option String) (code : String) :
    Rightful env (.disableTotp cookie code)
      (fun _ _ => True) ((Request.disableTotp cookie code).task env) seen := by
  refine rightful_requireAdmin fun actor u _ hopen => rightful_clock fun w _ _ =>
    rightful_refuseIf fun _ => ?_
  exact rightful_totp hopen (Set.mem_insert_of_mem w (Set.mem_insert u _))
    fun seen n a hself => ⟨a, none, false, rfl, rfl, hself⟩

/-- Accounts are created by the owner. -/
theorem rightful_createAdmin (cookie : Option String) (input : AdminInput) :
    Rightful env (.createAdmin cookie input)
      (fun _ _ => True) ((Request.createAdmin cookie input).task env) seen := by
  refine rightful_requireOwner fun actor u _ hopen hrole => warranted_bind (R := fun _ _ => True) ?_
    fun _ _ _ _ => warranted_pure trivial
  refine rightful_refuseIf fun _ => rightful_refuseIf fun _ => ?_
  split
  · exact warranted_throw trivial
  · refine rightful_refuseIf fun _ => rightful_read fun v _ _ => rightful_refuseIf fun _ =>
      rightful_create fun s _ _ => ⟨rfl, ?_, _, rfl, rfl, rfl⟩
    exact ⟨u, Set.mem_insert_of_mem s (Set.mem_insert_of_mem v (Set.mem_insert u _)), actor.1,
      actor.2, hopen, hrole⟩

theorem rightful_saveAdmin {id : AdminId} {role : AdminRole} {p : AdminPatch}
    (hm : ∀ s, Sound env s → (∀ t ∈ seen, Later env t s) → ∀ a, s.admins.get? id = some a →
      r.MayWrite env (insert s seen) id (some a) (some (patched env p role s.drawn a))) :
    Rightful env r (fun _ _ => True) (saveAdmin env id role p) seen := by
  refine warranted_step fun s hs hseen => ⟨?_, fun _ _ => trivial, fun _ _ => trivial⟩
  dsimp only
  generalize (if role = .owner then none else p.serverAccess) = grants
  split
  · exact authorised_refl _ s
  · split
    · exact authorised_refl _ s
    · split
      · exact authorised_refl _ s
      · next a ha =>
        exact authorised_set (ha ▸ hm s hs hseen a ha) rfl (fun _ _ h => h)
          (fun _ _ h hne => absurd h hne) rfl

/-- `updateAdmin` within the rights to write the account, in whatever role it is, and to end its
sessions. -/
theorem rightful_updateAdmin {actor : AdminId × Admin} {id : AdminId} {p : AdminPatch}
    (hwrite : ∀ seen' s a, seen ⊆ seen' → (∀ t ∈ seen, Later env t s) → s.admins.get? id = some a →
      r.MayWrite env seen' id (some a) (some (patched env p a.role s.drawn a)))
    (hend : ∀ seen' now h row, seen ⊆ seen' → row.adminId = id →
      p.isActive = some false ∨ (newPassword p).isSome → r.MayEnd env seen' now h row) :
    Rightful env r (fun _ _ => True) (updateAdmin env actor id p) seen := by
  refine rightful_refuseIf fun _ => rightful_read fun u hu _ => ?_
  cases htarget : u.admins.get? id with
  | none => exact warranted_throw trivial
  | some target =>
      refine rightful_refuseIf fun _ => warranted_bind (rightful_saveAdmin fun s _ hseen a ha => ?_)
        fun _ seen' hsub _ => ?_
      · obtain ⟨hrole, -⟩ := later_admin hu (hseen u (Set.mem_insert u _)) htarget ha
        have hw := hwrite (insert s (insert u seen)) s a
          ((Set.subset_insert u seen).trans (Set.subset_insert s _))
            (fun t ht => hseen t (Set.mem_insert_of_mem u ht)) ha
        rwa [hrole] at hw
      · refine warranted_ite (fun hc => ?_) fun _ => warranted_pure trivial
        refine rightful_signOut fun s _ _ h row _ hgone =>
          hend _ _ h row ?_ (of_decide_eq_true hgone) ?_
        · exact ((Set.subset_insert u seen).trans hsub).trans (Set.subset_insert s _)
        · simpa using hc

theorem rightful_deleteAdmin {actor : AdminId × Admin} {id : AdminId}
    (hwrite : ∀ seen' a, seen ⊆ seen' → a.role ≠ .owner → r.MayWrite env seen' id (some a) none)
    (hend : ∀ seen' now h row, seen ⊆ seen' → row.adminId = id → r.MayEnd env seen' now h row)
    (hkey : ∀ seen' k key, seen ⊆ seen' → key.adminId = id →
      r.MayWriteKey env seen' k (some key) none) :
    Rightful env r (fun _ _ => True) (deleteAdmin actor id) seen := by
  refine rightful_refuseIf fun _ => rightful_read fun u hu _ => ?_
  dsimp only
  split
  · exact warranted_throw trivial
  · next target htarget =>
    refine rightful_refuseIf fun hrole => rightful_refuseIf fun _ =>
      warranted_step fun s hs hseen =>
      ⟨?_, fun _ _ => trivial, fun _ _ => trivial⟩
    have hsub : seen ⊆ insert s (insert u seen) :=
      (Set.subset_insert u seen).trans (Set.subset_insert s _)
    split
    · exact authorised_refl _ s
    · constructor
      case account =>
        intro i hne
        by_cases hi : i = id
        · subst hi
          -- the account that goes has the role that was read
          cases ha : s.admins.get? i with
          | none =>
              refine absurd ?_ hne
              change (s.admins.erase i).get? i = _
              rw [Table.get?_erase, if_pos rfl, ha]
          | some a =>
              have hafter : (s.dropAdmin i).admins.get? i = none := by
                change (s.admins.erase i).get? i = none
                rw [Table.get?_erase, if_pos rfl]
              obtain ⟨hsame, -⟩ := later_admin hu (hseen u (Set.mem_insert u _)) htarget ha
              rw [hafter]
              exact hwrite _ a hsub (by rw [hsame]; simpa using hrole)
        · exact absurd (dropAdmin_admin hi) hne
      case begun => exact fun h row hrow hne => absurd (dropAdmin_session hrow).1 hne
      case ended =>
        exact authorised_signOut fun h row _ hgone => hend _ _ h row hsub (of_decide_eq_true hgone)
      case key =>
        intro k hne
        -- only the keys of the account go with it
        cases hk : s.apiKeys.get? k with
        | none =>
            refine absurd ?_ hne
            cases ht : (s.dropAdmin id).apiKeys.get? k with
            | none => exact hk.symm
            | some key => rw [(dropAdmin_key ht).1] at hk; cases hk
        | some key =>
            cases ht : (s.dropAdmin id).apiKeys.get? k with
            | none =>
                refine hkey _ k key hsub ?_
                by_contra hid
                have hkept : (s.dropAdmin id).apiKeys.get? k = some key := by
                  change (s.apiKeys.keep _).get? k = some key
                  rw [Table.get?_keep, hk]
                  simp [hid]
                rw [hkept] at ht
                cases ht
            | some key' =>
                obtain ⟨hk', -⟩ := dropAdmin_key ht
                rw [ht, hk'] at hne
                exact absurd rfl hne

theorem rightful_beginTotp (cookie : Option String) :
    Rightful env (.beginTotp cookie) (fun _ _ => True) ((Request.beginTotp cookie).task env) seen :=
  rightful_requireAdmin fun _ u _ hopen => rightful_totp hopen (Set.mem_insert u _)
    fun _ n a hself => ⟨a, some (env.generateTotpSecret n), false, rfl, rfl, hself⟩

/-- Accounts are updated by the owner. -/
theorem rightful_updateAdmin_task (cookie : Option String) (id : AdminId) (p : AdminPatch) :
    Rightful env (.updateAdmin cookie id p)
      (fun _ _ => True) ((Request.updateAdmin cookie id p).task env) seen := by
  refine rightful_requireOwner fun actor u _ hopen hrole => ?_
  have howner : AsOwner env (insert u seen) cookie :=
    ⟨u, Set.mem_insert u _, actor.1, actor.2, hopen, hrole⟩
  refine rightful_updateAdmin
    (fun seen' s a hsub _ _ => ⟨rfl, howner.mono hsub, a, s.drawn, rfl, rfl⟩) ?_
  exact fun seen' now h row hsub hid hp => ⟨hid, howner.mono hsub, hp⟩

theorem rightful_deleteAdmin_task (cookie : Option String) (id : AdminId) :
    Rightful env (.deleteAdmin cookie id)
      (fun _ _ => True) ((Request.deleteAdmin cookie id).task env) seen := by
  refine rightful_requireOwner fun actor u _ hopen hrole => ?_
  have howner : AsOwner env (insert u seen) cookie :=
    ⟨u, Set.mem_insert u _, actor.1, actor.2, hopen, hrole⟩
  exact rightful_deleteAdmin (fun seen' a hsub ha => ⟨rfl, howner.mono hsub, a, rfl, ha, rfl⟩)
    (fun seen' now h row hsub hid => ⟨hid, howner.mono hsub⟩)
    fun seen' k key hsub hid => ⟨key, rfl, hid, rfl, howner.mono hsub⟩

/-! ### Many at once -/

section Bulk

variable {cookie : Option String} {ids : List AdminId} {action : AdminBulkAction}

/-- The row of a target was read. -/
def WasRead (env : AdminEnv) (seen : Set AdminStore) (target : AdminId × Option Admin) : Prop :=
  ∀ a, target.2 = some a → ∃ v ∈ seen, Sound env v ∧ v.admins.get? target.1 = some a

theorem WasRead.mono {seen' : Set AdminStore} {target : AdminId × Option Admin}
    (hsub : seen ⊆ seen') (h : WasRead env seen target) : WasRead env seen' target := by
  intro a ha
  obtain ⟨v, hv, hrest⟩ := h a ha
  exact ⟨v, hsub hv, hrest⟩

theorem bulkPatch_signs_out {expiresAt : Option ℤ} {now : ℤ}
    (h : (Site.bulkPatch action expiresAt now).isActive = some false ∨
      (newPassword (Site.bulkPatch action expiresAt now)).isSome) : action = .deactivate := by
  cases action <;> simp_all [Site.bulkPatch, newPassword, AdminPatch.none]

theorem rightful_bulkOne (howner : AsOwner env seen cookie) {actor : AdminId × Admin} {id : AdminId}
    {target : Option Admin} (hmem : id ∈ ids) (hread : WasRead env seen (id, target)) :
    Rightful env (.bulkAdmins cookie ids action)
      (fun _ _ => True) (bulkOne env actor action id target) seen := by
  unfold bulkOne
  split
  · exact warranted_pure trivial
  · next target =>
    obtain ⟨v, hv, hsound, hrow⟩ := hread target rfl
    refine warranted_ite (fun _ => warranted_pure trivial) fun hrole =>
      rightful_clock fun u _ _ => ?_
    refine warranted_attempt (F := fun _ _ => True) (warranted_bind (R := fun _ _ => True) ?_
      fun _ _ _ _ => warranted_pure trivial) fun _ _ _ _ => warranted_pure trivial
    refine rightful_updateAdmin
      (fun seen' s a hsub hlater ha => ?_) fun seen' now h row hsub hid hp => ?_
    · obtain ⟨hsame, -⟩ := later_admin hsound (hlater v (Set.mem_insert_of_mem u hv)) hrow ha
      exact ⟨hmem, howner.mono ((Set.subset_insert u seen).trans hsub), a, s.drawn, _, _, rfl,
        hsame ▸ hrole, rfl⟩
    · exact ⟨hid ▸ hmem, howner.mono ((Set.subset_insert u seen).trans hsub),
      bulkPatch_signs_out hp⟩

/-- The accounts one after the other. -/
theorem rightful_bulkEach (howner : AsOwner env seen cookie) {actor : AdminId × Admin}
    {targets : List (AdminId × Option Admin)}
    (htargets : ∀ target ∈ targets, target.1 ∈ ids ∧ WasRead env seen target) :
    Rightful env (.bulkAdmins cookie ids action)
      (fun _ _ => True) (bulkEach env actor action targets) seen := by
  induction targets generalizing seen with
  | nil => exact warranted_pure trivial
  | cons target rest ih =>
      obtain ⟨hmem, hread⟩ := htargets target List.mem_cons_self
      refine warranted_bind (rightful_bulkOne howner hmem hread) fun _ seen' hsub _ => ?_
      refine warranted_bind (ih (howner.mono hsub) fun other hother => ?_) fun _ _ _ _ =>
        warranted_pure trivial
      obtain ⟨hmem', hread'⟩ := htargets other (List.mem_cons_of_mem _ hother)
      exact ⟨hmem', hread'.mono hsub⟩

theorem rightful_bulkAdmins (cookie : Option String) (ids : List AdminId)
    (action : AdminBulkAction) : Rightful env (.bulkAdmins cookie ids action) (fun _ _ => True)
      ((Request.bulkAdmins cookie ids action).task env) seen := by
  refine rightful_requireOwner fun actor u _ hopen hrole => warranted_bind (R := fun _ _ => True) ?_
    fun _ _ _ _ => warranted_pure trivial
  refine rightful_refuseIf fun _ => rightful_refuseIf fun _ => rightful_refuseIf fun _ =>
    rightful_refuseIf fun _ =>
    rightful_read fun v hv _ => ?_
  refine rightful_bulkEach ⟨u, Set.mem_insert_of_mem v (Set.mem_insert u _), actor.1, actor.2,
    hopen, hrole⟩ ?_
  intro target htarget
  obtain ⟨id, hid, rfl⟩ := List.mem_map.mp htarget
  exact ⟨List.mem_eraseDups.mp hid, fun a ha => ⟨v, Set.mem_insert v _, hv, ha⟩⟩

end Bulk

/-! ### Sub-panels and keys -/

/-- The account of the book that was found is sold by the actor, or the actor is the owner. -/
theorem asSeller_of_sold {cookie : Option String} {actor : AdminId × Admin} {u v : AdminStore}
    (hu : u ∈ seen) (hopen : Opens env u cookie actor.1 actor.2) (hv : v ∈ seen) {id : AdminId}
    {account : PanelAccount}
    (haccount : v.sold.find? (fun a => a.adminId = id) = some account)
    (hseller : (decide (actor.2.role ≠ .owner) && decide (account.sellerId ≠ actor.1)) = false) :
    AsSeller env seen cookie id := by
  refine ⟨u, hu, actor.1, actor.2, hopen, ?_⟩
  have hid := List.find?_some haccount
  rw [Bool.and_eq_false_iff] at hseller
  refine hseller.imp (fun h => by simpa using h) fun h =>
    ⟨v, hv, account, List.mem_of_find?_eq_some haccount, ?_, ?_⟩
  · exact of_decide_eq_true hid
  · simpa using h

theorem rightful_resetPanelPassword (cookie : Option String) (id : AdminId) :
    Rightful env (.resetPanelPassword cookie id) (fun _ _ => True)
      ((Request.resetPanelPassword cookie id).task env) seen := by
  refine rightful_requireAdmin fun actor u _ hopen => rightful_read fun v _ _ => ?_
  split
  · exact warranted_throw trivial
  · next account haccount =>
    refine rightful_refuseIf fun hseller => ?_
    have hasSeller : AsSeller env (insert v (insert u seen)) cookie id :=
      asSeller_of_sold (Set.mem_insert_of_mem v (Set.mem_insert u _)) hopen
        (Set.mem_insert v _) haccount hseller
    refine rightful_read fun w hw _ => ?_
    cases htarget : w.admins.get? id with
    | none => exact warranted_throw trivial
    | some target =>
        refine rightful_refuseIf fun hrole =>
          warranted_bind (rightful_edit fun s _ hseen a ha => ?_) fun _ seen' hsub _ =>
            rightful_signOut fun s _ _ h row _ hgone => ?_
        · obtain ⟨hsame, -⟩ := later_admin hw (hseen w (Set.mem_insert w _)) htarget ha
          refine ⟨rfl, hasSeller.mono ((Set.subset_insert w _).trans (Set.subset_insert s _)), a, _,
            rfl, ?_, rfl⟩
          rw [hsame]
          simpa using hrole
        · exact ⟨of_decide_eq_true hgone, hasSeller.mono (((Set.subset_insert w _).trans hsub).trans
            (Set.subset_insert s _))⟩

/-- One key is written. -/
theorem authorised_setKey {k : ApiKeyId} {b : ApiKey}
    (hm : r.MayWriteKey env seen k (s.apiKeys.get? k) (some b))
    (hkeys : t.apiKeys = s.apiKeys.set k b) (hadmins : t.admins = s.admins)
    (hsessions : t.sessions = s.sessions) :
    Authorised env r seen s t where
  account := fun id hne => absurd (by rw [hadmins]) hne
  begun := fun h row hrow hne => absurd (hsessions ▸ hrow) hne
  ended := fun h row hrow hne => absurd (hsessions ▸ hrow) hne
  key := fun i hne => by
    rw [hkeys, Table.get?_set] at hne ⊢
    split at hne
    · next hi =>
      rw [if_pos hi, hi]
      exact hm
    · exact absurd rfl hne

theorem rightful_editKey {k : ApiKeyId} {f : ApiKey → ApiKey}
    (hm : ∀ s, Sound env s → (∀ t ∈ seen, Later env t s) → ∀ a, s.apiKeys.get? k = some a →
      r.MayWriteKey env (insert s seen) k (some a) (some (f a))) :
    Rightful env r (fun _ _ => True) (editKey k f) seen := by
  refine warranted_step fun s hs hseen => ⟨?_, fun _ _ => trivial, fun _ _ => trivial⟩
  split
  · exact authorised_refl _ s
  · next a ha => exact authorised_setKey (ha ▸ hm s hs hseen a ha) rfl rfl rfl

/-- The admin and the hash that were read are the key's. -/
theorem later_key {u : AdminStore} (hu : Sound env u) (hl : Later env u s) {k : ApiKeyId}
    {a b : ApiKey} (ha : u.apiKeys.get? k = some a) (hb : s.apiKeys.get? k = some b) :
    b.adminId = a.adminId ∧ b.keyHash = a.keyHash := by
  rcases hl.key k b hb with ⟨a', ha', hid, hhash, -⟩ | ⟨hk, -⟩
  · obtain rfl : a' = a := Option.some.inj (ha'.symm.trans ha)
    exact ⟨hid, hhash⟩
  · exact absurd (hu.key k a ha).1 hk.not_gt

theorem rightful_createApiKey (cookie : Option String) (input : ApiKeyInput) :
    Rightful env (.createApiKey cookie input)
      (fun _ _ => True) ((Request.createApiKey cookie input).task env) seen := by
  refine rightful_requireAdmin fun actor u _ hopen => warranted_bind (R := fun _ _ => True) ?_
    fun _ _ _ _ => warranted_pure trivial
  refine rightful_read fun v _ _ => rightful_refuseIf fun hfew => warranted_step fun s hs hseen =>
    ⟨?_, fun _ _ => trivial, fun _ _ => trivial⟩
  dsimp only
  split
  · exact authorised_refl _ s
  · split
    · exact authorised_refl _ s
    · refine authorised_setKey ⟨?_, _, rfl, ⟨u, ?_, actor.2, hopen⟩, v, ?_, ?_⟩ rfl rfl rfl
      · cases hk : s.apiKeys.get? s.nextKey with
        | none => rfl
        | some key => exact absurd (hs.key _ key hk).1 (lt_irrefl _)
      · exact Set.mem_insert_of_mem s (Set.mem_insert_of_mem v (Set.mem_insert u _))
      · exact Set.mem_insert_of_mem s (Set.mem_insert v _)
      · exact not_le.mp (of_decide_eq_false hfew)

theorem rightful_revokeApiKey (cookie : Option String) (k : ApiKeyId) :
    Rightful env (.revokeApiKey cookie k)
      (fun _ _ => True) ((Request.revokeApiKey cookie k).task env) seen := by
  refine rightful_requireAdmin fun actor u _ hopen => rightful_read fun v hv _ => ?_
  split
  · exact warranted_throw trivial
  · next key hkey =>
    obtain ⟨hrow, hown⟩ := Option.filter_eq_some_iff.mp hkey
    refine rightful_clock fun w _ _ => rightful_editKey fun s _ hseen a ha => ?_
    obtain ⟨hid, -⟩ := later_key hv (hseen v (Set.mem_insert_of_mem w (Set.mem_insert v _))) hrow ha
    refine ⟨rfl, a, w.now, rfl, rfl, u, ?_, actor.2, ?_⟩
    · exact Set.mem_insert_of_mem s (Set.mem_insert_of_mem w
      (Set.mem_insert_of_mem v (Set.mem_insert u _)))
    · rw [hid, of_decide_eq_true hown]
      exact hopen

theorem byKeyHash_row {hash : String} {k : ApiKeyId} {key : ApiKey} {admin : Admin}
    (h : s.byKeyHash hash = some (k, key, admin)) :
    s.apiKeys.get? k = some key ∧ key.keyHash = hash ∧ s.admins.get? key.adminId = some admin := by
  obtain ⟨row, hrow, hadmin⟩ := Option.bind_eq_some_iff.mp h
  obtain ⟨a, ha, heq⟩ := Option.map_eq_some_iff.mp hadmin
  obtain ⟨rfl, rfl, rfl⟩ : row.1 = k ∧ row.2 = key ∧ a = admin := by simpa using heq
  refine ⟨(s.apiKeys.mem_rows_iff row.1 row.2).mp (List.mem_of_find?_eq_some hrow), ?_, ha⟩
  have hhash := List.find?_some hrow
  exact of_decide_eq_true hhash

theorem rightful_apiCall (authorization : Option String) (scope : ApiScope) :
    Rightful env (.apiCall authorization scope) (fun _ _ => True)
      ((Request.apiCall authorization scope).task env) seen := by
  refine warranted_bind (R := fun _ _ => True) ?_ fun _ _ _ _ => warranted_pure trivial
  unfold authenticateApiKey
  split
  · exact warranted_throw trivial
  · next text htext =>
    refine rightful_read fun v hv _ => rightful_clock fun w _ _ => ?_
    split
    · exact warranted_throw trivial
    · next k key admin hfound =>
      split
      · exact warranted_throw trivial
      · obtain ⟨hrow, hhash, -⟩ := byKeyHash_row hfound
        refine warranted_ite (fun _ => warranted_bind (R := fun _ _ => True) ?_ fun _ _ _ _ =>
          warranted_pure trivial) fun _ => warranted_pure trivial
        refine warranted_attempt (rightful_editKey fun s _ hseen a ha => ?_) fun _ _ _ _ =>
          warranted_pure trivial
        obtain ⟨-, hsame⟩ := later_key hv
          (hseen v (Set.mem_insert_of_mem w (Set.mem_insert v _))) hrow ha
        exact ⟨a, some w.now, rfl, rfl, text, htext, hsame.trans hhash⟩

/-! ### The command line and the worker -/

theorem rightful_cliResetPassword (username password : String) :
    Rightful env (.cliResetPassword username password) (fun _ _ => True)
      (cliResetPassword env username password) seen := by
  refine rightful_refuseIf fun _ => rightful_refuseIf fun _ => rightful_read fun u hu _ => ?_
  split
  · next id b hb =>
    obtain ⟨hrow, hname⟩ := byUsername_eq_some hb
    refine warranted_step fun s hs hseen => ⟨?_, fun _ _ => trivial, fun _ _ => trivial⟩
    split
    · exact authorised_refl _ s
    · next a ha =>
      obtain ⟨-, hsame⟩ := later_admin hu (hseen u (Set.mem_insert u _)) hrow ha
      refine authorised_set (ha ▸ .inr ⟨a, _, rfl, hsame.trans hname, rfl⟩) rfl
        (fun h row hrow => (signOut_some hrow).1) (authorised_signOut fun h row _ hgone => ?_) rfl
      obtain rfl : row.adminId = id := of_decide_eq_true hgone
      exact ⟨s, Set.mem_insert s _, a, ha, hsame.trans hname⟩
  · refine rightful_read fun v _ _ => rightful_refuseIf fun hcount => ?_
    refine warranted_bind (R := fun _ _ => True) ?_ fun _ _ _ _ => warranted_pure trivial
    refine rightful_create fun s _ _ => .inl ⟨rfl, ⟨v, ?_, ?_⟩, _, rfl, rfl, rfl, rfl⟩
    · exact Set.mem_insert_of_mem s (Set.mem_insert v _)
    · exact List.eq_nil_of_length_eq_zero (by simpa using hcount)

theorem rightful_cliEdit {username : String} {f : Admin → Admin}
    (hm : ∀ seen id a, a.username = lower (trim username) →
      r.MayWrite env seen id (some a) (some (f a))) :
    Rightful env r (fun _ _ => True) (cliEdit username f) seen := by
  refine rightful_refuseIf fun _ => rightful_read fun u hu _ => ?_
  split
  · exact warranted_throw trivial
  · next id b hb =>
    obtain ⟨hrow, hname⟩ := byUsername_eq_some hb
    refine rightful_edit fun s _ hseen a ha => ?_
    obtain ⟨-, hsame⟩ := later_admin hu (hseen u (Set.mem_insert u _)) hrow ha
    exact hm _ id a (hsame.trans hname)

theorem rightful_pruneSessions :
    Rightful env .pruneSessions (fun _ _ => True) pruneSessions seen := by
  refine rightful_clock fun v _ _ => rightful_signOut fun s _ hseen h row _ hgone => ?_
  exact lt_of_lt_of_le (of_decide_eq_true hgone) (hseen v (Set.mem_insert v _)).now

/-! ## Every request -/

theorem Request.rightful (r : Request) : Rightful env r (fun _ _ => True) (r.task env) ∅ := by
  cases r with
  | login proc body ip userAgent gate =>
      exact warranted_bind (rightful_login proc body ip userAgent gate) fun _ _ _ _ =>
        warranted_pure trivial
  | logout cookie => exact rightful_logout cookie
  | changePassword cookie current next revoke =>
    exact rightful_changePassword cookie current next revoke
  | beginTotp cookie => exact rightful_beginTotp cookie
  | confirmTotp cookie code => exact rightful_confirmTotp cookie code
  | disableTotp cookie code => exact rightful_disableTotp cookie code
  | createAdmin cookie input => exact rightful_createAdmin cookie input
  | updateAdmin cookie id p => exact rightful_updateAdmin_task cookie id p
  | deleteAdmin cookie id => exact rightful_deleteAdmin_task cookie id
  | bulkAdmins cookie ids action => exact rightful_bulkAdmins cookie ids action
  | resetPanelPassword cookie id => exact rightful_resetPanelPassword cookie id
  | createApiKey cookie input => exact rightful_createApiKey cookie input
  | revokeApiKey cookie id => exact rightful_revokeApiKey cookie id
  | apiCall authorization scope => exact rightful_apiCall authorization scope
  | cliResetPassword username password => exact rightful_cliResetPassword username password
  | cliDisable2fa username => exact rightful_cliEdit fun _ _ a ha => ⟨a, rfl, ha, rfl⟩
  | cliUnlock username => exact rightful_cliEdit fun _ _ a ha => ⟨a, rfl, ha, rfl⟩
  | pruneSessions => exact rightful_pruneSessions

/-- A step of a request that has come in since is within its rights. -/
theorem authorised_step {c₀ c : Pool Unit AdminStore AppError}
    (hup : c₀.Upheld (fun _ _ => True) (Sound env) (Later env)) {i : ℕ} {r : Request}
    (hnew : c₀.threads[i]? = some (r.task env)) (hc : Run c₀ c) {u : AdminStore → AdminStore}
    (hi : c.Acts i u) :
    Authorised env r (Pool.Past World (fun _ _ => True) c₀ c) c.store (u c.store) := by
  refine Pool.warranted (Q := fun _ _ => True) (fun b b' h h' => upheld_between hup h h')
    (fun seen seen' s t hsub h => h.mono hsub) (fun p hp => ?_) hc hi
  obtain rfl := Option.some.inj (hnew.symm.trans hp)
  exact r.rightful

end SRPanel.AdminStore
