import SRPanel.Admins.Authority

/-!
# Credentials

`success_earned`: a request that succeeds has shown, while it ran, a session in force or an API key
in force. `dead_credentials`: once a session has ended, or a key is revoked or deleted, no request
that comes in with it succeeds.
-/

namespace SRPanel.AdminStore

open Interleaving

variable {env : AdminEnv} {s t : AdminStore} {seen : Set AdminStore} {α : Type}

/-- The key in the header is that of an account, and both have been in force. -/
def AsKey (env : AdminEnv) (seen : Set AdminStore) (authorization : Option String)
    (scope : ApiScope) : Prop :=
  ∃ text, bearerKey (authorization.getD "") = some text ∧ ∃ u ∈ seen, ∃ k key admin,
    u.byKeyHash (env.sha256 text) = some (k, key, admin) ∧ ∃ v ∈ seen,
    key.refusal admin scope v.now = none

/-- What the success of a request shows. -/
def Request.Shows (env : AdminEnv) (seen : Set AdminStore) : Request → Prop
  | changePassword cookie _ _ _ | beginTotp cookie | confirmTotp cookie _ | disableTotp cookie _
  | createApiKey cookie _ | revokeApiKey cookie _ => ∃ id, AsSelf env seen cookie id
  | createAdmin cookie _ | updateAdmin cookie _ _ | deleteAdmin cookie _ | bulkAdmins cookie _ _ =>
      AsOwner env seen cookie
  | resetPanelPassword cookie id => AsSeller env seen cookie id
  | apiCall authorization scope => AsKey env seen authorization scope
  | _ => True

/-- A result of the procedure comes with `P` of what has been seen. -/
abbrev Shown (env : AdminEnv) (P : Set AdminStore → Prop) (p : AdminProg α)
    (seen : Set AdminStore) : Prop :=
  Warranted (Sound env) (Later env) (fun _ _ _ => True) (fun _ => P) (fun _ _ => True) p seen

/-! ## Who has asked -/

variable {P : Set AdminStore → Prop} {cookie : Option String}

theorem shown_requireAdmin {g : AdminId × Admin → AdminProg α}
    (h : ∀ actor : AdminId × Admin, ∀ u, Opens env u cookie actor.1 actor.2 →
      Shown env P (g actor) (insert u seen)) :
    Shown env P (requireAdmin env cookie >>= g) seen := by
  unfold requireAdmin
  rw [bind_assoc]
  refine warranted_read (fun _ _ => trivial) fun s _ _ => ?_
  cases hfound : cookie.bind fun token => s.sessionAdmin env token with
  | none => exact warranted_throw trivial
  | some actor => exact h actor s hfound

theorem shown_refuseIf {b : Bool} {e : AppError} {g : Unit → AdminProg α}
    (h : b = false → Shown env P (g ()) seen) : Shown env P (refuseIf b e >>= g) seen := by
  unfold refuseIf
  cases b with
  | true => exact warranted_throw trivial
  | false => exact h rfl

/-- Whoever has opened an account goes on to a result. -/
theorem shown_self (g : AdminId × Admin → AdminProg α) :
    Shown env (fun seen => ∃ id, AsSelf env seen cookie id) (requireAdmin env cookie >>= g) seen :=
  shown_requireAdmin fun actor u hopen =>
    warranted_known (P := fun seen => ∃ id, AsSelf env seen cookie id) (fun _ _ hsub h =>
      h.imp fun _ h => h.mono hsub) ⟨actor.1, u, Set.mem_insert u _, actor.2, hopen⟩

theorem shown_owner (g : AdminId × Admin → AdminProg α) :
    Shown env (fun seen => AsOwner env seen cookie) (requireOwner env cookie >>= g) seen := by
  unfold requireOwner
  rw [bind_assoc]
  refine shown_requireAdmin fun actor u hopen => ?_
  rw [bind_assoc]
  refine shown_refuseIf fun hrole => warranted_known (P := fun seen => AsOwner env seen cookie)
    (fun _ _ hsub h => h.mono hsub) ⟨u, Set.mem_insert u _, actor.1, actor.2, hopen, ?_⟩
  simpa using hrole

theorem shown_seller (id : AdminId) : Shown env (fun seen => AsSeller env seen cookie id)
    ((Request.resetPanelPassword cookie id).task env) seen := by
  refine shown_requireAdmin fun actor u hopen => warranted_read (fun _ _ => trivial) fun v _ _ => ?_
  split
  · exact warranted_throw trivial
  · next account haccount =>
    refine shown_refuseIf fun hseller =>
      warranted_known (P := fun seen => AsSeller env seen cookie id)
        (fun _ _ hsub h => h.mono hsub) ?_
    exact asSeller_of_sold (Set.mem_insert_of_mem v (Set.mem_insert u _)) hopen
      (Set.mem_insert v _) haccount hseller

theorem shown_key (authorization : Option String) (scope : ApiScope) :
    Shown env (fun seen => AsKey env seen authorization scope)
      ((Request.apiCall authorization scope).task env) seen := by
  refine warranted_bind (R := fun _ seen => AsKey env seen authorization scope) ?_
    fun _ seen' _ h => warranted_pure h
  unfold authenticateApiKey
  split
  · exact warranted_throw trivial
  · next text htext =>
    refine warranted_read (fun _ _ => trivial) fun u _ _ =>
      warranted_read (fun _ _ => trivial) fun v _ _ => ?_
    split
    · exact warranted_throw trivial
    · next k key admin hfound =>
      split
      · exact warranted_throw trivial
      · next hforce =>
        refine warranted_known (P := fun seen => AsKey env seen authorization scope) ?_ ?_
        · rintro seen seen' hsub ⟨text, htext, u, hu, k, key, admin, hfound, v, hv, hforce⟩
          exact ⟨text, htext, u, hsub hu, k, key, admin, hfound, v, hsub hv, hforce⟩
        · exact ⟨text, htext, u, Set.mem_insert_of_mem v (Set.mem_insert u _), k, key,
            admin, hfound, v, Set.mem_insert v _, hforce⟩

theorem Request.shown (r : Request) :
    Shown env (fun seen => r.Shows env seen) (r.task env) seen := by
  have htrue : ∀ p : AdminProg Unit, Shown env (fun _ => True) p seen := fun p =>
    warranted_known (P := fun _ => True) (fun _ _ _ h => h) trivial
  cases r with
  | changePassword | beginTotp | confirmTotp | disableTotp | createApiKey | revokeApiKey =>
    exact shown_self _
  | createAdmin | updateAdmin | deleteAdmin | bulkAdmins => exact shown_owner _
  | resetPanelPassword cookie id => exact shown_seller id
  | apiCall authorization scope => exact shown_key authorization scope
  | _ => exact htrue _

theorem Request.Shows.mono {seen' : Set AdminStore} (hsub : seen ⊆ seen') {r : Request}
    (h : r.Shows env seen) : r.Shows env seen' := by
  cases r with
  | changePassword | beginTotp | confirmTotp | disableTotp | createApiKey | revokeApiKey =>
      obtain ⟨id, h⟩ := h
      exact ⟨id, h.mono hsub⟩
  | createAdmin | updateAdmin | deleteAdmin | bulkAdmins => exact AsOwner.mono hsub h
  | resetPanelPassword cookie id => exact AsSeller.mono hsub h
  | apiCall authorization scope =>
      obtain ⟨text, htext, u, hu, k, key, admin, hfound, v, hv, hforce⟩ := h
      exact ⟨text, htext, u, hsub hu, k, key, admin, hfound, v, hsub hv, hforce⟩
  | _ => exact trivial

/-! ## Runs -/

theorem shown_since {c₀ c : Pool Unit AdminStore AppError}
    (hup : c₀.Upheld (fun _ _ => True) (Sound env) (Later env)) {i : ℕ} {r : Request}
    (hnew : c₀.threads[i]? = some (r.task env)) (hc : Run c₀ c)
    (hok : c.threads[i]? = some (.ret ())) :
    r.Shows env (Pool.Past World (fun _ _ => True) c₀ c) := by
  have hT : ∀ p, c₀.threads[i]? = some p → Shown env (fun seen => r.Shows env seen) p ∅ := by
    intro p hp
    obtain rfl := Option.some.inj (hnew.symm.trans hp)
    exact r.shown
  obtain ⟨seen, hsub, h⟩ := Pool.answered (fun b b' h h' => upheld_between hup h h') hT hc hok
  exact h.mono hsub

/-- The request comes with the cookie. -/
def Request.Carries (cookie : Option String) : Request → Prop
  | changePassword cookie' _ _ _ | beginTotp cookie' | confirmTotp cookie' _ | disableTotp cookie' _
  | createApiKey cookie' _ | revokeApiKey cookie' _ | createAdmin cookie' _ | updateAdmin cookie' _ _
  | deleteAdmin cookie' _ | bulkAdmins cookie' _ _ | resetPanelPassword cookie' _ =>
    cookie' = cookie
  | _ => False

/-- The request comes with what was a credential of the accounts `s` and is none of `t` any more. -/
def Request.Dead (env : AdminEnv) (s t : AdminStore) (r : Request) : Prop :=
  (∃ token row, r.Carries (some token) ∧ s.sessions.get? (env.sha256 token) = some row ∧
    t.sessions.get? (env.sha256 token) = none) ∨
  ∃ authorization scope text k key, r = .apiCall authorization scope ∧
    bearerKey (authorization.getD "") = some text ∧ s.apiKeys.get? k = some key ∧
    key.keyHash = env.sha256 text ∧
    ∀ b, t.apiKeys.get? k = some b → b.revokedAt.isSome

/-- Whoever carries a cookie and succeeds has opened an account with it. -/
theorem Request.Shows.opens {r : Request} {cookie : Option String} (h : r.Shows env seen)
    (hc : r.Carries cookie) : ∃ u ∈ seen, ∃ id a, Opens env u cookie id a := by
  cases r with
  | changePassword | beginTotp | confirmTotp | disableTotp | createApiKey | revokeApiKey =>
      obtain rfl := hc
      obtain ⟨id, u, hu, a, ha⟩ := h
      exact ⟨u, hu, id, a, ha⟩
  | createAdmin | updateAdmin | deleteAdmin | bulkAdmins =>
      obtain rfl := hc
      obtain ⟨u, hu, id, a, ha, -⟩ := h
      exact ⟨u, hu, id, a, ha⟩
  | resetPanelPassword cookie' id =>
      obtain rfl := hc
      obtain ⟨u, hu, actor, a, ha, -⟩ := h
      exact ⟨u, hu, actor, a, ha⟩
  | _ => exact hc.elim

/-- A key that is revoked or gone is not one that opens an account later. -/
theorem Later.dead_key (hd : env.Distinct) (hs : Sound env s) {u v : AdminStore}
    (ht : Later env s t) (hu : Later env t u) {k k' : ApiKeyId} {key key' : ApiKey}
    (hk : s.apiKeys.get? k = some key)
    (hdead : ∀ b, t.apiKeys.get? k = some b → b.revokedAt.isSome)
    (hk' : u.apiKeys.get? k' = some key')
    (hhash : key'.keyHash = key.keyHash) {admin : Admin} {scope : ApiScope} :
    key'.refusal admin scope v.now ≠ none := by
  have hrevoked : key'.revokedAt.isSome := by
    obtain ⟨hlt, ⟨n, hn, hdraw⟩, -⟩ := hs.key k key hk
    rcases (ht.trans hu).key k' key' hk' with ⟨a, ha, -, hsame, -⟩ | ⟨-, m, hm, hdraw'⟩
    · obtain rfl := hs.keyHash k' k a key ha hk (hsame.symm.trans hhash)
      rcases hu.key k' key' hk' with ⟨b, hb, -, -, hrev⟩ | ⟨hge, -⟩
      · exact hrev (hdead b hb)
      · exact absurd (hlt.trans_le ht.nextKey) hge.not_gt
    -- its hash would have been drawn later
    · have heq := hd.key n m (hdraw.symm.trans (hhash.symm.trans hdraw'))
      omega
  rw [ApiKey.refusal, if_pos hrevoked]
  exact fun h => by cases h

/-- In every run, a request that comes in with a session that has ended, or with an API key that is
revoked or deleted, does not succeed, whatever others do. -/
theorem dead_credentials (hd : env.Distinct) {now : ℤ} {requests : List Request}
    {c₀ c₁ c₂ : Pool Unit AdminStore AppError} (h₀ : Run (install env now requests) c₀)
    (h₁ : Run c₀ c₁) {i : ℕ}
    {r : Request} (hnew : c₁.threads[i]? = some (r.task env)) (hdead : r.Dead env c₀.store c₁.store)
    (h₂ : Run c₁ c₂) : c₂.threads[i]? ≠ some (.ret ()) := by
  intro hok
  obtain ⟨hc₀, -⟩ := upheld_run (upheld_install hd now requests) h₀
  obtain ⟨hc₁, hl₁⟩ := upheld_run hc₀ h₁
  have hshown := shown_since hc₁ hnew h₂ hok
  rcases hdead with ⟨token, row, hcarries, hrow, hgone⟩ | ⟨authorization, scope, text, k, key, rfl,
      htext, hk, hhash, hrev⟩
  · obtain ⟨u, ⟨b, hb, -, rfl⟩, id, a, hopen⟩ := hshown.opens hcarries
    have hover := (hc₀.1.known hrow).over hl₁ hgone (upheld_run hc₁ hb).2
    obtain ⟨row', hrow', -⟩ := @sessionAdmin_row env b.store token id a hopen
    rw [hover] at hrow'
    cases hrow'
  · obtain ⟨text', htext', u, ⟨b, hb, -, rfl⟩, k', key', admin, hfound, v, -, hforce⟩ := hshown
    obtain rfl := Option.some.inj (htext.symm.trans htext')
    obtain ⟨hk', hhash', -⟩ := byKeyHash_row hfound
    exact hl₁.dead_key hd hc₀.1 (upheld_run hc₁ hb).2 hk hrev hk' (hhash'.trans hhash.symm) hforce

theorem dead_credentials_visit :
    (Pool.schedule [2, 2, 2] (Pool.schedule [1] visited)).threads[2]? ≠ some (.ret ()) := by
  have hnew : (Pool.schedule [1] visited).threads[2]? =
      some ((Request.changePassword
        (some "tt") "owner-password" "a-new-password" true).task plainEnv) := rfl
  have hrow : visited.store.sessions.get? (plainEnv.sha256 "tt") =
      some ⟨0, none, none, 2592000000⟩ := by decide +kernel
  have hgone : (Pool.schedule [1] visited).store.sessions.get? (plainEnv.sha256 "tt") = none :=
    by decide +kernel
  exact dead_credentials plainEnv_distinct visited_run (Pool.schedule_run_free _ [1] _) hnew
    (.inl ⟨"tt", _, rfl, hrow, hgone⟩) (Pool.schedule_run_free _ [2, 2, 2] _)

end SRPanel.AdminStore
