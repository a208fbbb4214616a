import SRPanel.Lib.Rely
import SRPanel.Model.Admins

/-!
# What a step does to the accounts

`Change` lists what one step of a request can do. It keeps the accounts `Sound`, and between two
moments of a run the accounts are `Later`: ids, tokens and keys are never used again, and nobody's
role or username changes.
-/

namespace SRPanel

open Interleaving Prog

/-- The hash of the `n`-th token. -/
def AdminEnv.tokenHash (env : AdminEnv) (n : ℕ) : String := env.sha256 (env.randomToken 32 n)

/-- The hash of the API key that is made of the `n`-th draw. -/
def AdminEnv.keyHash (env : AdminEnv) (n : ℕ) : String :=
  env.sha256 ("srp_" ++ env.randomToken 30 n)

/-- No two tokens that are drawn have the same hash. -/
structure AdminEnv.Distinct (env : AdminEnv) : Prop where
  token : ∀ m n, env.tokenHash m = env.tokenHash n → m = n
  key : ∀ m n, env.keyHash m = env.keyHash n → m = n

namespace AdminStore

variable {env : AdminEnv} {s t u : AdminStore}

/-- The rows refer to rows that exist, and what is unique is held once. -/
structure Sound (env : AdminEnv) (s : AdminStore) : Prop where
  admin : ∀ id a, s.admins.get? id = some a → id < s.nextAdmin
  username : ∀ i j a b, s.admins.get? i = some a → s.admins.get? j = some b →
    a.username = b.username → i = j
  session : ∀ h row, s.sessions.get? h = some row →
    (∃ n < s.drawn, h = env.tokenHash n) ∧ (s.admins.get? row.adminId).isSome
  key : ∀ k key, s.apiKeys.get? k = some key →
    k < s.nextKey ∧ (∃ n < s.drawn, key.keyHash = env.keyHash n) ∧
    (s.admins.get? key.adminId).isSome
  keyHash : ∀ j k a b, s.apiKeys.get? j = some a → s.apiKeys.get? k = some b →
    a.keyHash = b.keyHash → j = k

/-- What is known of the accounts at a later moment: what has gone does not come back, and what is
still there is the same account, session or key. -/
structure Later (env : AdminEnv) (s t : AdminStore) : Prop where
  now : s.now ≤ t.now
  drawn : s.drawn ≤ t.drawn
  nextAdmin : s.nextAdmin ≤ t.nextAdmin
  nextKey : s.nextKey ≤ t.nextKey
  admin : ∀ id < s.nextAdmin, ∀ b, t.admins.get? id = some b →
    ∃ a, s.admins.get? id = some a ∧ b.role = a.role ∧ b.username = a.username
  session : ∀ n < s.drawn, ∀ row, t.sessions.get? (env.tokenHash n) = some row →
    s.sessions.get? (env.tokenHash n) = some row
  key : ∀ k b, t.apiKeys.get? k = some b →
    (∃ a, s.apiKeys.get? k = some a ∧ b.adminId = a.adminId ∧ b.keyHash = a.keyHash ∧
      (a.revokedAt.isSome → b.revokedAt.isSome)) ∨
    s.nextKey ≤ k ∧ ∃ n, s.drawn ≤ n ∧ b.keyHash = env.keyHash n

theorem Later.refl (s : AdminStore) : Later env s s where
  now := le_rfl
  drawn := le_rfl
  nextAdmin := le_rfl
  nextKey := le_rfl
  admin := fun _ _ a ha => ⟨a, ha, rfl, rfl⟩
  session := fun _ _ _ h => h
  key := fun _ a ha => .inl ⟨a, ha, rfl, rfl, id⟩

theorem Later.trans (h : Later env s t) (h' : Later env t u) : Later env s u where
  now := h.now.trans h'.now
  drawn := h.drawn.trans h'.drawn
  nextAdmin := h.nextAdmin.trans h'.nextAdmin
  nextKey := h.nextKey.trans h'.nextKey
  admin := fun id hid c hc => by
    obtain ⟨b, hb, hrole, hname⟩ := h'.admin id (hid.trans_le h.nextAdmin) c hc
    obtain ⟨a, ha, hrole', hname'⟩ := h.admin id hid b hb
    exact ⟨a, ha, hrole.trans hrole', hname.trans hname'⟩
  session := fun n hn row hrow => h.session n hn row (h'.session n (hn.trans_le h.drawn) row hrow)
  key := fun k c hc => by
    rcases h'.key k c hc with ⟨b, hb, hid, hhash, hrev⟩ | ⟨hk, n, hn, hhash⟩
    · rcases h.key k b hb with ⟨a, ha, hid', hhash', hrev'⟩ | ⟨hk, n, hn, hhash'⟩
      · exact .inl ⟨a, ha, hid.trans hid', hhash.trans hhash', fun hr => hrev (hrev' hr)⟩
      · exact .inr ⟨hk, n, hn, hhash.trans hhash'⟩
    · exact .inr ⟨h.nextKey.trans hk, n, h.drawn.trans hn, hhash⟩

instance : IsPreorder AdminStore (Later env) where
  refl := Later.refl
  trans _ _ _ := Later.trans

/-! ## Steps -/

/-- What one step of a request does. -/
inductive Change (env : AdminEnv) : AdminStore → AdminStore → Prop
  | idle (s : AdminStore) : Change env s s
  | ensured (s : AdminStore) (proc : ℕ) (b : Bool) :
      Change env s { s with ensured := Function.update s.ensured proc b }
  | enrol {s : AdminStore} (a : Admin) (grants : List (ServerId × List ℕ)) :
      s.byUsername a.username = none → Change env s { s with
        admins := s.admins.set s.nextAdmin a
        access := s.access.set s.nextAdmin grants
        nextAdmin := s.nextAdmin + 1
        drawn := s.drawn + 1 }
  | edit {s : AdminStore} {id : AdminId} {a : Admin} (b : Admin)
      (access : Table AdminId (List (ServerId × List ℕ))) : s.admins.get? id = some a →
      b.role = a.role → b.username = a.username →
      Change env s { s with admins := s.admins.set id b, access := access, drawn := s.drawn + 1 }
  | signIn {s : AdminStore} (row : Session) : (s.admins.get? row.adminId).isSome →
      Change env s { s with
        sessions := s.sessions.set (env.tokenHash s.drawn) row, drawn := s.drawn + 1 }
  | signOut (s : AdminStore) (gone : String → Session → Bool) : Change env s (s.signOut gone)
  | reset {s : AdminStore} {id : AdminId} {a : Admin} (b : Admin) (gone : String → Session → Bool) :
      s.admins.get? id = some a → b.role = a.role → b.username = a.username →
      Change env s { s.signOut gone with admins := s.admins.set id b, drawn := s.drawn + 1 }
  | drop (s : AdminStore) (id : AdminId) : Change env s (s.dropAdmin id)
  | newKey {s : AdminStore} (key : ApiKey) : (s.admins.get? key.adminId).isSome →
      key.keyHash = env.keyHash s.drawn →
      (∀ k row, s.apiKeys.get? k = some row → row.keyHash ≠ key.keyHash) →
      Change env s { s with
        apiKeys := s.apiKeys.set s.nextKey key, nextKey := s.nextKey + 1, drawn := s.drawn + 1 }
  | editKey {s : AdminStore} {k : ApiKeyId} {a : ApiKey} (b : ApiKey) : s.apiKeys.get? k = some a →
      b.adminId = a.adminId → b.keyHash = a.keyHash → (a.revokedAt.isSome → b.revokedAt.isSome) →
      Change env s { s with apiKeys := s.apiKeys.set k b }

theorem Change.refl (s : AdminStore) : Change env s s := .idle s

theorem byUsername_eq_none {name : String} (h : s.byUsername name = none) {id : AdminId} {a : Admin}
    (ha : s.admins.get? id = some a) : a.username ≠ name := by
  unfold byUsername at h
  rw [List.find?_eq_none] at h
  have hne := h (id, a) ((s.admins.mem_rows_iff id a).mpr ha)
  rintro rfl
  exact hne (decide_eq_true rfl)

theorem byUsername_eq_some {name : String} {id : AdminId} {a : Admin}
    (h : s.byUsername name = some (id, a)) : s.admins.get? id = some a ∧ a.username = name := by
  unfold byUsername at h
  refine ⟨(s.admins.mem_rows_iff id a).mp (List.mem_of_find?_eq_some h), ?_⟩
  have hname := List.find?_some h
  exact of_decide_eq_true hname

/-- In sound accounts a username finds its admin. -/
theorem Sound.byUsername (h : Sound env s) {id : AdminId} {a : Admin}
    (ha : s.admins.get? id = some a) : s.byUsername a.username = some (id, a) := by
  cases hf : s.byUsername a.username with
  | none => exact absurd rfl (byUsername_eq_none hf ha)
  | some r =>
      obtain ⟨j, b⟩ := r
      obtain ⟨hb, hname⟩ := byUsername_eq_some hf
      obtain rfl := h.username j id b a hb ha hname
      obtain rfl : b = a := Option.some.inj (hb.symm.trans ha)
      rfl

/-- What opens an account is a session of it. -/
theorem sessionAdmin_row {token : String} {id : AdminId} {a : Admin}
    (h : s.sessionAdmin env token = some (id, a)) :
      ∃ row, s.sessions.get? (env.sha256 token) = some row ∧ token ≠ "" ∧ row.adminId = id ∧
      s.admins.get? id = some a ∧ a.isActive ∧ s.now ≤ row.expiresAt := by
  unfold sessionAdmin at h
  split at h
  · cases h
  · next htoken =>
    split at h
    · cases h
    · next row hrow =>
      split at h
      · cases h
      · next b hb =>
        split at h
        · cases h
        · next hc =>
          obtain ⟨rfl, rfl⟩ : row.adminId = id ∧ b = a := by simpa using h
          simp only [Bool.or_eq_true, not_or, Bool.not_eq_true, decide_eq_true_eq,
            Bool.not_eq_false'] at hc
          exact ⟨row, hrow, htoken, rfl, hb, hc.2, not_lt.mp hc.1⟩

theorem sessionAdmin_eq {token : String} {a : Admin} {row : Session}
    (hrow : s.sessions.get? (env.sha256 token) = some row) (htoken : token ≠ "")
    (ha : s.admins.get? row.adminId = some a) (hactive : a.isActive)
    (hnow : s.now ≤ row.expiresAt) :
    s.sessionAdmin env token = some (row.adminId, a) := by
  unfold sessionAdmin
  rw [if_neg htoken, hrow]
  dsimp only
  rw [ha]
  simp [hactive, hnow]

@[simp] theorem signOut_get? (gone : String → Session → Bool) (h : String) :
    (s.signOut gone).sessions.get? h = (s.sessions.get? h).filter fun row => !gone h row := by
  change (s.sessions.keep _).get? h = _
  rw [Table.get?_keep]
  cases s.sessions.get? h with
  | none => rw [ite_self]; rfl
  | some row =>
      rw [Option.any_some]
      cases hg : gone h row with
      | true => simp [Option.filter, hg]
      | false => simp [Option.filter, hg]

theorem signOut_some {gone : String → Session → Bool} {h : String} {row : Session}
    (hrow : (s.signOut gone).sessions.get? h = some row) :
    s.sessions.get? h = some row ∧ gone h row = false := by
  rw [signOut_get?, Option.filter_eq_some_iff] at hrow
  exact ⟨hrow.1, by simpa using hrow.2⟩

/-- The keys of a deleted account are gone with it. -/
theorem dropAdmin_key {id : AdminId} {k : ApiKeyId} {key : ApiKey}
    (h : (s.dropAdmin id).apiKeys.get? k = some key) :
    s.apiKeys.get? k = some key ∧ key.adminId ≠ id := by
  change (s.apiKeys.keep _).get? k = some key at h
  rw [Table.get?_keep] at h
  split at h
  · next hk =>
    refine ⟨h, fun hid => ?_⟩
    rw [h] at hk
    simp [hid] at hk
  · cases h

/-- So are its sessions. -/
theorem dropAdmin_session {id : AdminId} {h : String} {row : Session}
    (hrow : (s.dropAdmin id).sessions.get? h = some row) :
    s.sessions.get? h = some row ∧ row.adminId ≠ id := by
  obtain ⟨hs, hgone⟩ := @signOut_some s (fun _ row => row.adminId = id) _ _ hrow
  exact ⟨hs, by simpa using hgone⟩

theorem dropAdmin_admin {id i : AdminId} (hne : i ≠ id) :
    (s.dropAdmin id).admins.get? i = s.admins.get? i := by
  change (s.admins.erase id).get? i = _
  rw [Table.get?_erase, if_neg hne]

/-! ## Soundness is kept -/

/-- Accounts with the same admins, sessions and keys are as sound. -/
theorem Sound.same (h : Sound env s) (hadmins : t.admins = s.admins)
    (hsessions : t.sessions = s.sessions) (hkeys : t.apiKeys = s.apiKeys)
    (hnext : s.nextAdmin ≤ t.nextAdmin) (hkey : s.nextKey ≤ t.nextKey)
    (hdrawn : s.drawn ≤ t.drawn) : Sound env t where
  admin := fun id a ha => (h.admin id a (hadmins ▸ ha)).trans_le hnext
  username := fun i j a b ha hb => h.username i j a b (hadmins ▸ ha) (hadmins ▸ hb)
  session := fun i row hrow => by
    obtain ⟨⟨n, hn, hi⟩, hadmin⟩ := h.session i row (hsessions ▸ hrow)
    exact ⟨⟨n, hn.trans_le hdrawn, hi⟩, by rw [hadmins]; exact hadmin⟩
  key := fun k key hk => by
    obtain ⟨hlt, ⟨n, hn, hhash⟩, hadmin⟩ := h.key k key (hkeys ▸ hk)
    exact ⟨hlt.trans_le hkey, ⟨n, hn.trans_le hdrawn, hhash⟩, by rw [hadmins]; exact hadmin⟩
  keyHash := fun j k a b ha hb => h.keyHash j k a b (hkeys ▸ ha) (hkeys ▸ hb)

/-- A new account. -/
theorem Sound.enrol (h : Sound env s) {a : Admin} (hname : s.byUsername a.username = none)
    (hadmins : t.admins = s.admins.set s.nextAdmin a) (hsessions : t.sessions = s.sessions)
    (hkeys : t.apiKeys = s.apiKeys) (hnext : t.nextAdmin = s.nextAdmin + 1)
    (hkey : t.nextKey = s.nextKey)
    (hdrawn : s.drawn ≤ t.drawn) : Sound env t := by
  have hfresh : ∀ id, (s.admins.get? id).isSome → id ≠ s.nextAdmin := by
    rintro id hid rfl
    obtain ⟨b, hb⟩ := Option.isSome_iff_exists.mp hid
    exact lt_irrefl _ (h.admin _ b hb)
  have hkept : ∀ id, (s.admins.get? id).isSome → (t.admins.get? id).isSome := by
    intro id hid
    rw [hadmins, Table.get?_set, if_neg (hfresh id hid)]
    exact hid
  constructor
  case admin =>
    intro id b hb
    rw [hadmins, Table.get?_set] at hb
    rw [hnext]
    split at hb
    · next heq => rw [heq]; exact Nat.lt_succ_self _
    · exact (h.admin id b hb).trans (Nat.lt_succ_self _)
  case username =>
    intro i j b c hb hc heq
    rw [hadmins, Table.get?_set] at hb hc
    split at hb <;> split at hc
    · next hi hj => rw [hi, hj]
    · next hi hj =>
      obtain rfl := Option.some.inj hb
      exact absurd heq.symm (byUsername_eq_none hname hc)
    · next hi hj =>
      obtain rfl := Option.some.inj hc
      exact absurd heq (byUsername_eq_none hname hb)
    · exact h.username i j b c hb hc heq
  case session =>
    intro i row hrow
    rw [hsessions] at hrow
    obtain ⟨⟨n, hn, hi⟩, hadmin⟩ := h.session i row hrow
    exact ⟨⟨n, hn.trans_le hdrawn, hi⟩, hkept _ hadmin⟩
  case key =>
    intro k key hk
    rw [hkeys] at hk
    obtain ⟨hlt, ⟨n, hn, hhash⟩, hadmin⟩ := h.key k key hk
    exact ⟨by rw [hkey]; exact hlt, ⟨n, hn.trans_le hdrawn, hhash⟩, hkept _ hadmin⟩
  case keyHash =>
    intro j k a b ha hb
    rw [hkeys] at ha hb
    exact h.keyHash j k a b ha hb

/-- An account is edited, and some sessions end. -/
theorem Sound.edit (h : Sound env s) {id : AdminId} {a b : Admin} (ha : s.admins.get? id = some a)
    (hname : b.username = a.username) (hadmins : t.admins = s.admins.set id b)
    (hsessions : ∀ i row, t.sessions.get? i = some row → s.sessions.get? i = some row)
    (hkeys : t.apiKeys = s.apiKeys) (hnext : t.nextAdmin = s.nextAdmin)
    (hkey : t.nextKey = s.nextKey)
    (hdrawn : s.drawn ≤ t.drawn) : Sound env t := by
  have hkept : ∀ i, (s.admins.get? i).isSome → (t.admins.get? i).isSome := by
    intro i hi
    rw [hadmins, Table.get?_set]
    split
    · rfl
    · exact hi
  -- every account is there as before, under its name
  have hrow : ∀ i c, t.admins.get? i = some c →
      ∃ d, s.admins.get? i = some d ∧ c.username = d.username := by
    intro i c hc
    rw [hadmins, Table.get?_set] at hc
    split at hc
    · next hi =>
      obtain rfl := Option.some.inj hc
      exact ⟨a, by rw [hi]; exact ha, hname⟩
    · exact ⟨c, hc, rfl⟩
  constructor
  case admin =>
    intro i c hc
    obtain ⟨d, hd, -⟩ := hrow i c hc
    rw [hnext]
    exact h.admin i d hd
  case username =>
    intro i j c c' hc hc' heq
    obtain ⟨d, hd, hcd⟩ := hrow i c hc
    obtain ⟨d', hd', hcd'⟩ := hrow j c' hc'
    exact h.username i j d d' hd hd' (hcd ▸ hcd' ▸ heq)
  case session =>
    intro i row hi
    obtain ⟨⟨n, hn, hi'⟩, hadmin⟩ := h.session i row (hsessions i row hi)
    exact ⟨⟨n, hn.trans_le hdrawn, hi'⟩, hkept _ hadmin⟩
  case key =>
    intro k key hk
    rw [hkeys] at hk
    obtain ⟨hlt, ⟨n, hn, hhash⟩, hadmin⟩ := h.key k key hk
    exact ⟨by rw [hkey]; exact hlt, ⟨n, hn.trans_le hdrawn, hhash⟩, hkept _ hadmin⟩
  case keyHash =>
    intro j k a b ha hb
    rw [hkeys] at ha hb
    exact h.keyHash j k a b ha hb

theorem Sound.signIn (h : Sound env s) {row : Session}
    (hadmin : (s.admins.get? row.adminId).isSome) :
    Sound env { s with sessions := s.sessions.set (env.tokenHash s.drawn) row, drawn := s.drawn +
      1 } where
  admin := h.admin
  username := h.username
  session := fun i r hr => by
    rw [Table.get?_set] at hr
    split at hr
    · next hi =>
      obtain rfl := Option.some.inj hr
      exact ⟨⟨s.drawn, Nat.lt_succ_self _, hi⟩, hadmin⟩
    · obtain ⟨⟨n, hn, hi⟩, hsome⟩ := h.session i r hr
      exact ⟨⟨n, hn.trans (Nat.lt_succ_self _), hi⟩, hsome⟩
  key := fun k key hk => by
    obtain ⟨hlt, ⟨n, hn, hhash⟩, hsome⟩ := h.key k key hk
    exact ⟨hlt, ⟨n, hn.trans (Nat.lt_succ_self _), hhash⟩, hsome⟩
  keyHash := h.keyHash

theorem Sound.signOut (h : Sound env s) (gone : String → Session → Bool) :
    Sound env (s.signOut gone) where
  admin := h.admin
  username := h.username
  session := fun i row hrow => h.session i row (signOut_some hrow).1
  key := h.key
  keyHash := h.keyHash

theorem Sound.drop (h : Sound env s) (id : AdminId) : Sound env (s.dropAdmin id) := by
  have hrow : ∀ i c, (s.dropAdmin id).admins.get? i = some c → s.admins.get? i = some c := by
    intro i c hc
    by_cases hi : i = id
    · subst hi
      change (s.admins.erase i).get? i = some c at hc
      rw [Table.get?_erase, if_pos rfl] at hc
      cases hc
    · rwa [dropAdmin_admin hi] at hc
  constructor
  case admin => exact fun i c hc => h.admin i c (hrow i c hc)
  case username => exact fun i j a b ha hb => h.username i j a b (hrow i a ha) (hrow j b hb)
  case session =>
    intro i row hi
    obtain ⟨hs, hne⟩ := dropAdmin_session hi
    obtain ⟨hn, hadmin⟩ := h.session i row hs
    exact ⟨hn, by rw [dropAdmin_admin hne]; exact hadmin⟩
  case key =>
    intro k key hk
    obtain ⟨hs, hne⟩ := dropAdmin_key hk
    obtain ⟨hlt, hhash, hadmin⟩ := h.key k key hs
    exact ⟨hlt, hhash, by rw [dropAdmin_admin hne]; exact hadmin⟩
  case keyHash =>
    exact fun j k a b ha hb => h.keyHash j k a b (dropAdmin_key ha).1 (dropAdmin_key hb).1

theorem Sound.newKey (h : Sound env s) {key : ApiKey} (hadmin : (s.admins.get? key.adminId).isSome)
    (hdraw : key.keyHash = env.keyHash s.drawn)
    (hhash : ∀ k row, s.apiKeys.get? k = some row → row.keyHash ≠ key.keyHash) :
    Sound env { s with
      apiKeys := s.apiKeys.set s.nextKey key, nextKey := s.nextKey + 1, drawn := s.drawn + 1 } where
  admin := h.admin
  username := h.username
  session := fun i row hrow => by
    obtain ⟨⟨n, hn, hi⟩, hsome⟩ := h.session i row hrow
    exact ⟨⟨n, hn.trans (Nat.lt_succ_self _), hi⟩, hsome⟩
  key := fun k row hrow => by
    rw [Table.get?_set] at hrow
    split at hrow
    · next hk =>
      obtain rfl := Option.some.inj hrow
      exact ⟨by rw [hk]; exact Nat.lt_succ_self _, ⟨s.drawn, Nat.lt_succ_self _, hdraw⟩, hadmin⟩
    · obtain ⟨hlt, ⟨n, hn, hhash⟩, hsome⟩ := h.key k row hrow
      exact ⟨hlt.trans (Nat.lt_succ_self _), ⟨n, hn.trans (Nat.lt_succ_self _), hhash⟩, hsome⟩
  keyHash := fun j k a b ha hb heq => by
    rw [Table.get?_set] at ha hb
    split at ha <;> split at hb
    · next hj hk => rw [hj, hk]
    · obtain rfl := Option.some.inj ha
      exact absurd heq.symm (hhash k b hb)
    · obtain rfl := Option.some.inj hb
      exact absurd heq (hhash j a ha)
    · exact h.keyHash j k a b ha hb heq

theorem Sound.editKey (h : Sound env s) {i : ApiKeyId} {a b : ApiKey}
    (ha : s.apiKeys.get? i = some a) (hadmin : b.adminId = a.adminId)
    (hhash : b.keyHash = a.keyHash) :
    Sound env { s with apiKeys := s.apiKeys.set i b } := by
  have hrow : ∀ k c, (s.apiKeys.set i b).get? k = some c →
      ∃ d, s.apiKeys.get? k = some d ∧ c.adminId = d.adminId ∧ c.keyHash = d.keyHash := by
    intro k c hc
    rw [Table.get?_set] at hc
    split at hc
    · next hk =>
      obtain rfl := Option.some.inj hc
      exact ⟨a, by rw [hk]; exact ha, hadmin, hhash⟩
    · exact ⟨c, hc, rfl, rfl⟩
  constructor
  case admin => exact h.admin
  case username => exact h.username
  case session => exact h.session
  case key =>
    intro k c hc
    obtain ⟨d, hd, hid, hcd⟩ := hrow k c hc
    obtain ⟨hlt, ⟨n, hn, hdraw⟩, hsome⟩ := h.key k d hd
    exact ⟨hlt, ⟨n, hn, hcd.trans hdraw⟩, hid ▸ hsome⟩
  case keyHash =>
    intro j k c c' hc hc' heq
    obtain ⟨d, hd, -, hcd⟩ := hrow j c hc
    obtain ⟨d', hd', -, hcd'⟩ := hrow k c' hc'
    exact h.keyHash j k d d' hd hd' (hcd ▸ hcd' ▸ heq)

/-- A step keeps the accounts sound. -/
theorem Change.sound (h : Change env s t) (hs : Sound env s) : Sound env t := by
  cases h with
  | idle => exact hs
  | ensured proc b => exact hs.same rfl rfl rfl le_rfl le_rfl le_rfl
  | enrol a grants hname => exact hs.enrol hname rfl rfl rfl rfl rfl (Nat.le_succ _)
  | edit b access ha _ hname =>
    exact hs.edit ha hname rfl (fun _ _ h => h) rfl rfl rfl (Nat.le_succ _)
  | signIn row hadmin => exact hs.signIn hadmin
  | signOut gone => exact hs.signOut gone
  | reset b gone ha _ hname =>
      exact hs.edit ha hname rfl (fun _ _ h => (signOut_some h).1) rfl rfl rfl (Nat.le_succ _)
  | drop id => exact hs.drop id
  | newKey key hadmin hdraw hhash => exact hs.newKey hadmin hdraw hhash
  | editKey b ha hadmin hhash _ => exact hs.editKey ha hadmin hhash

/-- So do the changes of others. -/
theorem World.sound (h : World s t) (hs : Sound env s) : Sound env t := by
  cases h with
  | wait ms => exact hs.same rfl rfl rfl le_rfl le_rfl le_rfl
  | restart proc => exact hs.same rfl rfl rfl le_rfl le_rfl le_rfl
  | servers f access => exact hs.same rfl rfl rfl le_rfl le_rfl le_rfl
  | clients f => exact hs.same rfl rfl rfl le_rfl le_rfl le_rfl
  | sold accounts => exact hs.same rfl rfl rfl le_rfl le_rfl le_rfl
  | sell a grants _ hname => exact hs.enrol hname rfl rfl rfl rfl rfl le_rfl
  | topUp id a quota limit expiresAt telegramId ha _ =>
      exact hs.edit (b := { a with
        trafficQuota := quota, clientLimit := limit, expiresAt := expiresAt, isActive := true
        telegramId := telegramId }) ha rfl rfl (fun _ _ h => h) rfl rfl rfl le_rfl

/-- A new panel is sound. -/
theorem sound_start (now : ℤ) : Sound env (start now) where
  admin := fun id a ha => by cases ha
  username := fun i j a b ha => by cases ha
  session := fun h row hrow => by cases hrow
  key := fun k key hk => by cases hk
  keyHash := fun j k a b ha => by cases ha

/-! ## Nothing comes back -/

/-- Accounts that have moved on without a new admin, session or key. -/
theorem Later.of_same (hnow : s.now ≤ t.now) (hdrawn : s.drawn ≤ t.drawn)
    (hnext : s.nextAdmin ≤ t.nextAdmin) (hkey : s.nextKey = t.nextKey)
    (hadmin : ∀ id < s.nextAdmin, ∀ b, t.admins.get? id = some b →
      ∃ a, s.admins.get? id = some a ∧ b.role = a.role ∧ b.username = a.username)
    (hsession : ∀ h row, t.sessions.get? h = some row → s.sessions.get? h = some row)
    (hkeys : ∀ k b, t.apiKeys.get? k = some b → s.apiKeys.get? k = some b) : Later env s t where
  now := hnow
  drawn := hdrawn
  nextAdmin := hnext
  nextKey := hkey.le
  admin := hadmin
  session := fun _ _ row hrow => hsession _ row hrow
  key := fun k b hb => .inl ⟨b, hkeys k b hb, rfl, rfl, fun h => h⟩

theorem kept_admins (hadmins : t.admins = s.admins) :
    ∀ id < s.nextAdmin, ∀ b, t.admins.get? id = some b →
      ∃ a, s.admins.get? id = some a ∧ b.role = a.role ∧ b.username = a.username :=
  fun _ _ b hb => ⟨b, hadmins ▸ hb, rfl, rfl⟩

theorem enrolled_admins {a : Admin} (hadmins : t.admins = s.admins.set s.nextAdmin a) :
    ∀ id < s.nextAdmin, ∀ b, t.admins.get? id = some b →
      ∃ a, s.admins.get? id = some a ∧ b.role = a.role ∧ b.username = a.username := by
  intro id hid b hb
  rw [hadmins, Table.get?_set, if_neg hid.ne] at hb
  exact ⟨b, hb, rfl, rfl⟩

theorem edited_admins {i : AdminId} {a b : Admin} (ha : s.admins.get? i = some a)
    (hrole : b.role = a.role) (hname : b.username = a.username)
    (hadmins : t.admins = s.admins.set i b) :
    ∀ id < s.nextAdmin, ∀ b, t.admins.get? id = some b →
      ∃ a, s.admins.get? id = some a ∧ b.role = a.role ∧ b.username = a.username := by
  intro id _ c hc
  rw [hadmins, Table.get?_set] at hc
  split at hc
  · next hid =>
    obtain rfl := Option.some.inj hc
    exact ⟨a, by rw [hid]; exact ha, hrole, hname⟩
  · exact ⟨c, hc, rfl, rfl⟩

/-- A step leads to a later moment. -/
theorem Change.later (hd : env.Distinct) (h : Change env s t) : Later env s t := by
  -- rows stay, tokens and ids are drawn anew, and `drop` alone takes an account away
  cases h with
  | idle => exact Later.refl s
  | ensured proc b =>
      exact .of_same le_rfl le_rfl le_rfl rfl (kept_admins rfl) (fun _ _ h => h) fun _ _ h => h
  | enrol a grants hname =>
      exact .of_same le_rfl (Nat.le_succ _) (Nat.le_succ _) rfl (enrolled_admins rfl)
        (fun _ _ h => h) fun _ _ h => h
  | edit b access ha hrole hname =>
      exact .of_same le_rfl (Nat.le_succ _) le_rfl rfl (edited_admins ha hrole hname rfl)
        (fun _ _ h => h) fun _ _ h => h
  | signIn row hadmin =>
      refine ⟨le_rfl, Nat.le_succ _, le_rfl, le_rfl, kept_admins rfl, fun n hn r hr => ?_,
        fun k b hb => .inl ⟨b, hb, rfl, rfl, fun h => h⟩⟩
      have hne : env.tokenHash n ≠ env.tokenHash s.drawn :=
        fun heq => hn.ne (hd.token n s.drawn heq)
      rwa [Table.get?_set, if_neg hne] at hr
  | signOut gone =>
      exact .of_same le_rfl le_rfl le_rfl rfl (kept_admins rfl) (fun _ _ h => (signOut_some h).1)
        fun _ _ h => h
  | reset b gone ha hrole hname =>
      exact .of_same le_rfl (Nat.le_succ _) le_rfl rfl (edited_admins ha hrole hname rfl)
        (fun _ _ h => (signOut_some h).1) fun _ _ h => h
  | drop id =>
      refine .of_same le_rfl le_rfl le_rfl rfl (fun i _ b hb => ?_)
        (fun _ _ h => (dropAdmin_session h).1) fun _ _ h => (dropAdmin_key h).1
      by_cases hi : i = id
      · subst hi
        change (s.admins.erase i).get? i = some b at hb
        rw [Table.get?_erase, if_pos rfl] at hb
        cases hb
      · rw [dropAdmin_admin hi] at hb
        exact ⟨b, hb, rfl, rfl⟩
  | newKey key hadmin hdraw hhash =>
      refine ⟨le_rfl, Nat.le_succ _, le_rfl, Nat.le_succ _, kept_admins rfl, fun _ _ _ h => h,
        fun k b hb => ?_⟩
      rw [Table.get?_set] at hb
      split at hb
      · next hk =>
        obtain rfl := Option.some.inj hb
        exact .inr ⟨hk.ge, s.drawn, le_rfl, hdraw⟩
      · exact .inl ⟨b, hb, rfl, rfl, fun h => h⟩
  | @editKey i a b ha hadmin hhash hrev =>
      refine ⟨le_rfl, le_rfl, le_rfl, le_rfl, kept_admins rfl, fun _ _ _ h => h,
        fun k c hc => .inl ?_⟩
      rw [Table.get?_set] at hc
      split at hc
      · next hki =>
        obtain rfl := Option.some.inj hc
        exact ⟨a, by rw [hki]; exact ha, hadmin, hhash, hrev⟩
      · exact ⟨c, hc, rfl, rfl, fun h => h⟩

theorem World.later (h : World s t) : Later env s t := by
  cases h with
  | wait ms =>
      exact .of_same (by change s.now ≤ s.now + ms; omega) le_rfl le_rfl rfl (kept_admins rfl)
        (fun _ _ h => h) fun _ _ h => h
  | restart proc => exact .of_same le_rfl le_rfl le_rfl rfl (kept_admins rfl) (fun _ _ h => h) fun _ _ h => h
  | servers f access => exact .of_same le_rfl le_rfl le_rfl rfl (kept_admins rfl) (fun _ _ h => h) fun _ _ h => h
  | clients f => exact .of_same le_rfl le_rfl le_rfl rfl (kept_admins rfl) (fun _ _ h => h) fun _ _ h => h
  | sold accounts => exact .of_same le_rfl le_rfl le_rfl rfl (kept_admins rfl) (fun _ _ h => h) fun _ _ h => h
  | sell a grants _ hname =>
      exact .of_same le_rfl le_rfl (Nat.le_succ _) rfl (enrolled_admins rfl)
        (fun _ _ h => h) fun _ _ h => h
  | topUp id a quota limit expiresAt telegramId ha _ =>
      exact .of_same le_rfl le_rfl le_rfl rfl
        (edited_admins (b := { a with
          trafficQuota := quota, clientLimit := limit, expiresAt := expiresAt, isActive := true
          telegramId := telegramId }) ha rfl rfl rfl) (fun _ _ h => h) fun _ _ h => h

/-! ## The requests -/

section Keeps

theorem keeps_query {α : Type} (f : AdminStore → α) :
    (Prog.query () f : AdminProg α).Keeps (Change env) :=
  Prog.keeps_query Change.refl () f

theorem keeps_clock : clock.Keeps (Change env) := keeps_query _

theorem keeps_refuseIf (c : Bool) (e : AppError) : (refuseIf c e).Keeps (Change env) :=
  keeps_ite (keeps_throw e) (keeps_pure ())

theorem keeps_create (row : ℕ → Admin) (grants : List (ServerId × List ℕ)) :
    (create row grants).Keeps (Change env) := by
  refine keeps_step fun s => ?_
  dsimp only
  split
  · exact .idle s
  · next hname =>
    split
    · exact .idle s
    · split
      · exact .idle s
      · exact .enrol (row s.drawn) grants (by simpa using hname)

/-- An edit that leaves role and username alone. -/
theorem keeps_edit (id : AdminId) {f : ℕ → Admin → Admin} (hrole : ∀ n a, (f n a).role = a.role)
    (hname : ∀ n a, (f n a).username = a.username) : (edit id f).Keeps (Change env) := by
  refine keeps_step fun s => ?_
  split
  · exact .idle s
  · next a ha => exact .edit (f s.drawn a) s.access ha (hrole _ a) (hname _ a)

theorem keeps_signOut (gone : String → Session → Bool) :
    (Prog.modify () (signOut gone) : AdminProg Unit).Keeps (Change env) :=
  keeps_modify fun s => .signOut s gone

theorem keeps_ensureOwner (proc : ℕ) : (ensureOwner env proc).Keeps (Change env) := by
  refine keeps_bind (keeps_query _) fun ensured => keeps_ite (keeps_pure ()) ?_
  refine keeps_bind (keeps_query _) fun count => ?_
  have hlast : (Prog.modify () fun s : AdminStore =>
      { s with ensured := Function.update s.ensured proc true } :
        AdminProg Unit).Keeps (Change env) := keeps_modify fun s => .ensured s proc true
  refine keeps_ite ?_ hlast
  exact keeps_bind (keeps_create _ _) fun _ => hlast

theorem keeps_requireAdmin (cookie : Option String) :
    (requireAdmin env cookie).Keeps (Change env) := by
  refine keeps_bind (keeps_query _) fun found => ?_
  cases found with
  | none => exact keeps_throw _
  | some admin => exact keeps_pure _

theorem keeps_requireOwner (cookie : Option String) :
    (requireOwner env cookie).Keeps (Change env) :=
  keeps_bind (keeps_requireAdmin cookie) fun _ =>
    keeps_bind (keeps_refuseIf _ _) fun _ => keeps_pure _

theorem keeps_createSession (id : AdminId) (ip userAgent : Option String) (now : ℤ) :
    (createSession env id ip userAgent now).Keeps (Change env) := by
  refine keeps_step fun s => ?_
  dsimp only
  split
  · exact .idle s
  · next hadmin =>
    split
    · exact .idle s
    · exact .signIn ⟨id, ip, userAgent.map (sliceTo 300), now + LoginStore.SESSION_DAYS * DAY_MS⟩
        (by simpa [Option.isSome_iff_ne_none] using hadmin)

theorem keeps_loginWithPassword (proc : ℕ) (body : LoginBody) (ip userAgent : Option String) :
    (loginWithPassword env proc body ip userAgent).Keeps (Change env) := by
  refine keeps_bind (keeps_ensureOwner proc) fun _ => keeps_bind (keeps_query _) fun found =>
    keeps_bind keeps_clock fun now => ?_
  cases found with
  | none => exact keeps_pure _
  | some admin =>
      dsimp only
      split
      · exact keeps_pure _
      · exact keeps_bind (keeps_createSession _ _ _ _) fun _ => keeps_bind keeps_clock fun _ =>
          keeps_bind (keeps_edit _ (fun _ _ => rfl) fun _ _ => rfl) fun _ => keeps_pure _

theorem keeps_login (proc : ℕ) (body : LoginBody) (ip userAgent : Option String)
    (gate : LoginGate) : (login env proc body ip userAgent gate).Keeps (Change env) := by
  refine keeps_bind (keeps_attempt (keeps_ensureOwner proc) fun _ => keeps_pure ()) fun _ => ?_
  split
  · exact keeps_pure _
  · refine keeps_bind (keeps_loginWithPassword proc body ip userAgent) fun r => ?_
    cases r with
    | error reason => exact keeps_pure _
    | ok opened =>
        dsimp only
        split
        · exact keeps_pure _
        · exact keeps_bind (keeps_signOut _) fun _ => keeps_pure _

theorem keeps_createAdmin (actor : AdminId × Admin) (input : AdminInput) :
    (createAdmin env actor input).Keeps (Change env) := by
  refine keeps_bind (keeps_refuseIf _ _) fun _ => keeps_bind (keeps_refuseIf _ _) fun _ => ?_
  split
  · exact keeps_throw _
  · exact keeps_bind (keeps_refuseIf _ _) fun _ => keeps_bind (keeps_query _) fun _ =>
      keeps_bind (keeps_refuseIf _ _) fun _ => keeps_create _ _

@[simp] theorem patched_role (p : AdminPatch) (role : AdminRole) (n : ℕ) (a : Admin) :
    (patched env p role n a).role = a.role := by
  unfold patched
  split <;> rfl

@[simp] theorem patched_username (p : AdminPatch) (role : AdminRole) (n : ℕ) (a : Admin) :
    (patched env p role n a).username = a.username := by
  unfold patched
  split <;> rfl

/-- A patch keeps role and name. -/
theorem keeps_saveAdmin (id : AdminId) (role : AdminRole) (p : AdminPatch) :
    (saveAdmin env id role p).Keeps (Change env) := by
  refine keeps_step fun s => ?_
  dsimp only
  generalize (if role = .owner then none else p.serverAccess) = grants
  split
  · exact .idle s
  · split
    · exact .idle s
    · split
      · exact .idle s
      · next a ha => exact .edit (patched env p role s.drawn a) _ ha (patched_role p role _ a) (patched_username p role _ a)

theorem keeps_updateAdmin (actor : AdminId × Admin) (id : AdminId) (p : AdminPatch) :
    (updateAdmin env actor id p).Keeps (Change env) := by
  refine keeps_bind (keeps_refuseIf _ _) fun _ => keeps_bind (keeps_query _) fun target => ?_
  cases target with
  | none => exact keeps_throw _
  | some target =>
      exact keeps_bind (keeps_refuseIf _ _) fun _ => keeps_bind (keeps_saveAdmin _ _ _) fun _ =>
        keeps_ite (keeps_signOut _) (keeps_pure ())

theorem keeps_deleteAdmin (actor : AdminId × Admin) (id : AdminId) :
    (deleteAdmin actor id).Keeps (Change env) := by
  refine keeps_bind (keeps_refuseIf _ _) fun _ => keeps_bind (keeps_query _) fun target => ?_
  split
  · exact keeps_throw _
  · refine keeps_bind (keeps_refuseIf _ _) fun _ => keeps_bind (keeps_refuseIf _ _) fun _ =>
      keeps_step fun s => ?_
    split
    · exact .idle s
    · exact .drop s id

theorem keeps_bulkOne (actor : AdminId × Admin) (action : AdminBulkAction) (id : AdminId)
    (target : Option Admin) : (bulkOne env actor action id target).Keeps (Change env) := by
  cases target with
  | none => exact keeps_pure _
  | some target =>
      refine keeps_ite (keeps_pure _) (keeps_bind keeps_clock fun now => ?_)
      exact keeps_attempt (keeps_bind (keeps_updateAdmin _ _ _) fun _ => keeps_pure _)
        fun _ => keeps_pure _

theorem keeps_bulkEach (actor : AdminId × Admin) (action : AdminBulkAction)
    (targets : List (AdminId × Option Admin)) :
    (bulkEach env actor action targets).Keeps (Change env) := by
  induction targets with
  | nil => exact keeps_pure _
  | cons target rest ih =>
      exact keeps_bind (keeps_bulkOne _ _ _ _) fun _ => keeps_bind ih fun _ => keeps_pure _

theorem keeps_resetPanelAccountPassword (actor : AdminId × Admin) (id : AdminId) :
    (resetPanelAccountPassword env actor id).Keeps (Change env) := by
  refine keeps_bind (keeps_query _) fun account => ?_
  cases account with
  | none => exact keeps_throw _
  | some account =>
      refine keeps_bind (keeps_refuseIf _ _) fun _ => keeps_bind (keeps_query _) fun target => ?_
      cases target with
      | none => exact keeps_throw _
      | some target =>
          exact keeps_bind (keeps_refuseIf _ _) fun _ =>
            keeps_bind (keeps_edit _ (fun _ _ => rfl) fun _ _ => rfl) fun _ => keeps_signOut _

/-- A new key has a hash of its own. -/
theorem keeps_createApiKey (actor : AdminId × Admin) (input : ApiKeyInput) :
    (createApiKey env actor input).Keeps (Change env) := by
  refine keeps_bind (keeps_query _) fun _ => keeps_bind (keeps_refuseIf _ _) fun _ =>
    keeps_step fun s => ?_
  dsimp only
  split
  · exact .idle s
  · next hadmin =>
    split
    · exact .idle s
    · next hhash =>
      have hsome : (s.admins.get? actor.1).isSome :=
        by simpa [Option.isSome_iff_ne_none] using hadmin
      refine .newKey (input.row env actor.1 _) hsome rfl fun k row hrow heq => ?_
      apply hhash
      rw [List.any_eq_true]
      exact ⟨(k, row), (s.apiKeys.mem_rows_iff k row).mpr hrow, decide_eq_true heq⟩

theorem keeps_editKey (id : ApiKeyId) {f : ApiKey → ApiKey}
    (hadmin : ∀ k, (f k).adminId = k.adminId) (hhash : ∀ k, (f k).keyHash = k.keyHash)
    (hrev : ∀ k, k.revokedAt.isSome → (f k).revokedAt.isSome) :
    (editKey id f).Keeps (Change env) := by
  refine keeps_step fun s => ?_
  split
  · exact .idle s
  · next k hk => exact .editKey (f k) hk (hadmin k) (hhash k) (hrev k)

theorem keeps_revokeApiKey (actor : AdminId × Admin) (id : ApiKeyId) :
    (revokeApiKey actor id).Keeps (Change env) := by
  refine keeps_bind (keeps_query _) fun key => ?_
  cases key with
  | none => exact keeps_throw _
  | some key =>
      exact keeps_bind keeps_clock fun _ =>
        keeps_editKey _ (fun _ => rfl) (fun _ => rfl) fun _ _ => rfl

theorem keeps_authenticateApiKey (authorization : Option String) (scope : ApiScope) :
    (authenticateApiKey env authorization scope).Keeps (Change env) := by
  unfold authenticateApiKey
  split
  · exact keeps_throw _
  · refine keeps_bind (keeps_query _) fun found => keeps_bind keeps_clock fun now => ?_
    split
    · exact keeps_throw _
    · split
      · exact keeps_throw _
      · have htouch : ∀ id, (Prog.attempt (editKey id fun k => { k with lastUsedAt := some now })
            fun _ => pure () : AdminProg Unit).Keeps (Change env) := fun id =>
          keeps_attempt (keeps_editKey id (fun _ => rfl) (fun _ => rfl) fun _ h => h) fun _ =>
            keeps_pure ()
        exact keeps_ite (keeps_bind (htouch _) fun _ => keeps_pure _) (keeps_pure _)

theorem keeps_cliReset (id : AdminId) (password : String) :
    (cliReset env id password).Keeps (Change env) := by
  refine keeps_step fun s => ?_
  dsimp only
  split
  · exact .idle s
  · next a ha =>
    exact .reset
      { a with passwordHash := env.hashPassword password s.drawn, isActive := true } _ ha rfl rfl

theorem keeps_cliResetPassword (username password : String) :
    (cliResetPassword env username password).Keeps (Change env) := by
  refine keeps_bind (keeps_refuseIf _ _) fun _ => keeps_bind (keeps_refuseIf _ _) fun _ =>
    keeps_bind (keeps_query _) fun existing => ?_
  split
  · exact keeps_cliReset _ _
  · exact keeps_bind (keeps_query _) fun _ => keeps_bind (keeps_refuseIf _ _) fun _ =>
      keeps_bind (keeps_create _ _) fun _ => keeps_pure ()

theorem keeps_cliEdit (username : String) {f : Admin → Admin} (hrole : ∀ a, (f a).role = a.role)
    (hname : ∀ a, (f a).username = a.username) : (cliEdit username f).Keeps (Change env) := by
  refine keeps_bind (keeps_refuseIf _ _) fun _ => keeps_bind (keeps_query _) fun existing => ?_
  split
  · exact keeps_throw _
  · exact keeps_edit _ (fun _ a => hrole a) fun _ a => hname a

/-- Every step of a request is a change. -/
theorem Request.keeps (r : Request) : (r.task env).Keeps (Change env) := by
  cases r with
  | login proc body ip userAgent gate =>
      exact keeps_bind (keeps_login proc body ip userAgent gate) fun _ => keeps_pure ()
  | logout cookie =>
      change (AdminStore.logout env cookie).Keeps (Change env)
      unfold AdminStore.logout
      split
      · exact keeps_pure ()
      · exact keeps_signOut _
  | changePassword cookie current next revoke =>
      refine keeps_bind (keeps_requireAdmin cookie) fun _ => keeps_bind ?_ fun _ =>
        keeps_ite (keeps_signOut _) (keeps_pure ())
      exact keeps_bind (keeps_refuseIf _ _) fun _ => keeps_bind (keeps_refuseIf _ _) fun _ =>
        keeps_edit _ (fun _ _ => rfl) fun _ _ => rfl
  | beginTotp cookie =>
      exact keeps_bind (keeps_requireAdmin cookie) fun _ =>
        keeps_edit _ (fun _ _ => rfl) fun _ _ => rfl
  | confirmTotp cookie code =>
      refine keeps_bind (keeps_requireAdmin cookie) fun _ => keeps_bind (keeps_query _) fun _ =>
        keeps_bind keeps_clock fun _ => ?_
      split
      · exact keeps_throw _
      · exact keeps_bind (keeps_refuseIf _ _) fun _ => keeps_edit _ (fun _ _ => rfl) fun _ _ => rfl
  | disableTotp cookie code =>
      exact keeps_bind (keeps_requireAdmin cookie) fun _ => keeps_bind keeps_clock fun _ =>
        keeps_bind (keeps_refuseIf _ _) fun _ => keeps_edit _ (fun _ _ => rfl) fun _ _ => rfl
  | createAdmin cookie input =>
      exact keeps_bind (keeps_requireOwner cookie) fun _ =>
        keeps_bind (keeps_createAdmin _ _) fun _ =>
        keeps_pure ()
  | updateAdmin cookie id p =>
      exact keeps_bind (keeps_requireOwner cookie) fun _ => keeps_updateAdmin _ _ _
  | deleteAdmin cookie id =>
    exact keeps_bind (keeps_requireOwner cookie) fun _ => keeps_deleteAdmin _ _
  | bulkAdmins cookie ids action =>
      refine keeps_bind (keeps_requireOwner cookie) fun _ => keeps_bind ?_ fun _ => keeps_pure ()
      exact keeps_bind (keeps_refuseIf _ _) fun _ => keeps_bind (keeps_refuseIf _ _) fun _ =>
        keeps_bind (keeps_refuseIf _ _) fun _ => keeps_bind (keeps_refuseIf _ _) fun _ =>
          keeps_bind (keeps_query _) fun _ => keeps_bulkEach _ _ _
  | resetPanelPassword cookie id =>
      exact keeps_bind (keeps_requireAdmin cookie) fun _ => keeps_resetPanelAccountPassword _ _
  | createApiKey cookie input =>
      exact keeps_bind (keeps_requireAdmin cookie) fun _ =>
        keeps_bind (keeps_createApiKey _ _) fun _ =>
        keeps_pure ()
  | revokeApiKey cookie id =>
    exact keeps_bind (keeps_requireAdmin cookie) fun _ => keeps_revokeApiKey _ _
  | apiCall authorization scope =>
      exact keeps_bind (keeps_authenticateApiKey _ _) fun _ => keeps_pure ()
  | cliResetPassword username password => exact keeps_cliResetPassword username password
  | cliDisable2fa username => exact keeps_cliEdit username (fun _ => rfl) fun _ => rfl
  | cliUnlock username => exact keeps_cliEdit username (fun _ => rfl) fun _ => rfl
  | pruneSessions => exact keeps_bind keeps_clock fun _ => keeps_signOut _

end Keeps

end AdminStore

end SRPanel
