import SRPanel.Model.Logins

/-!
# The login lock

The guard counts audit rows of failed logins, and only a wrong password writes one. So the lock
holds in the runs in which no attempt fails by a wrong code, as long as the failures stay in the
window that is read while the lock lasts. The invariant compares the last failures of an account
with its audit rows.
-/

namespace SRPanel

namespace LoginStore

/-! ## Attempts -/

/-- An attempt to log in: its time and the answer. -/
structure Trial where
  time : ℤ
  reply : Reply
  deriving DecidableEq

/-- One of the factors was wrong. -/
def Reply.rejects : Reply → Bool
  | .invalid | .totpInvalid | .emailCodeInvalid => true
  | _ => false

/-- The guard has refused the attempt. -/
def Reply.refuses : Reply → Bool
  | .locked _ => true
  | _ => false

/-- The attempts that the guard has let through. -/
def tried (h : List Trial) : List Trial := h.filter fun t => !t.reply.refuses

/-- After these attempts, the latest first, one at a time is to be refused: the last `maxFailures`
were rejected, all within the window, and the lock of the last failure has not ended. -/
def Due (c : SecuritySettings) (earlier : List Trial) (time : ℤ) : Prop :=
  let last := (tried earlier).take c.maxFailures
  last.length = c.maxFailures ∧ (∀ t ∈ last, t.reply.rejects) ∧
    ∀ newest ∈ last.head?, ∀ oldest ∈ last.getLast?,
      newest.time - oldest.time ≤ minutes c.windowMin ∧ time < newest.time + minutes c.lockMin

instance (c : SecuritySettings) (earlier : List Trial) (time : ℤ) :
    Decidable (Due c earlier time) :=
  inferInstanceAs (Decidable (_ ∧ _))

/-- Every attempt that is to be refused is refused. -/
def Obeyed (c : SecuritySettings) (h : List Trial) : Prop :=
  ∀ later t earlier, h = later ++ t :: earlier → Due c earlier t.time → t.reply.refuses

/-- The logins and failed logins of an account in the audit log. -/
def ownRows (s : LoginStore) (u : String) : List AuditLog :=
  s.auditLog.filter fun r => (r.action = "auth.login_failed" || r.action = "auth.login") &&
    r.target = some u

/-- What else happens: time passes, accounts, codes and mail settings change, and rows are written,
of the account itself only failures (a wrong password in a request for a code). -/
structure Elsewhere (u : String) (s s' : LoginStore) : Prop where
  security : s'.security = s.security
  now : s.now ≤ s'.now
  own : ∃ new, s'.ownRows u = new ++ s.ownRows u ∧ ∀ r ∈ new, r.action = "auth.login_failed"

variable (env : LoginEnv) (u : String)

/-- Attempts on an account `u` and what happens in between, with the answers so far. Every attempt
satisfies `ok`. -/
inductive Trials (ok : LoginStore → List Trial → LoginBody → Option String → List AuditLog → Prop)
    (s₀ : LoginStore) : LoginStore → List Trial → Prop
  | start : Trials ok s₀ s₀ []
  | attempt {s : LoginStore} {h : List Trial} (body : LoginBody) (ip : Option String)
      (rows : List AuditLog) : Trials ok s₀ s h → lower (trim body.username) = u →
      s.Lists (normUser body.username) ip rows →
      ok s h body ip rows →
      Trials ok s₀ (s.login env body ip rows).2 (⟨s.now, (s.login env body ip rows).1⟩ :: h)
  | elsewhere {s s' : LoginStore} {h : List Trial} : Trials ok s₀ s h → Elsewhere u s s' →
  Trials ok s₀ s' h

/-! ## The condition -/

/-- The code that was sent by e-mail. -/
def EmailCodeFits (s : LoginStore) (code : String) : Prop :=
  ∃ row ∈ s.codes.get? u, row.hash ≠ "" ∧ s.now ≤ row.exp ∧ row.tries < 5 ∧
    row.hash = env.sha256 (trim code)

/-- The password is right, and one of the codes that are asked for is given and wrong. -/
def WrongCode (s : LoginStore) (body : LoginBody) : Prop :=
  ∃ admin ∈ s.passwordFits env u body.password,
    admin.isActive ∧ (∀ t ∈ admin.expiresAt, s.now ≤ t) ∧
      ((∃ secret ∈ totpSecretOf admin, ∃ code ∈ body.totp, ¬env.verifyTotp secret code s.now) ∨
        (s.loginCodeRequired ∧ ∃ code ∈ body.emailCode, ¬EmailCodeFits env u s code))

/-- The rows that are read for an attempt and belong to the account. -/
def readOwn (rows : List AuditLog) : List AuditLog :=
  (rows.take 300).filter fun r => r.target = some u

/-- The failures of an account are noticed: they are in the window that is read, among the rows that
are read, and no longer but older streak of the address is taken in their place. -/
def Noticed (s : LoginStore) (h : List Trial) (ip : Option String) (rows : List AuditLog) : Prop :=
  (∀ oldest ∈ ((tried h).take s.security.maxFailures).getLast?,
    s.now - minutes s.security.windowMin ≤ oldest.time ∧
      (rows.filter fun r => oldest.time ≤ r.at').length ≤ 300) ∧
  ∀ a ∈ ip.bind orNull, s.security.perIp →
    (streak (readOwn u rows)).1 < (streak ((rows.take 300).filter fun r => r.ip = some a)).1 →
    (streak (readOwn u rows)).2 ≤ (streak ((rows.take 300).filter fun r => r.ip = some a)).2

/-- The guard is on, the attempt does not fail by a wrong code, the account has not logged in in
this very millisecond, and the failures for which the attempt is to be refused are noticed. -/
def Regular (s : LoginStore) (h : List Trial) (body : LoginBody) (ip : Option String)
    (rows : List AuditLog) : Prop :=
  s.security.lockEnabled ∧ ¬WrongCode env u s body ∧
    (∀ r ∈ s.ownRows u, r.action = "auth.login" → r.at' < s.now) ∧
    (Due s.security h s.now → Noticed u s h ip rows)

/-! ## The guard -/

section Streaks

/-- The failures from a time on are counted when nothing else happened since. -/
theorem le_streak {rows : List AuditLog} (hsorted : rows.Pairwise fun a b => b.at' ≤ a.at') {t : ℤ}
    (hfailed : ∀ r ∈ rows, t ≤ r.at' → r.action = "auth.login_failed") :
    (rows.filter fun r => t ≤ r.at').length ≤ (streak rows).1 := by
  induction rows with
  | nil => exact le_rfl
  | cons r rows ih =>
      obtain ⟨hr, hsorted⟩ := List.pairwise_cons.mp hsorted
      by_cases htime : t ≤ r.at'
      · have haction := hfailed r List.mem_cons_self htime
        have hrest := ih hsorted fun r' hr' => hfailed r' (List.mem_cons_of_mem _ hr')
        rw [List.filter_cons_of_pos (by simpa using htime), List.length_cons, streak,
          if_neg (not_not.mpr haction)]
        omega
      · have hnone : (rows.filter fun r => t ≤ r.at') = [] := by
          refine List.filter_eq_nil_iff.mpr fun r' hr' => ?_
          have hle := hr r' hr'
          simp only [decide_eq_true_eq]
          omega
        rw [List.filter_cons_of_neg (by simpa using htime), hnone]
        exact Nat.zero_le _

/-- The last failure is at least as late as any row when it is one. -/
theorem le_streak_at {rows : List AuditLog}
    (hsorted : rows.Pairwise fun a b => b.at' ≤ a.at') {t : ℤ}
    (hfailed : ∀ r ∈ rows, t ≤ r.at' → r.action = "auth.login_failed") {r : AuditLog}
    (hr : r ∈ rows)
    (ht : t ≤ r.at') : r.at' ≤ (streak rows).2 := by
  cases rows with
  | nil => cases hr
  | cons r₀ rows =>
      have hle : r.at' ≤ r₀.at' := by
        rcases List.mem_cons.mp hr with rfl | hr
        · exact le_rfl
        · exact (List.pairwise_cons.mp hsorted).1 r hr
      rw [streak, if_neg (not_not.mpr (hfailed r₀ List.mem_cons_self (ht.trans hle)))]
      exact hle

/-- The rows from a time on are among the first `n` when there are at most `n` of them. -/
theorem filter_take_of_sorted {rows : List AuditLog}
    (hsorted : rows.Pairwise fun a b => b.at' ≤ a.at') {t : ℤ} {n : ℕ}
    (hn : (rows.filter fun r => t ≤ r.at').length ≤ n) :
    ((rows.take n).filter fun r => t ≤ r.at') = rows.filter fun r => t ≤ r.at' := by
  induction rows generalizing n with
  | nil => rw [List.take_nil]
  | cons r rows ih =>
      obtain ⟨hr, hsorted⟩ := List.pairwise_cons.mp hsorted
      by_cases htime : t ≤ r.at'
      · rw [List.filter_cons_of_pos (by simpa using htime)] at hn ⊢
        cases n with
        | zero => cases hn
        | succ n =>
            rw [List.take_succ_cons, List.filter_cons_of_pos (by simpa using htime)]
            exact congrArg (r :: ·) (ih hsorted (Nat.le_of_succ_le_succ hn))
      · have hnone : ((r :: rows).filter fun r => t ≤ r.at') = [] := by
          refine List.filter_eq_nil_iff.mpr fun r' hr' => ?_
          simp only [decide_eq_true_eq]
          rcases List.mem_cons.mp hr' with rfl | hr'
          · exact htime
          · have hle := hr r' hr'
            omega
        rw [hnone]
        exact List.sublist_nil.mp (hnone ▸ (List.take_sublist n (r :: rows)).filter _)

end Streaks

/-- A username that the schema accepts is not cut. -/
theorem normUser_body (body : LoginBody) : normUser body.username = lower (trim body.username) := by
  have htrim : (trim body.username).toList.length ≤ body.username.toList.length := by
    simp only [trim, String.toList_ofList, List.length_reverse]
    refine (List.dropWhile_suffix _).length_le.trans ?_
    rw [List.length_reverse]
    exact (List.dropWhile_suffix _).length_le
  have hlen : (lower (trim body.username)).toList.length ≤ 64 := by
    simp only [lower, String.toList_ofList, List.length_map]
    exact htrim.trans body.username_le
  rw [normUser, sliceTo, List.take_of_length_le hlen, String.ofList_toList]

section Steps

variable {env u} {s s' : LoginStore} {body : LoginBody} {ip : Option String} {rows : List AuditLog}

/-- The streak that is taken locks when it is long enough and its last failure is not too long ago.
-/
theorem stateOf_locked {byUser byIp : ℕ × ℤ} (hmany : s.security.maxFailures ≤ byUser.1)
    (hlast : s.now < byUser.2 + minutes s.security.lockMin)
    (haddress : byUser.1 < byIp.1 → byUser.2 ≤ byIp.2) :
    (s.stateOf byUser byIp).locked := by
  have hretry : ∀ last : ℤ, byUser.2 ≤ last →
      0 < ⌈((last + minutes s.security.lockMin - s.now : ℤ) : ℚ) / 1000⌉ := by
    intro last hle
    refine Int.ceil_pos.mpr (div_pos ?_ (by norm_num))
    exact_mod_cast (by omega : 0 < last + minutes s.security.lockMin - s.now)
  unfold stateOf
  by_cases huse : byUser.1 < byIp.1
  · simp only [huse, decide_true, if_true]
    rw [if_neg (by omega), if_pos (hretry _ (haddress huse))]
  · simp only [huse, decide_false, Bool.false_eq_true, if_false]
    rw [if_neg (by omega), if_pos (hretry _ le_rfl)]

/-- Enough failures of the account that the guard sees, the last one not too long ago, lock it. -/
theorem guard_locks (hu : normUser body.username = u) (hon : s.security.lockEnabled)
    (hmany : s.security.maxFailures ≤ (streak (readOwn u rows)).1)
    (hlast : s.now < (streak (readOwn u rows)).2 + minutes s.security.lockMin)
    (haddress : ∀ a ∈ ip.bind orNull, s.security.perIp →
      (streak (readOwn u rows)).1 < (streak ((rows.take 300).filter fun r => r.ip = some a)).1 →
      (streak (readOwn u rows)).2 ≤ (streak ((rows.take 300).filter fun r => r.ip = some a)).2) :
    (s.loginGuardState body.username ip rows).locked := by
  have hread : (rows.take 300).isEmpty = false := by
    cases hrows : rows.take 300 with
    | nil =>
        rw [readOwn, hrows, List.filter_nil, streak] at hmany
        have hmax := s.security.maxFailures_bounds.1
        exact absurd (hmax.trans hmany) (by decide)
    | cons r rest => rfl
  simp only [loginGuardState, hu, hon, hread, Bool.not_true, Bool.false_eq_true, if_false]
  refine stateOf_locked hmany hlast ?_
  split
  · next a ha =>
    by_cases hper : s.security.perIp
    · rw [if_pos hper]
      exact haddress a ha hper
    · rw [if_neg hper]
      exact fun h => absurd h (Nat.not_lt_zero _)
  · exact fun h => absurd h (Nat.not_lt_zero _)

/-! ## What an attempt writes -/

theorem ownRows_audit (adminId : Option AdminId) (action target : String) :
    (s.audit adminId action target ip).ownRows u =
      if (action = "auth.login_failed" ∨ action = "auth.login") ∧ target = u then
        ⟨s.nextId, s.now, adminId, action, some target, none, ip⟩ ::
          s.ownRows u else s.ownRows u := by
  simp only [ownRows, audit, List.filter_cons, Bool.and_eq_true, Bool.or_eq_true, decide_eq_true_eq,
    Option.some.injEq]

/-- A change of the store under which the clock and the settings of the guard stay. -/
structure SameClock (s s' : LoginStore) : Prop where
  now : s'.now = s.now
  security : s'.security = s.security

/-- The note of a lock is no login. -/
theorem noteLoginLocked_frame (state : LoginGuardState) :
    SameClock s (s.noteLoginLocked body.username ip state) ∧
    (s.noteLoginLocked body.username ip state).ownRows u = s.ownRows u := by
  unfold noteLoginLocked
  dsimp only
  split
  · exact ⟨⟨rfl, rfl⟩, rfl⟩
  · refine ⟨⟨rfl, rfl⟩, ?_⟩
    rw [ownRows_audit, if_neg]
    rintro ⟨h | h, -⟩
    · exact absurd h (by decide)
    · exact absurd h (by decide)

theorem consumeLoginCode_frame (env : LoginEnv) (s : LoginStore) (body : LoginBody)
    (code : String) : SameClock s (s.consumeLoginCode env body.username code).2 := by
  unfold consumeLoginCode
  dsimp only
  split
  · exact ⟨rfl, rfl⟩
  · split_ifs
    · exact ⟨rfl, rfl⟩
    · exact ⟨rfl, rfl⟩
    · exact ⟨rfl, rfl⟩

/-- A code that is turned down does not fit. -/
theorem consumeLoginCode_wrong (hu : normUser body.username = u) {code : String}
    (h : (s.consumeLoginCode env body.username code).1 = false) : ¬EmailCodeFits env u s code := by
  rintro ⟨row, hrow, hhash, hexp, htries, hcode⟩
  have hfound : ((s.codes.get? (normUser body.username)).filter fun row => row.hash ≠ "") =
      some row := by
    rw [hu, Option.mem_def.mp hrow, Option.filter_some, if_pos (by simpa using hhash)]
  simp only [consumeLoginCode, hfound] at h
  rw [if_neg (by omega), if_neg (not_not.mpr hcode)] at h
  cases h

/-- A code of the authenticator is asked for, or it is wrong. -/
theorem totpRefusal_cases {admin : LoginAdmin} {reason : Reply}
    (h : s.totpRefusal env admin body.totp = some reason) :
    reason = .totpRequired ∨ reason = .totpInvalid ∧
      ∃ secret ∈ totpSecretOf admin, ∃ code ∈ body.totp, ¬env.verifyTotp secret code s.now := by
  unfold totpRefusal at h
  cases hsecret : totpSecretOf admin with
  | none =>
      rw [hsecret] at h
      cases h
  | some secret =>
      rw [hsecret] at h
      cases hcode : body.totp with
      | none =>
          rw [hcode] at h
          exact .inl (Option.some.inj h).symm
      | some code =>
          rw [hcode] at h
          dsimp only at h
          split at h
          · cases h
          · next hwrong => exact .inr ⟨(Option.some.inj h).symm, secret, rfl, code, rfl, hwrong⟩

/-- What the attempt comes to: the guard refuses it, the password is wrong and a failure is written,
or the attempt is neither refused nor rejected, unless a code is wrong. -/
theorem login_cases (hu : lower (trim body.username) = u) :
    SameClock s (s.login env body ip rows).2 ∧
      ((∃ sec, (s.login env body ip rows).1 = .locked sec) ∧
          (s.login env body ip rows).2.ownRows u = s.ownRows u ∨
        (s.loginGuardState body.username ip rows).locked = false ∧
          (s.login env body ip rows).1 = .invalid ∧ (s.login env body ip rows).2.ownRows u =
            ⟨s.nextId, s.now, none, "auth.login_failed", some u, none, ip⟩ :: s.ownRows u ∨
        (s.loginGuardState body.username ip rows).locked = false ∧
          (s.login env body ip rows).1.refuses = false ∧
          ((s.login env body ip rows).1.rejects = false ∨ WrongCode env u s body)) := by
  unfold login
  dsimp only
  cases hguard : (s.loginGuardState body.username ip rows).locked with
  | true =>
      rw [if_pos rfl]
      exact ⟨(noteLoginLocked_frame (u := u) _).1, .inl ⟨⟨_, rfl⟩, (noteLoginLocked_frame _).2⟩⟩
  | false =>
      rw [if_neg Bool.false_ne_true]
      unfold loginWithPassword
      dsimp only
      rw [hu]
      -- a wrong password writes the failure that is counted
      cases hadmin : s.passwordFits env u body.password with
      | none =>
          refine ⟨⟨rfl, rfl⟩, .inr (.inl ⟨rfl, rfl, ?_⟩)⟩
          show (s.audit none "auth.login_failed" u ip).ownRows u = _
          rw [ownRows_audit, if_pos ⟨.inl rfl, rfl⟩]
      | some admin =>
          dsimp only
          by_cases hactive : (!admin.isActive || admin.expiresAt.any (· < s.now)) = true
          · rw [if_pos hactive]
            exact ⟨⟨rfl, rfl⟩, .inr (.inr ⟨rfl, rfl, .inl rfl⟩)⟩
          · rw [if_neg hactive]
            have hlive : admin.isActive ∧ ∀ t ∈ admin.expiresAt, s.now ≤ t := by
              simp only [Bool.or_eq_true, Bool.not_eq_true', not_or, Bool.not_eq_false] at hactive
              refine ⟨hactive.1, fun t ht => ?_⟩
              have hnot := hactive.2
              rw [Option.mem_def.mp ht] at hnot
              simpa using hnot
            -- a wrong second factor is rejected and leaves no failure
            cases htotp : s.totpRefusal env admin body.totp with
            | some reason =>
                refine ⟨⟨rfl, rfl⟩, .inr (.inr ?_)⟩
                rcases totpRefusal_cases htotp with rfl | ⟨rfl, hwrong⟩
                · exact ⟨rfl, rfl, .inl rfl⟩
                · exact ⟨rfl, rfl, .inr ⟨admin, hadmin, hlive.1, hlive.2, .inl hwrong⟩⟩
            | none =>
                have hsigned : SameClock s (s.signIn u admin ip) := ⟨rfl, rfl⟩
                by_cases hcode : (s.signIn u admin ip).loginCodeRequired = true
                · dsimp only
                  rw [if_pos hcode]
                  cases hemail : body.emailCode with
                  | none => exact ⟨⟨rfl, rfl⟩, .inr (.inr ⟨rfl, rfl, .inl rfl⟩)⟩
                  | some code =>
                      dsimp only
                      have hframe := consumeLoginCode_frame env (s.signIn u admin ip) body code
                      cases hconsume :
                        (s.signIn u admin ip).consumeLoginCode env body.username code with
                      | mk fits s' =>
                          rw [hconsume] at hframe
                          cases fits with
                          | true => exact ⟨⟨hframe.now, hframe.security⟩,
                            .inr (.inr ⟨rfl, rfl, .inl rfl⟩)⟩
                          | false =>
                              have hwrong : ¬EmailCodeFits env u (s.signIn u admin ip) code :=
                                consumeLoginCode_wrong ((normUser_body body).trans hu)
                                  (congrArg Prod.fst hconsume)
                              exact ⟨⟨hframe.now, hframe.security⟩, .inr (.inr ⟨rfl, rfl,
                                .inr ⟨admin, hadmin, hlive.1, hlive.2,
                                  .inr ⟨hcode, code, hemail, hwrong⟩⟩⟩)⟩
                · dsimp only
                  rw [if_neg hcode]
                  exact ⟨hsigned, .inr (.inr ⟨rfl, rfl, .inl rfl⟩)⟩

end Steps

/-! ## The run -/

section Run

variable {env u} {s s' : LoginStore} {h : List Trial}

/-- What the audit rows of an account say about its last failures: from the first of them on nothing
but failures is written, as many rows as there were, and one of them is as late as the last failure.
-/
structure CountedSince (s : LoginStore) (u : String) (fs : List Trial)
    (newest oldest : Trial) : Prop where
  failed : ∀ r ∈ s.ownRows u, oldest.time ≤ r.at' → r.action = "auth.login_failed"
  many : fs.length ≤ ((s.ownRows u).filter fun r => oldest.time ≤ r.at').length
  last : ∃ r ∈ s.ownRows u, newest.time ≤ r.at' ∧ oldest.time ≤ r.at'

/-- The audit rows account for every run of failures up to now. -/
structure Counted (s : LoginStore) (u : String) (h : List Trial) : Prop where
  past : ∀ t ∈ h, t.time ≤ s.now
  counted : ∀ fs rest, tried h = fs ++ rest → (∀ t ∈ fs, t.reply.rejects) → ∀ newest ∈ fs.head?,
    ∀ oldest ∈ fs.getLast?, CountedSince s u fs newest oldest

/-- More failures on the record change nothing. -/
theorem CountedSince.grow {fs : List Trial} {newest oldest : Trial}
    (hc : CountedSince s u fs newest oldest) {new : List AuditLog}
    (hown : s'.ownRows u = new ++ s.ownRows u)
    (hnew : ∀ r ∈ new, r.action = "auth.login_failed") : CountedSince s' u fs newest oldest where
  failed r hr ht := by
    rw [hown] at hr
    rcases List.mem_append.mp hr with hr | hr
    · exact hnew r hr
    · exact hc.failed r hr ht
  many := by
    rw [hown, List.filter_append, List.length_append]
    exact hc.many.trans (Nat.le_add_left _ _)
  last := by
    obtain ⟨r, hr, ht⟩ := hc.last
    exact ⟨r, hown ▸ List.mem_append_right _ hr, ht⟩

theorem Counted.elsewhere (hc : Counted s u h) (he : Elsewhere u s s') : Counted s' u h := by
  obtain ⟨new, hown, hnew⟩ := he.own
  refine ⟨fun t ht => (hc.past t ht).trans he.now,
    fun fs rest heq hfs newest hnewest oldest holdest => ?_⟩
  exact (hc.counted fs rest heq hfs newest hnewest oldest holdest).grow hown hnew

/-- A failure of the password is counted. -/
theorem Counted.failure (hc : Counted s u h)
    (hfresh : ∀ r ∈ s.ownRows u, r.action = "auth.login" → r.at' < s.now) {row : AuditLog}
    (hat : row.at' = s.now) (haction : row.action = "auth.login_failed") (hclock : s'.now = s.now)
    (hown : s'.ownRows u = row :: s.ownRows u) : Counted s' u (⟨s.now, .invalid⟩ :: h) := by
  refine ⟨fun t ht => ?_, fun fs rest heq hfs newest hnewest oldest holdest => ?_⟩
  · rw [hclock]
    rcases List.mem_cons.mp ht with rfl | ht
    · exact le_rfl
    · exact hc.past t ht
  -- the run of failures ends with this one; the earlier ones are counted already
  · cases fs with
    | nil => cases hnewest
    | cons t fs =>
        rw [tried, List.filter_cons_of_pos (by rfl)] at heq
        obtain ⟨rfl, hrest⟩ := List.cons.inj heq
        obtain rfl := Option.some.inj hnewest
        cases fs with
        | nil =>
            obtain rfl : oldest = ⟨s.now, .invalid⟩ := (Option.some.inj holdest).symm
            refine ⟨fun r hr ht => ?_, ?_, ⟨row, hown ▸ List.mem_cons_self, hat.ge, hat.ge⟩⟩
            · rw [hown] at hr
              rcases List.mem_cons.mp hr with rfl | hr
              · exact haction
              · have hlogin : r.action = "auth.login_failed" ∨ r.action = "auth.login" := by
                  have hmem := (List.mem_filter.mp hr).2
                  simp only [Bool.and_eq_true, Bool.or_eq_true, decide_eq_true_eq] at hmem
                  exact hmem.1
                refine hlogin.resolve_right fun hin => ?_
                have hlt := hfresh r hr hin
                change s.now ≤ r.at' at ht
                omega
            · have hrow : decide (s.now ≤ row.at') = true := decide_eq_true hat.ge
              rw [hown, List.filter_cons, if_pos hrow]
              exact Nat.succ_le_succ (Nat.zero_le _)
        | cons f fs =>
            change tried h = (f :: fs) ++ rest at hrest
            have hmem : oldest ∈ tried h := by
              rw [hrest]
              exact List.mem_append_left _ (List.mem_of_getLast? holdest)
            have hpast := hc.past oldest (List.mem_filter.mp hmem).1
            have hold := hc.counted (f :: fs) rest hrest (fun t ht =>
              hfs t (List.mem_cons_of_mem _ ht)) f rfl oldest holdest
            refine ⟨fun r hr ht => ?_, ?_, ⟨row, hown ▸ List.mem_cons_self, hat.ge, by omega⟩⟩
            · rw [hown] at hr
              rcases List.mem_cons.mp hr with rfl | hr
              · exact haction
              · exact hold.failed r hr ht
            · have hrow : decide (oldest.time ≤ row.at') = true := decide_eq_true (hpast.trans hat.ge)
              rw [hown, List.filter_cons, if_pos hrow, List.length_cons, List.length_cons]
              exact Nat.succ_le_succ hold.many

/-- The rows that are read and belong to the account are its own, and all of these from a time in
the window on when they fit. -/
theorem filter_readOwn {ip : Option String} {rows : List AuditLog}
    (hlists : s.Lists u ip rows) {t : ℤ}
    (hwindow : s.now - minutes s.security.windowMin ≤ t)
    (hroom : (rows.filter fun r => t ≤ r.at').length ≤ 300) :
    ((readOwn u rows).filter fun r => t ≤ r.at').Perm
    ((s.ownRows u).filter fun r => t ≤ r.at') := by
  rw [readOwn, List.filter_comm, filter_take_of_sorted hlists.sorted hroom]
  refine ((hlists.perm.filter _).filter _).trans (List.Perm.of_eq ?_)
  rw [recent, ownRows, List.filter_filter, List.filter_filter, List.filter_filter]
  refine List.filter_congr fun r _ => ?_
  rw [Bool.eq_iff_iff]
  simp only [Bool.and_eq_true, Bool.or_eq_true, decide_eq_true_eq]
  constructor
  · rintro ⟨⟨htarget, ht⟩, ⟨haction, -⟩, -⟩
    exact ⟨ht, haction, htarget⟩
  · rintro ⟨ht, haction, htarget⟩
    exact ⟨⟨htarget, ht⟩, ⟨haction, hwindow.trans ht⟩, .inl htarget⟩

/-- An attempt that is to be refused is refused, when the failures are noticed. -/
theorem Counted.locks {body : LoginBody} {ip : Option String} {rows : List AuditLog}
    (hc : Counted s u h) (hu : normUser body.username = u) (hlists : s.Lists u ip rows)
    (hon : s.security.lockEnabled)
    (hdue : Due s.security h s.now) (hnoticed : Noticed u s h ip rows) :
    (s.loginGuardState body.username ip rows).locked := by
  obtain ⟨hlen, hrejects, htimes⟩ := hdue
  obtain ⟨hread, haddress⟩ := hnoticed
  have hmax := s.security.maxFailures_bounds.1
  cases hlast : (tried h).take s.security.maxFailures with
  | nil =>
      rw [hlast, List.length_nil] at hlen
      omega
  | cons newest fs =>
      obtain ⟨oldest, holdest⟩ : ∃ oldest, (newest :: fs).getLast? = some oldest :=
        ⟨_, List.getLast?_eq_some_getLast (List.cons_ne_nil _ _)⟩
      rw [hlast] at hlen hrejects htimes hread
      have hsplit : tried h = (newest :: fs) ++ (tried h).drop s.security.maxFailures := by
        rw [← hlast, List.take_append_drop]
      have hsince := hc.counted _ _ hsplit hrejects newest rfl oldest holdest
      obtain ⟨-, hlock⟩ := htimes newest rfl oldest holdest
      obtain ⟨hwindow, hroom⟩ := hread oldest holdest
      have hperm := filter_readOwn hlists hwindow hroom
      have hsorted : (readOwn u rows).Pairwise fun a b => b.at' ≤ a.at' :=
        (hlists.sorted.sublist (List.take_sublist _ _)).sublist List.filter_sublist
      have hfailed : ∀ r ∈ readOwn u rows, oldest.time ≤ r.at' →
          r.action = "auth.login_failed" := by
        intro r hr ht
        have hmem := hperm.mem_iff.mp (List.mem_filter.mpr ⟨hr, by simpa using ht⟩)
        exact hsince.failed r (List.mem_filter.mp hmem).1 ht
      obtain ⟨r, hr, hnew, hold⟩ := hsince.last
      have hrread : r ∈ readOwn u rows :=
        (List.mem_filter.mp (hperm.mem_iff.mpr (List.mem_filter.mpr ⟨hr, by simpa using hold⟩))).1
      have hat := le_streak_at hsorted hfailed hrread hold
      refine guard_locks hu hon ?_ (by omega) haddress
      have hcount := le_streak hsorted hfailed
      rw [hperm.length_eq] at hcount
      rw [← hlen]
      exact hsince.many.trans hcount

/-- One attempt keeps the count, and is refused when it is to be refused. -/
theorem Counted.attempt {body : LoginBody} {ip : Option String} {rows : List AuditLog}
    (hc : Counted s u h) (hu : lower (trim body.username) = u)
    (hlists : s.Lists (normUser body.username) ip rows)
    (hregular : Regular env u s h body ip rows) :
    Counted (s.login env body ip rows).2 u (⟨s.now, (s.login env body ip rows).1⟩ :: h) ∧
      (Due s.security h s.now → (s.login env body ip rows).1.refuses) := by
  obtain ⟨hon, hcodes, hfresh, hnoticed⟩ := hregular
  have hnorm := (normUser_body body).trans hu
  rw [hnorm] at hlists
  have hlocks := fun hdue => hc.locks hnorm hlists hon hdue (hnoticed hdue)
  obtain ⟨hclock, ⟨⟨sec, hreply⟩, hown⟩ | ⟨hopen, hreply, hown⟩ | ⟨hopen, hlet, hfits⟩⟩ :=
    login_cases hu
  -- a refused attempt writes nothing, and the count stands
  · refine ⟨⟨fun t ht => ?_, fun fs rest heq hfs newest hnewest oldest holdest => ?_⟩, fun _ => by
    rw [hreply]; rfl⟩
    · rw [hclock.now]
      rcases List.mem_cons.mp ht with rfl | ht
      · exact le_rfl
      · exact hc.past t ht
    · rw [hreply] at heq
      have hsame : (s.login env body ip rows).2.ownRows u = [] ++ s.ownRows u := hown
      exact (hc.counted fs rest heq hfs newest hnewest oldest holdest).grow hsame fun r hr => by
        cases hr
  -- a wrong password is written while the guard is open
  · refine ⟨?_, fun hdue => ?_⟩
    · rw [hreply]
      exact hc.failure hfresh rfl rfl hclock.now hown
    · rw [hlocks hdue] at hopen
      cases hopen
  · have hpassed := hfits.resolve_right hcodes
    refine ⟨⟨fun t ht => ?_, fun fs rest heq hfs newest hnewest oldest holdest => ?_⟩,
      fun hdue => ?_⟩
    · rw [hclock.now]
      rcases List.mem_cons.mp ht with rfl | ht
      · exact le_rfl
      · exact hc.past t ht
    -- the attempt was not rejected, so that no run of failures ends with it
    · cases fs with
      | nil => cases hnewest
      | cons t fs =>
          rw [tried, List.filter_cons_of_pos (by simp [hlet])] at heq
          obtain ⟨rfl, -⟩ := List.cons.inj heq
          have hbad := hfs _ List.mem_cons_self
          rw [hpassed] at hbad
          cases hbad
    · rw [hlocks hdue] at hopen
      cases hopen

/-- **Login lock.** In every run of attempts on an account in which the guard is on, no attempt
fails by a wrong code, and failures are noticed when it comes to them, every attempt after
`maxFailures` failures within the window is refused until the lock of the last one has ended. -/
theorem login_locks {s₀ s : LoginStore} {h : List Trial}
    (hrun : Trials env u (Regular env u) s₀ s h) : Obeyed s₀.security h := by
  have hall : Counted s u h ∧ s.security = s₀.security ∧ Obeyed s₀.security h := by
    induction hrun with
    | start =>
        refine ⟨⟨fun t ht => (by cases ht), fun fs rest heq _ newest hnewest => ?_⟩, rfl,
          fun later t earlier heq => ?_⟩
        · obtain ⟨rfl, -⟩ := List.append_eq_nil_iff.mp heq.symm
          cases hnewest
        · cases later with
          | nil => cases heq
          | cons _ _ => cases heq
    | attempt body ip rows _ hu hlists hregular ih =>
        obtain ⟨hc, hsecurity, hobeyed⟩ := ih
        obtain ⟨hc', hrefused⟩ := hc.attempt hu hlists hregular
        refine ⟨hc', (@login_cases env _ _ body ip rows hu).1.security.trans hsecurity,
          fun later t earlier heq hdue => ?_⟩
        cases later with
        | nil =>
            obtain ⟨rfl, rfl⟩ := List.cons.inj heq
            rw [← hsecurity] at hdue
            exact hrefused hdue
        | cons t' later => exact hobeyed later t earlier (List.cons.inj heq).2 hdue
    | elsewhere _ he ih =>
        obtain ⟨hc, hsecurity, hobeyed⟩ := ih
        exact ⟨hc.elsewhere he, he.security.trans hsecurity, hobeyed⟩
  exact hall.2.2

end Run

/-! ## Two runs -/

/-- Passwords and codes are compared as they are. -/
def plainEnv : LoginEnv :=
  ⟨fun password hash => password = hash, fun secret code _ => code = secret, id⟩

/-- The owner, with the password `p` and the authenticator, and a guard that locks after three
failures. -/
def guardedStore : LoginStore where
  now := 0
  security := ⟨true, 3, 15, 15, true, by decide, by decide, by decide⟩
  mail := ⟨false, "", "", "", "", false, 5⟩
  admins := Table.empty.set "owner" ⟨1, "p", true, none, true, some "123456", none, none⟩
  codes := Table.empty
  sessions := Table.empty
  auditLog := []
  nextId := 1

/-- The owner's attempt with these factors. -/
def ownerBody (password totp : String) : LoginBody :=
  ⟨"owner", password, some totp, none, by decide⟩

/-- One attempt, and a second goes by. -/
def tryOnce (s : LoginStore) (body : LoginBody) : LoginStore :=
  { (s.login plainEnv body none (s.recent "owner" none)).2 with now := s.now + 1000 }

/-- The attempt with its answer. -/
def trialOf (s : LoginStore) (body : LoginBody) : Trial :=
  ⟨s.now, (s.login plainEnv body none (s.recent "owner" none)).1⟩

theorem Trials.tryOnce
    {ok : LoginStore → List Trial → LoginBody → Option String → List AuditLog → Prop}
    {s₀ s : LoginStore} {h : List Trial} (hrun : Trials plainEnv "owner" ok s₀ s h)
    (body : LoginBody)
    (hu : lower (trim body.username) = "owner")
    (hsorted : (s.recent "owner" none).Pairwise fun a b => b.at' ≤ a.at')
    (hok : ok s h body none (s.recent "owner" none)) :
    Trials plainEnv "owner" ok s₀ (s.tryOnce body) (s.trialOf body :: h) := by
  have hclock := (@login_cases plainEnv _ s body none (s.recent "owner" none) hu).1
  have hnorm := (normUser_body body).trans hu
  refine .elsewhere (.attempt body none _ hrun hu ⟨by rw [hnorm], hsorted⟩ hok) ⟨rfl, ?_, [], rfl,
    fun r hr => ?_⟩
  · show (s.login plainEnv body none (s.recent "owner" none)).2.now ≤ s.now + 1000
    rw [hclock.now]
    omega
  · cases hr

/-- After three wrong codes of the authenticator the fourth attempt is let through. -/
theorem wrong_codes_never_lock :
    ∃ s, Trials plainEnv "owner" (fun _ _ _ _ _ => True) guardedStore s
      [⟨3000, .ok 1⟩, ⟨2000, .totpInvalid⟩, ⟨1000, .totpInvalid⟩, ⟨0, .totpInvalid⟩] ∧
    ¬Obeyed guardedStore.security
      [⟨3000, .ok 1⟩, ⟨2000, .totpInvalid⟩, ⟨1000, .totpInvalid⟩, ⟨0, .totpInvalid⟩] := by
  let wrong := ownerBody "p" "000000"
  have hrun : Trials plainEnv "owner" (fun _ _ _ _ _ => True) guardedStore _ _ :=
    (((Trials.start.tryOnce wrong (by decide) (by decide +kernel) trivial).tryOnce wrong (by decide)
      (by decide +kernel) trivial).tryOnce wrong (by decide) (by decide +kernel) trivial).tryOnce
      (ownerBody "p" "123456") (by decide) (by decide +kernel) trivial
  refine ⟨(((guardedStore.tryOnce wrong).tryOnce wrong).tryOnce wrong).tryOnce
    (ownerBody "p" "123456"), ?_, fun hobeyed => ?_⟩
  · have htrials : [(((guardedStore.tryOnce wrong).tryOnce wrong).tryOnce wrong).trialOf
        (ownerBody "p" "123456"), ((guardedStore.tryOnce wrong).tryOnce wrong).trialOf wrong,
        (guardedStore.tryOnce wrong).trialOf wrong,
        guardedStore.trialOf wrong] =
        [⟨3000, .ok 1⟩, ⟨2000, .totpInvalid⟩, ⟨1000, .totpInvalid⟩, ⟨0, .totpInvalid⟩] :=
  by decide +kernel
    rw [← htrials]
    exact hrun
  · have hrefused := hobeyed [] ⟨3000, .ok 1⟩ _ rfl (by decide)
    cases hrefused

/-- A wrong password is a regular attempt as long as the guard need not notice it. -/
theorem regular_wrongPassword {s : LoginStore} {h : List Trial} (hon : s.security.lockEnabled)
    (hwrong : s.passwordFits plainEnv "owner" "x" = none)
    (hfresh : ∀ r ∈ s.ownRows "owner", r.action = "auth.login" → r.at' < s.now)
    (hnoticed : Due s.security h s.now → Noticed "owner" s h none (s.recent "owner" none)) :
    Regular plainEnv "owner" s h (ownerBody "x" "123456") none (s.recent "owner" none) := by
  refine ⟨hon, ?_, hfresh, hnoticed⟩
  rintro ⟨admin, hadmin, -⟩
  change s.passwordFits plainEnv "owner" "x" = some admin at hadmin
  rw [hwrong] at hadmin
  cases hadmin

/-- After three wrong passwords the fourth attempt is refused. -/
theorem login_locks_passwords :
    (((guardedStore.tryOnce (ownerBody "x" "123456")).tryOnce (ownerBody "x" "123456")).tryOnce
      (ownerBody "x" "123456")).trialOf (ownerBody "x" "123456") |>.reply.refuses := by
  have hstart : Trials plainEnv "owner" (Regular plainEnv "owner") guardedStore guardedStore [] :=
    .start
  have hfirst := hstart.tryOnce (ownerBody "x" "123456") (by decide) (by decide +kernel)
    (regular_wrongPassword (by decide) (by decide) (by decide +kernel)
      fun hdue => absurd hdue (by decide +kernel))
  have hsecond := hfirst.tryOnce (ownerBody "x" "123456") (by decide) (by decide +kernel)
    (regular_wrongPassword (by decide +kernel) (by decide +kernel) (by decide +kernel)
      fun hdue => absurd hdue (by decide +kernel))
  have hthird := hsecond.tryOnce (ownerBody "x" "123456") (by decide) (by decide +kernel)
    (regular_wrongPassword (by decide +kernel) (by decide +kernel) (by decide +kernel)
      fun hdue => absurd hdue (by decide +kernel))
  -- the fourth attempt meets the lock that the third one has set
  have hrun := hthird.tryOnce (ownerBody "x" "123456") (by decide) (by decide +kernel)
    (regular_wrongPassword (by decide +kernel) (by decide +kernel) (by decide +kernel)
      fun _ => ⟨by decide +kernel, fun a ha => by cases ha⟩)
  exact login_locks hrun [] _ _ rfl (by decide +kernel)

end LoginStore

end SRPanel
