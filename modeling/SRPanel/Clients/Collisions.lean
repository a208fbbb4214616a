import SRPanel.Model.PanelNames

/-!
# Names that are taken

A panel takes no email and no subId twice. After such a refusal `addToPanel` makes another attempt,
with the next name of the kind that the refusal names, and it makes four in all. So it succeeds if
one of them meets names that are free, and the email it returns is new on the panel.
-/

namespace SRPanel

open Interleaving Prog

namespace Panel

/-- A panel that refuses a client only when its email or its subId is taken, and says which. -/
structure NamesWhich (refusal : Refusal) : Prop where
  refuses : ∀ p email subId, (refusal p email subId).isSome ↔ email ∈ p.emails ∨ subId ∈ p.subIds
  collision : ∀ p email subId text, refusal p email subId = some text → isCollision text
  subId : ∀ p email subId text, refusal p email subId = some text → namesSubId text →
    subId ∈ p.subIds
  email : ∀ p email subId text, refusal p email subId = some text → ¬ namesSubId text →
    namesEmail text ∧ email ∈ p.emails

/-- The emails that a configuration may get: its own name, and that with a number. -/
def numbered (baseEmail : String) : ℕ → String
  | 0 => baseEmail
  | k + 1 => baseEmail ++ "-" ++ toString (k + 2)

section

variable (refusal : Refusal) (x : NameEnv) (group : PanelGroup) (client : Client)
    (baseEmail : String) (p : Panel)

/-- The email of an attempt: it stays after a refusal that names the subId, and is the next one
after any other. -/
def emailAt : ℕ → String
  | 0 => baseEmail
  | a + 1 =>
      if (refusal p (emailAt a) (subIdAt x group client a)).any namesSubId then emailAt a
      else numbered baseEmail (a + 1)

/-- An attempt whose email and subId are both free. -/
def FreeAt (a : ℕ) : Prop :=
  emailAt refusal x group client baseEmail p a ∉ p.emails ∧ subIdAt x group client a ∉ p.subIds

/-- The names out of those that the attempts may use that are taken: four emails and four subIds. -/
def takenNames : ℕ :=
  (List.range Site.PANEL_ATTEMPTS).countP (fun k => numbered baseEmail k ∈ p.emails) +
    (List.range Site.PANEL_ATTEMPTS).countP (fun k => subIdAt x group client k ∈ p.subIds)

end

variable {refusal : Refusal} {x : NameEnv} {group : PanelGroup} {client : Client}
    {baseEmail : String} {p : Panel}

/-! ## One attempt -/

/-- A panel takes names that are free. -/
theorem NamesWhich.accepts (h : NamesWhich refusal) {email subId : String}
    (hemail : email ∉ p.emails) (hsubId : subId ∉ p.subIds) :
    addClient refusal p email subId = .ok ⟨email :: p.emails, subId :: p.subIds⟩ := by
  have hnone : refusal p email subId = none := by
    rw [← Option.not_isSome_iff_eq_none, h.refuses]
    exact not_or.mpr ⟨hemail, hsubId⟩
  rw [addClient, hnone]

/-- An attempt without free names is refused. -/
theorem NamesWhich.refused (h : NamesWhich refusal) {a : ℕ}
    (htaken : ¬ FreeAt refusal x group client baseEmail p a) :
    ∃ text, refusal p (emailAt refusal x group client baseEmail p a) (subIdAt x group client a) =
    some text := by
  rw [← Option.isSome_iff_exists, h.refuses]
  by_contra hfree
  exact htaken (not_or.mp hfree)

/-- After a refusal the next attempt has its own email. -/
theorem NamesWhich.retries (h : NamesWhich refusal) (n a : ℕ) (last : String)
    (htaken : ¬ FreeAt refusal x group client baseEmail p a) :
    ∃ text, addAttempts refusal x group client baseEmail p (n + 1) a
        (emailAt refusal x group client baseEmail p a) last =
      addAttempts refusal x group client baseEmail p n (a + 1)
        (emailAt refusal x group client baseEmail p (a + 1)) text := by
  obtain ⟨text, htext⟩ := h.refused htaken
  refine ⟨text, ?_⟩
  rw [addAttempts, addClient, htext, emailAt, htext, Option.any_some]
  dsimp only
  rw [h.collision _ _ _ _ htext, Bool.not_true, if_neg Bool.false_ne_true]
  by_cases hsub : namesSubId text
  · rw [if_pos hsub, if_pos hsub]
  · rw [if_neg hsub, if_neg hsub, if_pos (h.email _ _ _ _ htext hsub).1, numbered]

/-- An attempt that is refused has used up one of its names. -/
theorem NamesWhich.uses (h : NamesWhich refusal) {a : ℕ}
    (htaken : ¬ FreeAt refusal x group client baseEmail p a) :
      (subIdAt x group client a ∈ p.subIds ∧ emailAt refusal x group client baseEmail p (a + 1) =
        emailAt refusal x group client baseEmail p a) ∨
    (emailAt refusal x group client baseEmail p a ∈ p.emails ∧
      emailAt refusal x group client baseEmail p (a + 1) = numbered baseEmail (a + 1)) := by
  obtain ⟨text, htext⟩ := h.refused htaken
  rw [emailAt, htext, Option.any_some]
  by_cases hsub : namesSubId text
  · exact .inl ⟨h.subId _ _ _ _ htext hsub, if_pos hsub⟩
  · exact .inr ⟨(h.email _ _ _ _ htext hsub).2, if_neg hsub⟩

/-! ## All attempts -/

/-- The first attempt with free names is the last one. -/
theorem NamesWhich.added (h : NamesWhich refusal) {i : ℕ} (n a : ℕ) (last : String) (hi : i < n)
    (hbefore : ∀ j < i, ¬ FreeAt refusal x group client baseEmail p (a + j))
    (hfree : FreeAt refusal x group client baseEmail p (a + i)) :
    addAttempts refusal x group client baseEmail p n a
      (emailAt refusal x group client baseEmail p a) last =
        .ok (emailAt refusal x group client baseEmail p (a + i),
          ⟨emailAt refusal x group client baseEmail p (a + i) :: p.emails,
            subIdAt x group client (a + i) :: p.subIds⟩) := by
  induction i generalizing n a last with
  | zero =>
    obtain ⟨n, rfl⟩ : ∃ m, n = m + 1 := ⟨n - 1, by omega⟩
    rw [Nat.add_zero] at hfree
    rw [addAttempts, h.accepts hfree.1 hfree.2]
    rfl
  | succ i ih =>
    obtain ⟨n, rfl⟩ : ∃ m, n = m + 1 := ⟨n - 1, by omega⟩
    obtain ⟨text, htext⟩ := h.retries n a last (hbefore 0 (by omega))
    have hshift : ∀ j, a + 1 + j = a + (j + 1) := fun j => by omega
    rw [htext, ih n (a + 1) text (by omega) (fun j hj => hshift j ▸ hbefore (j + 1) (by omega))
      (hshift i ▸ hfree), hshift]

/-- Without free names in any attempt the panel takes nothing. -/
theorem NamesWhich.exhausted (h : NamesWhich refusal) (n a : ℕ) (last : String)
    (htaken : ∀ j < n, ¬ FreeAt refusal x group client baseEmail p (a + j)) :
    ∃ text, addAttempts refusal x group client baseEmail p n a
      (emailAt refusal x group client baseEmail p a) last = .error text := by
  induction n generalizing a last with
  | zero => exact ⟨last, rfl⟩
  | succ n ih =>
    obtain ⟨text, htext⟩ := h.retries n a last (htaken 0 (by omega))
    rw [htext]
    apply ih
    intro j hj
    rw [show a + 1 + j = a + (j + 1) by omega]
    exact htaken (j + 1) (by omega)

/-- Every attempt that is refused uses up a name of its own, so there is one with free names if
fewer names are taken than attempts are left. -/
theorem NamesWhich.frees (h : NamesWhich refusal) (n a k : ℕ)
    (hemail : emailAt refusal x group client baseEmail p a = numbered baseEmail k)
    (hfew : (k :: List.range' (a + 1) n).countP (fun k => numbered baseEmail k ∈ p.emails) +
      (List.range' a (n + 1)).countP (fun k => subIdAt x group client k ∈ p.subIds) ≤ n) :
    ∃ i < n + 1, FreeAt refusal x group client baseEmail p (a + i) := by
  induction n generalizing a k with
  | zero =>
    refine ⟨0, by omega, ?_⟩
    by_contra htaken
    have hnone : numbered baseEmail k ∉ p.emails ∧ subIdAt x group client a ∉ p.subIds := by
      simpa [List.range'_one] using hfew
    rcases h.uses htaken with ⟨hsub, -⟩ | ⟨hmail, -⟩
    · exact hnone.2 hsub
    · exact hnone.1 (hemail ▸ hmail)
  | succ n ih =>
    by_cases htaken : FreeAt refusal x group client baseEmail p a
    · exact ⟨0, by omega, htaken⟩
    · rw [List.countP_cons, List.range'_succ, List.countP_cons, List.range'_succ, List.countP_cons] at hfew
      have hlater : ∃ i < n + 1, FreeAt refusal x group client baseEmail p (a + 1 + i) := by
        rcases h.uses htaken with ⟨hsub, hsame⟩ | ⟨hmail, hnext⟩
        · apply ih (a + 1) k (hsame.trans hemail)
          rw [if_pos (decide_eq_true hsub)] at hfew
          rw [List.countP_cons]
          omega
        · apply ih (a + 1) (a + 1) hnext
          rw [hemail] at hmail
          rw [if_pos (decide_eq_true hmail)] at hfew
          rw [List.countP_cons]
          omega
      obtain ⟨i, hi, hfree⟩ := hlater
      exact ⟨i + 1, by omega, (show a + 1 + i = a + (i + 1) by omega) ▸ hfree⟩

/-- **Collisions are retried, four times in all.** The client is added if and only if one of the
four attempts meets an email and a subId that are free, as it does whenever fewer than four of the
names that they may use are taken; the email that is returned was not on the panel. -/
theorem collisions_retried (h : NamesWhich refusal) (x : NameEnv) (group : PanelGroup)
    (client : Client) (baseEmail : String) (p : Panel) :
    ((∃ added, addToPanel refusal x group client baseEmail p = .ok added) ↔
      ∃ a < Site.PANEL_ATTEMPTS, FreeAt refusal x group client baseEmail p a) ∧
    (takenNames x group client baseEmail p < Site.PANEL_ATTEMPTS →
      ∃ added, addToPanel refusal x group client baseEmail p = .ok added) ∧
    ∀ email after, addToPanel refusal x group client baseEmail p = .ok (email, after) →
      email ∉ p.emails ∧ ∃ subId ∉ p.subIds, after = ⟨email :: p.emails, subId :: p.subIds⟩ := by
  classical
  -- the run ends with the first attempt that meets free names
  have hfirst : ∀ a < Site.PANEL_ATTEMPTS, FreeAt refusal x group client baseEmail p a →
      ∃ b, FreeAt refusal x group client baseEmail p b ∧
        addToPanel refusal x group client baseEmail p =
          .ok (emailAt refusal x group client baseEmail p b,
            ⟨emailAt refusal x group client baseEmail p b :: p.emails,
              subIdAt x group client b :: p.subIds⟩) := by
    intro a ha hfree
    have hex : ∃ b, FreeAt refusal x group client baseEmail p b := ⟨a, hfree⟩
    refine ⟨Nat.find hex, Nat.find_spec hex, ?_⟩
    have hadded := h.added Site.PANEL_ATTEMPTS 0 ""
      (Nat.lt_of_le_of_lt (Nat.find_min' hex hfree) ha) (fun j hj => by
        rw [Nat.zero_add]; exact Nat.find_min hex hj)
          (by rw [Nat.zero_add]; exact Nat.find_spec hex)
    rw [Nat.zero_add] at hadded
    exact hadded
  have hiff : (∃ added, addToPanel refusal x group client baseEmail p = .ok added) ↔
      ∃ a < Site.PANEL_ATTEMPTS, FreeAt refusal x group client baseEmail p a := by
    constructor
    · rintro ⟨added, hadded⟩
      by_contra hnone
      obtain ⟨text, htext⟩ := h.exhausted Site.PANEL_ATTEMPTS 0 ""
        (fun j hj hfree => hnone ⟨j, hj, Nat.zero_add j ▸ hfree⟩)
      exact nomatch hadded.symm.trans htext
    · rintro ⟨a, ha, hfree⟩
      obtain ⟨b, -, hb⟩ := hfirst a ha hfree
      exact ⟨_, hb⟩
  refine ⟨hiff, ?_, ?_⟩
  · intro hfew
    obtain ⟨i, hi, hfree⟩ := h.frees 3 0 0 rfl (Nat.le_of_lt_succ hfew)
    exact hiff.mpr ⟨i, hi, Nat.zero_add i ▸ hfree⟩
  · intro email after hadded
    obtain ⟨a, ha, hfree⟩ := hiff.mp ⟨_, hadded⟩
    obtain ⟨b, hb, hrun⟩ := hfirst a ha hfree
    obtain ⟨rfl, rfl⟩ := Prod.mk.inj (Except.ok.inj (hadded.symm.trans hrun))
    exact ⟨hb.1, _, hb.2, rfl⟩

/-! ## The panels of a site -/

/-- The panels of a site only look at the emails. -/
def siteRefusal : Refusal :=
  fun p email _ => if email ∈ p.emails then some Site.emailInUse.message else none

/-- The emails on a server of a site. -/
def onServer (s : Site) (serverId : ServerId) : Panel :=
  ⟨(s.remote.rows.filter fun r => r.1.1 = serverId).map fun r => r.1.2, []⟩

theorem mem_onServer (s : Site) (serverId : ServerId) (email : String) :
    email ∈ (onServer s serverId).emails ↔ (s.remote.get? (serverId, email)).isSome := by
  rw [onServer, List.mem_map, Option.isSome_iff_exists]
  constructor
  · rintro ⟨⟨⟨id, mail⟩, row⟩, hrow, rfl⟩
    obtain ⟨hmem, hid⟩ := List.mem_filter.mp hrow
    obtain rfl : id = serverId := of_decide_eq_true hid
    exact ⟨row, (Table.mem_rows_iff _ _ _).mp hmem⟩
  · rintro ⟨row, hrow⟩
    exact ⟨((serverId, email), row),
      List.mem_filter.mpr ⟨(Table.mem_rows_iff _ _ _).mpr hrow, decide_eq_true rfl⟩, rfl⟩

/-- An error with a panel's text. -/
def errorOf (text : String) : AppError := ⟨text, 502, "panel_error"⟩

/-- What a panel of the site answers, if it answers at all. -/
theorem addClient_run (s : Site) (hdone : ∀ k, s.replies k = .done) (serverId : ServerId)
    (email subId : String) (remote : RemoteClient) :
    (Site.caught (Site.addClient (serverId, email) remote)).run s =
      match addClient siteRefusal (onServer s serverId) email subId with
      | .ok _ => (.ok none, { s
        with remote := s.remote.set (serverId, email) remote, calls := s.calls + 1 })
      | .error text => (.ok (some (errorOf text)), { s with calls := s.calls + 1 }) := by
  have hmem := mem_onServer s serverId email
  rw [Site.caught, run_attempt, run_bind, Site.addClient, run_step, hdone, addClient, siteRefusal]
  by_cases htaken : (s.remote.get? (serverId, email)).isSome
  · rw [if_pos (hmem.mpr htaken)]
    simp only [htaken, if_true]
    rfl
  · rw [if_neg fun h => htaken (hmem.mp h)]
    simp only [htaken]
    rfl

/-- On a site whose panels answer, `addToPanel` does what it does here. -/
theorem addToPanel_run (s : Site) (hdone : ∀ k, s.replies k = .done) (x : NameEnv)
    (group : PanelGroup) (client : Client) (baseEmail : String) (expiry : Option ℤ) :
    ((Site.addToPanel group client baseEmail expiry).run s).1 =
      ((addToPanel siteRefusal x group client baseEmail
        (onServer s group.serverId)).map Prod.fst).mapError errorOf := by
  -- on the attempts that are left, with the error of the last one
  have hrun : ∀ (n attempt : ℕ) (email text : String) (last : AppError) (s' : Site),
      s'.remote = s.remote → (∀ k, s'.replies k = .done) → (n = 0 → last = errorOf text) →
      ((Site.addAttempts group client baseEmail expiry n attempt email last).run s').1 =
        ((addAttempts siteRefusal x group client baseEmail
          (onServer s group.serverId) n attempt email text).map Prod.fst).mapError errorOf := by
    intro n
    induction n with
    | zero =>
      intro attempt email text last s' _ _ hlast
      rw [hlast rfl]
      rfl
    | succ n ih =>
      intro attempt email text last s' hremote hanswers _
      have hnames : onServer s group.serverId = onServer s' group.serverId :=
        by rw [onServer, onServer, hremote]
      rw [Site.addAttempts, run_bind,
        addClient_run s' hanswers _ _ (subIdAt x group client attempt), addAttempts, hnames]
      cases addClient siteRefusal (onServer s' group.serverId) email
        (subIdAt x group client attempt) with
      | ok _ => rfl
      | error text =>
        have hnext := fun email => hnames ▸ ih (attempt + 1) email text (errorOf text)
          { s' with calls := s'.calls + 1 } hremote hanswers fun _ => rfl
        dsimp only
        generalize ({ s' with calls := s'.calls + 1 } : Site) = after at hnext ⊢
        have hmessage : (errorOf text).message = text := rfl
        rw [hmessage]
        by_cases hcollision : !isCollision text
        · rw [if_pos hcollision, if_pos hcollision]
          rfl
        rw [if_neg hcollision, if_neg hcollision]
        by_cases hsub : namesSubId text
        · rw [if_pos hsub, if_pos hsub, hnext]
        rw [if_neg hsub, if_neg hsub]
        by_cases hmail : namesEmail text
        · rw [if_pos hmail, if_pos hmail, hnext]
        · rw [if_neg hmail, if_neg hmail]
          rfl
  exact hrun Site.PANEL_ATTEMPTS 0 baseEmail "" _ s rfl hdone (fun h => absurd h (by decide))

/-- What 3x-ui says: the subId is looked up before the email. -/
def inUse : Refusal := fun p email subId =>
  if subId ∈ p.subIds then some "Something went wrong (subId already in use)"
  else if email ∈ p.emails then some Site.emailInUse.message
  else none

theorem inUse_namesWhich : NamesWhich inUse := by
  have hsub : isCollision "Something went wrong (subId already in use)" ∧
      namesSubId "Something went wrong (subId already in use)" := by decide +kernel
  have hemail : isCollision Site.emailInUse.message ∧ ¬ namesSubId Site.emailInUse.message ∧
      namesEmail Site.emailInUse.message := by decide +kernel
  constructor
  · intro p email subId
    unfold inUse
    split_ifs with h h'
    · exact ⟨fun _ => .inr h, fun _ => rfl⟩
    · exact ⟨fun _ => .inl h', fun _ => rfl⟩
    · exact ⟨fun hsome => (Bool.false_ne_true hsome).elim, fun hor => (hor.elim h' h).elim⟩
  all_goals
    intro p email subId text htext
    unfold inUse at htext
    split_ifs at htext with h h'
  · exact Option.some.inj htext ▸ hsub.1
  · exact Option.some.inj htext ▸ hemail.1
  · exact fun _ => h
  · exact fun hnames => absurd hnames (Option.some.inj htext ▸ hemail.2.1)
  · exact fun hnames => absurd (Option.some.inj htext ▸ hsub.2) hnames
  · exact fun _ => ⟨Option.some.inj htext ▸ hemail.2.2, h'⟩

/-- A customer named `ali` on the first server, with the digests that are taken for the subIds. -/
def aliClient : Client :=
  ⟨1, "ali", none, none, 8, 9, 0, 0, 0, none, 0, .active, none, none, none, none⟩

def aliGroup : PanelGroup := ⟨1, "s", "vless", "", [1]⟩

def aliEnv : NameEnv where
  subToken _ := "tokentoken"
  serverId _ := "server"
  sha1Hex text :=
    if text = "tokentoken:server:1:" then "719727adeb1726f88eadb820cf8f3ace46709566"
    else if text = "tokentoken:server:1:r1" then "70471cdea172c0d5c2907f3c098c875a29c9455e"
    else if text = "tokentoken:server:1:r2" then "16fd6d533821ea05dbbae9830d7f5233a4b59c40"
    else if text = "tokentoken:server:1:r3" then "b2c82e2c3ad4e4f0ff7257c07b77e98c7f1ad396"
    else ""

/-- Beside four customers of this name another one is not provisioned, although `ali-5` is free. -/
theorem collisions_not_retried :
    NamesWhich inUse ∧
      addToPanel inUse aliEnv aliGroup aliClient "ali" ⟨["ali", "ali-2", "ali-3", "ali-4"], []⟩ =
        .error Site.emailInUse.message :=
  ⟨inUse_namesWhich, by decide +kernel⟩

/-- Beside one customer of this name, and one who has the first subId, another one is `ali-3`. -/
theorem collisions_retried_ali :
    addToPanel inUse aliEnv aliGroup aliClient "ali" ⟨["ali"], ["tokentok719727ad"]⟩ =
        .ok ("ali-3", ⟨["ali-3", "ali"], ["tokentok16fd6d53", "tokentok719727ad"]⟩) ∧
      "ali-3" ∉ ["ali"] := by
  have hrun : addToPanel inUse aliEnv aliGroup aliClient "ali" ⟨["ali"], ["tokentok719727ad"]⟩ =
      .ok ("ali-3", ⟨["ali-3", "ali"], ["tokentok16fd6d53", "tokentok719727ad"]⟩) := by
    decide +kernel
  exact ⟨hrun, ((collisions_retried inUse_namesWhich _ _ _ _ _).2.2 _ _ hrun).1⟩

end Panel

end SRPanel
