import SRPanel.Lib.Rely
import SRPanel.Model.Customers

/-!
# The identity of a customer

A customer logs in with an e-mail address or a phone number. Every row keeps both in normalised
form, and the unique columns keep those of one seller apart, however calls interleave. A profile may
be saved with an empty phone number, though, which leaves a customer without an address with nothing
to log in with.
-/

namespace SRPanel

open Interleaving

/-! ## Normalised texts -/

section Texts

variable {v e p : String}

/-- An address has an `@` and no white space. -/
theorem isEmail_spec (h : isEmail v) :
    '@' ∈ v.toList ∧ ∀ c ∈ v.toList, Unicode.isWhite c = false := by
  unfold isEmail at h
  split at h
  · next name domain hsplit =>
    have hlist : v.toList = name ++ '@' :: domain := by
      have hjoin : ['@'].intercalate (v.toList.splitOn '@') = v.toList := List.intercalate_splitOn _
      rw [← hjoin, hsplit]
      simp [List.intercalate]
    simp only [Bool.and_eq_true, List.all_eq_true] at h
    have hchar : ∀ c, isAddressChar c = true → Unicode.isWhite c = false := by
      intro c hc
      simp only [isAddressChar, Bool.and_eq_true, Bool.not_eq_true'] at hc
      exact hc.1
    refine ⟨by rw [hlist]; simp, fun c hc => ?_⟩
    rw [hlist, List.mem_append, List.mem_cons] at hc
    rcases hc with hc | rfl | hc
    · exact hchar c (h.1.1.2 c hc)
    · decide
    · exact hchar c (h.1.2 c hc)
  · cases h

theorem lower_sliceTo (n : ℕ) (s : String) : lower (sliceTo n s) = sliceTo n (lower s) := by
  simp [lower, sliceTo, List.map_take]

/-- Cleaning an address that `cleanEmail` has made leaves it as it is. -/
theorem cleanEmail_fixed {v : Option String} (h : cleanEmail v = some e) (he : isEmail e) :
    cleanEmail (some e) = some e := by
  simp only [cleanEmail, orNull, Option.ite_none_left_eq_some, Option.some.injEq] at h
  obtain ⟨hne, rfl⟩ := h
  rw [cleanEmail, Option.getD_some, trim_of_dense (isEmail_spec he).2, lower_sliceTo, lower_lower,
    sliceTo_sliceTo, orNull, if_neg hne]

/-- Cleaning digits that `cleanDigits` has made leaves them as they are. -/
theorem cleanDigits_fixed {v : Option String} (h : cleanDigits v = some p) :
    cleanDigits (some p) = some p := by
  simp only [cleanDigits, orNull, Option.ite_none_left_eq_some, Option.some.injEq] at h
  obtain ⟨hne, rfl⟩ := h
  rw [cleanDigits, Option.getD_some, digitsOnly_sliceTo, sliceTo_sliceTo, orNull, if_neg hne]

/-- A cleaned number consists of digits. -/
theorem isDigit_of_cleanDigits {v : Option String} (h : cleanDigits v = some p) {c : Char}
    (hc : c ∈ p.toList) : c.isDigit := by
  simp only [cleanDigits, orNull, Option.ite_none_left_eq_some, Option.some.injEq] at h
  obtain ⟨-, rfl⟩ := h
  exact isDigit_of_mem_sliceTo hc

/-- An address stands for itself. -/
theorem loginEmail_of_isEmail (he : isEmail e) :
    AccountStore.loginEmail e = cleanEmail (some e) := by
  obtain ⟨hat, hdense⟩ := isEmail_spec he
  rw [AccountStore.loginEmail, trim_of_dense hdense, if_pos hat]

/-- A number stands for itself. -/
theorem login_of_digits (hp : cleanDigits (some p) = some p) :
    AccountStore.loginEmail p = none ∧ AccountStore.loginPhone p = some p := by
  have hdigit : ∀ c ∈ p.toList, c.isDigit := fun c hc => isDigit_of_cleanDigits hp hc
  have hat : '@' ∉ p.toList := fun h => absurd (hdigit _ h) (by decide)
  have htrim := trim_of_dense fun c hc => isWhite_of_isDigit (hdigit c hc)
  rw [AccountStore.loginEmail, AccountStore.loginPhone, htrim, if_neg hat, if_neg hat]
  exact ⟨rfl, hp⟩

end Texts

/-! ## Sound rows -/

namespace CustomerAccount

/-- The address and the number are as cleaning leaves them, and there is one of them. -/
structure Normal (c : CustomerAccount) : Prop where
  email : ∀ e, c.email = some e → isEmail e ∧ cleanEmail (some e) = some e
  phone : ∀ p, c.phone = some p → cleanDigits (some p) = some p
  contact : c.email.isSome ∨ c.phone.isSome

/-- Two customers of one seller have the same address or the same number. -/
def Shares (c c' : CustomerAccount) : Prop :=
  c.adminId = c'.adminId ∧ (c.email.isSome ∧ c'.email = c.email ∨ c.phone.isSome ∧
    c'.phone = c.phone)

theorem Shares.symm {c c' : CustomerAccount} (h : c.Shares c') : c'.Shares c := by
  obtain ⟨hadmin, ⟨hsome, heq⟩ | ⟨hsome, heq⟩⟩ := h
  · exact ⟨hadmin.symm, .inl ⟨heq ▸ hsome, heq.symm⟩⟩
  · exact ⟨hadmin.symm, .inr ⟨heq ▸ hsome, heq.symm⟩⟩

end CustomerAccount

namespace AccountStore

variable {s s' : AccountStore} {id : CustomerId} {c : CustomerAccount}

/-- What every step keeps. -/
structure Sound (s : AccountStore) : Prop where
  fresh : ∀ id c, s.customers.get? id = some c → id < s.nextId
  normal : ∀ id c, s.customers.get? id = some c → c.Normal
  distinct : ∀ id id' c c', s.customers.get? id = some c → s.customers.get? id' = some c' →
    c.Shares c' → id = id'

/-- Every customer has an address or a number with which `loginCustomer` finds that customer, and no
two customers of a seller have an address or a number in common, when cleaned. -/
structure Identified (s : AccountStore) : Prop where
  found : ∀ id c, s.customers.get? id = some c →
    ∃ identity, (c.email = some identity ∨ c.phone = some identity) ∧
    s.loginRows c.adminId identity = [(id, c)]
  emails : ∀ id id' c c', s.customers.get? id = some c → s.customers.get? id' = some c' →
    c.adminId = c'.adminId → c.email.isSome → cleanEmail c.email = cleanEmail c'.email → id = id'
  phones : ∀ id id' c c', s.customers.get? id = some c → s.customers.get? id' = some c' →
    c.adminId = c'.adminId → c.phone.isSome → cleanDigits c.phone = cleanDigits c'.phone → id = id'

/-- The only row of a seller that satisfies a condition. -/
theorem ofSeller_eq_singleton {p : CustomerAccount → Bool}
    (hget : s.customers.get? id = some c) (hp : p c)
    (honly : ∀ id' c', s.customers.get? id' = some c' → c'.adminId = c.adminId → p c' → id' = id) :
    s.ofSeller c.adminId p = [(id, c)] := by
  have hperm := s.customers.filter_perm_cons hget (fun r => r.2.adminId = c.adminId && p r.2)
    (by simp [hp])
  have hnone : (s.customers.rows.filter fun r =>
      (decide (r.2.adminId = c.adminId) && p r.2) && decide (r.1 ≠ id)) = [] := by
    refine List.filter_eq_nil_iff.mpr fun r hr hsel => ?_
    simp only [Bool.and_eq_true, decide_eq_true_eq] at hsel
    obtain ⟨⟨hadmin, hpr⟩, hne⟩ := hsel
    exact hne (honly r.1 r.2 ((s.customers.mem_rows_iff r.1 r.2).mp hr) hadmin hpr)
  rw [hnone] at hperm
  exact List.perm_singleton.mp hperm

theorem Sound.identified (h : s.Sound) : s.Identified where
  found id c hget := by
    have hnormal := h.normal id c hget
    cases hemail : c.email with
    | some e =>
      obtain ⟨he, hclean⟩ := hnormal.email e hemail
      refine ⟨e, .inl rfl, ?_⟩
      rw [loginRows, loginEmail_of_isEmail he, hclean]
      refine ofSeller_eq_singleton hget (by simp [hemail]) fun id' c' hget' hadmin hp => ?_
      have hsame : c'.email = c.email := by rw [hemail]; exact of_decide_eq_true hp
      exact (h.distinct id id' c c' hget hget' ⟨hadmin.symm, .inl ⟨by simp [hemail], hsame⟩⟩).symm
    | none =>
      have hsome : c.phone.isSome := hnormal.contact.resolve_left (by simp [hemail])
      obtain ⟨p, hphone⟩ := Option.isSome_iff_exists.mp hsome
      obtain ⟨hnone, hlogin⟩ := login_of_digits (hnormal.phone p hphone)
      refine ⟨p, .inr hphone, ?_⟩
      rw [loginRows, hnone, hlogin]
      refine ofSeller_eq_singleton hget (by simp [hphone]) fun id' c' hget' hadmin hp => ?_
      have hsame : c'.phone = c.phone := by rw [hphone]; exact of_decide_eq_true hp
      exact (h.distinct id id' c c' hget hget' ⟨hadmin.symm, .inr ⟨hsome, hsame⟩⟩).symm
  emails id id' c c' hget hget' hadmin hsome hclean := by
    obtain ⟨e, he⟩ := Option.isSome_iff_exists.mp hsome
    rw [he, ((h.normal id c hget).email e he).2] at hclean
    cases he' : c'.email with
    | none =>
      rw [he'] at hclean
      cases hclean
    | some e' =>
      rw [he', ((h.normal id' c' hget').email e' he').2] at hclean
      exact h.distinct id id' c c' hget hget' ⟨hadmin, .inl ⟨hsome, by rw [he', he, hclean]⟩⟩
  phones id id' c c' hget hget' hadmin hsome hclean := by
    obtain ⟨p, hp⟩ := Option.isSome_iff_exists.mp hsome
    rw [hp, (h.normal id c hget).phone p hp] at hclean
    cases hp' : c'.phone with
    | none =>
      rw [hp'] at hclean
      cases hclean
    | some p' =>
      rw [hp', (h.normal id' c' hget').phone p' hp'] at hclean
      exact h.distinct id id' c c' hget hget' ⟨hadmin, .inr ⟨hsome, by rw [hp', hp, hclean]⟩⟩

/-! ## Writing a row -/

/-- A row that nobody else shares is not refused, and only such a row is written. -/
theorem not_shares_of_taken {self : Option CustomerId} (h : s.taken self c = false)
    {id' : CustomerId} {c' : CustomerAccount} (hget : s.customers.get? id' = some c')
    (hne : self ≠ some id') : ¬c.Shares c' := by
  rintro ⟨hadmin, hshare⟩
  have hrow := List.any_eq_false.mp h (id', c') ((s.customers.mem_rows_iff id' c').mpr hget)
  refine hrow ?_
  simp only [Bool.and_eq_true, Bool.or_eq_true, decide_eq_true_eq]
  exact ⟨⟨hne, hadmin.symm⟩, hshare⟩

/-- One row is new or changed. -/
theorem Sound.put (h : s.Sound) (hnext : s.nextId ≤ s'.nextId) (hid : id < s'.nextId)
    (hget : ∀ id', s'.customers.get? id' = if id' = id then some c else s.customers.get? id')
    (hc : c.Normal)
    (hfree : ∀ id' c', s.customers.get? id' = some c' → id' ≠ id → ¬c.Shares c') : s'.Sound := by
  have hrow : ∀ id' c', s'.customers.get? id' = some c' →
      id' = id ∧ c' = c ∨ id' ≠ id ∧ s.customers.get? id' = some c' := by
    intro id' c' h'
    rw [hget] at h'
    split at h'
    · next heq => exact .inl ⟨heq, (Option.some.inj h').symm⟩
    · next hne => exact .inr ⟨hne, h'⟩
  refine ⟨fun id' c' h' => ?_, fun id' c' h' => ?_, fun id₁ id₂ c₁ c₂ h₁ h₂ hshare => ?_⟩
  · rcases hrow id' c' h' with ⟨rfl, -⟩ | ⟨-, h'⟩
    · exact hid
    · exact lt_of_lt_of_le (h.fresh id' c' h') hnext
  · rcases hrow id' c' h' with ⟨-, rfl⟩ | ⟨-, h'⟩
    · exact hc
    · exact h.normal id' c' h'
  · rcases hrow id₁ c₁ h₁ with ⟨rfl, rfl⟩ | ⟨hne₁, h₁⟩
    · rcases hrow id₂ c₂ h₂ with ⟨rfl, -⟩ | ⟨hne₂, h₂⟩
      · rfl
      · exact absurd hshare (hfree id₂ c₂ h₂ hne₂)
    · rcases hrow id₂ c₂ h₂ with ⟨rfl, rfl⟩ | ⟨hne₂, h₂⟩
      · exact absurd hshare.symm (hfree id₁ c₁ h₁ hne₁)
      · exact h.distinct id₁ id₂ c₁ c₂ h₁ h₂ hshare

/-! ## Calls -/

/-- The step leaves its customer something to log in with: a profile is saved without a phone number
only for a customer with an e-mail address. -/
def KeepsContact : AccountMark → AccountStore → Prop
  | .other, _ => True
  | .profile id phone, s => phone = some none → ∀ c ∈ s.customers.get? id, c.email.isSome

instance : ∀ mark s, Decidable (KeepsContact mark s)
  | .other, _ => isTrue trivial
  | .profile id phone, s =>
      inferInstanceAs (Decidable (phone = some none → ∀ c ∈ s.customers.get? id, c.email.isSome))

/-- Time passes, and whatever else happens in the panel leaves the columns of the accounts alone. -/
def Elapses (s s' : AccountStore) : Prop := s'.customers = s.customers ∧ s.nextId ≤ s'.nextId

theorem Sound.of_elapses (h : s.Sound) (he : Elapses s s') : s'.Sound where
  fresh id c hget := lt_of_lt_of_le (h.fresh id c (he.1 ▸ hget)) he.2
  normal id c hget := h.normal id c (he.1 ▸ hget)
  distinct id id' c c' hget hget' := h.distinct id id' c c' (he.1 ▸ hget) (he.1 ▸ hget')

section Steps

variable {α : Type} {Q : α → AccountStore → Prop} {E : AppError → AccountStore → Prop}

/-- What follows a test runs if the test passes. -/
theorem refuseIf_upholds (b : Bool) (e : AppError) {f : Unit → AccountTask α} {s : AccountStore}
    (h : b = false → ∀ t, Upholds KeepsContact Sound Anything Q (fun _ _ => True) (f ()) t) :
    Upholds KeepsContact Sound Anything Q (fun _ _ => True) (refuseIf b e >>= f) s := by
  unfold refuseIf
  cases b with
  | false => exact h rfl s
  | true => exact upholds_throw trivial

theorem read_upholds (f : AccountStore → α) (s : AccountStore) :
    Upholds KeepsContact Sound Anything (fun _ _ => True) (fun _ _ => True) (read f) s :=
  upholds_query fun _ _ _ _ => trivial

theorem audit_upholds (adminId : AdminId) (action target : String) (s : AccountStore) :
    Upholds KeepsContact Sound Anything (fun _ _ => True)
      (fun _ _ => True) (audit adminId action target) s := by
  unfold audit
  refine upholds_attempt (upholds_step (E := fun _ _ => True) fun t _ hI _ => ?_) fun _ _ _ =>
  upholds_pure trivial
  exact ⟨hI.of_elapses ⟨rfl, le_rfl⟩, trivial, fun _ _ => trivial, fun _ _ => trivial⟩

theorem startCustomerSession_upholds (customerId : CustomerId) (meta' : CustomerSessionMeta)
    (s : AccountStore) : Upholds KeepsContact Sound Anything (fun _ _ => True) (fun _ _ => True)
      (startCustomerSession customerId meta') s := by
  unfold startCustomerSession
  refine upholds_step fun t _ hI _ =>
    ⟨hI.of_elapses ⟨rfl, Nat.le_succ _⟩, trivial, fun _ _ => trivial, fun _ _ => trivial⟩

/-- A normal row is inserted, or refused by a unique column. -/
theorem createCustomer_upholds {row : ℤ → CustomerAccount} (hrow : ∀ now, (row now).Normal)
    (s : AccountStore) : Upholds KeepsContact Sound Anything (fun _ _ => True)
      (fun _ _ => True) (createCustomer row) s := by
  unfold createCustomer
  refine upholds_step fun t _ hI _ => ⟨?_, trivial, fun _ _ => trivial, fun _ _ => trivial⟩
  dsimp only
  split
  · exact hI
  · next hfree =>
    refine hI.put (Nat.le_succ _) (Nat.lt_succ_self _) (t.customers.get?_set t.nextId · _)
      (hrow t.now) ?_
    exact fun id' c' hget _ hshare =>
      not_shares_of_taken (Bool.eq_false_iff.mpr hfree) hget (by simp) hshare

/-- A row is changed to a normal one, or refused by a unique column. -/
theorem updateCustomer_upholds {mark : AccountMark} {id : CustomerId}
    {f : CustomerAccount → CustomerAccount}
    (hf : ∀ t c, KeepsContact mark t → t.customers.get? id = some c → c.Normal → (f c).Normal)
    (s : AccountStore) :
    Upholds KeepsContact Sound Anything (fun _ _ => True)
      (fun _ _ => True) (updateCustomer mark id f) s := by
  unfold updateCustomer
  refine upholds_step fun t _ hI hok => ⟨?_, trivial, fun _ _ => trivial, fun _ _ => trivial⟩
  split
  · exact hI
  · next c hget =>
    split
    · exact hI
    · next hfree =>
      have hid : id < t.nextId := hI.fresh id c hget
      refine hI.put le_rfl hid (fun id' => ?_) (hf t c hok hget (hI.normal id c hget)) ?_
      · rw [Table.get?_modify]
        split
        · next heq => rw [heq, hget]; rfl
        · rfl
      · exact fun id' c' hget' hne hshare => not_shares_of_taken (Bool.eq_false_iff.mpr hfree) hget'
          (fun heq => hne (Option.some.inj heq).symm) hshare

theorem assertFree_upholds (adminId : AdminId) (column : CustomerAccount → Option String)
    (value : Option String) (e : AppError) (s : AccountStore) :
    Upholds KeepsContact Sound Anything (fun _ _ => True) (fun _ _ => True)
      (assertFree adminId column value e) s := by
  unfold assertFree
  cases value with
  | none => exact upholds_pure trivial
  | some v =>
    refine upholds_bind (read_upholds _ s) fun found t _ _ => ?_
    unfold refuseIf
    exact upholds_ite (fun _ => upholds_throw trivial) fun _ => upholds_pure trivial

theorem assertSignupRate_upholds (ip : Option String) (s : AccountStore) :
    Upholds KeepsContact Sound Anything (fun _ _ => True)
      (fun _ _ => True) (assertSignupRate ip) s := by
  unfold assertSignupRate
  split
  · exact upholds_pure trivial
  · refine upholds_bind (read_upholds _ s) fun recent t _ _ => ?_
    unfold refuseIf
    exact upholds_ite (fun _ => upholds_throw trivial) fun _ => upholds_pure trivial

end Steps

section Procedures

variable {rules : AccountRules} {meta' : CustomerSessionMeta} (s : AccountStore)

/-- What passes the checks of `signupCustomer` is a normal row. -/
theorem normal_of_signup (input : CustomerSignupInput) (c : CustomerAccount)
    (hemail : ((cleanEmail input.email).any fun e => !isEmail e) = false)
    (hcontact : ((cleanEmail input.email).isNone && (cleanDigits input.phone).isNone) = false)
    (he : c.email = cleanEmail input.email) (hp : c.phone = cleanDigits input.phone) :
    c.Normal where
  email e heq := by
    rw [he] at heq
    have hvalid : isEmail e := by simpa [heq] using hemail
    exact ⟨hvalid, cleanEmail_fixed heq hvalid⟩
  phone p heq := by
    rw [hp] at heq
    exact cleanDigits_fixed heq
  contact := by
    rw [he, hp]
    revert hcontact
    cases cleanEmail input.email <;> cases cleanDigits input.phone <;> simp

theorem signupCustomer_upholds (input : CustomerSignupInput) :
    Upholds KeepsContact Sound Anything (fun _ _ => True)
      (fun _ _ => True) (signupCustomer rules input meta') s := by
  unfold signupCustomer
  extract_lets email phone telegramId
  have hcreate : ∀ row : ℤ → CustomerAccount,
      (∀ now, (row now).email = email ∧ (row now).phone = phone) →
      (email.any fun e => !isEmail e) = false → (email.isNone && phone.isNone) = false →
      ∀ now, (row now).Normal :=
    fun row hrow hemail hcontact now =>
      normal_of_signup input (row now) hemail hcontact (hrow now).1 (hrow now).2
  clear_value email phone telegramId
  refine refuseIf_upholds _ _ fun _ t => ?_
  refine refuseIf_upholds _ _ fun hemail t => ?_
  refine refuseIf_upholds _ _ fun hcontact t => ?_
  refine refuseIf_upholds _ _ fun _ t => ?_
  refine refuseIf_upholds _ _ fun _ t => ?_
  refine refuseIf_upholds _ _ fun _ t => ?_
  refine upholds_bind (assertSignupRate_upholds _ t) fun _ t _ _ => ?_
  refine upholds_bind (assertFree_upholds _ _ _ _ t) fun _ t _ _ => ?_
  refine upholds_bind (assertFree_upholds _ _ _ _ t) fun _ t _ _ => ?_
  refine upholds_bind (createCustomer_upholds (hcreate _ (fun _ => ⟨rfl, rfl⟩) hemail hcontact) t)
    fun c t _ _ => ?_
  refine upholds_bind (startCustomerSession_upholds _ _ t) fun token t _ _ => ?_
  exact upholds_bind (audit_upholds _ _ _ t) fun _ t _ _ => upholds_pure trivial

theorem loginCustomer_upholds (input : CustomerLoginInput) :
    Upholds KeepsContact Sound Anything (fun _ _ => True)
      (fun _ _ => True) (loginCustomer rules input meta') s := by
  unfold loginCustomer
  refine refuseIf_upholds _ _ fun _ t => ?_
  refine refuseIf_upholds _ _ fun _ t => ?_
  refine upholds_bind (read_upholds _ t) fun found t _ _ => ?_
  split
  · exact upholds_bind (audit_upholds _ _ _ t) fun _ t _ _ => upholds_throw trivial
  · next customer _ =>
    refine refuseIf_upholds _ _ fun _ t => ?_
    refine upholds_bind (startCustomerSession_upholds _ _ t) fun token t _ _ => ?_
    refine upholds_bind (read_upholds _ t) fun now t _ _ => ?_
    have hrow : ∀ c : CustomerAccount, c.Normal →
        CustomerAccount.Normal { c with lastLoginAt := some now, lastLoginIp := meta'.ip } :=
      fun c hc => ⟨hc.email, hc.phone, hc.contact⟩
    refine upholds_bind (updateCustomer_upholds (fun _ c _ _ hc => hrow c hc) t) fun _ t _ _ => ?_
    exact upholds_bind (audit_upholds _ _ _ t) fun _ t _ _ => upholds_pure trivial

theorem assertPhone_upholds (customer : CustomerAccount) (phone : Option String) :
    Upholds KeepsContact Sound Anything (fun _ _ => True)
      (fun _ _ => True) (assertPhone customer phone) s := by
  unfold assertPhone
  exact upholds_ite (fun _ => assertFree_upholds _ _ _ _ s) fun _ => upholds_pure trivial

/-- A saved profile is normal if it keeps something to log in with. -/
theorem updateCustomerProfile_upholds (customer : CustomerId × CustomerAccount)
    (input : CustomerProfileInput) :
      Upholds KeepsContact Sound Anything (fun _ _ => True)
        (fun _ _ => True) (updateCustomerProfile customer input) s := by
  unfold updateCustomerProfile
  have hrow : ∀ (t : AccountStore) (c : CustomerAccount),
      KeepsContact (.profile customer.1 (input.phone.map cleanDigits)) t →
      t.customers.get? customer.1 = some c → c.Normal →
      CustomerAccount.Normal { c with
        name := (input.name.map cleanName).getD c.name
        telegramId := (input.telegramId.map cleanDigits).getD c.telegramId
        phone := (input.phone.map cleanDigits).getD c.phone } := by
    intro t c hok hget hc
    refine ⟨hc.email, fun p hp => ?_, ?_⟩
    · cases hphone : input.phone with
      | none => exact hc.phone p (by simpa [hphone] using hp)
      | some phone => exact cleanDigits_fixed (v := phone) (by simpa [hphone] using hp)
    · cases hphone : input.phone with
      | none => simpa [hphone] using hc.contact
      | some phone =>
        cases hclean : cleanDigits phone with
        | none => exact .inl (hok (by rw [hphone, Option.map_some, hclean]) c hget)
        | some p => exact .inr (by simp [hclean])
  dsimp only
  cases hphone : input.phone.map cleanDigits with
  | none =>
    rw [hphone] at hrow
    exact upholds_bind (upholds_pure (Q := fun _ _ => True) trivial) fun _ t _ _ =>
      updateCustomer_upholds hrow t
  | some phone =>
    rw [hphone] at hrow
    exact upholds_bind (assertPhone_upholds s _ phone) fun _ t _ _ => updateCustomer_upholds hrow t

theorem saveProfile_upholds (token : ℕ) (input : CustomerProfileInput) :
    Upholds KeepsContact Sound Anything (fun _ _ => True)
      (fun _ _ => True) (saveProfile token input) s := by
  unfold saveProfile customerFromToken
  refine upholds_bind (read_upholds _ s) fun customer t _ _ => ?_
  split
  · exact upholds_throw trivial
  · next customer => exact updateCustomerProfile_upholds t customer input

theorem task_upholds (c : Call) :
    Upholds KeepsContact Sound Anything (fun _ _ => True) (fun _ _ => True) (task c) s := by
  cases c with
  | signup rules input meta' => exact upholds_void (signupCustomer_upholds s input)
  | login rules input meta' => exact upholds_void (loginCustomer_upholds s input)
  | profile token input => exact upholds_void (saveProfile_upholds s token input)
  | update customer input => exact upholds_void (updateCustomerProfile_upholds s customer input)

end Procedures

/-! ## Runs -/

/-- However the calls interleave, the rows stay sound, as long as no customer without an e-mail
address loses the phone number. -/
theorem sound_run {s₀ : AccountStore} (h₀ : s₀.Sound) {calls : List Call}
    {c : Pool AccountMark AccountStore AppError}
    (hrun : Pool.Run Elapses KeepsContact ⟨s₀, calls.map task⟩ c) : c.store.Sound := by
  refine (Pool.upheld_run (G := Anything) h₀ ?_
    (fun _ _ hs he => ⟨hs.of_elapses he, trivial⟩) hrun).1
  intro p hp
  obtain ⟨call, -, rfl⟩ := List.mem_map.mp hp
  exact task_upholds s₀ call

/-- Then every customer can log in, and no two customers of a seller are confused. -/
theorem identified_run {s₀ : AccountStore} (h₀ : s₀.Sound) {calls : List Call}
    {c : Pool AccountMark AccountStore AppError}
    (hrun : Pool.Run Elapses KeepsContact ⟨s₀, calls.map task⟩ c) : c.store.Identified :=
  (sound_run h₀ hrun).identified

/-- A panel before its first customer. -/
def opening : AccountStore := ⟨0, 0, .empty, .empty, []⟩

theorem opening_sound : opening.Sound where
  fresh id c h := by cases h
  normal id c h := by cases h
  distinct id id' c c' h := by cases h

/-- Someone signs up with a phone number, in a shop that asks for nothing else. -/
def signupByPhone : Call :=
  .signup ⟨1, true, false, false, false⟩ ⟨none, none, some "0912", none, "secret"⟩ ⟨none, none⟩

/-- Someone signs up with an e-mail address and a phone number. -/
def signupByBoth : Call :=
  .signup ⟨1, true, false, false, false⟩ ⟨none, some "a@b.io", some "0912", none,
    "secret"⟩ ⟨none, none⟩

/-- The customer of the first session clears the phone number. -/
def clearPhone : Call := .profile 1 ⟨none, some (some ""), none⟩

/-- A customer with an e-mail address may clear the number while another one signs up with it. -/
theorem identified_run_shared : (Pool.schedule [0, 0, 0, 0, 0, 2, 2, 1, 1, 2, 2, 2]
    ⟨opening, [signupByBoth, clearPhone, signupByPhone].map task⟩).store.Identified :=
  identified_run opening_sound (Pool.schedule_run Elapses _ _ (by decide +kernel))

/-- A customer who signed up with a phone number clears it, and no one finds that customer any more.
-/
theorem unidentified_run : ∃ c : Pool AccountMark AccountStore AppError,
    Pool.Run Elapses (fun _ _ => True) ⟨opening, [signupByPhone, clearPhone].map task⟩ c ∧
    ¬c.store.Identified := by
  refine ⟨_, Pool.schedule_run_free Elapses [0, 0, 0, 0, 1, 1] _, fun h => ?_⟩
  have hrow : ((Pool.schedule [0, 0, 0, 0, 1, 1]
      ⟨opening, [signupByPhone, clearPhone].map task⟩).store.customers.get? 0).map
        (fun c => (c.email, c.phone)) = some (none, none) := by
    decide +kernel
  obtain ⟨c, hget, hnone⟩ := Option.map_eq_some_iff.mp hrow
  obtain ⟨hemail, hphone⟩ := Prod.mk.inj hnone
  obtain ⟨identity, hidentity, -⟩ := h.found 0 c hget
  rw [hemail, hphone] at hidentity
  rcases hidentity with h | h <;> cases h

end AccountStore

end SRPanel
