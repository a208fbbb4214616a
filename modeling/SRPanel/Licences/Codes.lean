import SRPanel.Model.Licences
import SRPanel.Lib.Rely

/-!
# The binding of a code

A call that redeems a code reads the whole book of the vendor, and a moment later writes it back
with the code bound. Two calls that read before either writes both find the code free. While every
write finds the book as its call has read it, a bound code stays bound to one install under one
expiry, and every success answer tells that expiry.
-/

namespace SRPanel

open Interleaving

/-! ## What happens to a code -/

/-- The days of a code and the binding of one that is bound are the same. -/
structure License.Kept (l l' : License) : Prop where
  days : l'.days = l.days
  bound : l.instanceId ≠ "" → l'.instanceId = l.instanceId ∧ l'.activatedAt = l.activatedAt ∧
    l'.expiresAt = l.expiresAt

/-- Every code of the book is still there, with its days and its binding. -/
def Licensing.Kept (b b' : Licensing) : Prop :=
  ∀ key l, b.keys.get? key = some l → ∃ l', b'.keys.get? key = some l' ∧ l.Kept l'

/-- A code that is bound expires its days after it was activated. -/
def License.Sound (l : License) : Prop :=
  l.instanceId ≠ "" → ∃ t, l.activatedAt = .at t ∧ l.expiresAt = expiryOf l.days t

/-- Every code of the book is sound. -/
def Licensing.Sound (b : Licensing) : Prop := ∀ key l, b.keys.get? key = some l → l.Sound

section Book

variable {b b' : Licensing} {l l' : License} {key id : String} {url : Option String} {now : Time}

/-- Nothing happening keeps a code. -/
theorem License.Kept.refl (l : License) : l.Kept l := ⟨rfl, fun _ => ⟨rfl, rfl, rfl⟩⟩

theorem License.Kept.trans {l'' : License} (h : l.Kept l') (h' : l'.Kept l'') : l.Kept l'' where
  days := h'.days.trans h.days
  bound hl := by
    obtain ⟨hi, ha, he⟩ := h.bound hl
    obtain ⟨hi', ha', he'⟩ := h'.bound (hi ▸ hl)
    exact ⟨hi'.trans hi, ha'.trans ha, he'.trans he⟩

theorem Licensing.Kept.refl (b : Licensing) : b.Kept b := fun _ l h => ⟨l, h, .refl l⟩

theorem Licensing.Kept.trans {b'' : Licensing} (h : b.Kept b') (h' : b'.Kept b'') : b.Kept b'' := by
  intro key l hl
  obtain ⟨l', hl', hkept⟩ := h key l hl
  obtain ⟨l'', hl'', hkept'⟩ := h' key l' hl'
  exact ⟨l'', hl'', hkept.trans hkept'⟩

/-- Changing one code in a way that keeps it. -/
theorem Licensing.Kept.set (hl : b.keys.get? key = some l) (hkept : l.Kept l') :
    b.Kept { b with keys := b.keys.set key l' } := by
  intro k r hr
  show ∃ r', (b.keys.set key l').get? k = some r' ∧ r.Kept r'
  rw [Table.get?_set]
  split
  · next hk =>
      obtain rfl : l = r := Option.some.inj (hl.symm.trans (hk ▸ hr))
      exact ⟨l', rfl, hkept⟩
  · exact ⟨r, hr, .refl r⟩

theorem Licensing.Sound.set (h : b.Sound) (hl : l.Sound) :
    Licensing.Sound { b with keys := b.keys.set key l } := by
  intro k r hr
  change (b.keys.set key l).get? k = some r at hr
  rw [Table.get?_set] at hr
  split at hr
  · obtain rfl := Option.some.inj hr
    exact hl
  · exact h k r hr

/-- Redeeming a code that is unused or bound to the same install keeps it. -/
theorem License.redeemed_kept (h : l.instanceId = "" ∨ l.instanceId = id) :
    l.Kept (l.redeemed id url now) := by
  unfold License.redeemed
  split
  · exact ⟨rfl, fun _ => ⟨rfl, rfl, rfl⟩⟩
  · next hne =>
      refine ⟨rfl, fun hl => ?_⟩
      rcases h with h | h
      · exact absurd h hl
      · exact absurd h hne

theorem License.redeemed_sound (h : l.Sound) : (l.redeemed id url now).Sound := by
  unfold License.redeemed
  split
  · exact h
  · exact fun _ => ⟨now, rfl, rfl⟩

@[simp] theorem License.redeemed_instanceId : (l.redeemed id url now).instanceId = id := by
  unfold License.redeemed
  split
  · next h => exact h
  · rfl

theorem License.redeemed_revoked : (l.redeemed id url now).revoked = l.revoked := by
  unfold License.redeemed
  split <;> rfl

/-- A new code replaces none. -/
theorem mintOne_get? {i : MintInput} {keys : Table String License} (code : String)
    (h : keys.get? key = some l) : (mintOne i now keys code).get? key = some l := by
  unfold mintOne
  split
  · exact h
  · next hnone =>
      have hne : key ≠ code := by
        rintro rfl
        rw [h] at hnone
        exact hnone rfl
      rw [Table.get?_set_of_ne _ _ hne]
      exact h

theorem mintOne_cases {i : MintInput} {keys : Table String License} {code : String}
    (h : (mintOne i now keys code).get? key = some l) :
    keys.get? key = some l ∨ l.instanceId = "" := by
  unfold mintOne at h
  split at h
  · exact .inl h
  · rw [Table.get?_set] at h
    split at h
    · obtain rfl := Option.some.inj h
      exact .inr rfl
    · exact .inl h

theorem mint_get? {i : MintInput} {codes : List String} {keys : Table String License}
    (h : keys.get? key = some l) : (mint i now codes keys).get? key = some l := by
  induction codes generalizing keys with
  | nil => exact h
  | cons code codes ih => exact ih (mintOne_get? code h)

/-- A code of a minted book is an old one or a new one, which is not bound. -/
theorem mint_cases {i : MintInput} {codes : List String} {keys : Table String License}
    (h : (mint i now codes keys).get? key = some l) :
    keys.get? key = some l ∨ l.instanceId = "" := by
  induction codes generalizing keys with
  | nil => exact .inl h
  | cons code codes ih =>
      rcases ih h with h | h
      · exact mintOne_cases h
      · exact .inr h

end Book

/-! ## Calls on the vendor's panel -/

/-- A call on the vendor's panel that neither releases nor deletes a code. -/
inductive VendorCall
  | verify (x : Proc) (body : RedeemInput)
  | revoke (x : Proc) (actor : Actor) (code : String) (revoked : Bool)
  | enforce (x : Proc) (actor : Actor) (enforced : Bool)
  | create (x : Proc) (actor : Actor) (i : MintInput) (codes : List String)

/-- The service behind each call. -/
def VendorCall.prog : VendorCall → Prog LicenseStmt Install AppError Unit
  | verify x body => (verifyEndpoint x body).void
  | revoke x actor code revoked => (setLicenseRevoked x actor code revoked).void
  | enforce x actor enforced => (setLicensingEnforced x actor enforced).void
  | create x actor i codes => (createLicenses x actor i codes).void

/-- A write finds the book as its call has read it. -/
def BookUnchanged : LicenseStmt → Install → Prop
  | .saveBook seen, s => s.licensing.stored = seen
  | _, _ => True

instance : ∀ (l : LicenseStmt) (s : Install), Decidable (BookUnchanged l s)
  | .saveBook seen, s => inferInstanceAs (Decidable (s.licensing.stored = seen))
  | .other, _ => isTrue trivial
  | .readBook _, _ => isTrue trivial
  | .activate _, _ => isTrue trivial
  | .saveActivation _, _ => isTrue trivial
  | .saveRecheck _ _, _ => isTrue trivial

/-- The answer tells the binding of its code and does not come after its expiry. -/
def VerifyAnswer.Backed (a : VerifyAnswer) (b : Licensing) : Prop :=
  a.instanceId ≠ "" ∧ a.result.expiresAt.past a.time = false ∧
    ∃ l, b.keys.get? a.result.code = some l ∧ l.instanceId = a.instanceId ∧
      l.activatedAt = a.result.activatedAt ∧ l.expiresAt = a.result.expiresAt

theorem VerifyAnswer.Backed.kept {a : VerifyAnswer} {b b' : Licensing} (h : a.Backed b)
    (hb : b.Kept b') : a.Backed b' := by
  obtain ⟨hne, hpast, l, hl, hi, ha, he⟩ := h
  obtain ⟨l', hl', hkept⟩ := hb _ l hl
  obtain ⟨hi', ha', he'⟩ := hkept.bound (hi ▸ hne)
  exact ⟨hne, hpast, l', hl', hi'.trans hi, ha'.trans ha, he'.trans he⟩

/-- The book is sound and backs every answer. -/
structure Install.Answered (s : Install) : Prop where
  sound : s.licensing.stored.Sound
  backed : ∀ a ∈ s.answers, a.Backed s.licensing.stored

/-- The stored book keeps its codes. -/
def Install.BookKept (s t : Install) : Prop := s.licensing.stored.Kept t.licensing.stored

instance : IsPreorder Install Install.BookKept where
  refl _ := Licensing.Kept.refl _
  trans _ _ _ := Licensing.Kept.trans

/-- A call upholds the answers given. -/
abbrev AnswersFor {α : Type} (Q : α → Install → Prop) (p : LicenseService α) : Install → Prop :=
  Upholds BookUnchanged Install.Answered Install.BookKept Q (fun _ _ => True) p

section Calls

variable {s : Install} {α : Type}

/-- A change that leaves the book and the answers alone. -/
def Install.SameBook (s t : Install) : Prop :=
  t.licensing.stored = s.licensing.stored ∧ t.answers = s.answers

theorem Install.Answered.same {t : Install} (h : s.Answered) (hs : s.SameBook t) :
    t.Answered ∧ s.BookKept t := by
  obtain ⟨hb, ha⟩ := hs
  refine ⟨⟨hb ▸ h.sound, fun a hmem => ?_⟩, ?_⟩
  · rw [hb]
    exact h.backed a (ha ▸ hmem)
  · unfold Install.BookKept
    rw [hb]
    exact .refl _

/-- Reading the book leaves it the same. -/
theorem getLicensing_keeps (x : Proc) : (getLicensing x).Keeps Install.SameBook :=
  Prog.keeps_step fun _ => ⟨Cell.stored_touch _ _ _ _, rfl⟩

/-- So does an audit line. -/
theorem auditLicense_keeps (actor : AdminId) (action : String) :
    (auditLicense actor action).Keeps Install.SameBook :=
  Prog.keeps_modify fun _ => ⟨rfl, rfl⟩

theorem answersFor_aside {p : LicenseService α} (hp : p.Keeps Install.SameBook) :
    AnswersFor (fun _ _ => True) p s :=
  upholds_of_keeps hp fun _ _ h hI => hI.same h

/-- A write of a book that keeps the codes of the one that was read. -/
theorem persistBook_answers {x : Proc} {seen v : Licensing} (hkept : seen.Kept v)
    (hsound : seen.Sound → v.Sound) :
    AnswersFor (fun _ t => t.licensing.stored = v) (persistBook x seen v) s := by
  refine upholds_step fun t _ hI hok => ?_
  have hstored : t.licensing.stored = seen := hok
  refine ⟨⟨hsound (hstored ▸ hI.sound), fun a ha => ?_⟩, ?_, fun _ _ => rfl, fun _ _ => trivial⟩
  · exact (hI.backed a ha).kept (hstored ▸ hkept)
  · show t.licensing.stored.Kept v
    rw [hstored]
    exact hkept

/-- A successful redemption leaves the code bound as it answers. -/
theorem redeemLicense_answers (x : Proc) (input : RedeemInput) :
    AnswersFor (fun r t => (⟨input.instanceKey, r.1, r.2⟩ : VerifyAnswer).Backed t.licensing.stored)
      (redeemLicense x input) s := by
  unfold redeemLicense
  dsimp only
  refine upholds_ite (fun _ => upholds_throw trivial) fun _ => ?_
  refine upholds_ite (fun _ => upholds_throw trivial) fun hid => ?_
  refine upholds_bind (answersFor_aside (getLicensing_keeps x)) fun r t _ _ => ?_
  obtain ⟨cfg, now⟩ := r
  dsimp only
  cases hcurrent : cfg.keys.get? (normalizeCode input.code) with
  | none => exact upholds_throw trivial
  | some current =>
      refine upholds_ite (fun _ => upholds_throw trivial) fun hrevoked => ?_
      refine upholds_ite (fun _ => upholds_throw trivial) fun hother => ?_
      have hfree : current.instanceId = "" ∨ current.instanceId = input.instanceKey := by
        by_cases h : current.instanceId = ""
        · exact .inl h
        · exact .inr (by simpa [h] using hother)
      have hkept : current.Kept (current.redeemed input.instanceKey input.url now) :=
        License.redeemed_kept hfree
      have hsound : current.Sound → (current.redeemed input.instanceKey input.url now).Sound :=
        License.redeemed_sound
      have hbound : (current.redeemed input.instanceKey input.url now).instanceId =
          input.instanceKey :=
        License.redeemed_instanceId
      have hlive : (current.redeemed input.instanceKey input.url now).revoked = false := by
        rw [License.redeemed_revoked]
        simpa using hrevoked
      generalize current.redeemed input.instanceKey input.url now = next at *
      refine upholds_ite (fun _ => upholds_throw trivial) fun hexpired => ?_
      have hpast : next.expiresAt.past now = false := by
        simpa [licenseStatus, hlive, hbound, hid] using hexpired
      refine upholds_bind (persistBook_answers (Licensing.Kept.set hcurrent hkept) fun h =>
        h.set (hsound (h _ current hcurrent))) fun _ t' _ hu => ?_
      refine upholds_pure ⟨hid, hpast, next, ?_, hbound, rfl, rfl⟩
      rw [hu]
      exact Table.get?_set_self _ _ _

theorem verifyEndpoint_answers (x : Proc) (body : RedeemInput) :
    AnswersFor (fun _ _ => True) (verifyEndpoint x body) s := by
  refine upholds_ite (fun _ => upholds_throw trivial) fun _ => ?_
  refine upholds_bind (redeemLicense_answers x _) fun r t _ hr => ?_
  obtain ⟨result, time⟩ := r
  refine upholds_step fun u hu hI _ =>
    ⟨⟨hI.sound, fun a ha => ?_⟩, .refl _, fun _ _ => trivial, fun _ _ => trivial⟩
  rcases List.mem_cons.mp ha with rfl | ha
  · exact hr.kept hu
  · exact hI.backed a ha

/-- A revocation keeps the answers backed. -/
theorem setLicenseRevoked_answers (x : Proc) (actor : Actor) (code : String) (revoked : Bool) :
    AnswersFor (fun _ _ => True) (setLicenseRevoked x actor code revoked) s := by
  refine upholds_ite (fun _ => upholds_throw trivial) fun _ => ?_
  refine upholds_bind (answersFor_aside (getLicensing_keeps x)) fun r t _ _ => ?_
  obtain ⟨cfg, now⟩ := r
  dsimp only
  cases hl : cfg.keys.get? (normalizeCode code) with
  | none => exact upholds_throw trivial
  | some l =>
      have hkept : l.Kept { l with revoked := revoked } := ⟨rfl, fun _ => ⟨rfl, rfl, rfl⟩⟩
      refine upholds_bind (persistBook_answers (Licensing.Kept.set hl hkept) fun hsound =>
        hsound.set (hsound _ l hl)) fun _ _ _ _ => ?_
      exact answersFor_aside (auditLicense_keeps _ _)

/-- So does the switch of enforcement. -/
theorem setLicensingEnforced_answers (x : Proc) (actor : Actor) (enforced : Bool) :
    AnswersFor (fun _ _ => True) (setLicensingEnforced x actor enforced) s := by
  refine upholds_ite (fun _ => upholds_throw trivial) fun _ => ?_
  refine upholds_bind (answersFor_aside (getLicensing_keeps x)) fun r t _ _ => ?_
  obtain ⟨cfg, now⟩ := r
  refine upholds_bind (persistBook_answers (fun _ l h => ⟨l, h, .refl l⟩) fun hsound => hsound)
    fun _ _ _ _ => ?_
  exact answersFor_aside (auditLicense_keeps _ _)

/-- So do new codes. -/
theorem createLicenses_answers (x : Proc) (actor : Actor) (i : MintInput) (codes : List String) :
    AnswersFor (fun _ _ => True) (createLicenses x actor i codes) s := by
  refine upholds_ite (fun _ => upholds_throw trivial) fun _ => ?_
  refine upholds_bind (answersFor_aside (getLicensing_keeps x)) fun r t _ _ => ?_
  obtain ⟨cfg, now⟩ := r
  refine upholds_bind (persistBook_answers (fun _ l h => ⟨l, mint_get? h, .refl l⟩)
    fun hsound key l hl => ?_) fun _ _ _ _ => answersFor_aside (auditLicense_keeps _ _)
  rcases mint_cases hl with hold | hnew
  · exact hsound key l hold
  · exact fun hne => absurd hnew hne

/-- So does every call of the vendor's desk. -/
theorem VendorCall.answers (c : VendorCall) : AnswersFor (fun _ _ => True) c.prog s := by
  cases c with
  | verify x body => exact upholds_void (verifyEndpoint_answers x body)
  | revoke x actor code revoked =>
    exact upholds_void (setLicenseRevoked_answers x actor code revoked)
  | enforce x actor enforced => exact upholds_void (setLicensingEnforced_answers x actor enforced)
  | create x actor i codes => exact upholds_void (createLicenses_answers x actor i codes)

end Calls

/-! ## The law -/

/-- The success answers for a code name one install and one expiry, which is the days of the code
after its activation, and none comes after it. -/
def Install.CodesBoundOnce (s : Install) : Prop :=
  ∀ a ∈ s.answers,
    (∀ b ∈ s.answers, b.result.code = a.result.code → b.instanceId = a.instanceId ∧
      b.result.activatedAt = a.result.activatedAt ∧ b.result.expiresAt = a.result.expiresAt) ∧
    (∃ l t, s.licensing.stored.keys.get? a.result.code = some l ∧ a.result.activatedAt = .at t ∧
      a.result.expiresAt = expiryOf l.days t) ∧
    a.result.expiresAt.past a.time = false

theorem Install.Answered.boundOnce {s : Install} (h : s.Answered) : s.CodesBoundOnce := by
  intro a ha
  obtain ⟨hne, hpast, l, hl, hi, hact, hexp⟩ := h.backed a ha
  refine ⟨fun b hb hcode => ?_, ?_, hpast⟩
  · obtain ⟨-, -, l', hl', hi', hact', hexp'⟩ := h.backed b hb
    obtain rfl : l = l' := Option.some.inj (hl.symm.trans (hcode ▸ hl'))
    exact ⟨hi'.symm.trans hi, hact'.symm.trans hact, hexp'.symm.trans hexp⟩
  · obtain ⟨t, ht, he⟩ := h.sound _ l hl (hi ▸ hne)
    exact ⟨l, t, hl, hact ▸ ht, hexp ▸ he⟩

/-- In every interleaving in which each write of the book finds it as its call has read it, a code
is bound once. -/
theorem codes_bound_once {s : Install} {calls : List VendorCall}
    {c : Pool LicenseStmt Install AppError} (hsound : s.licensing.stored.Sound)
    (hnone : s.answers = [])
    (h : Pool.Run Install.Passes BookUnchanged ⟨s, calls.map VendorCall.prog⟩ c) :
    c.store.CodesBoundOnce := by
  have hstart : s.Answered := ⟨hsound, fun a ha => by rw [hnone] at ha; cases ha⟩
  have hT : ∀ p ∈ calls.map VendorCall.prog, AnswersFor (fun _ _ => True) p s := by
    intro p hp
    obtain ⟨call, -, rfl⟩ := List.mem_map.mp hp
    exact call.answers
  refine (Pool.upheld_run hstart hT (fun t t' hI hpass => hI.same ?_) h).1.boundOnce
  obtain ⟨-, heq⟩ := hpass
  rw [heq]
  exact ⟨rfl, rfl⟩

/-- A vendor's panel that has sold one code, for thirty days. -/
def soldOne : Install :=
  { Install.blank with licensing := .fresh ⟨false, .ofRows [("ABCDEFGHJKLM",
    MintInput.license ⟨.pro, [], 30, ""⟩ "ABCDEFGHJKLM" 0)]⟩ }

/-- The book of the example is sound. -/
theorem soldOne_sound : soldOne.licensing.stored.Sound := by
  intro key l hl hne
  change (Table.empty.set "ABCDEFGHJKLM" _).get? key = some l at hl
  rw [Table.get?_set, Table.get?_empty] at hl
  split at hl
  · obtain rfl := Option.some.inj hl
    exact absurd rfl hne
  · cases hl

/-- Two installs redeem the code, the first of them twice. -/
def redemptions : Pool LicenseStmt Install AppError :=
  ⟨soldOne, ([.verify .web ⟨"ABCDEFGHJKLM", "PANEL-A", none⟩,
    .verify .web ⟨"abcd-efgh-jklm", "PANEL-B", none⟩,
    .verify .web ⟨"ABCDEFGHJKLM", "PANEL-A", none⟩] : List VendorCall).map VendorCall.prog⟩

/-- Calls that take turns: the other install is turned away. -/
theorem codes_bound_once_in_turn :
    ∃ c, Pool.Run Install.Passes BookUnchanged redemptions c ∧ c.Done ∧ c.store.answers.length = 2 ∧
    c.store.CodesBoundOnce := by
  have hrun : Pool.Run Install.Passes BookUnchanged redemptions
      (redemptions.schedule [0, 0, 0, 1, 2, 2, 2]) :=
    Pool.schedule_run Install.Passes [0, 0, 0, 1, 2, 2, 2] redemptions (by decide +kernel)
  exact ⟨_, hrun, by decide +kernel, by decide +kernel, codes_bound_once soldOne_sound rfl hrun⟩

/-- Two installs that redeem the code at the same time both get it. -/
theorem code_bound_twice :
    ¬∀ (s : Install) (calls : List VendorCall) (c : Pool LicenseStmt Install AppError),
    s.licensing.stored.Sound → s.answers = [] →
    Pool.Run Install.Passes (fun _ _ => True) ⟨s, calls.map VendorCall.prog⟩ c →
    c.store.CodesBoundOnce := by
  intro h
  have hlaw := h _ _ _ soldOne_sound rfl
    (Pool.schedule_run_free Install.Passes [0, 1, 0, 1, 0, 1] redemptions)
  have htwo : ∃ a ∈ (redemptions.schedule [0, 1, 0, 1, 0, 1]).store.answers,
      ∃ b ∈ (redemptions.schedule [0, 1, 0, 1, 0, 1]).store.answers,
      b.result.code = a.result.code ∧ b.instanceId ≠ a.instanceId := by decide +kernel
  obtain ⟨a, ha, b, hb, hcode, hne⟩ := htwo
  exact hne ((hlaw a ha).1 b hb hcode).1

end SRPanel
