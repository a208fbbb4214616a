import Mathlib.Data.List.TakeWhile
import SRPanel.Calls.Steps
import SRPanel.Confirm.Retry
import SRPanel.Customers.Identity

/-!
# What a signed callback confirms

A callback of a payment plugin confirms a payment only behind all its gates. Its amount is read by
the digits and the dots alone: a sign or an exponent goes unseen, and a text that is no number is
let through.
-/

namespace SRPanel

open Interleaving Prog

/-! ## Amounts -/

/-- The exponent of a number, with its sign. -/
def exponentOf : List Char → Option ℤ
  | '-' :: ds => if ds ≠ [] ∧ ds.all Char.isDigit then some (-digitsValue ds) else none
  | '+' :: ds => if ds ≠ [] ∧ ds.all Char.isDigit then some (digitsValue ds) else none
  | ds => if ds ≠ [] ∧ ds.all Char.isDigit then some (digitsValue ds) else none

/-- A number without a sign, as JavaScript writes it: digits with a fraction and an exponent. -/
def decimalOf (cs : List Char) : Option ℚ :=
  let mantissa := cs.takeWhile fun c => c ≠ 'e' && c ≠ 'E'
  if mantissa.all (fun c => c.isDigit || c = '.') && mantissa.any Char.isDigit then
    match cs.drop mantissa.length with
    | [] => numberOf (.ofList mantissa)
    | _ :: exponent =>
        (numberOf (.ofList mantissa)).bind fun x => (exponentOf exponent).map fun k =>
          x * (10 : ℚ) ^ k
  else none

/-- The number that the digits and the dots of a text write, whatever stands between them. -/
def numeralOf (cs : List Char) : Option ℚ :=
  numberOf (.ofList (cs.filter fun c => c.isDigit || c = '.'))

/-- The number that a text without a sign stands for. In a text that is no number itself, other
characters only group the digits or name a unit. -/
def magnitudeOf (cs : List Char) : Option ℚ :=
  (decimalOf cs).or (if cs.any Char.isDigit then numeralOf cs else none)

/-- The number that the text of an amount stands for, if it stands for one. -/
def amountOf (t : String) : Option ℚ :=
  match (trim t).toList with
  | '-' :: cs => (magnitudeOf cs).map Neg.neg
  | '+' :: cs => magnitudeOf cs
  | cs => magnitudeOf cs

namespace CallbackBody

/-- The word of the status. -/
def word (body : CallbackBody) : String := lower (trim (body.status.getD "ok"))

/-- An amount that is declared is a number, and not below this one. -/
def Covers (body : CallbackBody) (amount : ℤ) : Prop :=
  ∀ t ∈ body.amount, ∃ v ∈ amountOf t, (amount : ℚ) ≤ v

/-- The declared amount is below this one or no number, while its digits and dots alone write no
number either, or one that is, in double precision, below by half a unit at most. -/
def Misread (body : CallbackBody) (amount : ℤ) : Prop :=
  ∃ t ∈ body.amount, (∀ v ∈ amountOf t, v < amount) ∧
    ∀ v ∈ numeralOf t.toList, (amount : ℚ) - 1 / 2 ≤ Binary64.round v

/-- The amount that is read, if one is, is not below this one. -/
def Passes (body : CallbackBody) (amount : ℤ) : Prop := ∀ d ∈ declaredAmount body, amount ≤ d

variable {body : CallbackBody} {amount : ℤ}

theorem le_mathRound_iff {v : ℚ} : amount ≤ mathRound v ↔ (amount : ℚ) - 1 / 2 ≤ v := by
  unfold mathRound
  rw [Rat.le_floor_iff, sub_le_iff_le_add]

/-- The callback passes by the double that its digits and dots write. -/
theorem passes_iff : body.Passes amount ↔
    ∀ t ∈ body.amount, ∀ v ∈ numeralOf t.toList, (amount : ℚ) - 1 / 2 ≤ Binary64.round v := by
  unfold Passes declaredAmount numeralOf
  cases body.amount with
  | none => simp
  | some t =>
    simp only [Option.bind_some, Option.mem_def, Option.some.injEq, forall_eq',
      Option.map_eq_some_iff, forall_exists_index, and_imp]
    exact ⟨fun h v hv => le_mathRound_iff.mp (h _ v hv rfl),
      fun h d v hv hd => hd ▸ le_mathRound_iff.mpr (h v hv)⟩

/-- The amount is misread if it passes but does not cover the payment. -/
theorem misread_iff : body.Misread amount ↔ body.Passes amount ∧ ¬body.Covers amount := by
  rw [passes_iff]
  unfold Misread Covers
  cases body.amount with
  | none => simp
  | some t =>
    simp only [Option.mem_def, Option.some.injEq, exists_eq_left', forall_eq', not_exists,
      not_and, not_le]
    exact and_comm

/-- Digits write a whole number, to the eye and to the callback. -/
theorem amountOf_digits {t : String} (hne : t.toList ≠ []) (hdigits : ∀ c ∈ t.toList, c.isDigit) :
    amountOf t = some (digitsValue t.toList : ℚ) ∧ numeralOf t.toList =
    some (digitsValue t.toList : ℚ) := by
  have hplain : ∀ c ∈ t.toList, c ≠ '.' ∧ c ≠ 'e' ∧ c ≠ 'E' ∧ c ≠ '-' ∧ c ≠ '+' ∧
      Unicode.isWhite c = false := by
    intro c hc
    have hc := hdigits c hc
    refine ⟨?_, ?_, ?_, ?_, ?_, isWhite_of_isDigit hc⟩
    all_goals
      rintro rfl
      exact absurd hc (by decide)
  have hnumber : numberOf (.ofList t.toList) = some (digitsValue t.toList : ℚ) := by
    unfold numberOf
    rw [String.toList_ofList, List.splitOn_eq_singleton fun h => (hplain _ h).1 rfl]
  have hfilter : t.toList.filter (fun c => c.isDigit || c = '.') = t.toList :=
    List.filter_eq_self.mpr fun c hc => by rw [hdigits c hc, Bool.true_or]
  have hmantissa : t.toList.takeWhile (fun c => c ≠ 'e' && c ≠ 'E') = t.toList :=
    List.takeWhile_eq_self_iff.mpr fun c hc => by simp [(hplain c hc).2.1, (hplain c hc).2.2.1]
  have hdecimal : decimalOf t.toList = some (digitsValue t.toList : ℚ) := by
    have hall : t.toList.all fun c => c.isDigit || c = '.' :=
      List.all_eq_true.mpr fun c hc => by rw [hdigits c hc, Bool.true_or]
    have hany : t.toList.any Char.isDigit := by
      obtain ⟨c, hc⟩ := List.exists_mem_of_ne_nil _ hne
      exact List.any_eq_true.mpr ⟨c, hc, hdigits c hc⟩
    unfold decimalOf
    rw [hmantissa]
    simp only [hall, hany, Bool.and_self, if_true, List.drop_length, hnumber]
  refine ⟨?_, ?_⟩
  · unfold amountOf
    rw [trim_of_dense fun c hc => (hplain c hc).2.2.2.2.2]
    have hmagnitude : magnitudeOf t.toList = some (digitsValue t.toList : ℚ) := by
      rw [magnitudeOf, hdecimal, Option.some_or]
    split
    · next cs h => exact absurd rfl (hplain '-' (by rw [h]; exact List.mem_cons_self)).2.2.2.1
    · next cs h => exact absurd rfl (hplain '+' (by rw [h]; exact List.mem_cons_self)).2.2.2.2.1
    · exact hmagnitude
  · rw [numeralOf, hfilter, hnumber]

/-- An amount in digits only is not misread, if payments are within the whole numbers of double
precision. -/
theorem not_misread_of_digits {t : String} (hamount : amount ≤ 2 ^ 53) (ht : body.amount = some t)
    (hne : t.toList ≠ []) (hdigits : ∀ c ∈ t.toList, c.isDigit) : ¬body.Misread amount := by
  rintro ⟨t', ht', hbelow, hnear⟩
  obtain rfl := Option.some.inj (ht.symm.trans ht')
  obtain ⟨hread, hnumeral⟩ := amountOf_digits hne hdigits
  have hlt := hbelow _ hread
  have hle := hnear _ hnumeral
  have hlt : (digitsValue t.toList : ℤ) < amount := by exact_mod_cast hlt
  -- the number below the amount is a double, so the rounding does not pass it
  have hrep : Binary64.Rep ((amount - 1 : ℤ) : ℚ) :=
    Binary64.rep_intCast (abs_le.mpr ⟨by omega, by omega⟩)
  have hbound : (digitsValue t.toList : ℚ) ≤ ((amount - 1 : ℤ) : ℚ) := by
    have hint : ((digitsValue t.toList : ℤ) : ℚ) ≤ ((amount - 1 : ℤ) : ℚ) := by
      rw [Int.cast_le]
      omega
    rwa [Int.cast_natCast] at hint
  have hround := Binary64.round_le hrep hbound
  push_cast at hround
  linarith

end CallbackBody

/-! ## Gates -/

/-- A callback that its gates let through to an open payment. -/
structure World.Admits (w : World) (x : Proc) (id : PluginId) (rawBody : String)
    (signature : Option String) (plugin : PaymentPlugin) (body : CallbackBody) (i : PaymentId)
    (p : Payment) : Prop where
  found : (w.plugins.get x SETTING_TTL w.now).get? id = some plugin
  enabled : plugin.enabled
  secret : plugin.secret ≠ ""
  signed : sameSignature (w.outside.hmac plugin.secret rawBody) signature
  parsed : w.outside.callbackJson (if rawBody = "" then "\x7b\x7d" else rawBody) = some body
  target : body.target = some i
  stored : w.payments.get? i = some p
  seller : plugin.master ∨ p.adminId = plugin.adminId
  method : p.method ∈ plugin.methods
  status : p.status = .pending ∨ p.status = .review

/-- The plugin confirms payments, of this amount too, and the callback says that this one is paid.
-/
structure PaymentPlugin.Agrees (plugin : PaymentPlugin) (body : CallbackBody)
    (amount : ℤ) : Prop where
  auto : plugin.autoConfirm
  word : body.word ∈ OK_WORDS
  cap : 0 < plugin.maxAmount → amount ≤ plugin.maxAmount

/-- The callback is signed by the plugin, and proves that the payment was made. -/
def World.Proves (w : World) (x : Proc) (id : PluginId) (rawBody : String)
    (signature : Option String) (i : PaymentId) : Prop :=
  ∃ plugin body p, w.Admits x id rawBody signature plugin body i p ∧
    cleanSignature signature = w.outside.hmac plugin.secret rawBody ∧ plugin.Agrees body p.amount ∧
    body.Covers p.amount

/-- The payment was not confirmed before, and is after. -/
def World.BecomesConfirmed (w w' : World) (i : PaymentId) : Prop := w'.Confirmed i ∧ ¬w.Confirmed i

variable {w w' : World} {x : Proc} {id : PluginId} {rawBody : String} {signature : Option String}
  {plugin plugin' : PaymentPlugin} {body body' : CallbackBody} {i i' : PaymentId} {p p' : Payment}

/-- A callback is let through to one payment only. -/
theorem World.Admits.unique (h : w.Admits x id rawBody signature plugin body i p)
    (h' : w.Admits x id rawBody signature plugin' body' i' p') :
    plugin' = plugin ∧ body' = body ∧ i' = i ∧ p' = p := by
  obtain rfl := Option.some.inj (h.found.symm.trans h'.found)
  obtain rfl := Option.some.inj (h.parsed.symm.trans h'.parsed)
  obtain rfl := Option.some.inj (h.target.symm.trans h'.target)
  obtain rfl := Option.some.inj (h.stored.symm.trans h'.stored)
  exact ⟨rfl, rfl, rfl, rfl⟩

theorem cleanSignature_of_same {expected : String} (h : sameSignature expected signature) :
    cleanSignature signature = expected := by
  unfold sameSignature at h
  exact eq_of_beq (Bool.and_eq_true_iff.mp h).2

/-- A payment needs no review if the plugin agrees and the amount passes. -/
theorem reviewReason_eq_none (plugin : PaymentPlugin) (amount : ℤ) (body : CallbackBody) :
    reviewReason plugin amount body.word body = none ↔
    plugin.Agrees body amount ∧ body.Passes amount := by
  have hpasses : body.Passes amount ↔ ¬(declaredAmount body).any fun d => d < amount := by
    unfold CallbackBody.Passes
    cases declaredAmount body with
    | none => simp
    | some d => simp
  rw [hpasses]
  unfold reviewReason
  split
  · next hshort => exact ⟨fun h => (nomatch h), fun h => absurd hshort h.2⟩
  next hshort =>
  split
  · next hcap =>
    refine ⟨fun h => (nomatch h), fun h => ?_⟩
    simp only [Bool.and_eq_true, decide_eq_true_eq] at hcap
    exact absurd (h.1.cap hcap.1) (by omega)
  next hcap =>
  split
  · next hword => exact ⟨fun h => (nomatch h), fun h => absurd h.1.word hword⟩
  next hword =>
  split
  · next hauto => exact ⟨fun h => (nomatch h), fun h => by rw [h.1.auto] at hauto; cases hauto⟩
  next hauto =>
  refine ⟨fun _ => ⟨⟨by simpa using hauto, not_not.mp hword, fun hpos => ?_⟩, hshort⟩, fun _ => rfl⟩
  simp only [Bool.and_eq_true, decide_eq_true_eq, not_and] at hcap
  have := hcap hpos
  omega

/-! ## The callback -/

-- a run of the callback is not to be evaluated
attribute [local irreducible] Prog.wp

/-- What the callback does to the payments: it confirms the one that it is let through to, or writes
another status, or does nothing to them. -/
inductive World.AfterPlugin (w : World) (x : Proc) (id : PluginId) (rawBody : String)
    (signature : Option String) (w' : World) : Prop
  | confirmed {plugin : PaymentPlugin} {body : CallbackBody} {i : PaymentId} {p : Payment}
      (q : Payment) (h : w.Admits x id rawBody signature plugin body i p)
      (hagrees : plugin.Agrees body p.amount) (hpasses : body.Passes p.amount)
        (hq : q.status = .confirmed)
      (hpayments : w'.payments = w.payments.modify i fun _ => q)
  | refused {plugin : PaymentPlugin} {body : CallbackBody} {i : PaymentId} {p : Payment}
      (q : Payment) (h : w.Admits x id rawBody signature plugin body i p)
      (hnot : ¬(plugin.Agrees body p.amount ∧ body.Passes p.amount)) (hq : q.status ≠ .confirmed)
      (hpayments : w'.payments = w.payments.modify i fun _ => q)
  | idle (hnone : ∀ plugin body i p, ¬w.Admits x id rawBody signature plugin body i p)
      (hpayments : w'.payments = w.payments)

section

variable {P : World → Prop}

/-- What only changes the book of the plugins does nothing to the payments. -/
theorem wp_of_booked {α : Type} {q : Service α} (hq : q.Keeps Booked)
    (hP : ∀ t, t.payments = w'.payments → P t) : Prog.wp q (fun _ => P) (fun _ => P) w' := by
  have hpayments : q.Keeps fun w w' => w'.payments = w.payments := hq.mono fun _ _ h => h.payments
  exact (wp_store_iff (P := P) _).mpr
    (hP _ (hpayments.run (fun _ => rfl) (fun _ _ _ h h' => h'.trans h) w'))

/-- An audit entry and the stamp in the book come after the payment. -/
theorem wp_stamped (adminId : Option AdminId) (action : String) (r : CallbackAction)
    (status : PaymentStatus) (message : String) (hP : ∀ t, t.payments = w'.payments → P t) :
    Prog.wp (do
      audit adminId action
      finish x id r i status message) (fun _ => P) (fun _ => P) w' :=
  wp_of_booked (keeps_bind ((audit_keeps _ _).mono fun _ _ => Aside.booked) fun _ =>
    finish_keeps _ _ _ _ _ _) hP

end

theorem not_ok_of_bad {word : String} (h : word ∈ BAD_WORDS) : word ∉ OK_WORDS := by
  have hall : BAD_WORDS.all fun word => word ∉ OK_WORDS := by decide +kernel
  exact of_decide_eq_true (List.all_eq_true.mp hall word h)

/-- The two branches of a test. -/
theorem wp_ite_iff {α : Type} {c : Prop} [Decidable c] {q q' : Service α} {Q : α → World → Prop}
    {E : AppError → World → Prop} :
    Prog.wp (if c then q else q') Q E w' ↔ (c → Prog.wp q Q E w') ∧ (¬c → Prog.wp q' Q E w') := by
  split
  · next h => exact ⟨fun hq => ⟨fun _ => hq, fun hn => absurd h hn⟩, fun hq => hq.1 h⟩
  · next h => exact ⟨fun hq => ⟨fun hc => absurd hc h, fun _ => hq⟩, fun hq => hq.2 h⟩

/-- What the callback makes of an open payment. -/
theorem wp_settlePluginCallback (h : w.Admits x id rawBody signature plugin body i p)
    (hw' : w'.payments = w.payments) :
      Prog.wp (settlePluginCallback x id plugin i p body)
        (fun _ => w.AfterPlugin x id rawBody signature)
          (fun _ => w.AfterPlugin x id rawBody signature) w' := by
  have hstored : w'.payments.get? i = some p := hw' ▸ h.stored
  unfold settlePluginCallback
  have hword : lower (trim (body.status.getD "ok")) = body.word := rfl
  rw [hword]
  dsimp only
  generalize orNull (sliceTo 120 (trim ((body.refId.or body.ref).getD ""))) = refId
  -- a bad word rejects, a reason puts the payment under review, and the rest confirms
  cases Classical.em (body.word ∈ BAD_WORDS) with
  | inl hbad =>
    rw [if_pos hbad, wp_bind]
    refine wp_updatePayment hstored (wp_stamped _ _ _ _ _ fun t ht => ?_)
    refine .refused { p with status := .rejected, updatedAt := w'.now } h
      (fun hok => not_ok_of_bad hbad hok.1.word) (fun hq => nomatch hq) ?_
    rw [ht, ← hw']
  | inr hbad =>
    rw [if_neg hbad]
    cases hreason : reviewReason plugin p.amount body.word body with
    | some why =>
      dsimp only
      rw [wp_bind]
      refine wp_updatePayment hstored (wp_stamped _ _ _ _ _ fun t ht => ?_)
      refine .refused { p with status := .review, refId := refId.or p.refId, updatedAt := w'.now } h
        (fun hok => ?_) (fun hq => nomatch hq) ?_
      · rw [(reviewReason_eq_none plugin p.amount body).mpr hok] at hreason
        cases hreason
      · rw [ht, ← hw']
    | none =>
      obtain ⟨hagrees, hpasses⟩ := (reviewReason_eq_none plugin p.amount body).mp hreason
      have hopen : p.status ≠ .confirmed ∧ p.status ≠ .expired := by
        rcases h.status with hp | hp
        · rw [hp]
          decide
        · rw [hp]
          decide
      dsimp only
      rw [wp_bind]
      have hconfirm : Prog.wp (confirmPayment (.plugin plugin) i (.auto refId none))
          (fun _ t => ∃ q, q.status = .confirmed ∧ t.payments = w.payments.modify i fun _ => q)
          (fun _ t => ∃ q, q.status = .confirmed ∧ t.payments = w.payments.modify i fun _ =>
            q) w' :=
        wp_confirmPayment_auto hstored (fun hidle => (hidle.elim hopen.1 hopen.2).elim)
          fun _ _ q t hq _ hsettled =>
          ⟨q, hq, by rw [hsettled.payments, ← hw']; rfl⟩
      refine wp_mono _ hconfirm (fun _ t ht => ?_) fun _ t ht => ?_
      · obtain ⟨q, hq, ht⟩ := ht
        exact wp_stamped _ _ _ _ _ fun t' ht' => .confirmed q h hagrees hpasses hq (ht'.trans ht)
      · obtain ⟨q, hq, ht⟩ := ht
        exact .confirmed q h hagrees hpasses hq ht

theorem wp_applyPluginCallback
    (hfound : (w.plugins.get x SETTING_TTL w.now).get? id = some plugin) (henabled : plugin.enabled)
    (hsecret : plugin.secret ≠ "")
    (hsigned : sameSignature (w.outside.hmac plugin.secret rawBody) signature)
    (hparsed : w.outside.callbackJson (if rawBody = "" then "\x7b\x7d" else rawBody) = some body)
    (htarget : body.target = some i) (hstored : w.payments.get? i = some p)
    (hw' : w'.payments = w.payments) :
    Prog.wp (applyPluginCallback x id plugin i p body) (fun _ =>
      w.AfterPlugin x id rawBody signature) (fun _ => w.AfterPlugin x id rawBody signature) w' := by
  -- without one of the last three gates the callback is let through to no payment
  have hidle : (¬(plugin.master ∨ p.adminId = plugin.adminId) ∨ p.method ∉ plugin.methods ∨
      ¬(p.status = .pending ∨ p.status = .review)) → ∀ t, t.payments = w'.payments →
        w.AfterPlugin x id rawBody signature t := by
    intro hgate t ht
    refine .idle (fun plugin' body' i' p' hadmits => ?_) (ht.trans hw')
    obtain rfl := Option.some.inj (hfound.symm.trans hadmits.found)
    obtain rfl := Option.some.inj (hparsed.symm.trans hadmits.parsed)
    obtain rfl := Option.some.inj (htarget.symm.trans hadmits.target)
    obtain rfl := Option.some.inj (hstored.symm.trans hadmits.stored)
    rcases hgate with h | h | h
    · exact h hadmits.seller
    · exact h hadmits.method
    · exact h hadmits.status
  unfold applyPluginCallback
  rw [wp_ite_iff]
  constructor
  · intro hseller
    have hgate : ¬(plugin.master ∨ p.adminId = plugin.adminId) := by simpa using hseller
    exact wp_of_booked (refuse_keeps _ _ _ _) (hidle (.inl hgate))
  intro hseller
  rw [wp_ite_iff]
  constructor
  · intro hmethod
    exact wp_of_booked (refuse_keeps _ _ _ _) (hidle (.inr (.inl hmethod)))
  intro hmethod
  rw [wp_ite_iff]
  constructor
  · intro hconfirmed
    have hgate : ¬(p.status = .pending ∨ p.status = .review) := by
      rw [hconfirmed]
      decide
    exact wp_of_booked (finish_keeps _ _ _ _ _ _) (hidle (.inr (.inr hgate)))
  intro hconfirmed
  rw [wp_ite_iff]
  constructor
  · intro hclosed
    have hgate : ¬(p.status = .pending ∨ p.status = .review) := by simpa using hclosed
    exact wp_of_booked (finish_keeps _ _ _ _ _ _) (hidle (.inr (.inr hgate)))
  intro hopen
  have hgate : plugin.master ∨ p.adminId = plugin.adminId :=
    by simpa [or_iff_not_imp_left] using hseller
  have hstatus : p.status = .pending ∨ p.status = .review :=
    by simpa [or_iff_not_imp_left] using hopen
  have hadmits : w.Admits x id rawBody signature plugin body i p :=
    ⟨hfound, henabled, hsecret, hsigned, hparsed, htarget, hstored, hgate,
      not_not.mp hmethod, hstatus⟩
  exact wp_settlePluginCallback hadmits hw'

/-- What the callback does to the payments. -/
theorem handlePaymentPluginCallback_payments (w : World) (x : Proc) (id : PluginId)
    (rawBody : String) (signature : Option String) :
    w.AfterPlugin x id rawBody signature
      ((handlePaymentPluginCallback x id rawBody signature).run w).2 := by
  refine (wp_store_iff (P := w.AfterPlugin x id rawBody signature) _).mp ?_
  unfold handlePaymentPluginCallback pluginBook
  rw [wp_bind, wp_step]
  dsimp only
  have hidle : ∀ t : World, t.payments = w.payments →
      (∀ plugin body i p, ¬w.Admits x id rawBody signature plugin body i p) →
      w.AfterPlugin x id rawBody signature t :=
    fun t ht hnone => .idle hnone ht
  -- a test that fails leaves the payments; a callback that is admitted passes them all
  cases hfound : (w.plugins.get x SETTING_TTL w.now).get? id with
  | none => exact (wp_throw _).mpr (hidle _ rfl fun _ _ _ _ h => by cases hfound.symm.trans h.found)
  | some plugin =>
    have hplugin : ∀ {plugin' body i p}, w.Admits x id rawBody signature plugin' body i p →
        plugin' = plugin :=
      fun h => Option.some.inj (h.found.symm.trans hfound)
    dsimp only
    rw [wp_ite_iff]
    constructor
    · intro henabled
      exact (wp_throw _).mpr (hidle _ rfl fun _ _ _ _ h => by
        simp [hplugin h ▸ h.enabled] at henabled)
    intro henabled
    rw [wp_ite_iff]
    constructor
    · intro hsecret
      exact (wp_throw _).mpr (hidle _ rfl fun _ _ _ _ h => (hplugin h ▸ h.secret) hsecret)
    intro hsecret
    rw [Db.read, wp_bind, wp_query, wp_ite_iff]
    constructor
    · intro hsigned
      exact wp_of_booked (refuse_keeps _ _ _ _) fun t ht =>
        hidle t ht fun _ _ _ _ h => by simp [hplugin h ▸ h.signed] at hsigned
    intro hsigned
    rw [Db.read, wp_bind, wp_query]
    cases hparsed : w.outside.callbackJson (if rawBody = "" then "\x7b\x7d" else rawBody) with
    | none =>
      exact wp_of_booked (refuse_keeps _ _ _ _) fun t ht =>
        hidle t ht fun _ _ _ _ h => by cases hparsed.symm.trans h.parsed
    | some body =>
      have hbody : ∀ {plugin' body' i p}, w.Admits x id rawBody signature plugin' body' i p →
          body' = body :=
        fun h => Option.some.inj (h.parsed.symm.trans hparsed)
      dsimp only
      cases htarget : body.target with
      | none =>
        exact wp_of_booked (refuse_keeps _ _ _ _) fun t ht =>
          hidle t ht fun _ _ _ _ h => by cases htarget.symm.trans (hbody h ▸ h.target)
      | some i =>
        have htargets : ∀ {plugin' body' i' p}, w.Admits x id rawBody signature plugin' body' i' p →
            i' = i :=
          fun h => Option.some.inj ((hbody h ▸ h.target).symm.trans htarget)
        dsimp only
        rw [wp_bind, wp_query]
        cases hstored : w.payments.get? i with
        | none =>
          exact wp_of_booked (refuse_keeps _ _ _ _) fun t ht =>
            hidle t ht fun _ _ _ _ h => by cases hstored.symm.trans (htargets h ▸ h.stored)
        | some p =>
          have hopen : plugin.enabled := by simpa using henabled
          have hsame : sameSignature (w.outside.hmac plugin.secret rawBody) signature :=
            by simpa using hsigned
          exact wp_applyPluginCallback hfound hopen hsecret hsame hparsed htarget hstored rfl

/-! ## What is confirmed is proved -/

/-- A payment that a callback confirms is the one that the callback is let through to. -/
theorem World.AfterPlugin.admits (h : w.AfterPlugin x id rawBody signature w')
    (hnew : w.BecomesConfirmed w' i) :
      ∃ plugin body p, w.Admits x id rawBody signature plugin body i p ∧
      plugin.Agrees body p.amount ∧ body.Passes p.amount := by
  obtain ⟨⟨q', hstored', hq'⟩, hnot⟩ := hnew
  cases h with
  | idle _ hpayments =>
    rw [hpayments] at hstored'
    exact absurd ⟨q', hstored', hq'⟩ hnot
  | @refused _ _ i' _ q h _ hq hpayments =>
    rw [hpayments, Table.get?_modify] at hstored'
    split at hstored'
    · next hi =>
      subst hi
      rw [h.stored] at hstored'
      obtain rfl := Option.some.inj hstored'
      exact absurd hq' hq
    · exact absurd ⟨q', hstored', hq'⟩ hnot
  | @confirmed plugin body i' p q h hagrees hpasses hq hpayments =>
    have hi : i = i' := by
      by_contra hi
      rw [hpayments, Table.get?_modify_of_ne _ _ hi] at hstored'
      exact hnot ⟨q', hstored', hq'⟩
    subst hi
    exact ⟨plugin, body, p, h, hagrees, hpasses⟩

/-- A callback that its gates let through, that the plugin agrees with and whose amount passes
confirms its payment. -/
theorem World.AfterPlugin.confirms (h : w.AfterPlugin x id rawBody signature w')
    (hadmits : w.Admits x id rawBody signature plugin body i p)
    (hagrees : plugin.Agrees body p.amount)
    (hpasses : body.Passes p.amount) : w.BecomesConfirmed w' i := by
  have hnot : ¬w.Confirmed i := by
    rintro ⟨p', hp', hconfirmed⟩
    obtain rfl := Option.some.inj (hadmits.stored.symm.trans hp')
    have hstatus := hadmits.status
    rw [hconfirmed] at hstatus
    revert hstatus
    decide
  cases h with
  | idle hnone => exact absurd hadmits (hnone plugin body i p)
  | refused _ h hfails =>
    obtain ⟨rfl, rfl, rfl, rfl⟩ := h.unique hadmits
    exact absurd ⟨hagrees, hpasses⟩ hfails
  | confirmed q h _ _ hq hpayments =>
    obtain ⟨rfl, rfl, rfl, rfl⟩ := h.unique hadmits
    refine ⟨⟨q, ?_, hq⟩, hnot⟩
    rw [hpayments, Table.get?_modify_self, hadmits.stored, Option.map_some]

/-- A callback that names a confirmed payment does nothing to the payments. -/
theorem World.AfterPlugin.payments_eq (h : w.AfterPlugin x id rawBody signature w')
    (hi : w.Confirmed i)
    (hparsed : w.outside.callbackJson (if rawBody = "" then "\x7b\x7d" else rawBody) = some body)
    (htarget : body.target = some i) : w'.payments = w.payments := by
  have hclosed : ∀ plugin' body' i' p', ¬w.Admits x id rawBody signature plugin' body' i' p' := by
    intro plugin' body' i' p' hadmits
    obtain rfl := Option.some.inj (hparsed.symm.trans hadmits.parsed)
    obtain rfl := Option.some.inj (htarget.symm.trans hadmits.target)
    obtain ⟨p, hp, hconfirmed⟩ := hi
    obtain rfl := Option.some.inj (hp.symm.trans hadmits.stored)
    have hstatus := hadmits.status
    rw [hconfirmed] at hstatus
    revert hstatus
    decide
  cases h with
  | idle _ hpayments => exact hpayments
  | refused _ h => exact absurd h (hclosed _ _ _ _)
  | confirmed _ h => exact absurd h (hclosed _ _ _ _)

/-- An agreed callback with a misread amount confirms its payment and does not prove it. -/
theorem World.Admits.unproved (h : w.Admits x id rawBody signature plugin body i p)
    (hagrees : plugin.Agrees body p.amount) (hmisread : body.Misread p.amount) :
    w.BecomesConfirmed ((handlePaymentPluginCallback x id rawBody signature).run w).2 i ∧
      ¬w.Proves x id rawBody signature i := by
  obtain ⟨hpasses, hnot⟩ := CallbackBody.misread_iff.mp hmisread
  refine ⟨(handlePaymentPluginCallback_payments w x id rawBody signature).confirms h hagrees hpasses, ?_⟩
  rintro ⟨plugin', body', p', h', -, -, hcovers⟩
  obtain ⟨rfl, rfl, -, rfl⟩ := h.unique h'
  exact hnot hcovers

/-- Everything that a callback confirms is proved by it, exactly when no amount of an agreed
callback is misread. A repetition of the callback after the confirmation changes no payment. -/
theorem callback_proves_iff (w : World) (x : Proc) (id : PluginId) (rawBody : String)
    (signature : Option String) :
        ((∀ i, w.BecomesConfirmed ((handlePaymentPluginCallback x id rawBody signature).run w).2 i →
          w.Proves x id rawBody signature i) ↔
      ∀ plugin body i p, w.Admits x id rawBody signature plugin body i p →
        plugin.Agrees body p.amount → ¬body.Misread p.amount) ∧
    ∀ i, w.BecomesConfirmed ((handlePaymentPluginCallback x id rawBody signature).run w).2 i →
      ∀ x' t, t.Confirmed i → t.outside.callbackJson = w.outside.callbackJson →
        ((handlePaymentPluginCallback x' id rawBody signature).run t).2.payments = t.payments := by
  have hrun := handlePaymentPluginCallback_payments w x id rawBody signature
  refine ⟨⟨fun h plugin body i p hadmits hagrees hmisread => ?_, fun h i hnew => ?_⟩,
    fun i hnew x' t ht houtside => ?_⟩
  · obtain ⟨hconfirms, hunproved⟩ := hadmits.unproved hagrees hmisread
    exact hunproved (h i hconfirms)
  · obtain ⟨plugin, body, p, hadmits, hagrees, hpasses⟩ := hrun.admits hnew
    have hcovers : body.Covers p.amount := by
      by_contra hnot
      exact h plugin body i p hadmits hagrees (CallbackBody.misread_iff.mpr ⟨hpasses, hnot⟩)
    exact ⟨plugin, body, p, hadmits, cleanSignature_of_same hadmits.signed, hagrees, hcovers⟩
  · obtain ⟨_, body, _, hadmits, -⟩ := hrun.admits hnew
    exact (handlePaymentPluginCallback_payments t x' id rawBody signature).payments_eq ht
      (houtside ▸ hadmits.parsed) hadmits.target

/-- A plugin that confirms card payments by itself. -/
def autoPlugin : PaymentPlugin where
  adminId := 2
  master := false
  name := "shop"
  enabled := true
  secret := "key"
  methods := [.card]
  autoConfirm := true
  maxAmount := 0
  lastCallAt := none
  lastStatus := none
  lastError := none
  calls := 0
  confirmed := 0

/-- The amount that a body declares: with a sign, or with two dots. -/
def declaredText (rawBody : String) : String := if rawBody = "minus" then "-90000" else "90.000.0"

/-- A panel with that plugin and the payment 8 of 90000, which its callbacks name. -/
def declaredWorld : World :=
  { World.blank with
    admins := .ofRows [(1, ⟨.owner, 0, 0⟩), (2, ⟨.admin, 0, 0⟩)]
    payments := .ofRows [(8, newPayment ⟨.order, .card, 90000, 2, some 3, none⟩ 3600000 none)]
    plugins := .fresh (.ofRows [(50, autoPlugin)])
    outside := { Outside.silent with
      callbackJson b := some ⟨some (some 8), none, none, none, some (declaredText b),
        none, none⟩ } }

theorem declaredWorld_admits (rawBody : String) (hne : rawBody ≠ "")
    (hsigned : sameSignature ("key" ++ rawBody) (some ("key" ++ rawBody))) :
    declaredWorld.Admits .web 50 rawBody (some ("key" ++ rawBody)) autoPlugin
      ⟨some (some 8), none, none, none, some (declaredText rawBody), none, none⟩ 8
      (newPayment ⟨.order, .card, 90000, 2, some 3, none⟩ 3600000 none) where
  found := by decide
  enabled := rfl
  secret := by decide
  signed := hsigned
  parsed := by rw [if_neg hne]; rfl
  target := rfl
  stored := rfl
  seller := .inr rfl
  method := by decide
  status := .inl rfl

/-- An amount with a sign and a text that is no number confirm the payment. -/
theorem callback_unproved :
    (declaredWorld.BecomesConfirmed
        ((handlePaymentPluginCallback .web 50 "minus" (some "keyminus")).run declaredWorld).2 8 ∧
      ¬declaredWorld.Proves .web 50 "minus" (some "keyminus") 8) ∧
    declaredWorld.BecomesConfirmed
        ((handlePaymentPluginCallback .web 50 "dots" (some "keydots")).run declaredWorld).2 8 ∧
      ¬declaredWorld.Proves .web 50 "dots" (some "keydots") 8 := by
  have hword : lower (trim "ok") ∈ OK_WORDS := by decide
  have hagrees : ∀ t, autoPlugin.Agrees ⟨some (some 8), none, none, none, some t, none,
      none⟩ 90000 := fun _ =>
    ⟨rfl, hword, fun h => absurd h (by decide)⟩
  have hminus : amountOf "-90000" = some (-90000) ∧ numeralOf "-90000".toList = some 90000 :=
    by decide +kernel
  have hdots : amountOf "90.000.0" = none ∧ numeralOf "90.000.0".toList = none := by decide +kernel
  refine ⟨(declaredWorld_admits "minus" (by decide) (by decide)).unproved (hagrees _)
    ⟨_, rfl, ?_, ?_⟩,
    (declaredWorld_admits "dots" (by decide) (by decide)).unproved (hagrees _) ⟨_, rfl, ?_, ?_⟩⟩
  · intro v hv
    obtain rfl := Option.some.inj (hminus.1.symm.trans hv)
    norm_num [newPayment]
  · intro v hv
    obtain rfl := Option.some.inj (hminus.2.symm.trans hv)
    rw [show Binary64.round 90000 = 90000
      from Binary64.round_eq (Binary64.rep_intCast (n := 90000) (by decide))]
    norm_num [newPayment]
  · intro v hv
    cases hdots.1.symm.trans hv
  · intro v hv
    cases hdots.2.symm.trans hv

end SRPanel
