import SRPanel.Calls.Steps
import SRPanel.Licences.Codes
import SRPanel.Topups.Authorised

/-!
# Edits of a settings book

The book of licences and the book of payment plugins are one setting each. A call reads the whole
book, changes its own entry and writes the whole book back, so a write that does not find the book
as its call has read it undoes what others have changed meanwhile. While no write does so, and no
process reads an outdated copy from its cache, every edit stands: a revoked code stays revoked, a
redeemed one stays bound, and the secret that a rotation has replaced opens no callback any more.
-/

namespace SRPanel

open Interleaving

/-! ## Licences -/

/-- A call that edits a code of the book. -/
inductive LicenceEdit
  | redeem (x : Proc) (input : RedeemInput)
  | revoke (x : Proc) (actor : Actor) (code : String) (revoked : Bool)

/-- The service behind each edit. -/
def LicenceEdit.task : LicenceEdit → LicenseService Unit
  | redeem x input => do
      let _ ← redeemLicense x input
      pure ()
  | revoke x actor code revoked => setLicenseRevoked x actor code revoked

/-- The call lifts the revocation of a code. -/
def LicenceEdit.Lifts (key : String) : LicenceEdit → Prop
  | revoke _ _ code false => normalizeCode code = key
  | _ => False

/-- What a call has made of its code is still so, as far as none of the `calls` is there to change
it back. -/
def LicenceEdit.Stands (calls : List LicenceEdit) : LicenceEdit → Install → Prop
  | redeem _ input, s => ∃ l ∈ s.licensing.stored.keys.get? (normalizeCode input.code),
      l.instanceId = input.instanceKey
  | revoke _ _ code true, s => (∀ call ∈ calls, ¬call.Lifts (normalizeCode code)) →
      ∃ l ∈ s.licensing.stored.keys.get? (normalizeCode code), l.revoked
  | revoke _ _ _ false, _ => True

/-- Every code stays in the book, and bound if it is; those that are `held` stay revoked if they
are. -/
def Licensing.Held (held : String → Prop) (b b' : Licensing) : Prop :=
  ∀ key l, b.keys.get? key = some l → ∃ l', b'.keys.get? key = some l' ∧
    (l.instanceId ≠ "" → l'.instanceId = l.instanceId) ∧ (held key → l.revoked → l'.revoked)

section Licences

variable {held : String → Prop} {b b' : Licensing} {l l' : License} {key : String}

theorem Licensing.Held.refl (b : Licensing) : b.Held held b :=
  fun _ l h => ⟨l, h, fun _ => rfl, fun _ h => h⟩

theorem Licensing.Held.trans {b'' : Licensing} (h : b.Held held b') (h' : b'.Held held b'') :
    b.Held held b'' := by
  intro key l hl
  obtain ⟨l', hl', hbound, hrevoked⟩ := h key l hl
  obtain ⟨l'', hl'', hbound', hrevoked'⟩ := h' key l' hl'
  refine ⟨l'', hl'', fun hne => ?_, fun hk hr => hrevoked' hk (hrevoked hk hr)⟩
  have hid := hbound hne
  exact (hbound' (hid ▸ hne)).trans hid

theorem Licensing.Held.set (hl : b.keys.get? key = some l)
    (hbound : l.instanceId ≠ "" → l'.instanceId = l.instanceId)
    (hrevoked : held key → l.revoked → l'.revoked) :
    b.Held held { b with keys := b.keys.set key l' } := by
  intro k r hr
  show ∃ r', (b.keys.set key l').get? k = some r' ∧ _
  rw [Table.get?_set]
  split
  · next hk =>
      subst hk
      obtain rfl : l = r := Option.some.inj (hl.symm.trans hr)
      exact ⟨l', rfl, hbound, hrevoked⟩
  · exact ⟨r, hr, fun _ => rfl, fun _ h => h⟩

/-- The stored book keeps what is held. -/
def Install.BookHeld (held : String → Prop) (s t : Install) : Prop :=
  s.licensing.stored.Held held t.licensing.stored

instance (held : String → Prop) : IsPreorder Install (Install.BookHeld held) where
  refl _ := .refl _
  trans _ _ _ := .trans

/-- A code that is held stays revoked. -/
theorem Install.BookHeld.revoked {s t : Install} (h : s.BookHeld held t) (hheld : held key)
    (hs : ∃ l ∈ s.licensing.stored.keys.get? key, l.revoked) :
    ∃ l ∈ t.licensing.stored.keys.get? key, l.revoked := by
  obtain ⟨l, hl, hrevoked⟩ := hs
  obtain ⟨l', hl', -, hkept⟩ := h key l hl
  exact ⟨l', hl', hkept hheld hrevoked⟩

/-- A code that is bound stays bound. -/
theorem Install.BookHeld.bound {s t : Install} (h : s.BookHeld held t) {id : String} (hid : id ≠ "")
    (hs : ∃ l ∈ s.licensing.stored.keys.get? key, l.instanceId = id) :
    ∃ l ∈ t.licensing.stored.keys.get? key, l.instanceId = id := by
  obtain ⟨l, hl, rfl⟩ := hs
  obtain ⟨l', hl', hkept, -⟩ := h key l hl
  exact ⟨l', hl', hkept hid⟩

/-- A call whose writes keep what is held; `Q` describes its result. -/
abbrev Edits {α : Type} (held : String → Prop) (Q : α → Install → Prop) (p : LicenseService α) :
    Install → Prop :=
  Upholds BookUnchanged (fun _ => True) (Install.BookHeld held) Q (fun _ _ => True) p

variable {s : Install}

theorem edits_aside {α : Type} {p : LicenseService α} (hp : p.Keeps Install.SameBook) :
    Edits held (fun _ _ => True) p s := by
  refine upholds_of_keeps hp fun t t' h _ => ⟨trivial, ?_⟩
  rw [Install.BookHeld, h.1]
  exact .refl _

theorem persistBook_edits {x : Proc} {seen v : Licensing} (h : seen.Held held v) :
    Edits held (fun _ t => t.licensing.stored = v) (persistBook x seen v) s := by
  refine upholds_step fun t _ _ hok => ⟨trivial, ?_, fun _ _ => rfl, fun _ _ => trivial⟩
  have hstored : t.licensing.stored = seen := hok
  show t.licensing.stored.Held held v
  rw [hstored]
  exact h

/-- A successful redemption leaves the code bound to its install. -/
theorem redeemLicense_edits (x : Proc) (input : RedeemInput) :
    Edits held (fun _ t => ∃ l ∈ t.licensing.stored.keys.get? (normalizeCode input.code),
      l.instanceId = input.instanceKey ∧ input.instanceKey ≠ "") (redeemLicense x input) s := by
  unfold redeemLicense
  dsimp only
  refine upholds_ite (fun _ => upholds_throw trivial) fun _ => ?_
  refine upholds_ite (fun _ => upholds_throw trivial) fun hid => ?_
  refine upholds_bind (edits_aside (getLicensing_keeps x)) fun r t _ _ => ?_
  obtain ⟨cfg, now⟩ := r
  dsimp only
  cases hcurrent : cfg.keys.get? (normalizeCode input.code) with
  | none => exact upholds_throw trivial
  | some current =>
      refine upholds_ite (fun _ => upholds_throw trivial) fun _ => ?_
      refine upholds_ite (fun _ => upholds_throw trivial) fun hother => ?_
      refine upholds_ite (fun _ => upholds_throw trivial) fun _ => ?_
      have hbound : (current.redeemed input.instanceKey input.url now).instanceId =
          input.instanceKey :=
        License.redeemed_instanceId
      have hrevoked : (current.redeemed input.instanceKey input.url now).revoked =
          current.revoked :=
        License.redeemed_revoked
      generalize current.redeemed input.instanceKey input.url now = next at *
      have hkept : current.instanceId ≠ "" → next.instanceId = current.instanceId := by
        intro hne
        rw [hbound]
        exact (by simpa [hne] using hother : current.instanceId = input.instanceKey).symm
      refine upholds_bind (persistBook_edits (Licensing.Held.set hcurrent hkept fun _ h =>
        hrevoked ▸ h)) fun _ t' _ hu => ?_
      refine upholds_pure ⟨next, ?_, hbound, hid⟩
      rw [hu]
      exact Table.get?_set_self _ _ _

/-- Revoking a code leaves it revoked; lifting a revocation is allowed for codes that are not held.
-/
theorem setLicenseRevoked_edits (x : Proc) (actor : Actor) (code : String) {revoked : Bool}
    (h : revoked = false → ¬held (normalizeCode code)) :
    Edits held (fun _ t => revoked → held (normalizeCode code) →
      ∃ l ∈ t.licensing.stored.keys.get? (normalizeCode code), l.revoked)
      (setLicenseRevoked x actor code revoked) s := by
  refine upholds_ite (fun _ => upholds_throw trivial) fun _ => ?_
  refine upholds_bind (edits_aside (getLicensing_keeps x)) fun r t _ _ => ?_
  obtain ⟨cfg, now⟩ := r
  dsimp only
  cases hl : cfg.keys.get? (normalizeCode code) with
  | none => exact upholds_throw trivial
  | some l =>
      have hrevoked : held (normalizeCode code) → l.revoked → revoked := by
        intro hheld _
        cases revoked with
        | true => rfl
        | false => exact absurd hheld (h rfl)
      refine upholds_bind (persistBook_edits (Licensing.Held.set hl (fun _ => rfl) hrevoked))
        fun _ u _ hu => ?_
      -- the entry in the journal comes after other calls may have written the book again
      refine upholds_step fun v huv _ _ =>
        ⟨trivial, .refl _, fun _ _ htrue hheld => ?_, fun _ _ => trivial⟩
      refine Install.BookHeld.revoked huv hheld ⟨{ l with revoked := revoked }, ?_, htrue⟩
      rw [hu]
      exact Table.get?_set_self _ _ _

/-- What a call that ended with this outcome promises. -/
def LicenceEdit.Promise (held : String → Prop) (r : Except AppError Unit) (s : Install) :
    LicenceEdit → Prop
  | redeem _ input => r = .ok () → (∃ l ∈ s.licensing.stored.keys.get? (normalizeCode input.code),
      l.instanceId = input.instanceKey) ∧ input.instanceKey ≠ ""
  | revoke _ _ code revoked => r = .ok () → revoked → held (normalizeCode code) →
      ∃ l ∈ s.licensing.stored.keys.get? (normalizeCode code), l.revoked

theorem LicenceEdit.edits (call : LicenceEdit) (h : ∀ key, held key → ¬call.Lifts key) :
    Upholds BookUnchanged (fun _ => True) (Install.BookHeld held) (fun a t =>
      call.Promise held (.ok a) t) (fun e t => call.Promise held (.error e) t) call.task s := by
  have herror : ∀ (e : AppError) (t : Install), True → call.Promise held (.error e) t := by
    intro e t _
    cases call <;> exact fun h => (by cases h)
  cases call with
  | redeem x input =>
      refine upholds_mono (upholds_bind (redeemLicense_edits x input) fun _ t _ ht =>
        upholds_pure ?_) (fun _ _ h => h) herror
      obtain ⟨l, hl, hid, hne⟩ := ht
      exact fun _ => ⟨⟨l, hl, hid⟩, hne⟩
  | revoke x actor code revoked =>
      refine upholds_mono (setLicenseRevoked_edits x actor code fun hfalse hheld =>
        ?_) (fun _ _ h _ => h) herror
      subst hfalse
      exact h _ hheld rfl

/-- In every interleaving in which each write of the book finds it as its call has read it, what a
call has done that has ended with success still stands. -/
theorem licence_edits_stand {calls : List LicenceEdit} {c : Pool LicenseStmt Install AppError}
    (h : Pool.Run Install.Passes BookUnchanged ⟨s, calls.map LicenceEdit.task⟩ c) {i : ℕ}
    {call : LicenceEdit}
    (hcall : calls[i]? = some call) (hend : c.threads[i]?.bind Prog.outcome = some (.ok ())) :
    call.Stands calls c.store := by
  -- held are the codes that no call lifts the revocation of
  let held : String → Prop := fun key => ∀ call ∈ calls, ¬call.Lifts key
  have hstart : (⟨s, calls.map LicenceEdit.task⟩ :
      Pool LicenseStmt Install AppError).Delivers BookUnchanged
        (fun _ => True) (Install.BookHeld held)
      (fun i r t => ∀ call, calls[i]? = some call → call.Promise held r t) := by
    refine ⟨trivial, fun i p hp => ⟨s, .refl _, ?_⟩⟩
    rw [List.getElem?_map] at hp
    obtain ⟨call, hcall, rfl⟩ := Option.map_eq_some_iff.mp hp
    have hone : ∀ call', calls[i]? = some call' → call' = call := fun call' h' =>
      Option.some.inj (h'.symm.trans hcall)
    have hlifts : ∀ key, held key → ¬call.Lifts key :=
      fun _ hheld => hheld call (List.mem_of_getElem? hcall)
    exact upholds_mono (call.edits hlifts) (fun _ _ hr call' h' => hone call' h' ▸ hr)
      fun _ _ hr call' h' =>
      hone call' h' ▸ hr
  have henv : ∀ t t' : Install, True → t.Passes t' → True ∧ t.BookHeld held t' := by
    intro t t' _ hpass
    refine ⟨trivial, ?_⟩
    rw [Install.BookHeld, hpass.2]
    exact .refl _
  obtain ⟨p, hp, hout⟩ := Option.bind_eq_some_iff.mp hend
  obtain ⟨u, hu, hpromise⟩ := (hstart.run henv h).ended hp hout
  have hdone := hpromise call hcall
  cases call with
  | redeem x input =>
      obtain ⟨hbound, hne⟩ := hdone rfl
      exact hu.bound hne hbound
  | revoke x actor code revoked =>
      cases revoked with
      | false => trivial
      | true => exact fun hheld => hu.revoked hheld (hdone rfl rfl hheld)

end Licences

/-! ## Plugins -/

/-- A call that edits an entry of the book of plugins: a rotation of its secret, or a callback,
which stamps its usage. -/
inductive PluginEdit
  | rotate (x : Proc) (actor : Actor) (id : PluginId)
  | callback (x : Proc) (id : PluginId) (rawBody : String) (signature : Option String)

/-- The service behind each edit of the plugins. -/
def PluginEdit.task : PluginEdit → Service Unit
  | rotate x actor id => do
      let _ ← rotatePaymentPluginSecret x actor id
      pure ()
  | callback x id rawBody signature => do
      let _ ← handlePaymentPluginCallback x id rawBody signature
      pure ()

/-- A read of the book of plugins finds no outdated copy in the cache of its process, and a write
finds the book as its call has read it. -/
def PluginsUnchanged : Stmt → World → Prop
  | .readPlugins x, w => w.plugins.get x SETTING_TTL w.now = w.plugins.stored
  | .savePlugins seen, w => w.plugins.stored = seen
  | _, _ => True

/-- The plugin, if it is there, has another secret. -/
def World.Rotated (old : String) (id : PluginId) (w : World) : Prop :=
  ∀ p ∈ w.plugins.stored.get? id, p.secret ≠ old

/-- From the number `n` on, the old secret is not drawn. -/
structure World.Random (old : String) (n : ℕ) (w : World) : Prop where
  drawn : n ≤ w.nextId
  other : ∀ m, n ≤ m → w.outside.randomHex m ≠ old

/-- Signatures and random secrets are made as before, and a plugin whose secret is another keeps one
that is. -/
structure RotationKept (old : String) (id : PluginId) (w w' : World) : Prop where
  hmac : w'.outside.hmac = w.outside.hmac
  rotated : w.Rotated old id → w'.Rotated old id

/-- What may happen besides the calls: anything but to the stored book of plugins and to the making
of signatures and random secrets. -/
structure BesidesPlugins (w w' : World) : Prop where
  nextId : w.nextId ≤ w'.nextId
  stored : w'.plugins.stored = w.plugins.stored
  hmac : w'.outside.hmac = w.outside.hmac
  randomHex : w'.outside.randomHex = w.outside.randomHex

section Plugins

variable {old : String} {n : ℕ} {id : PluginId} {w : World}

instance : IsPreorder World (RotationKept old id) where
  refl _ := ⟨rfl, fun h => h⟩
  trans _ _ _ h h' := ⟨h'.hmac.trans h.hmac, fun hr => h'.rotated (h.rotated hr)⟩

theorem BesidesPlugins.kept {w' : World} (h : BesidesPlugins w w') (hI : w.Random old n) :
    w'.Random old n ∧ RotationKept old id w w' := by
  refine ⟨⟨hI.drawn.trans h.nextId, fun m hm => ?_⟩, h.hmac, fun hr => ?_⟩
  · rw [h.randomHex]
    exact hI.other m hm
  · rw [World.Rotated, h.stored]
    exact hr

/-- Upkeep is besides the plugins. -/
theorem Upkeep.besidesPlugins {w' : World} (h : Upkeep w w') : BesidesPlugins w w' :=
  ⟨h.nextId, by rw [h.plugins], by rw [h.outside], by rw [h.outside]⟩

/-- A call that brings no old secret back. -/
abbrev Rotates {α : Type} (old : String) (n : ℕ) (id : PluginId) (Q : α → World → Prop)
    (p : Service α) : World → Prop :=
  Upholds PluginsUnchanged (World.Random old n) (RotationKept old id) Q (fun _ _ => True) p

/-- So it keeps a rotation. -/
theorem rotates_upkeep {α : Type} {p : Service α} (hp : p.Keeps Upkeep) :
    Rotates old n id (fun _ _ => True) p w :=
  upholds_of_keeps hp fun _ _ h hI => h.besidesPlugins.kept hI

/-- So does a call beside the payments. -/
theorem rotates_aside {α : Type} {p : Service α} (hp : p.Keeps Aside) :
    Rotates old n id (fun _ _ => True) p w :=
  rotates_upkeep (hp.mono fun _ _ => Aside.upkeep)

/-- A call reads the book that is stored. -/
theorem pluginBook_rotates (x : Proc) :
    Rotates old n id (fun items _ => w.Rotated old id → ∀ p ∈ items.get? id, p.secret ≠ old)
      (pluginBook x) w := by
  refine upholds_step fun t ht hI hok =>
    ⟨⟨hI.drawn, hI.other⟩, ⟨rfl, fun hr => ?_⟩, ?_, fun _ _ => trivial⟩
  · rw [World.Rotated, Cell.stored_touch]
    exact hr
  · intro items hitems hr p hp
    obtain rfl := Except.ok.inj hitems
    have hstored : t.plugins.get x SETTING_TTL t.now = t.plugins.stored := hok
    exact ht.rotated hr p (hstored ▸ hp)

/-- A write of the book with one entry changed, which gets another secret than the old one or keeps
the one that it has. -/
theorem savePluginBook_rotates {x : Proc} {seen : PluginBook} {id' : PluginId} {p : PaymentPlugin}
    (h : p.secret ≠ old ∨ ∃ q ∈ seen.get? id', p.secret = q.secret) :
    Rotates old n id (fun _ t => p.secret ≠ old → id' = id → t.Rotated old id)
      (savePluginBook x seen (seen.set id' p)) w := by
  have hset : ∀ q ∈ (seen.set id' p).get? id, id' = id ∧ q = p ∨ id ≠ id' ∧ q ∈ seen.get? id := by
    intro q hq
    rw [Table.get?_set] at hq
    split at hq
    · next hid => exact .inl ⟨hid.symm, (Option.some.inj hq).symm⟩
    · next hid => exact .inr ⟨hid, hq⟩
  refine upholds_step fun _ _ hI hok =>
    ⟨⟨hI.drawn, hI.other⟩, ⟨rfl, fun hr q hq => ?_⟩, ?_, fun _ _ => trivial⟩
  · have hstored : _ = seen := hok
    rcases hset q hq with ⟨rfl, rfl⟩ | ⟨-, hq⟩
    · rcases h with h | ⟨r, hr', h⟩
      · exact h
      · rw [h]
        exact hr r (hstored ▸ hr')
    · exact hr q (hstored ▸ hq)
  · rintro _ - hne rfl q hq
    rcases hset q hq with ⟨-, rfl⟩ | ⟨hid, -⟩
    · exact hne
    · exact absurd rfl hid

/-- So does the stamp of a callback. -/
theorem stamp_rotates (x : Proc) (id' : PluginId) (status : String) (error : Option String)
    (confirmed : Bool) : Rotates old n id
      (fun _ _ => True) (stamp x id' status error confirmed) w := by
  refine upholds_bind (pluginBook_rotates x) fun items t _ _ => ?_
  cases hcur : items.get? id' with
  | none => exact upholds_pure trivial
  | some cur =>
      refine upholds_read fun now _ _ _ => ?_
      exact upholds_mono (savePluginBook_rotates (.inr ⟨cur, hcur, rfl⟩))
        (fun _ _ _ => trivial) fun _ _ h => h

/-- So does its end. -/
theorem finish_rotates (x : Proc) (id' : PluginId) (action : CallbackAction) (paymentId : PaymentId)
    (status : PaymentStatus) (message : String) :
    Rotates old n id (fun _ _ => True) (finish x id' action paymentId status message) w :=
  upholds_bind (stamp_rotates _ _ _ _ _) fun _ _ _ _ => upholds_pure trivial

/-- So does its refusal. -/
theorem refuse_rotates {α : Type} {Q : α → World → Prop} (x : Proc) (id' : PluginId)
    (status : String) (e : AppError) : Rotates old n id Q (refuse x id' status e : Service α) w :=
  upholds_bind (stamp_rotates _ _ _ _ _) fun _ _ _ _ => upholds_throw trivial

/-- So does the look-up of one's own plugin, which is in the book. -/
theorem mine_rotates (x : Proc) (actor : Actor) (id' : PluginId) :
    Rotates old n id (fun r _ => r.2 ∈ r.1.get? id') (mine x actor id') w := by
  refine upholds_bind (pluginBook_rotates x) fun items t _ _ => ?_
  cases hplugin : items.get? id' with
  | none => exact upholds_throw trivial
  | some plugin => exact upholds_ite (fun _ => upholds_throw trivial) fun _ => upholds_pure hplugin

/-- The rotation of a plugin leaves it with another secret than the old one. -/
theorem rotatePaymentPluginSecret_rotates (x : Proc) (actor : Actor) (id' : PluginId) :
    Rotates old n id (fun _ t => id' = id →
      t.Rotated old id) (rotatePaymentPluginSecret x actor id') w := by
  refine upholds_bind (mine_rotates x actor id') fun r t _ _ => ?_
  obtain ⟨items, plugin⟩ := r
  have hdraw : Rotates old n id (fun secret _ => secret ≠ old)
      (.step .other fun w => (.ok (w.outside.randomHex w.nextId),
        { w with nextId := w.nextId + 1 })) t := by
    refine upholds_step fun u _ hI _ =>
      ⟨⟨hI.drawn.trans (Nat.le_succ _), hI.other⟩, ⟨rfl, fun h => h⟩, ?_, fun _ _ => trivial⟩
    intro secret hsecret
    rw [← Except.ok.inj hsecret]
    exact hI.other _ hI.drawn
  refine upholds_bind hdraw fun secret u _ hsecret => ?_
  refine upholds_bind (savePluginBook_rotates (.inl hsecret)) fun _ v _ hv => ?_
  -- other calls may have written the book again before the entry in the journal
  refine upholds_bind (rotates_aside (audit_keeps (some actor.id) _)) fun _ _ hlater _ => ?_
  exact upholds_pure fun hid => hlater.rotated (hv hsecret hid)

/-- So does the effect of a callback. -/
private theorem settlePluginCallback_rotates (x : Proc) (id' : PluginId) (plugin : PaymentPlugin)
    (paymentId : PaymentId) (p : Payment) (body : CallbackBody) :
    Rotates old n id (fun _ _ => True) (settlePluginCallback x id' plugin paymentId p body) w := by
  have close : ∀ action status message entry t, Rotates old n id (fun _ _ => True) (do
      audit (some plugin.adminId) entry
      finish x id' action paymentId status message) t := fun _ _ _ _ _ =>
    upholds_bind (rotates_aside (audit_keeps _ _)) fun _ _ _ _ => finish_rotates _ _ _ _ _ _
  unfold settlePluginCallback
  dsimp only
  refine upholds_ite (fun _ => ?_) fun _ => ?_
  · exact upholds_bind (rotates_upkeep (updatePayment_keeps fun _ _ => rfl)) fun _ _ _ _ =>
    close _ _ _ _ _
  · split
    · exact upholds_bind (rotates_upkeep (updatePayment_keeps fun _ _ => rfl)) fun _ _ _ _ =>
      close _ _ _ _ _
    · refine upholds_bind (confirmPayment_upholds
      (fun h hI => h.besidesPlugins.kept hI) ?_) fun _ _ _ _ =>
        close _ _ _ _ _
      intro t p q q' _ hI _ _ _ _ _
      exact ⟨⟨hI.drawn, hI.other⟩, rfl, fun h => h⟩

/-- A callback that is signed with the old secret only is not accepted once the secret is rotated.
-/
theorem handlePaymentPluginCallback_rotates (x : Proc) (id' : PluginId) (rawBody : String)
    (signature : Option String) :
    Rotates old n id (fun _ _ => ¬(id' = id ∧ w.Rotated old id ∧ ∀ secret, secret ≠ old →
      sameSignature (w.outside.hmac secret rawBody) signature = false))
      (handlePaymentPluginCallback x id' rawBody signature) w := by
  refine upholds_bind (pluginBook_rotates x) fun items t ht hitems => ?_
  cases hplugin : items.get? id' with
  | none => exact upholds_throw trivial
  | some plugin =>
      refine upholds_ite (fun _ => upholds_throw trivial) fun _ => ?_
      refine upholds_ite (fun _ => upholds_throw trivial) fun _ => upholds_read fun u hu _ _ => ?_
      have hhmac : u.outside.hmac = w.outside.hmac := hu.hmac.trans ht.hmac
      refine upholds_ite (fun _ => refuse_rotates _ _ _ _) fun hsigned => ?_
      have haccepted : ¬(id' = id ∧ w.Rotated old id ∧ ∀ secret, secret ≠ old →
          sameSignature (w.outside.hmac secret rawBody) signature = false) := by
        rintro ⟨rfl, hr, hother⟩
        have hne : plugin.secret ≠ old := hitems hr plugin hplugin
        rw [hhmac, hother _ hne] at hsigned
        exact hsigned rfl
      refine upholds_mono (Q := fun _ _ => True) (upholds_read fun v _ _ _ =>
        ?_) (fun _ _ _ => haccepted) fun _ _ h => h
      cases v.outside.callbackJson (if rawBody = "" then "\x7b\x7d" else rawBody) with
      | none => exact refuse_rotates _ _ _ _
      | some body =>
          dsimp only
          cases body.target with
          | none => exact refuse_rotates _ _ _ _
          | some paymentId =>
              refine upholds_read fun v' _ _ _ => ?_
              cases v'.payments.get? paymentId with
              | none => exact refuse_rotates _ _ _ _
              | some p =>
                  refine upholds_ite (fun _ => refuse_rotates _ _ _ _) fun _ => ?_
                  refine upholds_ite (fun _ => refuse_rotates _ _ _ _) fun _ => ?_
                  refine upholds_ite (fun _ => finish_rotates _ _ _ _ _ _) fun _ => ?_
                  refine upholds_ite (fun _ => finish_rotates _ _ _ _ _ _) fun _ => ?_
                  exact settlePluginCallback_rotates _ _ _ _ _ _

theorem PluginEdit.rotates (call : PluginEdit) :
    Rotates old n id (fun _ t => ∀ x actor, call = .rotate x actor id →
      t.Rotated old id) call.task w := by
  cases call with
  | rotate x actor id' =>
      refine upholds_bind (rotatePaymentPluginSecret_rotates x actor id') fun _ t _ ht =>
        upholds_pure ?_
      rintro y actor' ⟨⟩
      exact ht rfl
  | callback x id' rawBody signature =>
      refine upholds_bind (handlePaymentPluginCallback_rotates x id' rawBody signature)
        fun _ t _ _ =>
        upholds_pure ?_
      rintro y actor ⟨⟩

/-- In every interleaving in which reads and writes of the book find it unchanged, a callback that
begins after a rotation of its plugin is not accepted for a signature under the old secret. -/
theorem rotation_stands {calls : List PluginEdit} {c c' : Pool Stmt World AppError}
    (hold : ∀ m, w.nextId ≤ m → w.outside.randomHex m ≠ old)
    (h : Pool.Run BesidesPlugins PluginsUnchanged ⟨w, calls.map PluginEdit.task⟩ c)
    (h' : Pool.Run BesidesPlugins PluginsUnchanged c c') {i j : ℕ} {x y : Proc} {actor : Actor}
    {rawBody : String} {signature : Option String} (hi : calls[i]? = some (.rotate x actor id))
    (hend : c.threads[i]?.bind Prog.outcome = some (.ok ()))
    (hj : c.threads[j]? = some (PluginEdit.callback y id rawBody signature).task)
    (hsigned : ∀ secret, secret ≠ old →
      sameSignature (w.outside.hmac secret rawBody) signature = false) :
    c'.threads[j]?.bind Prog.outcome ≠ some (.ok ()) := by
  have hstart : w.Random old w.nextId := ⟨Nat.le_refl _, hold⟩
  have henv : ∀ t t' : World, t.Random old w.nextId → BesidesPlugins t t' →
      t'.Random old w.nextId ∧ RotationKept old id t t' := fun _ _ hI he => he.kept hI
  have hpool : (⟨w, calls.map PluginEdit.task⟩ : Pool Stmt World AppError).Delivers PluginsUnchanged
      (World.Random old w.nextId) (RotationKept old id)
      (fun k r t => ∀ x actor, calls[k]? = some (.rotate x actor id) → r = .ok () →
        t.Rotated old id) := by
    refine ⟨hstart, fun k p hp => ⟨w, refl_of (RotationKept old id) w, ?_⟩⟩
    rw [List.getElem?_map] at hp
    obtain ⟨call, hcall, rfl⟩ := Option.map_eq_some_iff.mp hp
    refine upholds_mono call.rotates (fun _ t ht x actor hk _ => ?_) fun _ _ _ x actor _ herror =>
      by cases herror
    exact ht x actor (Option.some.inj (hcall.symm.trans hk))
  have hrun := hpool.run henv h
  -- the rotation has ended, so the secret is another from here on
  obtain ⟨p, hp, hout⟩ := Option.bind_eq_some_iff.mp hend
  obtain ⟨u, hu, hrotated⟩ := hrun.ended hp hout
  have hnew : c.store.Rotated old id := hu.rotated (hrotated x actor hi rfl)
  have hhmac : c.store.outside.hmac = w.outside.hmac := by
    refine (Pool.upheld_run hstart (fun p hp => ?_) henv h).2.hmac
    obtain ⟨call, -, rfl⟩ := List.mem_map.mp hp
    exact upholds_mono call.rotates (fun _ _ _ => trivial) fun _ _ h => h
  have hcallback : c.Delivers PluginsUnchanged (World.Random old w.nextId) (RotationKept old id)
      (fun k r _ => k = j → r ≠ .ok ()) := by
    refine ⟨hrun.1, fun k p hp => ?_⟩
    by_cases hk : k = j
    · subst hk
      obtain rfl := Option.some.inj (hj.symm.trans hp)
      refine ⟨c.store, refl_of (RotationKept old id) c.store, ?_⟩
      refine upholds_mono (Q := fun _ _ => False) (E := fun _ _ => True) ?_ (fun _ _ h => h.elim)
        fun _ _ _ _ h => by cases h
      refine upholds_bind (handlePaymentPluginCallback_rotates y id rawBody signature)
        fun _ _ _ haccepted => ?_
      exact absurd ⟨rfl, hnew, by rw [hhmac]; exact hsigned⟩ haccepted
    · obtain ⟨s, hs, hup⟩ := hrun.2 k p hp
      exact ⟨s, hs, upholds_mono hup (fun _ _ _ h => absurd h hk) fun _ _ _ h => absurd h hk⟩
  intro hok
  obtain ⟨q, hq, hout'⟩ := Option.bind_eq_some_iff.mp hok
  obtain ⟨-, -, hnot⟩ := (hcallback.run henv h').ended hq hout'
  exact hnot rfl rfl

end Plugins

/-! ## Both books -/

/-- While no write undoes what it has not read and no read of the plugins is outdated, the edits of
both books stand: what a call on a code has done once it has ended with success is so in every later
state, and after a rotation that has ended no callback that begins then is accepted for the old
secret. -/
theorem settings_edits_stand {s : Install} {codeCalls : List LicenceEdit}
    {a : Pool LicenseStmt Install AppError} {w : World} {pluginCalls : List PluginEdit}
    {c c' : Pool Stmt World AppError} {old : String}
    (hcodes : Pool.Run Install.Passes BookUnchanged ⟨s, codeCalls.map LicenceEdit.task⟩ a)
    (hold : ∀ m, w.nextId ≤ m → w.outside.randomHex m ≠ old)
    (hplugins : Pool.Run BesidesPlugins PluginsUnchanged ⟨w, pluginCalls.map PluginEdit.task⟩ c)
    (hlater : Pool.Run BesidesPlugins PluginsUnchanged c c') :
    (∀ (i : ℕ) (call : LicenceEdit), codeCalls[i]? = some call →
      a.threads[i]?.bind Prog.outcome = some (.ok ()) → call.Stands codeCalls a.store) ∧
    ∀ (i j : ℕ) (x y : Proc) (actor : Actor) (id : PluginId) (rawBody : String)
      (signature : Option String), pluginCalls[i]? = some (.rotate x actor id) →
      c.threads[i]?.bind Prog.outcome = some (.ok ()) →
      c.threads[j]? = some (PluginEdit.callback y id rawBody signature).task →
      (∀ secret, secret ≠ old → sameSignature (w.outside.hmac secret rawBody) signature = false) →
      c'.threads[j]?.bind Prog.outcome ≠ some (.ok ()) := by
  refine ⟨fun _ _ hcall hend => licence_edits_stand hcodes hcall hend, ?_⟩
  intro i j x y actor id rawBody signature hi hend hj hsigned
  exact rotation_stands hold hplugins hlater hi hend hj hsigned

instance : ∀ (l : Stmt) (w : World), Decidable (PluginsUnchanged l w)
  | .readPlugins x, w => inferInstanceAs
    (Decidable (w.plugins.get x SETTING_TTL w.now = w.plugins.stored))
  | .savePlugins seen, w => inferInstanceAs (Decidable (w.plugins.stored = seen))
  | .other, _ => isTrue trivial
  | .tag _, _ => isTrue trivial
  | .credit _ _ _ _ _, _ => isTrue trivial
  | .pay _, _ => isTrue trivial
  | .lookBack _, _ => isTrue trivial
  | .update _ _, _ => isTrue trivial
  | .callback _ _ _, _ => isTrue trivial
  | .called _ _, _ => isTrue trivial
  | .receive _ _ _, _ => isTrue trivial
  | .look _ _ _ _, _ => isTrue trivial
  | .release _ _ _, _ => isTrue trivial
  | .saveBook _ _, _ => isTrue trivial

/-- An install redeems a code that the owner revokes. -/
def codeEdits : List LicenceEdit :=
  [.redeem .web ⟨"ABCDEFGHJKLM", "PANEL-A", none⟩, .revoke .web ⟨1, .owner⟩ "ABCDEFGHJKLM" true]

/-- Edits of codes that run at once. -/
def codePool : Pool LicenseStmt Install AppError := ⟨soldOne, codeEdits.map LicenceEdit.task⟩

/-- A callback with a wrong signature, the rotation of the secret `key`, and a callback signed with
`key`. -/
def pluginEdits : List PluginEdit :=
  [.callback .web 50 "seven" (some "wrong"), .rotate .web ⟨2, .admin⟩ 50,
    .callback .web 50 "seven" (some "keyseven")]

/-- Edits of plugins that run at once. -/
def secretPool : Pool Stmt World AppError := ⟨pluginWorld, pluginEdits.map PluginEdit.task⟩

theorem sameSignature_seven {secret : String} (h : secret ≠ "key") :
    sameSignature (pluginWorld.outside.hmac secret "seven") (some "keyseven") = false := by
  have hclean : cleanSignature (some "keyseven") = "key" ++ "seven" := by decide +kernel
  have hhmac : pluginWorld.outside.hmac secret "seven" = secret ++ "seven" := rfl
  rw [hhmac, sameSignature, hclean, Bool.and_eq_false_iff]
  right
  rw [beq_eq_false_iff_ne]
  intro heq
  have hlist := congrArg String.toList heq
  rw [String.toList_append, String.toList_append, List.append_cancel_right_eq] at hlist
  exact h (String.toList_injective hlist.symm)

/-- No new secret is the old one. -/
theorem randomHex_ne_key (m : ℕ) : pluginWorld.outside.randomHex m ≠ "key" := by
  intro h
  have hlist : (toString m).toList = "key".toList := congrArg String.toList h
  rw [Nat.toString_eq_repr, Nat.toList_repr] at hlist
  have hk : 'k' ∈ Nat.toDigits 10 m := by rw [hlist]; decide
  exact absurd (Nat.isDigit_of_mem_toDigits (by decide) (by decide) hk) (by decide)

/-- Calls that take turns: the code is bound and revoked, and the callback is refused. -/
theorem settings_edits_stand_in_turn :
    (∃ c, Pool.Run Install.Passes BookUnchanged codePool c ∧ c.Done ∧
      (LicenceEdit.redeem .web ⟨"ABCDEFGHJKLM", "PANEL-A", none⟩).Stands codeEdits c.store ∧
      (LicenceEdit.revoke .web ⟨1, .owner⟩ "ABCDEFGHJKLM" true).Stands codeEdits c.store) ∧
    ∃ c, Pool.Run BesidesPlugins PluginsUnchanged secretPool c ∧ c.Done ∧
      c.threads[2]?.bind Prog.outcome ≠ some (.ok ()) := by
  have hcodes : Pool.Run Install.Passes BookUnchanged codePool
      (codePool.schedule [0, 0, 1, 1, 1]) :=
    Pool.schedule_run Install.Passes [0, 0, 1, 1, 1] codePool (by decide +kernel)
  have hrotation : Pool.Run BesidesPlugins PluginsUnchanged secretPool
      (secretPool.schedule [1, 1, 1, 1]) :=
    Pool.schedule_run BesidesPlugins [1, 1, 1, 1] secretPool (by decide +kernel)
  have hcallbacks : Pool.Run BesidesPlugins PluginsUnchanged (secretPool.schedule [1, 1, 1, 1])
      ((secretPool.schedule [1, 1, 1, 1]).schedule [0, 0, 0, 0, 0, 2, 2, 2, 2, 2]) :=
    Pool.schedule_run BesidesPlugins [0, 0, 0, 0, 0, 2, 2, 2, 2, 2] _ (by decide +kernel)
  obtain ⟨hcode, hplugin⟩ :=
    settings_edits_stand hcodes (fun m _ => randomHex_ne_key m) hrotation hcallbacks
  refine ⟨⟨_, hcodes, by decide +kernel, ?_, ?_⟩, _, hrotation.trans hcallbacks, by
    decide +kernel, ?_⟩
  · exact hcode 0 _ rfl (by decide +kernel)
  · exact hcode 1 _ rfl (by decide +kernel)
  · exact hplugin 1 2 .web .web ⟨2, .admin⟩ 50 "seven" _ rfl (by decide +kernel) rfl fun _ h =>
      sameSignature_seven h

/-- An interleaving in which the redemption writes back the code as it was before it was revoked,
and one in which the stamp of a refused callback writes back the old secret, so that a callback
signed with it confirms a payment. -/
theorem settings_edits_undone :
    (∃ c, Pool.Run Install.Passes (fun _ _ => True) codePool c ∧
      c.threads[1]?.bind Prog.outcome = some (.ok ()) ∧
      ¬(LicenceEdit.revoke .web ⟨1, .owner⟩ "ABCDEFGHJKLM" true).Stands codeEdits c.store) ∧
    ∃ c c', Pool.Run BesidesPlugins (fun _ _ => True) secretPool c ∧
      Pool.Run BesidesPlugins (fun _ _ => True) c c' ∧
      c.threads[1]?.bind Prog.outcome = some (.ok ()) ∧
      c.threads[2]? = some (PluginEdit.callback .web 50 "seven" (some "keyseven")).task ∧
      c'.threads[2]?.bind Prog.outcome = some (.ok ()) ∧
      (c'.store.payments.get? 7).map Payment.status = some .confirmed := by
  refine ⟨⟨_, Pool.schedule_run_free _ [0, 1, 1, 1, 0] codePool, by decide +kernel, ?_⟩, ?_⟩
  · intro h
    have hlifts : ∀ call ∈ codeEdits, ¬call.Lifts (normalizeCode "ABCDEFGHJKLM") := by
      intro call hcall
      simp only [codeEdits, List.mem_cons, List.not_mem_nil, or_false] at hcall
      rcases hcall with rfl | rfl <;> exact id
    obtain ⟨l, hl, hrevoked⟩ := h hlifts
    have hlost : ∀ l ∈ (codePool.schedule [0, 1, 1, 1, 0]).store.licensing.stored.keys.get?
        (normalizeCode "ABCDEFGHJKLM"), l.revoked = false := by decide +kernel
    rw [hlost l hl] at hrevoked
    cases hrevoked
  · refine ⟨_, _, Pool.schedule_run_free _ [0, 0, 0, 0, 1, 1, 1, 1] secretPool,
      Pool.schedule_run_free _ (0 :: List.replicate 20 2) _, ?_, ?_, ?_, ?_⟩
    · decide +kernel
    · rfl
    · decide +kernel
    · decide +kernel

end SRPanel
