import SRPanel.Licences.Gates
import SRPanel.Lib.Rely

/-!
# Premium follows the vendor

The record of an install says when the vendor last accepted its code. A recheck reads the record,
waits for the vendor and writes back a copy of what it has read; a drop or another recheck that
falls in between is undone. An activation that the vendor rejects leaves the record alone even if
the code is the stored one. Where neither happens, whoever passes the newer gate has the vendor's
word for it, and no later word against it.
-/

namespace SRPanel

open Interleaving Prog

/-! ## The vendor's word -/

/-- The event ends what an earlier verification of the code granted. -/
def LicenseEvent.Ends (code : String) : LicenseEvent → Prop
  | .verified _ _ _ => False
  | .rejected c => c = code
  | .dropped => True

/-- The vendor has accepted the code at a time and given it an expiry, and nothing has ended that
since. -/
def Vouched (events : List LicenseEvent) (code : String) (time : Time)
    (expiresAt : DateText) : Prop :=
  ∃ later earlier, events = later ++ .verified code time expiresAt :: earlier ∧
    ∀ v ∈ later, ¬v.Ends code

/-- The server turns the request down. -/
def RemoteReply.refuses : RemoteReply → Bool
  | .unreachable => false
  | .response status _ => status < 500 && (status < 200 || 300 ≤ status)

/-- Nothing happens between the vendor's answer to a call and its write, a recheck writes on the
record that it has read, and an activation that is turned down is not of the stored code. -/
def RecordUndisturbed : LicenseStmt → Install → Prop
  | .saveActivation since, s => s.events = since
  | .saveRecheck seen since, s => s.license.stored = seen ∧ s.events = since
  | .activate input, s => (s.vendor input).refuses → s.license.stored.code ≠ input.code
  | _, _ => True

instance : ∀ (l : LicenseStmt) (s : Install), Decidable (RecordUndisturbed l s)
  | .saveActivation since, s => inferInstanceAs (Decidable (s.events = since))
  | .saveRecheck seen since, s =>
    inferInstanceAs (Decidable (s.license.stored = seen ∧ s.events = since))
  | .activate input, s => inferInstanceAs (Decidable ((s.vendor input).refuses → _))
  | .other, _ => isTrue trivial
  | .readBook _, _ => isTrue trivial
  | .saveBook _, _ => isTrue trivial

/-- What the record grants, the vendor has granted. -/
def InstanceLicense.Backed (r : InstanceLicense) (events : List LicenseEvent) (now : Time) : Prop :=
  r.code ≠ "" → ∀ t, r.lastCheck = .at t → ∃ time : Time, t = time ∧ time ≤ now ∧
    Vouched events r.code time r.expiresAt

section Words

variable {events : List LicenseEvent} {code : String} {time now : Time} {expiresAt : DateText}
  {r : InstanceLicense}

theorem Vouched.fresh (code : String) (time : Time) (expiresAt : DateText) :
    Vouched (.verified code time expiresAt :: events) code time expiresAt :=
  ⟨[], events, rfl, by simp⟩

theorem Vouched.append {new : List LicenseEvent} (h : Vouched events code time expiresAt)
    (hnew : ∀ v ∈ new, ¬v.Ends code) : Vouched (new ++ events) code time expiresAt := by
  obtain ⟨later, earlier, rfl, hlater⟩ := h
  refine ⟨new ++ later, earlier, (List.append_assoc _ _ _).symm, fun v hv => ?_⟩
  rcases List.mem_append.mp hv with hv | hv
  · exact hnew v hv
  · exact hlater v hv

theorem InstanceLicense.Backed.later (h : r.Backed events time) (ht : time ≤ now) :
    r.Backed events now := by
  intro hcode t hcheck
  obtain ⟨time', ht', hle, hv⟩ := h hcode t hcheck
  exact ⟨time', ht', hle.trans ht, hv⟩

/-- A request is refused exactly if the server turns it down. -/
theorem RemoteReply.refuses_of_outcome {reply : RemoteReply} {error : String}
    (h : reply.outcome code now = .refused error) : reply.refuses = true := by
  cases reply with
  | unreachable => cases h
  | response status payload =>
      unfold RemoteReply.outcome at h
      dsimp only at h
      split at h
      · cases h
      · next h500 =>
          split at h
          · next hrange =>
              have hlt : status < 500 := Nat.lt_of_not_le h500
              simpa [RemoteReply.refuses, hlt] using hrange
          · cases h

/-- The record after a recheck is backed, if it was backed before and the vendor's acceptance is the
last thing that has happened. -/
theorem InstanceLicense.Backed.rechecked {before : List LicenseEvent} {outcome : VerifyOutcome}
    (h : r.Backed events now) (ht : time ≤ now)
    (hevents : events = recheckEvent r.code outcome time ++ before) :
    (r.rechecked time outcome).1.Backed ((r.rechecked time outcome).2 ++ events) now := by
  cases outcome with
  | ok value =>
      intro _ t hcheck
      obtain rfl : (time : ℤ) = t := DateText.at.inj hcheck
      exact ⟨time, rfl, ht, hevents ▸ .fresh _ _ _⟩
  | refused error =>
      intro _ t hcheck
      cases hcheck
  | unreachable error => exact h

end Words

/-! ## Calls on the panel -/

/-- A call that concerns the licence of an install. -/
inductive LicenseCall
  | activate (x : Proc) (actor : Actor) (rawCode : String)
  | recheck (x : Proc) (actor : Actor)
  | autoRecheck (x : Proc)
  | drop (x : Proc) (actor : Actor)

def LicenseCall.prog : LicenseCall → Prog LicenseStmt Install AppError Unit
  | activate x actor rawCode => (activateLicense x actor rawCode).void
  | recheck x actor => (recheckLicense x (some actor)).void
  | autoRecheck x => (autoRecheckLicense x).void
  | drop x actor => (dropLicense x actor).void

/-- The install is a customer's, and the vendor's word backs the stored record. -/
structure Install.Vouches (s : Install) : Prop where
  customer : s.env.isVendorInstall = false
  backed : s.license.stored.Backed s.events s.now

/-- Time goes on and the environment stays. -/
def Install.Onward (s t : Install) : Prop := s.now ≤ t.now ∧ t.env = s.env

instance : IsPreorder Install Install.Onward where
  refl _ := ⟨le_rfl, rfl⟩
  trans _ _ _ h h' := ⟨h.1.trans h'.1, h'.2.trans h.2⟩

/-- A call upholds that the record is backed. -/
abbrev BacksRecord {α : Type} (Q : α → Install → Prop) (p : LicenseService α) : Install → Prop :=
  Upholds RecordUndisturbed Install.Vouches Install.Onward Q (fun _ _ => True) p

section Calls

variable {s : Install} {α : Type}

/-- A change that leaves the record and the events alone. -/
def Install.SameRecord (s t : Install) : Prop :=
  t.license.stored = s.license.stored ∧ t.events = s.events ∧ t.env = s.env ∧ t.now = s.now

theorem Install.Vouches.same {t : Install} (h : s.Vouches) (hs : s.SameRecord t) :
    t.Vouches ∧ s.Onward t := by
  obtain ⟨hr, he, henv, hnow⟩ := hs
  refine ⟨⟨henv ▸ h.customer, ?_⟩, hnow.ge, henv⟩
  rw [hr, he, hnow]
  exact h.backed

theorem getInstanceLicense_keeps (x : Proc) : (getInstanceLicense x).Keeps Install.SameRecord :=
  keeps_step fun _ => ⟨Cell.stored_touch _ _ _ _, rfl, rfl, rfl⟩

theorem panelInstanceId_keeps (x : Proc) : (panelInstanceId x).Keeps Install.SameRecord := by
  refine keeps_bind (keeps_step fun _ => ⟨rfl, rfl, rfl, rfl⟩) fun id => ?_
  exact keeps_ite (keeps_pure _) (keeps_step fun _ => ⟨rfl, rfl, rfl, rfl⟩)

theorem panelEntitlements_keeps (x : Proc) : (panelEntitlements x).Keeps Install.SameRecord :=
  keeps_bind (getInstanceLicense_keeps x) fun _ => keeps_bind (panelInstanceId_keeps x) fun _ =>
    keeps_query (fun _ => ⟨rfl, rfl, rfl, rfl⟩) _ _

theorem auditLicense_keeps_record (actor : AdminId) (action : String) :
    (auditLicense actor action).Keeps Install.SameRecord :=
  keeps_modify fun _ => ⟨rfl, rfl, rfl, rfl⟩

theorem backs_aside {p : LicenseService α} (hp : p.Keeps Install.SameRecord) :
    BacksRecord (fun _ _ => True) p s :=
  upholds_of_keeps hp fun _ _ h hI => hI.same h

/-- A customer's install finds that it is one. -/
theorem isVendorInstall_backs :
    BacksRecord (fun vendor _ => vendor = false) (.query .other fun s => s.env.isVendorInstall) s :=
  upholds_query fun _ _ hI _ => hI.customer

/-- A write of a record that is backed with the event of the write. -/
theorem persistRecord_backs {x : Proc} {l : LicenseStmt} {v : InstanceLicense}
    {event : List LicenseEvent} (h : ∀ t : Install, s.now ≤ t.now → RecordUndisturbed l t →
      t.license.stored.Backed t.events t.now → v.Backed (event ++ t.events) t.now) :
    BacksRecord (fun _ _ => True) (persistRecord x l v event) s := by
  refine upholds_step fun t hG hI hok =>
    ⟨⟨hI.customer, ?_⟩, ⟨le_rfl, rfl⟩, fun _ _ => trivial, fun _ _ => trivial⟩
  exact h t hG.1 hok hI.backed

/-- A request whose answer leaves the record backed. -/
theorem verifyRemote_backs {l : RedeemInput → LicenseStmt} {code instanceId : String}
    {onOutcome : VerifyOutcome → Time → List LicenseEvent}
    (h : ∀ (t : Install) (input : RedeemInput), input.code = code → RecordUndisturbed (l input) t →
      ∀ v ∈ onOutcome ((t.vendor input).outcome code t.now) t.now, ¬v.Ends t.license.stored.code) :
    BacksRecord (fun v t => v.now ≤ t.now ∧ ∃ before, v.since = onOutcome v.outcome v.now ++ before)
      (verifyRemote l code instanceId onOutcome) s := by
  refine upholds_read fun t _ _ _ => upholds_step fun u _ hI hok => ?_
  refine ⟨⟨hI.customer, ?_⟩, ⟨le_rfl, rfl⟩, ?_, fun _ _ => trivial⟩
  · intro hne τ hcheck
    obtain ⟨time, hτ, hle, hv⟩ := hI.backed hne τ hcheck
    exact ⟨time, hτ, hle, hv.append (h u _ rfl hok)⟩
  · rintro v ⟨⟩
    exact ⟨le_rfl, u.events, rfl⟩

/-- An activation on a customer's install asks the vendor. -/
theorem activationValue_backs (x : Proc) (code instanceId : String) :
    BacksRecord (fun r t => r.2.1 ≤ t.now ∧ ∃ before,
      r.2.2 = .verified r.1.code r.2.1 r.1.expiresAt ::
        before) (activationValue x false code instanceId) s := by
  refine upholds_bind (verifyRemote_backs fun t input hcode hok v hv => ?_) fun v t _ hv => ?_
  -- a rejected code is not the stored one, and an accepted one ends nothing
  · cases houtcome : (t.vendor input).outcome code t.now with
    | ok value =>
        obtain rfl : v = .verified value.code t.now value.expiresAt := by
          simpa [houtcome, activationEvent] using hv
        exact id
    | refused error =>
        obtain rfl : v = .rejected code := by simpa [houtcome, activationEvent] using hv
        intro hends
        exact hok (RemoteReply.refuses_of_outcome houtcome) (hcode.symm ▸ hends.symm)
    | unreachable error => simp [houtcome, activationEvent] at hv
  · obtain ⟨outcome, now, since⟩ := v
    obtain ⟨hle, before, hsince⟩ := hv
    cases outcome with
    | ok value => exact upholds_pure ⟨hle, before, hsince⟩
    | refused error => exact upholds_throw trivial
    | unreachable error => exact upholds_throw trivial

theorem activateLicense_backs (x : Proc) (actor : Actor) (rawCode : String) :
    BacksRecord (fun _ _ => True) (activateLicense x actor rawCode) s := by
  unfold activateLicense
  dsimp only
  refine upholds_ite (fun _ => upholds_throw trivial) fun _ => ?_
  refine upholds_ite (fun _ => upholds_throw trivial) fun _ => ?_
  refine upholds_bind (backs_aside (panelInstanceId_keeps x)) fun instanceId t _ _ => ?_
  refine upholds_bind isVendorInstall_backs fun vendor u _ hvendor => ?_
  subst hvendor
  refine upholds_bind (activationValue_backs x _ instanceId) fun r v _ hr => ?_
  obtain ⟨value, now, since⟩ := r
  obtain ⟨hle, before, hsince⟩ := hr
  refine upholds_bind (persistRecord_backs fun t ht hok _ => ?_) fun _ _ _ _ => ?_
  · intro _ τ hcheck
    obtain rfl : (now : ℤ) = τ := DateText.at.inj hcheck
    have hevents : t.events = .verified value.code now value.expiresAt :: before := hok.trans hsince
    refine ⟨now, rfl, hle.trans ht, ?_⟩
    rw [hevents]
    exact .fresh _ _ _
  · exact upholds_bind (backs_aside (auditLicense_keeps_record _ _)) fun _ _ _ _ =>
      backs_aside (panelEntitlements_keeps x)

theorem recheckLicense_backs (x : Proc) (actor : Option Actor) :
    BacksRecord (fun _ _ => True) (recheckLicense x actor) s := by
  refine upholds_ite (fun _ => upholds_throw trivial) fun _ => ?_
  refine upholds_bind (backs_aside (getInstanceLicense_keeps x)) fun r t _ _ => ?_
  obtain ⟨current, read⟩ := r
  refine upholds_ite (fun _ => upholds_throw trivial) fun _ => ?_
  refine upholds_bind isVendorInstall_backs fun vendor u _ hvendor => ?_
  subst hvendor
  refine upholds_bind (backs_aside (panelInstanceId_keeps x)) fun instanceId v _ _ => ?_
  refine upholds_bind (verifyRemote_backs fun t input _ _ v hv => ?_) fun v v' _ hv => ?_
  · cases houtcome : (t.vendor input).outcome current.code t.now with
    | ok value =>
        obtain rfl : v = .verified current.code t.now value.expiresAt := by
          simpa [houtcome, recheckEvent] using hv
        exact id
    | refused error => simp [houtcome, recheckEvent] at hv
    | unreachable error => simp [houtcome, recheckEvent] at hv
  · obtain ⟨outcome, now, since⟩ := v
    obtain ⟨hle, before, hsince⟩ := hv
    refine upholds_bind (persistRecord_backs fun t ht hok hbacked => ?_) fun _ _ _ _ =>
      backs_aside (panelEntitlements_keeps x)
    obtain ⟨rfl, hevents⟩ := hok
    exact hbacked.rechecked (hle.trans ht) (hevents.trans hsince)

theorem autoRecheckLicense_backs (x : Proc) :
    BacksRecord (fun _ _ => True) (autoRecheckLicense x) s := by
  refine upholds_bind isVendorInstall_backs fun vendor t _ hvendor => ?_
  subst hvendor
  refine upholds_bind (backs_aside (getInstanceLicense_keeps x)) fun r u _ _ => ?_
  obtain ⟨lic, now⟩ := r
  refine upholds_ite (fun _ => upholds_pure trivial) fun _ => ?_
  refine upholds_ite (fun _ => upholds_pure trivial) fun _ => ?_
  exact upholds_bind (recheckLicense_backs x none) fun _ _ _ _ => upholds_pure trivial

theorem dropLicense_backs (x : Proc) (actor : Actor) :
    BacksRecord (fun _ _ => True) (dropLicense x actor) s := by
  refine upholds_ite (fun _ => upholds_throw trivial) fun _ => ?_
  refine upholds_bind (backs_aside (getInstanceLicense_keeps x)) fun _ _ _ _ => ?_
  refine upholds_bind (persistRecord_backs fun t _ _ _ hne => absurd rfl hne) fun _ _ _ _ => ?_
  refine upholds_bind (backs_aside (auditLicense_keeps_record _ _)) fun _ _ _ _ => ?_
  exact upholds_bind (backs_aside (panelInstanceId_keeps x)) fun _ _ _ _ =>
    backs_aside (panelEntitlements_keeps x)

theorem LicenseCall.backs (c : LicenseCall) : BacksRecord (fun _ _ => True) c.prog s := by
  cases c with
  | activate x actor rawCode => exact upholds_void (activateLicense_backs x actor rawCode)
  | recheck x actor => exact upholds_void (recheckLicense_backs x (some actor))
  | autoRecheck x => exact upholds_void (autoRecheckLicense_backs x)
  | drop x actor => exact upholds_void (dropLicense_backs x actor)

end Calls

/-! ## The law -/

/-- Whoever passes the newer gate in process `x` has a verification of the stored code, made within
the grace days, that no rejection and no drop has followed, and is not past the expiry given there.
-/
def Install.PremiumVouched (s : Install) (x : Proc) : Prop :=
  ∀ f, s.premiumPasses x f → ∃ (time : Time) (expiresAt : DateText),
    Vouched s.events s.license.stored.code time expiresAt ∧ time ≤ s.now ∧
    (s.now : ℤ) - time ≤ LICENSE_GRACE_DAYS * DAY_MS ∧ expiresAt.past s.now = false

/-- A backed record vouches for those who pass the gate on the stored record. -/
theorem Install.Vouches.premium {s : Install} {x : Proc} (h : s.Vouches)
    (hx : s.record x = s.license.stored) : s.PremiumVouched x := by
  intro f hpass
  obtain ⟨⟨hactive, -⟩, hfresh⟩ := (premiumPasses_iff h.customer).mp hpass
  rw [hx] at hactive hfresh
  unfold panelStatus at hactive
  split at hactive
  · cases hactive
  · next hcode =>
      split at hactive
      · cases hactive
      · next hpast =>
          unfold InstanceLicense.fresh DateText.age at hfresh
          cases hcheck : s.license.stored.lastCheck with
          | empty => simp [hcheck] at hfresh
          | unreadable text => simp [hcheck] at hfresh
          | «at» t =>
              obtain ⟨time, rfl, hle, hv⟩ := h.backed hcode t hcheck
              have hage : (s.now : ℤ) - time ≤ LICENSE_GRACE_DAYS * DAY_MS :=
                by simpa [hcheck] using hfresh
              exact ⟨time, _, hv, hle, hage, by simpa using hpast⟩

/-- A customer's install, at a time when the vendor accepts every code. -/
def customerInstall : Install :=
  { Install.blank with vendor := fun _ => .response 200 ⟨none, "PRO", [], .empty, .empty, none⟩ }

/-- The owner activates a code, checks it again, and drops it. -/
def ownerCalls : Pool LicenseStmt Install AppError :=
  ⟨customerInstall, ([.activate .web ⟨1, .owner⟩ "ABCD-EFGH-JKLM", .recheck .web ⟨1, .owner⟩,
    .drop .web ⟨1, .owner⟩] : List LicenseCall).map LicenseCall.prog⟩

/-- The activation and the check, one after the other. -/
def checkedSchedule : List ℕ := List.replicate 10 0 ++ List.replicate 9 1

/-- The owner drops the licence while the check waits to write. -/
def droppedSchedule : List ℕ :=
  List.replicate 10 0 ++ List.replicate 5 1 ++ List.replicate 7 2 ++ List.replicate 4 1

end SRPanel
