import SRPanel.Model.Licences

/-!
# The two licence gates

`assertFeature` lets everything through while enforcement is off, which is the default, and never
asks when the licence was last verified. `requirePremium` knows no switch and wants a verification
within the grace window. The two agree where neither difference shows.
-/

namespace SRPanel

open Interleaving Prog

namespace Install

variable (s : Install) (x : Proc) (f : LicenseFeature)

/-- Enforcement is on for process `x`. -/
def enforced : Bool := s.env.licenseForced || (s.book x).enforced

/-- The licence that process `x` reads has not expired and covers the feature. -/
def licensed : Prop :=
  panelStatus s.now (s.record x) = .active ∧
    f ∈ licenseFeatures (s.record x).plan (s.record x).features

instance : Decidable (s.licensed x f) := inferInstanceAs (Decidable (_ ∧ _))

/-- The older gate lets the feature through. -/
def assertPasses : Prop := ((assertFeature x f).run s).1 = .ok ()

/-- The newer gate lets the feature through. -/
def premiumPasses : Prop := ((requirePremium x f).run s).1 = .ok ()

instance : Decidable (s.assertPasses x f) := inferInstanceAs (Decidable (_ = _))

instance : Decidable (s.premiumPasses x f) := inferInstanceAs (Decidable (_ = _))

/-- What the older gate lets through, the newer one lets through too. -/
def GatesAgree : Prop := s.assertPasses x f → s.premiumPasses x f

variable {s x f}

theorem mem_features (f : LicenseFeature) : f ∈ LICENSE_FEATURES := by
  cases f <;> decide

theorem enforcementOn_run (s : Install) (x : Proc) :
    ((enforcementOn x).run s).1 = .ok (s.enforced x) := by
  simp only [enforcementOn, run_bind, run_query]
  by_cases h : s.env.licenseForced
  · simp [h, enforced]
  · rw [if_neg h, run_bind, getLicensing, run_step]
    simp [enforced, h]

/-- Reading the licence record changes neither the time nor the switch. -/
theorem enforced_touch (s : Install) (x : Proc) (c : Cell Proc InstanceLicense) :
    ({ s with license := c } : Install).enforced x = s.enforced x := rfl

theorem assertPasses_iff : s.assertPasses x f ↔ s.enforced x = false ∨ s.licensed x f := by
  have hfeatures : ((entitledFeatures x).run s).1 =
      .ok (if s.enforced x = false then LICENSE_FEATURES
        else if panelStatus s.now (s.record x) = .active
          then licenseFeatures (s.record x).plan (s.record x).features else []) := by
    have henf := enforcementOn_run { s with license := s.license.touch x RECORD_TTL s.now } x
    rw [enforced_touch] at henf
    simp only [entitledFeatures, getInstanceLicense, run_bind, run_step]
    rcases hrun : (enforcementOn x).run { s with license := s.license.touch x RECORD_TTL s.now }
      with ⟨r, t⟩
    rw [hrun] at henf
    obtain rfl : r = .ok (s.enforced x) := henf
    cases h : s.enforced x
    · simp
    · simp
  unfold assertPasses assertFeature
  rw [run_bind]
  rcases hrun : (entitledFeatures x).run s with ⟨r, t⟩
  rw [hrun] at hfeatures
  obtain rfl := hfeatures
  unfold licensed
  cases henf : s.enforced x
  · simp [mem_features]
  · by_cases hactive : panelStatus s.now (s.record x) = .active
    · by_cases hf : f ∈ licenseFeatures (s.record x).plan (s.record x).features
      · simp [hactive, hf]
      · simp [hactive, hf]
    · simp [hactive]

/-- Looking up the id of the install changes neither the time nor the environment. -/
theorem panelInstanceId_run (s : Install) (x : Proc) :
    ∃ id t, (panelInstanceId x).run s = (.ok id, t) ∧ t.now = s.now ∧ t.env = s.env := by
  simp only [panelInstanceId, run_bind, run_step]
  by_cases h : s.instanceId.get x ID_TTL s.now = ""
  · simp only [h, ne_eq, not_true_eq_false, ↓reduceIte, run_step]
    exact ⟨_, _, rfl, rfl, rfl⟩
  · simp only [h, ne_eq, not_false_eq_true, ↓reduceIte, run_pure]
    exact ⟨_, _, rfl, rfl, rfl⟩

theorem premiumPasses_iff (h : s.env.isVendorInstall = false) :
    s.premiumPasses x f ↔ s.licensed x f ∧ (s.record x).fresh s.now = true := by
  obtain ⟨id, t, hrun, hnow, henv⟩ :=
    panelInstanceId_run { s with license := s.license.touch x RECORD_TTL s.now } x
  unfold premiumPasses requirePremium panelEntitlements
  simp only [getInstanceLicense, run_bind, run_step, hrun, run_query, henv, h, hnow]
  unfold licensed InstanceLicense.live
  by_cases hlive : panelStatus s.now (s.record x) = .active ∧ (s.record x).fresh s.now = true
  · by_cases hf : f ∈ licenseFeatures (s.record x).plan (s.record x).features
    · simp [hlive, hf]
    · simp [hlive, hf]
  · have hnot : ¬((panelStatus s.now (s.record x) = .active ∧
        f ∈ licenseFeatures (s.record x).plan (s.record x).features) ∧
        (s.record x).fresh s.now = true) :=
      fun hall => hlive ⟨hall.1.1, hall.2⟩
    simp [hlive, hnot]

/-- The gates agree about a feature exactly if the licence covers it whenever enforcement is off,
and a licence that covers it was verified within the grace window. -/
theorem gates_agree_iff (s : Install) (x : Proc) (f : LicenseFeature)
    (h : s.env.isVendorInstall = false) : s.GatesAgree x f ↔
      (s.enforced x = false → s.licensed x f) ∧
      (s.licensed x f → (s.record x).fresh s.now = true) := by
  unfold GatesAgree
  rw [assertPasses_iff, premiumPasses_iff h]
  constructor
  · intro hagree
    exact ⟨fun henf => (hagree (.inl henf)).1, fun hlic => (hagree (.inr hlic)).2⟩
  · rintro ⟨hoff, hfresh⟩ (henf | hlic)
    · exact ⟨hoff henf, hfresh (hoff henf)⟩
    · exact ⟨hlic, hfresh hlic⟩

/-- A customer's install without enforcement, whose full licence has just been verified. -/
def paidUp : Install :=
  { blank with license := .fresh ⟨"ABCDEFGHJKLM", .pro, [], .at 0, .empty, .at 0, .remote, ""⟩ }

/-- On such an install both gates let a feature through. -/
theorem gates_agree_paidUp :
    paidUp.env.isVendorInstall = false ∧ paidUp.premiumPasses .web .sharedPanel ∧
    paidUp.GatesAgree .web .sharedPanel :=
  ⟨by decide, by decide, (gates_agree_iff paidUp .web .sharedPanel (by decide)).mpr
    ⟨by decide, by decide⟩⟩

/-- On a new install without a licence the older gate lets a shared panel be sold, which the newer
one refuses. -/
theorem gates_disagree_unlicensed : ¬∀ (s : Install) (x : Proc) (f : LicenseFeature),
    s.env.isVendorInstall = false → s.GatesAgree x f := by
  intro h
  have hagree := h blank .web .sharedPanel (by decide)
  have hpass : blank.premiumPasses .web .sharedPanel := hagree (by decide)
  exact absurd hpass (by decide)

end Install

end SRPanel
