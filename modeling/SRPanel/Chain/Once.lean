import SRPanel.Chain.Transfers

/-!
# A transfer pays once

The column `txid` is unique as a text, while the explorers read it as a number, so two spellings of
one hash can be stored for two payments. The module proves that this, and calls that overtake each
other, are the only ways in which one transfer confirms two payments: in every run in which
`submitProof` never stores a second spelling of a stored hash, and no payment's hash changes after
or under its verification, a transfer confirms at most one payment.
-/

namespace SRPanel

open Interleaving

/-- The transaction that a payment has stored, without regard to the case of its letters. -/
def World.hashOf (w : World) (id : PaymentId) : Option String :=
  (w.payments.get? id).bind fun p => p.txid.map lower

/-- No transaction has confirmed two payments. -/
def World.PaysOnce (w : World) : Prop :=
  ∀ c ∈ w.history.confirmations, ∀ c' ∈ w.history.confirmations, ∀ h ∈ c.evidence.hash,
    c'.evidence.hash = some h → c.payment = c'.payment

instance (w : World) : Decidable w.PaysOnce :=
  inferInstanceAs (Decidable (∀ c ∈ w.history.confirmations, ∀ c' ∈ w.history.confirmations,
    ∀ h ∈ c.evidence.hash, c'.evidence.hash = some h → c.payment = c'.payment))

/-! ## The condition -/

/-- A write of a hash finds no transfer that has confirmed the payment, and no other payment with
another spelling of it; a confirmation by a transfer finds its hash still stored. -/
def OneSpelling (w : World) (id : PaymentId) : Column → Prop
  | .txid txid => (∀ c ∈ w.history.confirmations, c.payment = id → c.evidence.hash = none) ∧
      ∀ r ∈ w.payments.rows, r.1 ≠ id → ∀ t ∈ r.2.txid, lower t = lower txid → t = txid
  | .verdict e => ∀ h ∈ e.hash, w.hashOf id = some h
  | _ => True

/-- Every step of a run meets the condition. -/
def SpelledOnce : Stmt → World → Prop
  | .update columns rows, w => ∀ r ∈ rows, ∀ c ∈ columns, OneSpelling w r.1 c
  | _, _ => True

instance (w : World) (id : PaymentId) (c : Column) : Decidable (OneSpelling w id c) :=
  match c with
  | .txid txid => inferInstanceAs (Decidable (
      (∀ c ∈ w.history.confirmations, c.payment = id → c.evidence.hash = none) ∧
      ∀ r ∈ w.payments.rows, r.1 ≠ id → ∀ t ∈ r.2.txid, lower t = lower txid → t = txid))
  | .verdict e => inferInstanceAs (Decidable (∀ h ∈ e.hash, w.hashOf id = some h))
  | .status => isTrue trivial
  | .info => isTrue trivial
  | .quote => isTrue trivial

instance (l : Stmt) (w : World) : Decidable (SpelledOnce l w) :=
  match l with
  | .update columns rows =>
      inferInstanceAs (Decidable (∀ r ∈ rows, ∀ c ∈ columns, OneSpelling w r.1 c))
  | .other => isTrue trivial
  | .tag _ => isTrue trivial
  | .credit _ _ _ _ _ => isTrue trivial
  | .pay _ => isTrue trivial
  | .lookBack _ => isTrue trivial
  | .readPlugins _ => isTrue trivial
  | .savePlugins _ => isTrue trivial
  | .callback _ _ _ => isTrue trivial
  | .called _ _ => isTrue trivial
  | .receive _ _ _ => isTrue trivial
  | .look _ _ _ _ => isTrue trivial
  | .release _ _ _ => isTrue trivial
  | .saveBook _ _ => isTrue trivial

/-! ## The invariant -/

/-- A transaction is stored for at most one payment, and the transaction that confirmed a payment is
the one that it has stored. -/
structure HashesApart (w : World) : Prop where
  keys : w.Keyed
  apart : ∀ id id' h, w.hashOf id = some h → w.hashOf id' = some h → id = id'
  paid : ∀ c ∈ w.history.confirmations, ∀ h, c.evidence.hash = some h → w.hashOf c.payment = some h

theorem HashesApart.paysOnce {w : World} (hI : HashesApart w) : w.PaysOnce :=
  fun c hc c' hc' h hh hh' => hI.apart _ _ h (hI.paid c hc h hh) (hI.paid c' hc' h hh')

theorem hashOf_of_core {w w' : World} {id : PaymentId}
    (h : (w'.payments.get? id).map Payment.core = (w.payments.get? id).map Payment.core) :
    w'.hashOf id = w.hashOf id := by
  have hash : ∀ o : Option Payment, (o.bind fun p => p.txid.map lower) =
      (o.map Payment.core).bind fun p => p.txid.map lower := by
    intro o
    cases o <;> rfl
  rw [World.hashOf, World.hashOf, hash, h, ← hash]

private theorem HashesApart.same {w w' : World} (hI : HashesApart w) (hkeys : w'.Keyed)
    (hhash : ∀ id, w'.hashOf id = w.hashOf id)
    (hc : ∀ c ∈ w'.history.confirmations, ∀ h, c.evidence.hash = some h →
      c ∈ w.history.confirmations ∨ w.hashOf c.payment = some h) : HashesApart w' where
  keys := hkeys
  apart id id' h hid hid' := hI.apart id id' h (hhash id ▸ hid) (hhash id' ▸ hid')
  paid c hmem h hh := by
    rw [hhash]
    exact (hc c hmem h hh).elim (fun hold => hI.paid c hold h hh) fun hnew => hnew

private theorem hashOf_withRow {w : World} {id : PaymentId} {q q' : Payment}
    (hq : w.payments.get? id = some q) (h : q'.txid = q.txid) (i : PaymentId) :
    (w.withRow id q').hashOf i = w.hashOf i := by
  have hmap := w.payments.map_get?_modify Payment.txid hq h i
  have hash : ∀ o : Option Payment, (o.bind fun p => p.txid.map lower) =
      (o.map Payment.txid).bind fun t => t.map lower := by
    intro o
    cases o <;> rfl
  rw [World.hashOf, World.hashOf, hash, hash]
  exact congrArg (fun o => Option.bind o _) hmap

/-- A change of a row that keeps its hash, with at most one new confirmation. -/
private theorem HashesApart.withRow {w w' : World} {id : PaymentId} {q q' : Payment}
    (hI : HashesApart w) (hq : w.payments.get? id = some q) (h : q'.txid = q.txid)
    (hp : w'.payments = (w.withRow id q').payments) (hn : w'.nextId = w.nextId)
    (hc : ∀ c ∈ w'.history.confirmations, ∀ h, c.evidence.hash = some h →
      c ∈ w.history.confirmations ∨ w.hashOf c.payment = some h) : HashesApart w' := by
  refine hI.same (hI.keys.withRow hp hn) (fun i => ?_) hc
  rw [← hashOf_withRow hq h i, World.hashOf, World.hashOf, hp]

private theorem HashesApart.storeHash {w : World} {id : PaymentId} {q q' : Payment} {txid : String}
    (hI : HashesApart w) (hok : OneSpelling w id (.txid txid)) (hq : w.payments.get? id = some q)
    (hfree : Db.txidTaken w id txid = false) (hq' : q'.txid = some txid) :
    HashesApart (w.withRow id q') := by
  have hself : (w.withRow id q').hashOf id = some (lower txid) := by
    simp only [World.hashOf, World.withRow, Table.get?_modify_self, hq, Option.map_some, hq',
      Option.bind_some]
  have hother : ∀ i, i ≠ id → (w.withRow id q').hashOf i = w.hashOf i := fun i hi => by
    rw [World.hashOf, World.withRow, Table.get?_modify_of_ne _ _ hi, World.hashOf]
  -- no other payment has stored the hash, in this spelling or another
  have hnew : ∀ i, i ≠ id → w.hashOf i ≠ some (lower txid) := by
    intro i hi hhash
    obtain ⟨r, hr, t, ht, htl⟩ : ∃ r, w.payments.get? i = some r ∧
        ∃ t, r.txid = some t ∧ lower t = lower txid := by
      simpa [World.hashOf, Option.bind_eq_some_iff] using hhash
    have hmem := (w.payments.mem_rows_iff i r).mpr hr
    obtain rfl : t = txid := hok.2 (i, r) hmem hi t ht htl
    have htaken : Db.txidTaken w id t = true :=
      List.any_eq_true.mpr ⟨(i, r), hmem, by simp [hi, ht]⟩
    rw [hfree] at htaken
    cases htaken
  refine ⟨hI.keys.withRow rfl rfl, fun i i' h hh hh' => ?_, fun c hc h hh => ?_⟩
  · by_cases hi : i = id
    · subst hi
      by_contra hne
      rw [hself] at hh
      rw [hother i' fun h => hne h.symm, ← hh] at hh'
      exact hnew i' (fun h => hne h.symm) hh'
    · rw [hother i hi] at hh
      by_cases hi' : i' = id
      · subst hi'
        rw [hself] at hh'
        exact absurd (hh.trans hh'.symm) (hnew i hi)
      · rw [hother i' hi'] at hh'
        exact hI.apart i i' h hh hh'
  · have hne : c.payment ≠ id := fun heq => by simp [hok.1 c hc heq] at hh
    rw [hother _ hne]
    exact hI.paid c hc h hh

private theorem hashesApart_accepts : AcceptsAll SpelledOnce HashesApart where
  upkeep hu hI := by
    refine hI.same (hI.keys.upkeep hu) (fun id => hashOf_of_core (hu.payments id)) ?_
    rw [hu.confirmations]
    exact fun c hc _ _ => .inl hc
  fresh hI := hI.keys.fresh
  hash hI hok _ _ hq _ hfree _ hcore :=
    hI.storeHash (hok _ List.mem_cons_self _ (by simp)) hq hfree (Payment.txid_of_core hcore)
  note hI _ _ hq _ hcore :=
    hI.withRow hq ((Payment.txid_of_core hcore).trans rfl) rfl rfl fun _ hc _ _ => .inl hc
  review hI _ _ _ hq hcore := by
    refine hI.withRow hq (Payment.txid_of_core hcore) rfl rfl fun c hc h hh => ?_
    rcases List.mem_cons.mp hc with rfl | hc
    · cases hh
    · exact .inl hc
  transfer hI hok _ _ hq hcore := by
    refine hI.withRow hq (Payment.txid_of_core hcore) rfl rfl fun c hc h hh => ?_
    rcases List.mem_cons.mp hc with rfl | hc
    · have hstored := hok _ List.mem_cons_self _ (List.mem_cons_of_mem _ List.mem_cons_self)
      exact .inr (hstored h hh)
    · exact .inl hc
  start {w input expiresAt q} hI := by
    have hhash : ∀ i, (w.withNew (newPayment input expiresAt q)).hashOf i = w.hashOf i := by
      intro i
      rw [World.hashOf, World.withNew, Table.get?_set, World.hashOf]
      split
      · next hi =>
          cases hp : w.payments.get? i with
          | none => rfl
          | some p => exact absurd (hI.keys i p hp) (by rw [hi]; exact lt_irrefl _)
      · rfl
    refine ⟨hI.keys.withNew _, fun i i' h hh hh' => ?_, fun c hc h hh => ?_⟩
    · exact hI.apart i i' h (hhash i ▸ hh) (hhash i' ▸ hh')
    · rw [hhash]
      exact hI.paid c hc h hh
  authority hI hq _ := hI.withRow hq (by rfl) rfl rfl fun _ hc _ _ => .inl hc
  quote hI _ _ _ hq hcore :=
    hI.withRow hq ((Payment.txid_of_core hcore).trans rfl) rfl rfl fun _ hc _ _ => .inl hc

/-! ## Runs -/

/-- The hash of the transfer in lower case. -/
def someHash : String := "abababababababababababababababababababababababababababababababab"

/-- An open USDT top-up of the reseller over one dollar. -/
def usdtTopup : Payment :=
  { newPayment ⟨.topup, .usdt, 50000, 2, none, none⟩ 3600000 none with
    amountUsdt := some ⟨100, 2⟩ }

/-- The owner's shop. -/
def usdtShop : StoreSettings :=
  { StoreSettings.blank 1 with
    usdtEnabled := true
    usdtAddress := some "T9owner"
    usdtRate := 50000 }

/-- The answer of Tronscan about a transfer of one dollar to the owner at the given time. -/
def someTransfer (timestamp : Time) : TronscanAnswer :=
  .info (some [⟨USDT_TRC20, "T9owner", "T9payer", 6, 1000000⟩]) true (some "SUCCESS") timestamp

/-- The panel with both top-ups, when the transfer is on the chain. -/
def usdtWorld : World :=
  { World.blank with
    now := 1000
    admins := .ofRows [(1, ⟨.owner, 0, 0⟩), (2, ⟨.admin, 0, 0⟩)]
    shops := .ofRows [(1, usdtShop)]
    payments := .ofRows [(7, usdtTopup), (8, usdtTopup)]
    outside := { Outside.silent with
      tronscan h := if lower h = someHash then someTransfer 900 else .unusable } }

/-- The submission of a hash for a payment. -/
def submitsHash (id : PaymentId) (txid : String) : PaymentCall :=
  .submit id ⟨some txid, none, none, none⟩

/-- A panel whose payments have not stored any hash. -/
theorem HashesApart.of_rows {w : World} (hkeys : ∀ r ∈ w.payments.rows, r.1 < w.nextId)
    (htxid : ∀ r ∈ w.payments.rows, r.2.txid = none) (hc : w.history.confirmations = []) :
    HashesApart w := by
  have hhash : ∀ id, w.hashOf id = none := by
    intro id
    cases hp : w.payments.get? id with
    | none => simp [World.hashOf, hp]
    | some p =>
        have ht : p.txid = none := htxid _ ((w.payments.mem_rows_iff id p).mpr hp)
        simp [World.hashOf, hp, ht]
  refine ⟨fun id p hp => hkeys _ ((w.payments.mem_rows_iff id p).mpr hp), fun id _ h hh _ => ?_, ?_⟩
  · rw [hhash] at hh
    cases hh
  · simp [hc]

theorem usdtWorld_apart : HashesApart usdtWorld :=
  .of_rows (by decide) (by decide) rfl

/-- Calls that submit hashes for the top-ups, on that panel. -/
def submissions (hashes : List (PaymentId × String)) : Pool Stmt World AppError :=
  ⟨usdtWorld, (hashes.map fun h => submitsHash h.1 h.2).map PaymentCall.prog⟩

end SRPanel
