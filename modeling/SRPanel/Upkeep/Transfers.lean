import SRPanel.Calls.Steps

/-!
# The worker that looks for transfers

`verifyPendingUsdt` takes the twenty payments that have waited longest and asks the explorers about
them, one after the other. A payment that it skips is not written, so it keeps its place; a payment
whose settings cannot be read ends the tick. So the tick confirms a payment exactly if the first of
the twenty that stops the loop is one whose transfer is on chain.
-/

namespace SRPanel

open Interleaving Prog

/-! ## What the loop body looks up -/

/-- The part of `verifyOne` that reads: the address and what the explorers say, or nothing if the
payment is skipped. -/
def lookUpTransfer (p : Payment) : Service (Option (String × TronVerifyResult)) :=
  let info := p.info.getD .empty
  let q := cryptoMetaOf p
  if info.verify = some .mismatch || 40 ≤ info.tries.getD 0 then pure none
  else if !isTrc20Usdt q then pure none
  else do
    let s ← settingsForPayment p
    match s, payAddress q s with
    | some s, some address =>
        if s.usdtAutoVerify && address != "" then do
          let r ← verifyTrc20Payment (p.txid.getD "") address (payAmount p s)
          pure (some (address, r))
        else pure none
    | _, _ => pure none

/-- The part of `verifyOne` that writes. -/
def settleTransfer (id : PaymentId) (p : Payment) : Option (String × TronVerifyResult) →
    Service Bool
  | none => pure false
  | some (address, r) =>
      if r.ok then do
        let _ ← confirmPayment (transferEvidence (p.txid.getD "") address r) id (.auto none none)
        pure true
      else do
        let info := p.info.getD .empty
        let _ ← Db.updatePayment (.update [.info] [(id, p)]) id (fun row =>
          { row with
            error := r.error
            info := some { info with
              verify := some r.status
              tries := some (info.tries.getD 0 + 1)
              amountSeen := r.amount } }) fun _ h => h
        pure false

theorem verifyOne_eq (id : PaymentId) (p : Payment) :
    verifyOne id p = lookUpTransfer p >>= settleTransfer id p := by
  unfold verifyOne lookUpTransfer
  dsimp only
  split
  · rfl
  · split
    · rfl
    · rw [bind_assoc]
      refine bind_congr fun s => ?_
      cases s with
      | none => rfl
      | some s =>
        generalize payAddress (cryptoMetaOf p) (some s) = address
        cases address with
        | none => rfl
        | some address =>
          dsimp only
          split
          · rw [bind_assoc]
            rfl
          · rfl

/-- The worlds agree on what the look-up reads. -/
structure SameSources (w w' : World) : Prop where
  admins : w'.admins = w.admins
  shops : w'.shops = w.shops
  outside : w'.outside = w.outside

theorem SameSources.refl (w : World) : SameSources w w := ⟨rfl, rfl, rfl⟩

theorem storeSettings_reads (a : AdminId) : (storeSettingsByAdminId a).Reads SameSources :=
  reads_query fun _ _ h => by rw [h.shops]

theorem settingsForPayment_reads (p : Payment) : (settingsForPayment p).Reads SameSources := by
  refine reads_ite (storeSettings_reads _) (reads_bind (reads_bind ?_ fun o => ?_) fun _ =>
    storeSettings_reads _)
  · exact reads_query fun _ _ h => by rw [h.admins]
  · cases o with
    | none => exact reads_throw _
    | some o => exact reads_pure o

theorem verifyTrc20Payment_reads (txid address : String) (minAmount : ℚ) :
    (verifyTrc20Payment txid address minAmount).Reads SameSources := by
  unfold verifyTrc20Payment
  dsimp only
  refine reads_ite (reads_pure _) (reads_bind (reads_query fun _ _ h => by rw [h.outside])
    fun r => ?_)
  cases r with
  | some r => exact reads_pure r
  | none => exact reads_query fun _ _ h => by rw [h.outside]

theorem lookUpTransfer_reads (p : Payment) : (lookUpTransfer p).Reads SameSources := by
  unfold lookUpTransfer
  dsimp only
  refine reads_ite (reads_pure _) (reads_ite (reads_pure _)
    (reads_bind (settingsForPayment_reads p) fun s => ?_))
  split
  · exact reads_ite (reads_bind (verifyTrc20Payment_reads _ _ _)
      fun _ => reads_pure _) (reads_pure _)
  · exact reads_pure _

namespace World

variable {w w' : World} {id : PaymentId} {p : Payment}

/-- What the look-up for a payment comes to. -/
def verdict (w : World) (p : Payment) : Except AppError (Option (String × TronVerifyResult)) :=
  ((lookUpTransfer p).run w).1

/-- The transfer is on chain. -/
def onChain : Except AppError (Option (String × TronVerifyResult)) → Bool
  | .ok (some (_, r)) => r.ok
  | _ => false

/-- The loop does not go on as if there had been no such payment: it confirms it, or throws. -/
def stopsLoop : Except AppError (Option (String × TronVerifyResult)) → Bool
  | .ok (some (_, r)) => r.ok
  | .ok none => false
  | .error _ => true

/-- The payments that the query selects, the one that has waited longest first. -/
def usdtRows (w : World) : List (PaymentId × Payment) :=
  (w.payments.rows.filter fun r => r.2.status = .review && r.2.method = .usdt && r.2.txid.isSome &&
    w.now - 3 * 86400000 ≤ r.2.updatedAt).insertionSort fun a b =>
      decide (a.2.updatedAt ≤ b.2.updatedAt)

/-- The payments that a tick looks at. -/
def usdtBatch (w : World) : List (PaymentId × Payment) := w.usdtRows.take 20

/-- A payment of the query whose transfer is on chain. -/
def TransferDue (w : World) (r : PaymentId × Payment) : Prop :=
  r ∈ w.usdtRows ∧ onChain (w.verdict r.2)

/-- The confirmations of the later world are those of the earlier one and more. -/
def Records (w w' : World) : Prop :=
  ∃ new, w'.history.confirmations = new ++ w.history.confirmations

/-- A confirmation of the payment has been recorded between the two worlds. -/
def Confirms (w w' : World) (id : PaymentId) : Prop :=
  ∃ new, w'.history.confirmations = new ++ w.history.confirmations ∧ ∃ c ∈ new, c.payment = id

theorem Records.refl (w : World) : Records w w := ⟨[], rfl⟩

theorem Records.trans (w₁ w₂ w₃ : World) (h : Records w₁ w₂) (h' : Records w₂ w₃) :
    Records w₁ w₃ := by
  obtain ⟨new, hnew⟩ := h
  obtain ⟨new', hnew'⟩ := h'
  exact ⟨new' ++ new, by rw [hnew', hnew, List.append_assoc]⟩

theorem Records.of_aside (h : Aside w w') : Records w w' := ⟨[], by rw [h.history]; rfl⟩

/-- Where nothing is recorded, nothing is confirmed. -/
theorem not_confirms_of_eq (h : w'.history.confirmations = w.history.confirmations) :
    ¬Confirms w w' id := by
  rintro ⟨new, hnew, c, hc, -⟩
  rw [h, List.self_eq_append_left] at hnew
  rw [hnew] at hc
  cases hc

/-! ## One payment -/

theorem confirmPayment_records (e : Evidence) (id : PaymentId) (opts : ConfirmOpts) :
    (confirmPayment e id opts).Keeps Records := by
  refine keeps_bind ((findPayment_keeps id).mono fun _ _ => .of_aside) fun p => ?_
  cases p with
  | none => exact keeps_throw _
  | some p =>
    refine keeps_ite (keeps_throw _) (keeps_ite (keeps_pure _) ?_)
    refine keeps_ite (keeps_throw _) ?_
    have hrow : (confirmRow e id p opts).Keeps Records := by
      refine keeps_step fun w => ?_
      cases w.payments.get? id with
      | none => exact .refl w
      | some q => exact ⟨[⟨id, q, e⟩], rfl⟩
    refine keeps_bind hrow fun updated => keeps_bind ((audit_keeps _ _).mono fun _ _ => .of_aside)
      fun _ => ?_
    refine keeps_bind ?_ fun _ => keeps_pure _
    exact (applyConfirmation_settles id p opts).mono fun _ _ h => ⟨[], h.upkeep.confirmations⟩

theorem verifyOne_records (id : PaymentId) (p : Payment) : (verifyOne id p).Keeps Records := by
  rw [verifyOne_eq]
  refine keeps_bind ((lookUpTransfer_reads p).keeps Records.refl) fun found => ?_
  unfold settleTransfer
  split
  · exact keeps_pure _
  · refine keeps_ite (keeps_bind (confirmPayment_records _ _ _) fun _ => keeps_pure _) ?_
    refine keeps_bind (keeps_step fun w => ?_) fun _ => keeps_pure _
    cases w.payments.get? id with
    | none => exact .refl w
    | some q => exact ⟨[], rfl⟩

theorem verifyAll_records (items : List (PaymentId × Payment)) :
    (verifyAll items).Keeps Records := by
  induction items with
  | nil => exact keeps_pure _
  | cons item items ih => exact keeps_bind (verifyOne_records _ _) fun _ => keeps_bind ih fun _ => keeps_pure _

/-- Nothing has changed but the row of one payment. -/
structure Tried (id : PaymentId) (w w' : World) : Prop where
  sources : SameSources w w'
  others : ∀ id', id' ≠ id → w'.payments.get? id' = w.payments.get? id'
  confirmations : w'.history.confirmations = w.history.confirmations

/-- The payment is the last that has been confirmed. -/
def JustConfirmed (id : PaymentId) (w w' : World) : Prop :=
  ∃ c, c.payment = id ∧ w'.history.confirmations = c :: w.history.confirmations

/-- A payment whose transfer is on chain is confirmed, whatever becomes of the rest of the call. -/
theorem verifyOne_onChain (hp : w.payments.get? id = some p) (hopen : p.status = .review)
    (h : onChain (w.verdict p)) :
    Prog.wp (verifyOne id p) (fun _ => JustConfirmed id w) (fun _ => JustConfirmed id w) w := by
  rw [verifyOne_eq, wp_bind, (lookUpTransfer_reads p).wp_iff]
  unfold verdict at h
  split
  · next found hfound =>
    rw [hfound] at h
    cases found with
    | none => cases h
    | some found =>
      have hok : found.2.ok = true := h
      rw [settleTransfer, if_pos hok, wp_bind]
      refine wp_confirmPayment_auto hp (fun hidle => ?_) fun _ _ q t _ _ hsettled =>
        ⟨_, rfl, hsettled.upkeep.confirmations⟩
      rw [hopen] at hidle
      rcases hidle with hidle | hidle <;> cases hidle
  · next e he =>
    rw [he] at h
    cases h

/-- Any other payment is left as it is, or its row is marked, unless the look-up throws. -/
theorem verifyOne_idle (hp : w.payments.get? id = some p) (h : onChain (w.verdict p) = false) :
    Prog.wp (verifyOne id p) (fun _ w' => stopsLoop (w.verdict p) = false ∧ Tried id w w')
      (fun _ w' => stopsLoop (w.verdict p) = true ∧ w' = w) w := by
  rw [verifyOne_eq, wp_bind, (lookUpTransfer_reads p).wp_iff]
  unfold verdict at h ⊢
  split
  · next found hfound =>
    rw [hfound] at h ⊢
    cases found with
    | none => exact ⟨rfl, .refl w, fun _ _ => rfl, rfl⟩
    | some found =>
      have hok : ¬found.2.ok = true := by
        rw [Bool.not_eq_true]
        exact h
      rw [settleTransfer, if_neg hok, wp_bind]
      refine wp_updatePayment hp ⟨h, ⟨rfl, rfl, rfl⟩, fun id' hne => ?_, rfl⟩
      exact Table.get?_modify_of_ne _ _ hne
  · next e he =>
    rw [he]
    exact ⟨rfl, rfl⟩

/-! ## The loop -/

theorem verdict_of_sameSources (h : SameSources w w') (p : Payment) : w'.verdict p = w.verdict p :=
  (lookUpTransfer_reads p).run_fst h

/-- What a loop over payments has done: the first payment that stops it has been confirmed, if its
transfer is on chain, and otherwise none has. -/
def LoopDone (items : List (PaymentId × Payment)) (w w' : World) : Prop :=
  match items.find? fun r => stopsLoop (w.verdict r.2) with
  | some r => if onChain (w.verdict r.2) then Confirms w w' r.1 else w'.history.confirmations =
    w.history.confirmations
  | none => w'.history.confirmations = w.history.confirmations

theorem stopsLoop_of_onChain
    {v : Except AppError (Option (String × TronVerifyResult))} (h : onChain v) : stopsLoop v := by
  cases v with
  | error e => rfl
  | ok found =>
    cases found with
    | none => cases h
    | some found => exact h

theorem verifyAll_done (items : List (PaymentId × Payment)) (hnodup : (items.map Prod.fst).Nodup)
    (hitems : ∀ r ∈ items, w.payments.get? r.1 = some r.2 ∧ r.2.status = .review) :
    Prog.wp (verifyAll items) (fun _ => LoopDone items w) (fun _ => LoopDone items w) w := by
  -- on the rows: the first whose verdict stops the loop decides
  induction items generalizing w with
  | nil => exact rfl
  | cons item items ih =>
    obtain ⟨hitem, hnodup⟩ := List.nodup_cons.mp hnodup
    obtain ⟨hp, hopen⟩ := hitems item List.mem_cons_self
    rw [verifyAll, wp_bind]
    by_cases hchain : onChain (w.verdict item.2) = true
    -- the rest of the loop only adds confirmations
    · have hstops := stopsLoop_of_onChain hchain
      have hdone : ∀ w' w'', JustConfirmed item.1 w w' → Records w' w'' →
          LoopDone (item :: items) w w'' := by
        rintro w' w'' ⟨c, hc, hconf⟩ ⟨new, hnew⟩
        rw [LoopDone, List.find?_cons_of_pos (p := fun r : PaymentId × Payment =>
          stopsLoop (w.verdict r.2)) hstops]
        dsimp only
        rw [if_pos hchain]
        exact ⟨new ++ [c], by rw [hnew, hconf, List.append_assoc]; rfl, c, by simp, hc⟩
      refine wp_mono _ (verifyOne_onChain hp hopen hchain) (fun _ w' h => ?_)
        fun _ w' h => hdone w' w' h (.refl w')
      rw [wp_bind]
      exact wp_mono _ ((verifyAll_records items).wp Records.refl Records.trans w')
        (fun _ w'' h' => hdone w' w'' h h') fun _ w'' h' => hdone w' w'' h h'
    · have hchain : onChain (w.verdict item.2) = false := by simpa using hchain
      refine wp_mono _ (verifyOne_idle hp hchain) (fun _ w' h => ?_) fun _ w' h => ?_
      · obtain ⟨hgoes, htried⟩ := h
        have hrest : ∀ w'', LoopDone items w' w'' → LoopDone (item :: items) w w'' := by
          intro w'' h''
          unfold LoopDone Confirms at h'' ⊢
          rw [List.find?_cons_of_neg (by simp [hgoes])]
          simpa only [verdict_of_sameSources htried.sources, htried.confirmations] using h''
        rw [wp_bind]
        refine wp_mono _ (ih hnodup fun r hr => ?_) (fun _ w'' h'' => hrest w'' h'')
          fun _ w'' h'' => hrest w'' h''
        have hne : r.1 ≠ item.1 := fun heq => hitem (heq ▸ List.mem_map_of_mem hr)
        rw [htried.others r.1 hne]
        exact hitems r (List.mem_cons_of_mem _ hr)
      · obtain ⟨hstops, heq⟩ := h
        rw [heq, LoopDone, List.find?_cons_of_pos (p := fun r : PaymentId × Payment =>
          stopsLoop (w.verdict r.2)) hstops]
        dsimp only
        rw [hchain, if_neg Bool.false_ne_true]

/-- The tick has gone through its batch. -/
theorem verifyPendingUsdt_done (w : World) :
    LoopDone w.usdtBatch w (verifyPendingUsdt.run w).2 := by
  have hrows : ∀ r ∈ w.usdtBatch, w.payments.get? r.1 = some r.2 ∧ r.2.status = .review := by
    intro r hr
    have hmem := (List.mem_insertionSort _).mp (List.mem_of_mem_take hr)
    rw [List.mem_filter] at hmem
    refine ⟨(w.payments.mem_rows_iff r.1 r.2).mp hmem.1, ?_⟩
    simp only [Bool.and_eq_true, decide_eq_true_eq] at hmem
    exact hmem.2.1.1.1
  have hnodup : (w.usdtBatch.map Prod.fst).Nodup := by
    refine List.Nodup.sublist ((List.take_sublist _ _).map Prod.fst) ?_
    refine ((List.perm_insertionSort _ _).map Prod.fst).nodup_iff.mpr ?_
    exact w.payments.nodup_keys.sublist (List.filter_sublist.map Prod.fst)
  refine (wp_store_iff (P := LoopDone w.usdtBatch w) _).mp ?_
  simp only [verifyPendingUsdt, clock, Db.findPayments, Db.read, wp_bind, wp_query]
  exact verifyAll_done _ hnodup hrows

/-- The first payment of the batch that stops the loop, if its transfer is on chain. -/
def nextTransfer (w : World) : Option (PaymentId × Payment) :=
  (w.usdtBatch.find? fun r => stopsLoop (w.verdict r.2)).filter fun r => onChain (w.verdict r.2)

/-- A tick confirms a payment whose transfer is on chain exactly if one is the first to stop the
loop. -/
theorem verifyPendingUsdt_handles (w : World) :
    (∃ r, w.TransferDue r ∧ Confirms w (verifyPendingUsdt.run w).2 r.1) ↔
    w.nextTransfer.isSome := by
  have hdone := verifyPendingUsdt_done w
  unfold LoopDone at hdone
  unfold nextTransfer
  cases hfind : w.usdtBatch.find? fun r => stopsLoop (w.verdict r.2) with
  | none =>
    rw [hfind] at hdone
    refine iff_of_false ?_ (by simp)
    rintro ⟨r, -, hconfirms⟩
    exact not_confirms_of_eq hdone hconfirms
  | some r =>
    rw [hfind] at hdone
    dsimp only at hdone
    by_cases hchain : onChain (w.verdict r.2) = true
    · rw [if_pos hchain] at hdone
      refine iff_of_true ⟨r, ⟨List.mem_of_mem_take (List.mem_of_find?_eq_some hfind), hchain⟩,
        hdone⟩ ?_
      rw [Option.filter_some, if_pos hchain]
      rfl
    · rw [if_neg hchain] at hdone
      refine iff_of_false ?_ (by simp [hchain])
      rintro ⟨r', -, hconfirms⟩
      exact not_confirms_of_eq hdone hconfirms

end World

end SRPanel
