import SRPanel.Clients.Deals
import Mathlib.Algebra.Order.Round

/-!
# Gigabytes that are added

The action `addGb` reads a limit as a number of gigabytes with two digits after the point, adds to
it and writes it back. So it is exact for the limits that such a number stands for, and any other
limit becomes the nearest of them.
-/

namespace SRPanel

open Interleaving Prog

/-! ## Bytes and gigabytes -/

theorem mathRound_eq_round (x : ℚ) : mathRound x = round x := (round_eq x).symm

theorem gbToBytes_add (gb : ℚ) (n : ℤ) : gbToBytes (gb + n) = gbToBytes gb + n * GB := by
  unfold gbToBytes
  have hsplit : (gb + n) * (GB : ℚ) = gb * GB + ((n * GB : ℤ) : ℚ) := by
    push_cast
    ring
  rw [hsplit, mathRound_eq_round, mathRound_eq_round, round_add_intCast]

theorem bytesToGb_add (b n : ℤ) : bytesToGb (b + n * GB) = bytesToGb b + n := by
  unfold bytesToGb
  have hsplit : ((b + n * GB : ℤ) : ℚ) / GB * 100 = b / GB * 100 + ((n * 100 : ℤ) : ℚ) := by
    have hGB : (GB : ℚ) ≠ 0 := by norm_num [GB]
    push_cast
    field_simp
  rw [hsplit, mathRound_eq_round, mathRound_eq_round, round_add_intCast]
  push_cast
  ring

/-- The number of bytes of a whole number of hundredths of a GB. -/
def WholeHundredths (bytes : ℤ) : Prop := ∃ n : ℤ, bytes = gbToBytes (n / 100)

/-- A whole number of hundredths comes back: a byte is much less than a hundredth. -/
theorem bytesToGb_gbToBytes (n : ℤ) : bytesToGb (gbToBytes (n / 100)) = n / 100 := by
  have hclose := abs_sub_round ((n : ℚ) / 100 * GB)
  rw [abs_le] at hclose
  have hround : mathRound ((gbToBytes (n / 100) : ℚ) / GB * 100) = n := by
    rw [mathRound_eq_round, round_eq_iff, gbToBytes, mathRound_eq_round]
    have hGB : (GB : ℚ) = 1073741824 := by norm_num [GB]
    rw [hGB] at hclose ⊢
    constructor
    · linarith only [hclose.2]
    · linarith only [hclose.1]
  rw [bytesToGb, hround]

theorem gbToBytes_bytesToGb_iff (bytes : ℤ) : gbToBytes (bytesToGb bytes) = bytes ↔
    WholeHundredths bytes := by
  constructor
  · exact fun h => ⟨mathRound (bytes / GB * 100), h.symm⟩
  · rintro ⟨n, rfl⟩
    rw [bytesToGb_gbToBytes]

/-- The limit that adding some GB makes of a limit. -/
def addedGb (bytes gb : ℤ) : ℤ := gbToBytes (max 1 (bytesToGb bytes + gb))

/-- From one GB up, the rounding is the same whatever is added. -/
theorem addedGb_eq {bytes gb : ℤ} (h : GB ≤ bytes + gb * GB) :
    addedGb bytes gb = gbToBytes (bytesToGb bytes) + gb * GB := by
  have hone : 1 ≤ bytesToGb bytes + gb := by
    have hGB : (0 : ℚ) < GB := by norm_num [GB]
    have hle : (((1 - gb) * 100 : ℤ) : ℚ) ≤ bytes / GB * 100 := by
      have hbytes : ((1 - gb : ℤ) : ℚ) * GB ≤ bytes := by
        have : (1 - gb) * GB ≤ bytes := by linarith
        exact_mod_cast this
      rw [← le_div_iff₀ hGB] at hbytes
      push_cast at hbytes ⊢
      linarith
    have hround : (((1 - gb) * 100 : ℤ) : ℚ) ≤ mathRound ((bytes : ℚ) / GB * 100) :=
      Int.cast_le.mpr (le_mathRound hle)
    unfold bytesToGb
    push_cast at hround
    linarith
  rw [addedGb, max_eq_right hone, gbToBytes_add]

theorem addedGb_exact_iff {bytes gb : ℤ} (h : GB ≤ bytes + gb * GB) :
    addedGb bytes gb = bytes + gb * GB ↔ WholeHundredths bytes := by
  rw [addedGb_eq h, ← gbToBytes_bytesToGb_iff]
  exact add_left_inj _

/-- Taking off again what was added rounds nothing a second time. -/
theorem addedGb_back_iff {bytes gb : ℤ} (h : GB ≤ bytes + gb * GB)
    (hback : GB ≤ addedGb bytes gb + -gb * GB) : addedGb (addedGb bytes gb) (-gb) = bytes ↔
    WholeHundredths bytes := by
  have hhundredths : bytesToGb (gbToBytes (bytesToGb bytes)) = bytesToGb bytes :=
    bytesToGb_gbToBytes _
  rw [addedGb_eq hback, addedGb_eq h, bytesToGb_add, gbToBytes_add, hhundredths,
    ← gbToBytes_bytesToGb_iff]
  have hcancel : gbToBytes (bytesToGb bytes) + gb * GB + -gb * GB = gbToBytes (bytesToGb bytes) :=
    by ring
  rw [hcancel]

namespace Site

/-! ## The action -/

/-- The limit of a client, in bytes. -/
def clientLimit (s : Site) (id : ClientId) : Option ℤ := (s.clients.get? id).map Client.trafficLimit

/-- At most, the limits of these clients have grown, each once. -/
structure Grown (gb : ℤ) (ids : List ClientId) (s s' : Site) : Prop where
  apart : ∀ id ∉ ids, s'.clientLimit id = s.clientLimit id
  once : ∀ id, s'.clientLimit id = s.clientLimit id ∨
    s'.clientLimit id = (s.clientLimit id).map fun bytes => addedGb bytes gb
  admins : ∀ id, (s.base.admins.get? id).isSome → (s'.base.admins.get? id).isSome

variable {gb : ℤ} {ids : List ClientId} {s s' s'' : Site}

theorem Grown.of_same (hlimit : ∀ id, s'.clientLimit id = s.clientLimit id)
    (hadmins : s'.base.admins = s.base.admins) : Grown gb ids s s' :=
  ⟨fun k _ => hlimit k, fun k => .inl (hlimit k), fun _ h => hadmins ▸ h⟩

theorem clientLimit_synced (h : Synced s s') (id : ClientId) :
    s'.clientLimit id = s.clientLimit id := by
  have hclient := congrArg (Option.map Client.trafficLimit) (h.client id)
  rw [Option.map_map, Option.map_map] at hclient
  exact hclient

theorem Grown.of_synced (h : Synced s s') : Grown gb ids s s' :=
  .of_same (clientLimit_synced h) (h.same (fun s => s.base.admins) fun _ => rfl)

/-- One client and then others. -/
theorem Grown.cons {id : ClientId} (hid : id ∉ ids) (h : Grown gb [id] s s')
    (h' : Grown gb ids s' s'') : Grown gb (id :: ids) s s'' := by
  constructor
  · intro k hk
    obtain ⟨hne, hk⟩ := not_or.mp (mt List.mem_cons.mpr hk)
    rw [h'.apart k hk, h.apart k (by simpa using hne)]
  · intro k
    by_cases hk : k = id
    · rw [hk, h'.apart id hid]
      exact h.once id
    · have hsame := h.apart k (by simpa using hk)
      rw [← hsame]
      exact h'.once k
  · exact fun k hk => h'.admins k (h.admins k hk)

/-- An update of the limit writes it, or nothing. -/
theorem updateClient_grown (actor : Operator) (id : ClientId) {bytes : ℤ}
    (hlimit : s.clientLimit id = some bytes) (hrow : (s.base.admins.get? actor.id).isSome) :
    Prog.wp (updateClient actor id
        { UpdateClientInput.none with trafficGB := some (max 1 (bytesToGb bytes + gb)) } none)
      (fun _ s' => Grown gb [id] s s' ∧ s'.clientLimit id = some (addedGb bytes gb))
        (fun _ s' => Grown gb [id] s s')
      s := by
  refine wp_mono _ (updateClient_spec actor id _ none s hrow) (fun _ s' h => ?_) fun _ s' h => ?_
  · obtain ⟨x, hverdict, hpushed, -⟩ := h
    have hok := updateVerdict_accepted hverdict
    obtain ⟨hid, hget, -⟩ := clientOf_id hok.found
    have hnew := (updateLimit_some hok.limit).1
    rw [max_eq_right (le_trans zero_le_one (le_max_left 1 _))] at hnew
    have hwritten : s'.clientLimit id = some (addedGb bytes gb) := by
      rw [clientLimit_synced hpushed.synced, clientLimit, updated, hid,
        Table.get?_modify_self, hget]
      show some (x.data.trafficLimit.getD _) = _
      rw [hnew]
      rfl
    refine ⟨⟨?_, ?_, ?_⟩, hwritten⟩
    all_goals
      intro k
    · intro hk
      rw [clientLimit_synced hpushed.synced, clientLimit, updated, hid,
        Table.get?_modify_of_ne _ _ fun h => hk (List.mem_singleton.mpr h)]
      rfl
    · by_cases hk : k = id
      · right
        rw [hk, hwritten, hlimit]
        rfl
      · left
        rw [clientLimit_synced hpushed.synced, clientLimit, updated, hid,
          Table.get?_modify_of_ne _ _ hk]
        rfl
    · intro hadmin
      rw [hpushed.same (fun s => s.base.admins) fun _ => rfl]
      show ((s.base.bill actor x.cost x.current.id).admins.get? k).isSome
      rw [bill_admins]
      exact hadmin
  · rcases h.2 with rfl | ⟨-, rfl⟩
    · exact .of_synced (.refl _)
    · exact .of_same (fun _ => rfl) rfl

/-- The action grows the limit of a client, unless it is refused. -/
theorem bulkAddGb_grown (actor : Operator) (id : ClientId) (s : Site)
    (hrow : (s.base.admins.get? actor.id).isSome) :
    Prog.wp (bulkAddGb actor id gb) (fun _ s' => Grown gb [id] s s')
      (fun _ s' => Grown gb [id] s s') s := by
  unfold bulkAddGb
  rw [wp_bind, (getClientForActor_reads actor.actor id).wp_iff]
  rcases hclient : ((getClientForActor actor.actor id).run s).1 with e | client
  · exact .of_synced (.refl s)
  · have hget := (clientOf_id (clientOf_of_run hclient)).2.1
    have hlimit : s.clientLimit id = some client.row.trafficLimit := by
      rw [clientLimit, hget]
      rfl
    by_cases hunlimited : client.row.trafficLimit ≤ 0
    · dsimp only
      rw [if_pos hunlimited]
      exact .of_synced (.refl s)
    · dsimp only
      rw [if_neg hunlimited, wp_bind, (assertClientKind_reads _ _ _ _ _).wp_iff]
      rcases ((assertClientKind actor.actor .limited none _ (some client.id)).run s).1 with e | _
      · exact .of_synced (.refl s)
      · exact (wp_bind _ _).mpr
          (wp_mono _ (updateClient_grown actor id hlimit hrow) (fun _ _ h => h.1) fun _ _ h => h)

/-- Over all clients of a selection, each grows at most once. -/
theorem bulkAll_grown (actor : Operator) {input : ClientBulkInput} (haction : input.action = .addGb)
    (targets : List (ClientId × Client)) (htargets : (targets.map Prod.fst).Nodup)
    (r : ClientBulkResult) (s : Site)
    (hrow : (s.base.admins.get? actor.id).isSome) :
    Prog.wp (bulkAll actor input targets r) (fun _ s' => Grown input.gb (targets.map Prod.fst) s s')
      (fun _ s' => Grown input.gb (targets.map Prod.fst) s s') s := by
  induction targets generalizing r s with
  | nil => exact .of_synced (.refl s)
  | cons target rest ih =>
    obtain ⟨hfresh, hrest⟩ := List.nodup_cons.mp htargets
    have hlater : ∀ r' s₁, Grown input.gb [target.1] s s₁ →
        Prog.wp (bulkAll actor input rest r')
          (fun _ s' => Grown input.gb ((target :: rest).map Prod.fst) s s')
            (fun _ s' => Grown input.gb ((target :: rest).map Prod.fst) s s') s₁ := by
      intro r' s₁ h₁
      exact wp_mono _ (ih hrest r' s₁ (h₁.admins _ hrow)) (fun _ _ h => .cons hfresh h₁ h)
        fun _ _ h => .cons hfresh h₁ h
    rw [bulkAll, wp_bind, wp_attempt, wp_bind, bulkOne, haction]
    exact wp_mono _ (bulkAddGb_grown actor target.1 s hrow) (fun _ s₁ h₁ => hlater _ s₁ h₁)
      fun _ s₁ h₁ => hlater _ s₁ h₁

/-- The clients that a bulk action of the actor is about. -/
def bulkTargets (s : Site) (actor : Operator) (input : ClientBulkInput) :
    List (ClientId × Client) :=
  if !input.ids.isEmpty then
    (s.clients.rows.filter fun r => r.1 ∈ input.ids && inScope actor.actor r.2).take CLIENT_BULK_MAX
  else
    match input.filter with
    | none => []
    | some filter => ((s.clients.rows.filter (s.bulkWhere actor.actor filter)).insertionSort
        fun a b => a.1 ≤ b.1).take CLIENT_BULK_MAX

/-- The clients that are selected are there, and none is selected twice. -/
theorem resolveBulkClients_spec (actor : Operator) (input : ClientBulkInput) (s : Site) :
    Prog.wp (resolveBulkClients actor input) (fun targets s' => (targets.map Prod.fst).Nodup ∧
      (∀ k ∈ targets.map Prod.fst, (s.clientLimit k).isSome) ∧
      targets = s.bulkTargets actor input ∧ s' = s)
      (fun _ s' => s' = s) s := by
  have hnodup : ∀ p : ClientId × Client →
      Bool, ((s.clients.rows.filter p).map Prod.fst).Nodup := fun p =>
    s.clients.nodup_keys.sublist (List.filter_sublist.map _)
  have hthere : ∀ targets : List (ClientId × Client), (∀ r ∈ targets, r ∈ s.clients.rows) →
      ∀ k ∈ targets.map Prod.fst, (s.clientLimit k).isSome := by
    intro targets hrows k hk
    obtain ⟨r, hr, rfl⟩ := List.mem_map.mp hk
    rw [clientLimit, (s.clients.mem_rows_iff r.1 r.2).mp (hrows r hr)]
    rfl
  unfold resolveBulkClients bulkTargets
  split
  · exact (wp_query _ _).mpr ⟨(hnodup _).sublist ((List.take_sublist _ _).map _),
      hthere _ fun r hr => List.mem_of_mem_filter (List.mem_of_mem_take hr), rfl, rfl⟩
  · cases input.filter with
    | none => exact ⟨List.nodup_nil, hthere [] (by simp), rfl, rfl⟩
    | some filter =>
      refine (wp_query _ _).mpr ⟨List.Nodup.sublist ((List.take_sublist _ _).map _) ?_,
        hthere _ fun r hr => ?_, rfl, rfl⟩
      · exact ((List.perm_insertionSort _ _).map _).nodup_iff.mpr (hnodup _)
      · exact List.mem_of_mem_filter ((List.perm_insertionSort _ _).mem_iff.mp
        (List.mem_of_mem_take hr))

/-- A bulk action grows the limit of each client at most once. -/
theorem runClientBulk_grown (actor : Operator) {input : ClientBulkInput}
    (haction : input.action = .addGb) (s : Site) (hrow : (s.base.admins.get? actor.id).isSome) :
    ∃ ids, Grown input.gb ids s ((runClientBulk actor input).run s).2 := by
  refine (wp_store_iff (P := fun s' => ∃ ids, Grown input.gb ids s s') _).mp ?_
  unfold runClientBulk
  rw [wp_bind]
  refine wp_mono _ (resolveBulkClients_spec actor input s) (fun targets s₁ h => ?_) fun _ s₁ h => ?_
  · obtain ⟨hnodup, -, -, rfl⟩ := h
    dsimp only
    split
    · exact ⟨[], .of_synced (.refl _)⟩
    split
    · exact ⟨[], .of_synced (.refl _)⟩
    · rw [wp_bind]
      refine wp_mono _ (bulkAll_grown actor haction targets hnodup _ _ hrow) (fun r s₂ h₂ => ?_)
        fun _ s₂ h₂ => ⟨_, h₂⟩
      have haudit := (lift_annotated
        (audit_keeps_logged (some actor.id) "client.bulk")).wp Annotated.refl Annotated.trans s₂
      have hafter : ∀ s₃, Annotated s₂ s₃ → ∃ ids, Grown input.gb ids s₁ s₃ := by
        intro s₃ h₃
        have hsame := h₃.pushed.synced
        refine ⟨targets.map Prod.fst, fun k hk => ?_, fun k => ?_, fun k hk => ?_⟩
        · rw [clientLimit_synced hsame, h₂.apart k hk]
        · rw [clientLimit_synced hsame]
          exact h₂.once k
        · rw [hsame.same (fun s => s.base.admins) fun _ => rfl]
          exact h₂.admins k hk
      exact (wp_bind _ _).mpr (wp_mono _ haudit (fun _ s₃ h₃ => hafter s₃ h₃) fun _ s₃ h₃ =>
        hafter s₃ h₃)
  · exact ⟨[], h ▸ .of_synced (.refl _)⟩

/-! ## Exact limits -/

/-- A bulk action adds some GB to a client: its limit is one figure before and another one after. -/
def AddsGb (gb : ℤ) (id : ClientId) (bytes bytes' : ℤ) : Prop :=
  ∃ (actor : Operator) (input : ClientBulkInput) (s : Site), input.action = .addGb ∧ input.gb = gb ∧
    (s.base.admins.get? actor.id).isSome ∧ s.clientLimit id = some bytes ∧
    ((runClientBulk actor input).run s).2.clientLimit id = some bytes' ∧ bytes' ≠ bytes

theorem AddsGb.eq {gb : ℤ} {id : ClientId} {bytes bytes' : ℤ} (h : AddsGb gb id bytes bytes') :
    bytes' = addedGb bytes gb := by
  obtain ⟨actor, input, s, haction, rfl, hrow, hbefore, hafter, hne⟩ := h
  obtain ⟨ids, hgrown⟩ := runClientBulk_grown actor haction s hrow
  rcases hgrown.once id with hsame | hadded
  · rw [hafter, hbefore] at hsame
    exact absurd (Option.some.inj hsame) hne
  · rw [hafter, hbefore] at hadded
    exact Option.some.inj hadded

/-- **Whole hundredths grow exactly.** Where the bulk action adds some GB to a limit, and the sum is
at least one GB, the new limit is that sum if and only if the old limit is a whole number of
hundredths of a GB; and adding as much with the other sign then restores the limit under the same
condition. -/
theorem addGb_exact_iff {gb : ℤ} {id : ClientId} {bytes bytes' : ℤ}
    (hadds : AddsGb gb id bytes bytes') (hsum : GB ≤ bytes + gb * GB) :
    (bytes' = bytes + gb * GB ↔ WholeHundredths bytes) ∧
    ∀ bytes'', AddsGb (-gb) id bytes' bytes'' → GB ≤ bytes' + -gb * GB →
      (bytes'' = bytes ↔ WholeHundredths bytes) := by
  obtain rfl := hadds.eq
  refine ⟨addedGb_exact_iff hsum, ?_⟩
  intro bytes'' hback hsum'
  obtain rfl := hback.eq
  exact addedGb_back_iff hsum hsum'

/-- A client of the owner with this limit. -/
def limitedSite (bytes : ℤ) : Site :=
  { Site.blank with
    base := { World.blank with admins := Table.empty.set 1 ⟨.owner, 0, 0⟩ }
    clients := Table.empty.set 7 ⟨1, "a", none, none, 8, 9, bytes, 0, 0, none, 0, .active, none,
      none, none, none⟩ }

/-- The owner adds some GB to the client. -/
def volumeInput (gb : ℤ) : ClientBulkInput := ⟨.addGb, [7], none, 0, gb⟩

def volumeOwner : Operator :=
  ⟨1, .owner, ⟨"o", 0, none, true, none, none, none, none, none, none, none, []⟩⟩

/-- A limit of 1.005 GB grows to 2 GB, and shrinks to 1 GB again. -/
theorem addGb_inexact :
    (AddsGb 1 7 1079110533 2147483648 ∧ (GB : ℤ) ≤ 1079110533 + 1 * GB ∧
      (2147483648 : ℤ) ≠ 1079110533 + 1 * GB) ∧ AddsGb (-1) 7 2147483648 1073741824 ∧
      (GB : ℤ) ≤ 2147483648 + -1 * GB ∧ gbToBytes 1.005 = 1079110533 := by
  refine ⟨⟨⟨volumeOwner, volumeInput 1, limitedSite 1079110533, rfl, rfl, by decide, by decide,
    ?_, by decide⟩, by decide, by decide⟩, ⟨volumeOwner, volumeInput (-1), limitedSite 2147483648,
      rfl, rfl, by decide, by decide, ?_, by decide⟩, by decide, ?_⟩
  · decide +kernel
  · decide +kernel
  · decide +kernel

/-- A limit of 1 GB grows to 2 GB exactly, and comes back. -/
theorem addGb_exact_oneGb :
    ((2147483648 : ℤ) = 1073741824 + 1 * GB ↔ WholeHundredths 1073741824) ∧
      ((1073741824 : ℤ) = 1073741824 ↔ WholeHundredths 1073741824) := by
  have hadds : AddsGb 1 7 1073741824 2147483648 :=
    ⟨volumeOwner, volumeInput 1, limitedSite 1073741824, rfl, rfl, by decide, by decide, by
      decide +kernel, by decide⟩
  have hback : AddsGb (-1) 7 2147483648 1073741824 :=
    ⟨volumeOwner, volumeInput (-1), limitedSite 2147483648, rfl, rfl, by decide, by decide, by
      decide +kernel,
      by decide⟩
  have h := addGb_exact_iff hadds (by decide)
  exact ⟨h.1, h.2 _ hback (by decide)⟩

end Site

end SRPanel
