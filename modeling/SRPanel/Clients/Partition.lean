import Mathlib.Data.Prod.Lex
import Mathlib.Data.Rat.Floor
import SRPanel.Model.Shapes

/-!
# Targets are parted by their shapes

The targets of a client are put in order whatever order they come in, and each one with a known
server gets into one remote client, with others of its server, protocol and flow. The groups go by
texts that are joined with a bar, so a text with a bar in it can bring together what differs.
-/

namespace SRPanel.Shapes

open Utf16 Grouping

/-! ## The order of targets -/

/-- The order of targets: by the units of the server's id, then by the inbound. -/
def rank (t : ClientTarget) : List ℕ ×ₗ ℚ := toLex (t.serverId.map UInt16.toNat, t.inboundId)

theorem map_toNat_injective : Function.Injective (List.map UInt16.toNat) :=
  List.map_injective_iff.mpr fun _ _ h => UInt16.toNat_inj.mp h

theorem rank_injective : Function.Injective rank := by
  rintro ⟨s, i⟩ ⟨s', i'⟩ h
  obtain ⟨hs, hi⟩ := Prod.mk.inj (toLex.injective h)
  exact congrArg₂ ClientTarget.mk (map_toNat_injective hs) hi

theorem targetLe_iff {a b : ClientTarget} : targetLe a b ↔ rank a ≤ rank b := by
  unfold targetLe textLt rank
  rw [Prod.Lex.toLex_le_toLex]
  by_cases hs : a.serverId = b.serverId
  · simp [hs]
  · have hne : a.serverId.map UInt16.toNat ≠ b.serverId.map UInt16.toNat := fun h => hs (map_toNat_injective h)
    simp [hs, hne]

instance : Std.Total fun a b => targetLe a b :=
  ⟨fun a b => by
    rw [targetLe_iff, targetLe_iff]
    exact le_total (rank a) (rank b)⟩

instance : IsTrans ClientTarget fun a b => targetLe a b :=
  ⟨fun _ _ _ hab hbc => targetLe_iff.mpr ((targetLe_iff.mp hab).trans (targetLe_iff.mp hbc))⟩

instance : Std.Antisymm fun a b => targetLe a b :=
  ⟨fun _ _ hab hba => rank_injective (le_antisymm (targetLe_iff.mp hab) (targetLe_iff.mp hba))⟩

/-! ## Normal lists -/

/-- The loop of `normalizeTargets` keeps the targets it has, and adds each of the others once. -/
theorem foldl_push (ts out : List ClientTarget) (hout : out.Nodup) :
    (ts.foldl (fun out t => if t ∈ out then out else out ++ [t]) out).Nodup ∧
      ∀ t, t ∈ ts.foldl (fun out t => if t ∈ out then out else out ++ [t]) out ↔
      t ∈ out ∨ t ∈ ts := by
  induction ts generalizing out with
  | nil => exact ⟨hout, fun t => by simp⟩
  | cons t ts ih =>
    rw [List.foldl_cons]
    by_cases ht : t ∈ out
    · rw [if_pos ht]
      refine ⟨(ih out hout).1, fun t' => ?_⟩
      rw [(ih out hout).2, List.mem_cons]
      constructor
      · exact fun h => h.imp_right .inr
      · rintro (h | rfl | h)
        · exact .inl h
        · exact .inl ht
        · exact .inr h
    · have hpush : (out ++ [t]).Nodup := List.nodup_append.mpr
        ⟨hout, List.nodup_singleton t, fun a ha b hb hab =>
          ht (List.mem_singleton.mp hb ▸ hab ▸ ha)⟩
      rw [if_neg ht]
      refine ⟨(ih _ hpush).1, fun t' => ?_⟩
      rw [(ih _ hpush).2, List.mem_append, List.mem_singleton, List.mem_cons, or_assoc]

theorem normalizeTargets_nodup (list : List RawTarget) : (normalizeTargets list).Nodup :=
  (List.perm_insertionSort _ _).nodup_iff.mpr (foldl_push _ [] List.nodup_nil).1

theorem mem_normalizeTargets {list : List RawTarget} {t : ClientTarget} :
    t ∈ normalizeTargets list ↔ ∃ r ∈ list, r.clean = some t := by
  unfold normalizeTargets
  rw [List.mem_insertionSort, (foldl_push _ [] List.nodup_nil).2, List.mem_filterMap]
  simp

theorem normalizeTargets_sorted (list : List RawTarget) :
    (normalizeTargets list).Pairwise fun a b => targetLe a b :=
  List.pairwise_insertionSort _ _

/-- A list without repetition and in order is known by its elements. -/
theorem eq_of_mem_iff {ts ts' : List ClientTarget} (hts : ts.Nodup) (hts' : ts'.Nodup)
    (hsorted : ts.Pairwise fun a b => targetLe a b)
    (hsorted' : ts'.Pairwise fun a b => targetLe a b)
    (h : ∀ t, t ∈ ts ↔ t ∈ ts') : ts = ts' :=
  List.Perm.eq_of_pairwise' hsorted hsorted' ((List.perm_ext_iff_of_nodup hts hts').mpr h)

theorem normalizeTargets_perm {list list' : List RawTarget} (h : list.Perm list') :
    normalizeTargets list = normalizeTargets list' := by
  refine eq_of_mem_iff (normalizeTargets_nodup _) (normalizeTargets_nodup _)
    (normalizeTargets_sorted _) (normalizeTargets_sorted _) fun t => ?_
  rw [mem_normalizeTargets, mem_normalizeTargets]
  exact exists_congr fun r => and_congr_left fun _ => h.mem_iff

theorem serverId_ne_nil {r : RawTarget} {t : ClientTarget} (h : r.clean = some t) :
    t.serverId ≠ [] := by
  unfold RawTarget.clean at h
  split at h
  · cases h
  · next hne =>
    obtain ⟨i, -, rfl⟩ := Option.map_eq_some_iff.mp h
    exact hne

theorem clean_raw {t : ClientTarget} (h : t.serverId ≠ []) : t.raw.clean = some t := if_neg h

theorem normalizeTargets_idempotent (list : List RawTarget) :
    normalizeTargets ((normalizeTargets list).map ClientTarget.raw) = normalizeTargets list := by
  refine eq_of_mem_iff (normalizeTargets_nodup _) (normalizeTargets_nodup _)
    (normalizeTargets_sorted _) (normalizeTargets_sorted _) fun t => ?_
  have hclean : ∀ t ∈ normalizeTargets list, t.raw.clean = some t := by
    intro t ht
    obtain ⟨r, -, hr⟩ := mem_normalizeTargets.mp ht
    exact clean_raw (serverId_ne_nil hr)
  rw [mem_normalizeTargets]
  constructor
  · rintro ⟨r, hr, ht⟩
    obtain ⟨t', ht', rfl⟩ := List.mem_map.mp hr
    rw [hclean t' ht'] at ht
    exact Option.some.inj ht ▸ ht'
  · intro ht
    exact ⟨t.raw, List.mem_map_of_mem ht, hclean t ht⟩

/-! ## Groups of targets -/

/-- The targets of a group. -/
def PanelGroup.targets (g : PanelGroup) : List ClientTarget :=
  g.inboundIds.map fun i => ⟨g.server.id, i⟩

/-- What tells a group apart from the others. -/
def PanelGroup.kind (g : PanelGroup) : Text × Text × Text := (g.server.id, g.protocol, g.flow)

def Shape.target (x : Shape) : ClientTarget := ⟨x.server.id, x.inboundId⟩

section

variable {targets : List ClientTarget} {servers : List Server} {uuid : Text} {t : ClientTarget}
  {x y : Shape} {g : PanelGroup}

theorem target_of_shape (h : shape servers uuid t = some x) : x.target = t := by
  obtain ⟨server, hserver, rfl⟩ := Option.map_eq_some_iff.mp h
  have hid := List.find?_some hserver
  exact congrArg (ClientTarget.mk · t.inboundId) (of_decide_eq_true hid)

/-- The shapes of the targets that have one. -/
def shapes (servers : List Server) (uuid : Text) (targets : List ClientTarget) : List Shape :=
  targets.filterMap (shape servers uuid)

theorem mem_shapes : x ∈ shapes servers uuid targets ↔
    x.target ∈ targets ∧ shape servers uuid x.target = some x := by
  rw [shapes, List.mem_filterMap]
  constructor
  · rintro ⟨t, ht, hx⟩
    rw [target_of_shape hx]
    exact ⟨ht, hx⟩
  · exact fun ⟨ht, hx⟩ => ⟨x.target, ht, hx⟩

theorem map_target_shapes : (shapes servers uuid targets).map Shape.target =
    targets.filter fun t => (shape servers uuid t).isSome := by
  induction targets with
  | nil => rfl
  | cons t targets ih =>
    unfold shapes at ih ⊢
    cases hx : shape servers uuid t with
    | none => rw [List.filterMap_cons_none hx, List.filter_cons_of_neg (by simp [hx]), ih]
    | some x => rw [List.filterMap_cons_some hx, List.filter_cons_of_pos (by simp [hx]),
        List.map_cons, target_of_shape hx, ih]

/-- A group of targets comes from shapes with one key. -/
theorem mem_groupTargets (h : g ∈ groupTargets targets servers uuid) :
    ∃ xs ∈ grouped (kindKey ∘ Shape.kind) (shapes servers uuid targets), ∃ x ∈ xs,
      g.server = x.server ∧ g.protocol = x.protocol ∧ g.flow = x.flow ∧
      g.inboundIds = (xs.map Shape.inboundId).insertionSort (· ≤ ·) := by
  obtain ⟨xs, hxs, hg⟩ := List.mem_filterMap.mp h
  obtain ⟨x, hx, rfl⟩ := Option.map_eq_some_iff.mp hg
  exact ⟨xs, hxs, x, List.mem_of_head? hx, rfl, rfl, rfl, rfl⟩

end

/-- The groups part the targets whose servers are known: each of these is in one group once, all the
inbounds of a group have its server, protocol and flow, and no two groups agree on all three. -/
structure PanelPartition (targets : List ClientTarget) (servers : List Server)
    (uuid : Text) : Prop where
  exact : ((groupTargets targets servers uuid).flatMap PanelGroup.targets).Perm
    (targets.filter fun t => (shape servers uuid t).isSome)
  shared : ∀ g ∈ groupTargets targets servers uuid, ∀ i ∈ g.inboundIds,
    shape servers uuid ⟨g.server.id, i⟩ = some ⟨g.server, g.protocol, g.flow, i⟩
  apart : ((groupTargets targets servers uuid).map PanelGroup.kind).Nodup

/-- Different kinds among the targets have different keys. -/
def KeysApart (targets : List ClientTarget) (servers : List Server) (uuid : Text) : Prop :=
  ∀ x ∈ shapes servers uuid targets, ∀ y ∈ shapes servers uuid targets,
    kindKey x.kind = kindKey y.kind → x.kind = y.kind

theorem groupTargets_keys_nodup (targets : List ClientTarget) (servers : List Server)
    (uuid : Text) : ((groupTargets targets servers uuid).map fun g => kindKey g.kind).Nodup := by
  rw [List.Nodup, List.pairwise_map, groupTargets, List.pairwise_filterMap]
  refine (grouped_pairwise _ _).imp fun hne g hg g' hg' => ?_
  obtain ⟨x, hx, rfl⟩ := Option.map_eq_some_iff.mp hg
  obtain ⟨y, hy, rfl⟩ := Option.map_eq_some_iff.mp hg'
  exact hne x (List.mem_of_head? hx) y (List.mem_of_head? hy)

section

variable {targets : List ClientTarget} {servers : List Server} {uuid : Text} {x y : Shape}
    {g : PanelGroup}

/-- In a partition every shape is the one of some group. -/
theorem PanelPartition.exists_kind (h : PanelPartition targets servers uuid)
    (hx : x ∈ shapes servers uuid targets) : ∃ g ∈ groupTargets targets servers uuid,
    g.kind = x.kind := by
  obtain ⟨hmem, hshape⟩ := mem_shapes.mp hx
  have hknown : x.target ∈ targets.filter fun t => (shape servers uuid t).isSome :=
    List.mem_filter.mpr ⟨hmem, by rw [hshape]; rfl⟩
  obtain ⟨g, hg, hin⟩ := List.mem_flatMap.mp (h.exact.mem_iff.mpr hknown)
  obtain ⟨i, hi, htarget⟩ := List.mem_map.mp hin
  have hshared := h.shared g hg i hi
  rw [htarget, hshape] at hshared
  obtain rfl := Option.some.inj hshared
  exact ⟨g, hg, rfl⟩

/-- The server of a shape is the one that is found under its id. -/
theorem server_eq (hx : x ∈ shapes servers uuid targets) (hy : y ∈ shapes servers uuid targets)
    (h : x.server.id = y.server.id) : x.server = y.server := by
  obtain ⟨s, hs, hxs⟩ := Option.map_eq_some_iff.mp (mem_shapes.mp hx).2
  obtain ⟨s', hs', hys⟩ := Option.map_eq_some_iff.mp (mem_shapes.mp hy).2
  have hserver : s = x.server := congrArg Shape.server hxs
  have hserver' : s' = y.server := congrArg Shape.server hys
  have hfind : x.target.serverId = y.target.serverId := h
  rw [hfind, hs'] at hs
  rw [← hserver, ← hserver', Option.some.inj hs]

/-- With keys apart the shapes of a group agree in everything but the inbound. -/
theorem KeysApart.eq_shape (h : KeysApart targets servers uuid) {xs : List Shape}
    (hxs : xs ∈ grouped (kindKey ∘ Shape.kind) (shapes servers uuid targets)) (hx : x ∈ xs)
    (hy : y ∈ xs) :
    y = ⟨x.server, x.protocol, x.flow, y.inboundId⟩ := by
  have hkey : (kindKey ∘ Shape.kind) y = (kindKey ∘ Shape.kind) x := key_eq_of_mem hxs hy hx
  have hkind : y.kind = x.kind := h y (mem_of_mem_grouped hxs hy) x (mem_of_mem_grouped hxs hx) hkey
  obtain ⟨hid, hprotocol, hflow⟩ :
      y.server.id = x.server.id ∧ y.protocol = x.protocol ∧ y.flow = x.flow := by
    simpa [Shape.kind] using hkind
  rw [← server_eq (mem_of_mem_grouped hxs hy) (mem_of_mem_grouped hxs hx) hid, ← hprotocol, ← hflow]

/-- Groups that stand for their elements stand for all of them together. -/
theorem flatMap_filterMap_perm {α β γ : Type} {f : α → Option β} {k : β → List γ} {m : α → List γ}
    {l : List α} (h : ∀ a ∈ l, ∃ b, f a = some b ∧ (k b).Perm (m a)) :
    ((l.filterMap f).flatMap k).Perm (l.flatMap m) := by
  induction l with
  | nil => exact List.Perm.refl _
  | cons a l ih =>
    obtain ⟨⟨b, hb, hperm⟩, hl⟩ := List.forall_mem_cons.mp h
    rw [List.filterMap_cons_some hb, List.flatMap_cons, List.flatMap_cons]
    exact hperm.append (ih hl)

/-- The groups of targets part them exactly when different kinds have different keys. -/
theorem panelPartition_iff (targets : List ClientTarget) (servers : List Server) (uuid : Text) :
    PanelPartition targets servers uuid ↔ KeysApart targets servers uuid := by
  have hkeys := groupTargets_keys_nodup targets servers uuid
  constructor
  · intro h x hx y hy hkey
    obtain ⟨g, hg, hgx⟩ := h.exists_kind hx
    obtain ⟨g', hg', hgy⟩ := h.exists_kind hy
    have hsame : kindKey g.kind = kindKey g'.kind := by rw [hgx, hgy, hkey]
    rw [← hgx, ← hgy, List.inj_on_of_nodup_map hkeys hg hg' hsame]
  intro h
  refine ⟨?_, fun g hg i hi => ?_, ?_⟩
  · have hgroups : ((groupTargets targets servers uuid).flatMap PanelGroup.targets).Perm
        ((grouped (kindKey ∘ Shape.kind) (shapes servers uuid targets)).flatMap
          (List.map Shape.target)) := by
      refine flatMap_filterMap_perm fun xs hxs => ?_
      obtain ⟨x, xs', rfl⟩ := List.exists_cons_of_ne_nil (mem_grouped hxs).1
      refine ⟨_, rfl, ?_⟩
      have htargets : ((x :: xs').map Shape.inboundId).map (fun i =>
          (⟨x.server.id, i⟩ : ClientTarget)) = (x :: xs').map Shape.target := by
        rw [List.map_map]
        refine List.map_congr_left fun y hy => ?_
        rw [h.eq_shape hxs List.mem_cons_self hy]
        rfl
      rw [← htargets]
      exact (List.perm_insertionSort _ _).map _
    rw [← map_target_shapes]
    refine hgroups.trans ?_
    rw [List.flatMap_def, ← List.map_flatten]
    exact (flatten_grouped_perm _ _).map _
  · obtain ⟨xs, hxs, x, hx, hserver, hprotocol, hflow, hids⟩ := mem_groupTargets hg
    rw [hids, List.mem_insertionSort] at hi
    obtain ⟨y, hy, rfl⟩ := List.mem_map.mp hi
    have hshape := (mem_shapes.mp (mem_of_mem_grouped hxs hy)).2
    have heq := h.eq_shape hxs hx hy
    rw [hserver, hprotocol, hflow, ← heq, ← hshape]
    congr 1
    rw [heq]
    rfl
  · rw [show (fun g : PanelGroup => kindKey g.kind) = kindKey ∘ PanelGroup.kind from rfl, ← List.map_map] at hkeys
    exact hkeys.of_map kindKey

end

/-! ## Groups of links -/

/-- The links of a group. -/
def LinkGroup.links (g : LinkGroup) : List Link :=
  g.linkIds.zipWith (fun id inboundId => ⟨id, g.serverId, inboundId, g.remoteEmail⟩) g.inboundIds

/-- What tells a group of links apart from the others. -/
def LinkGroup.kind (g : LinkGroup) : Text × Text := (g.serverId, g.remoteEmail)

/-- The groups part the links by server and email, each with its inbounds in order. -/
structure LinkPartition (links : List Link) : Prop where
  exact : ((groupLinks links).flatMap LinkGroup.links).Perm links
  paired : ∀ g ∈ groupLinks links, g.linkIds.length = g.inboundIds.length
  sorted : ∀ g ∈ groupLinks links, g.inboundIds.Pairwise (· ≤ ·)
  apart : ((groupLinks links).map LinkGroup.kind).Nodup

/-- Different servers and emails among the links have different keys. -/
def EmailsApart (links : List Link) : Prop :=
  ∀ l ∈ links, ∀ l' ∈ links, emailKey l.kind = emailKey l'.kind → l.kind = l'.kind

/-- Links in the order of their inbounds. -/
def byInbound (links : List Link) : List Link :=
  links.insertionSort fun a b => a.inboundId ≤ b.inboundId

section

variable {links : List Link} {l : Link} {g : LinkGroup}

/-- A group of links comes from links with one key. -/
theorem mem_groupLinks (h : g ∈ groupLinks links) :
    ∃ ls ∈ grouped (emailKey ∘ Link.kind) (byInbound links), ∃ l ∈ ls, g.kind = l.kind ∧
      g.inboundIds = ls.map Link.inboundId ∧ g.linkIds = ls.map Link.id := by
  obtain ⟨ls, hls, hg⟩ := List.mem_filterMap.mp h
  obtain ⟨l, hl, rfl⟩ := Option.map_eq_some_iff.mp hg
  exact ⟨ls, hls, l, List.mem_of_head? hl, rfl, rfl, rfl⟩

theorem groupLinks_keys_nodup (links : List Link) :
    ((groupLinks links).map fun g => emailKey g.kind).Nodup := by
  rw [List.Nodup, List.pairwise_map, groupLinks, List.pairwise_filterMap]
  refine (grouped_pairwise _ _).imp fun hne g hg g' hg' => ?_
  obtain ⟨l, hl, rfl⟩ := Option.map_eq_some_iff.mp hg
  obtain ⟨l', hl', rfl⟩ := Option.map_eq_some_iff.mp hg'
  exact hne l (List.mem_of_head? hl) l' (List.mem_of_head? hl')

/-- In a partition every link's server and email are those of some group. -/
theorem LinkPartition.exists_kind (h : LinkPartition links) (hl : l ∈ links) :
    ∃ g ∈ groupLinks links, g.kind = l.kind := by
  obtain ⟨g, hg, hin⟩ := List.mem_flatMap.mp (h.exact.mem_iff.mpr hl)
  refine ⟨g, hg, ?_⟩
  unfold LinkGroup.links at hin
  rw [← List.map_uncurry_zip_eq_zipWith, List.mem_map] at hin
  obtain ⟨_, -, rfl⟩ := hin
  rfl

/-- The groups of links part them exactly when different servers and emails have different keys. -/
theorem linkPartition_iff (links : List Link) : LinkPartition links ↔ EmailsApart links := by
  have hkeys := groupLinks_keys_nodup links
  have hsort : (byInbound links).Perm links := List.perm_insertionSort _ _
  constructor
  · intro h l hl l' hl' hkey
    obtain ⟨g, hg, hgl⟩ := h.exists_kind hl
    obtain ⟨g', hg', hgl'⟩ := h.exists_kind hl'
    have hsame : emailKey g.kind = emailKey g'.kind := by rw [hgl, hgl', hkey]
    rw [← hgl, ← hgl', List.inj_on_of_nodup_map hkeys hg hg' hsame]
  intro h
  refine ⟨?_, fun g hg => ?_, fun g hg => ?_, ?_⟩
  -- a group has the server and the email of its first link, so all of its links must
  · have hgroups : ((groupLinks links).flatMap LinkGroup.links).Perm
        ((grouped (emailKey ∘ Link.kind) (byInbound links)).flatMap id) := by
      refine flatMap_filterMap_perm fun ls hls => ?_
      obtain ⟨l, ls', rfl⟩ := List.exists_cons_of_ne_nil (mem_grouped hls).1
      refine ⟨_, rfl, ?_⟩
      have hkind : ∀ l' ∈ l :: ls', l'.kind = l.kind := by
        intro l' hl'
        have hkey : (emailKey ∘ Link.kind) l' = (emailKey ∘ Link.kind) l :=
          key_eq_of_mem hls hl' List.mem_cons_self
        exact h l' (hsort.mem_iff.mp (mem_of_mem_grouped hls hl')) l
          (hsort.mem_iff.mp (mem_of_mem_grouped hls List.mem_cons_self)) hkey
      have hlinks : ∀ ls : List Link, (∀ l' ∈ ls, l'.kind = l.kind) → (ls.map Link.id).zipWith
          (fun id inboundId => ⟨id, l.serverId, inboundId, l.remoteEmail⟩) (ls.map Link.inboundId) =
          ls := by
        intro ls hls
        induction ls with
        | nil => rfl
        | cons l' ls ih =>
          obtain ⟨hl', hls⟩ := List.forall_mem_cons.mp hls
          obtain ⟨hserver, hemail⟩ := Prod.mk.inj hl'
          rw [List.map_cons, List.map_cons, List.zipWith_cons_cons, ih hls, ← hserver, ← hemail]
      exact List.Perm.of_eq (hlinks _ hkind)
    refine hgroups.trans ?_
    rw [List.flatMap_id]
    exact (flatten_grouped_perm _ _).trans hsort
  · obtain ⟨ls, -, _, -, -, hids, hlinkIds⟩ := mem_groupLinks hg
    rw [hids, hlinkIds, List.length_map, List.length_map]
  · obtain ⟨ls, hls, _, -, -, hids, -⟩ := mem_groupLinks hg
    obtain ⟨-, k, rfl⟩ := mem_grouped hls
    rw [hids, List.pairwise_map]
    have hsorted : (byInbound links).Pairwise fun a b => a.inboundId ≤ b.inboundId := by
      rw [← List.pairwise_map, byInbound,
        List.map_insertionSort _ (· ≤ ·) _ _ fun _ _ _ _ => Iff.rfl]
      exact List.pairwise_insertionSort _ _
    exact hsorted.filter _
  · rw [show (fun g : LinkGroup => emailKey g.kind) = emailKey ∘ LinkGroup.kind from rfl, ← List.map_map] at hkeys
    exact hkeys.of_map emailKey

end

/-! ## Keys -/

theorem joined_injective {a a' b b' : Text} (ha : 124 ∉ a) (ha' : 124 ∉ a')
    (h : joined a b = joined a' b') : a = a' ∧ b = b' := by
  unfold joined at h
  induction a generalizing a' with
  | nil =>
    cases a' with
    | nil => exact ⟨rfl, (List.cons.inj h).2⟩
    | cons u a' => exact absurd ((List.cons.inj h).1 ▸ List.mem_cons_self) ha'
  | cons u a ih =>
    cases a' with
    | nil => exact absurd ((List.cons.inj h).1 ▸ List.mem_cons_self) ha
    | cons u' a' =>
      obtain ⟨rfl, htail⟩ := List.cons.inj h
      obtain ⟨rfl, rfl⟩ := ih (fun hmem => ha (List.mem_cons_of_mem u hmem))
        (fun hmem => ha' (List.mem_cons_of_mem u hmem)) htail
      exact ⟨rfl, rfl⟩

theorem kindKey_eq (k : Text × Text × Text) : kindKey k = joined k.1 (joined k.2.1 k.2.2) := by
  unfold kindKey joined
  rw [List.append_assoc, List.cons_append]

/-- Without a bar in the servers' ids and the protocols the keys are apart. -/
theorem keysApart_of_no_bar {servers : List Server} (hids : ∀ s ∈ servers, 124 ∉ s.id)
    (hprotocols : ∀ s ∈ servers, ∀ i ∈ s.inbounds, ∀ p ∈ i.protocol, 124 ∉ p)
    (targets : List ClientTarget)
    (uuid : Text) : KeysApart targets servers uuid := by
  have hplain : ∀ x ∈ shapes servers uuid targets, 124 ∉ x.server.id ∧ 124 ∉ x.protocol := by
    intro x hx
    obtain ⟨server, hserver, hshape⟩ := Option.map_eq_some_iff.mp (mem_shapes.mp hx).2
    have hmem := List.mem_of_find?_eq_some hserver
    rw [← hshape]
    refine ⟨hids server hmem, ?_⟩
    dsimp only
    cases hfind : server.inbounds.find? fun i => i.id = some x.target.inboundId with
    | none => decide
    | some inbound =>
      rw [Option.bind_some]
      cases hp : inbound.protocol with
      | none => decide
      | some p => exact hprotocols server hmem inbound (List.mem_of_find?_eq_some hfind) p hp
  intro x hx y hy hkey
  rw [kindKey_eq, kindKey_eq] at hkey
  obtain ⟨hid, hrest⟩ := joined_injective (hplain x hx).1 (hplain y hy).1 hkey
  obtain ⟨hprotocol, hflow⟩ := joined_injective (hplain x hx).2 (hplain y hy).2 hrest
  exact Prod.ext hid (Prod.ext hprotocol hflow)

/-- Without a bar in the servers' ids the keys of links are apart. -/
theorem emailsApart_of_no_bar {links : List Link} (hids : ∀ l ∈ links, 124 ∉ l.serverId) :
    EmailsApart links := by
  intro l hl l' hl' hkey
  obtain ⟨hserver, hemail⟩ := joined_injective (hids l hl) (hids l' hl') hkey
  exact Prod.ext hserver hemail

/-! ## The partition -/

/-- What is expected of the three functions: one normal list for every order of the targets, and
groups that part that list and the links. -/
structure OrderFreePartition (list : List RawTarget) (servers : List Server) (uuid : Text)
    (links : List Link) : Prop where
  perm : ∀ list', list'.Perm list → normalizeTargets list' = normalizeTargets list
  nodup : (normalizeTargets list).Nodup
  idempotent : normalizeTargets ((normalizeTargets list).map ClientTarget.raw) =
  normalizeTargets list
  targets : PanelPartition (normalizeTargets list) servers uuid
  links : LinkPartition links

/-- It holds exactly when different kinds of targets have different keys, and different kinds of
links. -/
theorem orderFreePartition_iff (list : List RawTarget) (servers : List Server) (uuid : Text)
    (links : List Link) : OrderFreePartition list servers uuid links ↔
      KeysApart (normalizeTargets list) servers uuid ∧ EmailsApart links := by
  constructor
  · exact fun h => ⟨(panelPartition_iff _ servers uuid).mp h.targets,
    (linkPartition_iff links).mp h.links⟩
  · rintro ⟨htargets, hlinks⟩
    exact {
      perm _ hperm := normalizeTargets_perm hperm
      nodup := normalizeTargets_nodup list
      idempotent := normalizeTargets_idempotent list
      targets := (panelPartition_iff _ servers uuid).mpr htargets
      links := (linkPartition_iff links).mpr hlinks }

/-- A panel whose first inbound reports a protocol with a bar, and whose second one has a flow with
a bar. -/
def barredServer : Server where
  id := encode "s"
  inbounds := [⟨some 1, some (encode "vless|"), [], none, none⟩,
    ⟨some 2, some (encode "vless"), [⟨none, some (encode "|")⟩], none, none⟩]

/-- The two inbounds are put into one group, although they differ in protocol and flow. -/
theorem barred_not_partition :
    ¬OrderFreePartition [⟨encode "s", some 1⟩, ⟨encode "s", some 2⟩] [barredServer]
      (encode "u") [] := by
  intro h
  have hgroups : groupTargets
      (normalizeTargets [⟨encode "s", some 1⟩, ⟨encode "s", some 2⟩]) [barredServer] (encode "u") =
      [⟨barredServer, encode "vless|", [], [1, 2]⟩] := by decide +kernel
  have hshared := h.targets.shared ⟨barredServer, encode "vless|", [], [1, 2]⟩
    (by rw [hgroups]; exact List.mem_singleton_self _) 2 (by simp)
  have hshape : shape [barredServer] (encode "u") ⟨encode "s", 2⟩ =
      some ⟨barredServer, encode "vless", encode "|", 2⟩ := by decide +kernel
  have hflow := congrArg Shape.flow (Option.some.inj (hshape.symm.trans hshared))
  revert hflow
  decide

end SRPanel.Shapes
