import SRPanel.Lib.Fresh
import SRPanel.Model.SubFormats

/-!
# The names in a generated document

Clash and sing-box know proxies, groups and built-in outbounds by name, all in one namespace. The
nodes get different names, and the group beside them one that none of them has. What is not kept
clear is `Auto` and the built-in outbound: a node that carries one of these names has it twice.
-/

namespace SRPanel

/-! ## Fresh names -/

/-- The names that `uniqueName` tries. -/
def numbered (raw : String) : ℕ → String
  | 0 => raw
  | k + 1 => raw ++ " " ++ toString (k + 2)

theorem numbered_injective (raw : String) : Function.Injective (numbered raw) := by
  have hdigits : ∀ a b : ℕ, raw ++ " " ++ toString a = raw ++ " " ++ toString b → a = b := by
    intro a b h
    have hlist : (toString a).toList = (toString b).toList := by
      simpa using congrArg String.toList h
    rw [Nat.toString_eq_repr, Nat.toString_eq_repr, Nat.toList_repr, Nat.toList_repr] at hlist
    simpa using congrArg (fun digits => Nat.ofDigitChars 10 digits 0) hlist
  have hlonger : ∀ k, raw ≠ raw ++ " " ++ toString (k + 2) := by
    intro k h
    simpa using congrArg (fun s => s.toList.length) h
  intro a b h
  cases a with
  | zero =>
      cases b with
      | zero => rfl
      | succ b => exact absurd h (hlonger b)
  | succ a =>
      cases b with
      | zero => exact absurd h.symm (hlonger a)
      | succ b => have := hdigits _ _ h; omega

theorem freeName_eq (raw : String) (used : List String) (n k : ℕ) :
    freeName raw used n (k + 2) (numbered raw k) = Fresh.firstFree (numbered raw) used n k := by
  induction n generalizing k with
  | zero => rfl
  | succ n ih => rw [freeName, Fresh.firstFree, ← ih]; rfl

theorem uniqueName_eq (raw : String) (used : List String) :
    uniqueName raw used = Fresh.firstFree (numbered raw) used (used.length + 1) 0 :=
  freeName_eq raw used (used.length + 1) 0

theorem uniqueName_not_mem (raw : String) (used : List String) : uniqueName raw used ∉ used := by
  rw [uniqueName_eq]
  exact Fresh.firstFree_not_mem (numbered_injective raw) (Nat.le_succ _) 0

/-- A name without a blank is only given to a node that carries it, and to the first one. -/
theorem uniqueName_eq_iff {raw w : String} {used : List String} (hw : ' ' ∉ w.toList) :
    uniqueName raw used = w ↔ raw = w ∧ w ∉ used := by
  constructor
  · intro h
    have hfree := uniqueName_not_mem raw used
    rw [h] at hfree
    obtain ⟨i, -, heq, -⟩ := Fresh.firstFree_spec (numbered raw) used (used.length + 1) 0
    rw [← uniqueName_eq, h, Nat.zero_add] at heq
    cases i with
    | zero => exact ⟨heq.symm, hfree⟩
    | succ i => exact absurd (by rw [heq]; simp [numbered]) hw
  · rintro ⟨rfl, hfree⟩
    rw [uniqueName, freeName, if_neg hfree]

/-- The names that are tried for a group. -/
def plussed (group : String) : ℕ → String
  | 0 => group
  | k + 1 => plussed group k ++ " +"

theorem plussed_injective (group : String) : Function.Injective (plussed group) := by
  have hlength : ∀ k, (plussed group k).toList.length = group.toList.length + 2 * k := by
    intro k
    induction k with
    | zero => rfl
    | succ k ih => simp [plussed] at ih ⊢; omega
  intro a b h
  have ha := hlength a
  rw [h, hlength b] at ha
  omega

theorem freeGroup_eq (group : String) (taken : List String) (n k : ℕ) :
    freeGroup taken n (plussed group k) = Fresh.firstFree (plussed group) taken n k := by
  induction n generalizing k with
  | zero => rfl
  | succ n ih => rw [freeGroup, Fresh.firstFree, ← ih]; rfl

theorem groupAmong_eq (names : List String) (direct group : String) :
    groupAmong names direct group =
      Fresh.firstFree (plussed group) (["Auto", direct] ++ names) (names.length + 3) 0 :=
  freeGroup_eq group _ _ 0

/-- The group beside some nodes has a name that none of them has, nor `Auto` or the direct outbound.
-/
theorem groupAmong_not_mem (names : List String) (direct group : String) :
    groupAmong names direct group ≠ "Auto" ∧ groupAmong names direct group ≠ direct ∧
      groupAmong names direct group ∉ names := by
  have h : groupAmong names direct group ∉ ["Auto", direct] ++ names := by
    rw [groupAmong_eq]
    exact Fresh.firstFree_not_mem (plussed_injective group) (by simp) 0
  simpa using h

/-- Trimming adds no character. -/
theorem mem_of_mem_trim {c : Char} {s : String} (h : c ∈ (trim s).toList) : c ∈ s.toList := by
  rw [trim, String.toList_ofList, List.mem_reverse] at h
  have := (List.dropWhile_suffix _).subset h
  exact (List.dropWhile_suffix _).subset (List.mem_reverse.mp this)

/-! ## The names of the nodes -/

/-- The nodes that the links are read as, under the names they carry. -/
def readNodes (x : SubEnv) (links : List ShareLink) : List ProxyNode :=
  links.zipIdx.filterMap fun p => x.parseShareUri p.1 ("node " ++ toString (p.2 + 1))

/-- The nodes with different names, where the names `used` came before. -/
def rename : (used : List String) → List ProxyNode → List ProxyNode
  | _, [] => []
  | used, node :: nodes =>
      let name := uniqueName node.name used
      { node with name := name } :: rename (name :: used) nodes

theorem parseFrom_eq (parse : ShareLink → String → Option ProxyNode)
    (links : List ShareLink) (index : ℕ) (used : List String) :
    parseFrom parse index used links =
      rename used ((links.zipIdx index).filterMap fun p =>
        parse p.1 ("node " ++ toString (p.2 + 1))) := by
  induction links generalizing index used with
  | nil => rfl
  | cons link links ih =>
      rw [parseFrom, List.zipIdx_cons, List.filterMap_cons]
      cases parse link ("node " ++ toString (index + 1)) with
      | none => exact ih (index + 1) used
      | some node => exact congrArg _ (ih (index + 1) _)

theorem parseShareUris_eq (x : SubEnv) (links : List ShareLink) :
    parseShareUris x links = rename [] (readNodes x links) :=
  parseFrom_eq x.parseShareUri links 0 []

/-- No two nodes have one name, and none has a name that was used before. -/
theorem rename_names (used : List String) (nodes : List ProxyNode) :
    ((rename used nodes).map ProxyNode.name).Nodup ∧
      ∀ name ∈ (rename used nodes).map ProxyNode.name, name ∉ used := by
  induction nodes generalizing used with
  | nil => simp [rename]
  | cons node nodes ih =>
      obtain ⟨hnodup, hfresh⟩ := ih (uniqueName node.name used :: used)
      simp only [rename, List.map_cons, List.nodup_cons, List.forall_mem_cons]
      refine ⟨⟨?_, hnodup⟩, uniqueName_not_mem node.name used, ?_⟩
      · intro hmem
        exact hfresh _ hmem List.mem_cons_self
      · intro name hname hused
        exact hfresh name hname (List.mem_cons_of_mem _ hused)

/-- A name is claimed if the first node that carries it is one that the documents can express. -/
def Claimed (nodes : List ProxyNode) (name : String) : Prop :=
  ∃ node ∈ nodes.find? (·.name = name), isPortableNode node

instance (nodes : List ProxyNode) (name : String) : Decidable (Claimed nodes name) :=
  inferInstanceAs (Decidable (∃ node ∈ nodes.find? (·.name = name), isPortableNode node))

/-- A name without a blank is that of a node in the documents if and only if it is claimed. -/
theorem mem_names_iff {used : List String} (nodes : List ProxyNode) {w : String}
    (hw : ' ' ∉ w.toList) (hfree : w ∉ used) :
    w ∈ ((rename used nodes).filter isPortableNode).map ProxyNode.name ↔ Claimed nodes w := by
  induction nodes generalizing used with
  | nil => simp [rename, Claimed]
  | cons node nodes ih =>
      have hportable : ∀ name, isPortableNode { node with name := name } = isPortableNode node :=
        fun _ => rfl
      rw [rename, List.filter_cons, hportable]
      by_cases hname : node.name = w
      -- the node gets the name, and none after it
      · have hgets : uniqueName node.name used = w := (uniqueName_eq_iff hw).mpr ⟨hname, hfree⟩
        have hlater : w ∉ ((rename
            (w :: used) nodes).filter isPortableNode).map ProxyNode.name := by
          intro hmem
          obtain ⟨later, hlater, hw⟩ := List.mem_map.mp hmem
          exact (rename_names (w :: used) nodes).2 w
            (List.mem_map.mpr ⟨later, (List.mem_filter.mp hlater).1, hw⟩) List.mem_cons_self
        rw [hgets, Claimed, List.find?_cons_of_pos (by simpa using hname)]
        split
        · next h => simp [h]
        · next h => simpa [h] using hlater
      · have hgets : uniqueName node.name used ≠ w := fun h => hname ((uniqueName_eq_iff hw).mp h).1
        have hrest := @ih (uniqueName node.name used :: used) (by simp [hfree, Ne.symm hgets])
        rw [Claimed, List.find?_cons_of_neg (by simpa using hname)]
        rw [Claimed] at hrest
        rw [← hrest]
        split
        · simp [Ne.symm hgets]
        · rfl

/-! ## The names in a document -/

/-- No name is there twice, and what is referred to is there once. -/
structure NamesSound (names refs : List String) : Prop where
  distinct : names.Nodup
  defined : ∀ r ∈ refs, names.count r = 1

/-- A text in a YAML document. -/
def Yaml.text : Yaml → String
  | .word s => s
  | .str s => s
  | _ => ""

/-- The items of a sequence. -/
def Yaml.items : Yaml → List Yaml
  | .seq items => items
  | _ => []

/-- A field of a map, if it is there. -/
def Yaml.field (key : String) : Yaml → Option Yaml
  | .map fields => fields.lookup key
  | _ => none

/-- The entries of a list in a map. -/
def Yaml.list (key : String) (doc : Yaml) : List Yaml := (doc.field key).elim [] Yaml.items

/-- The text of a field of a map. -/
def Yaml.textOf (key : String) (doc : Yaml) : String := (doc.field key).elim "" Yaml.text

@[simp] theorem Yaml.textOf_name (s : String) (rest : List (String × Yaml)) :
    (Yaml.map (("name", .str s) :: rest)).textOf "name" = s := rfl

/-- The outbound of a rule: the second part of a `MATCH`, the third of any other. -/
def ruleTarget (rule : String) : String :=
  match (rule.toList.splitOn ',').map String.ofList with
  | "MATCH" :: target :: _ => target
  | _ :: _ :: target :: _ => target
  | _ => ""

namespace ClashConfig

/-- The names of the proxies, of the groups and of the built-in outbound. -/
def names (config : ClashConfig) : List String :=
  ((Yaml.map config.fields).list "proxies").map (Yaml.textOf "name") ++
    ((Yaml.map config.fields).list "proxy-groups").map (Yaml.textOf "name") ++ ["DIRECT"]

/-- The names that groups and rules refer to. -/
def refs (config : ClashConfig) : List String :=
  ((Yaml.map config.fields).list "proxy-groups").flatMap (fun group =>
    (group.list "proxies").map Yaml.text) ++ ((Yaml.map config.fields).list "rules").map fun rule =>
      ruleTarget rule.text

end ClashConfig

/-- A text in a JSON document. -/
def Json.text : Json → String
  | .str s => s
  | _ => ""

/-- The items of an array. -/
def Json.items : Json → List Json
  | .arr items => items
  | _ => []

/-- A field of an object, if it is there. -/
def Json.field (key : String) : Json → Option Json
  | .obj fields => fields.lookup key
  | _ => none

/-- The entries of a list in an object. -/
def Json.list (key : String) (doc : Json) : List Json := (doc.field key).elim [] Json.items

namespace Json

/-- The tags of the outbounds. -/
def tags (config : Json) : List String :=
  (config.list "outbounds").map fun o => (o.field "tag").elim "" text

/-- The tags that an outbound refers to: those of its group and its default. -/
def outboundRefs (o : Json) : List String :=
  (o.list "outbounds").map text ++ ((o.field "default").map text).toList

/-- The tags that the route refers to: those of its rules and the final one. -/
def routeRefs (route : Json) : List String :=
  (route.list "rules").map (fun rule => (rule.field "outbound").elim "" text) ++
    ((route.field "final").map text).toList

/-- The tags that outbounds and the route refer to. -/
def refs (config : Json) : List String :=
  (config.list "outbounds").flatMap outboundRefs ++ (config.field "route").elim [] routeRefs

end Json

/-! ## Clash -/

/-- The names of the nodes in a document. -/
def usableNames (nodes : List ProxyNode) : List String :=
  (nodes.filter isPortableNode).map ProxyNode.name

/-- The group `Auto`, where there is a node. -/
def autoNames (nodes : List ProxyNode) : List String :=
  if usableNames nodes = [] then [] else ["Auto"]

/-- With a fresh group, a document is sound if and only if no node has the name of `Auto` or of the
direct outbound; with the group and `Auto` it refers to nothing but nodes and the direct outbound.
-/
theorem namesSound_iff {nodes : List ProxyNode} {group direct : String} {names refs : List String}
    (hnodup : (usableNames nodes).Nodup) (hdirect : direct ≠ "Auto")
    (hgroup : group ≠ "Auto" ∧ group ≠ direct ∧ group ∉ usableNames nodes)
    (hnames : names.Perm (group :: direct :: (autoNames nodes ++ usableNames nodes)))
    (hrefs : ∀ r ∈ refs, r ∈ names) :
    NamesSound names refs ↔ "Auto" ∉ usableNames nodes ∧ direct ∉ usableNames nodes := by
  have hdistinct : names.Nodup ↔ "Auto" ∉ usableNames nodes ∧ direct ∉ usableNames nodes := by
    obtain ⟨hauto, hne, hfresh⟩ := hgroup
    rw [hnames.nodup_iff, autoNames]
    split
    · next hnil => simp [hnil, hne]
    · next => simp [hauto, hne, hfresh, hnodup, hdirect, and_comm]
  constructor
  · intro h
    exact hdistinct.mp h.distinct
  · intro h
    have hnodup' := hdistinct.mpr h
    exact ⟨hnodup', fun r hr => List.count_eq_one_of_mem hnodup' (hrefs r hr)⟩

section Clash

variable (nodes : List ProxyNode) (opts : ClashOptions)

/-- The name of the select group. -/
def clashGroup : String := groupAmong (usableNames nodes) "DIRECT" (safeName opts.group "SR-Panel")

/-- The groups of the document. -/
def clashGroups : List Yaml :=
  .map [("name", .str (clashGroup nodes opts)), ("type", .word "select"),
      ("proxies", .seq ((autoNames nodes ++ usableNames nodes ++ ["DIRECT"]).map .str))] ::
    if usableNames nodes = [] then []
    else [.map [("name", .str "Auto"), ("type", .word "url-test"), ("url", .str TEST_URL),
      ("interval", .num 300), ("tolerance", .num 50),
      ("proxies", .seq ((usableNames nodes).map .str))]]

/-- The groups of the document. -/
theorem clash_groups :
    (Yaml.map (toClashConfig nodes opts).fields).list "proxy-groups" = clashGroups nodes opts := by
  have hnil : (usableNames nodes = []) = (nodes.filter isPortableNode = []) := by simp [usableNames]
  unfold clashGroups autoNames
  simp only [hnil]
  rfl

/-- The names that it defines. -/
theorem clash_names :
    (toClashConfig nodes opts).names =
      usableNames nodes ++ (clashGroup nodes opts :: autoNames nodes) ++ ["DIRECT"] := by
  have hproxies : ((Yaml.map (toClashConfig nodes opts).fields).list "proxies").map
      (Yaml.textOf "name") = usableNames nodes := by
    change ((nodes.filter isPortableNode).map proxyEntry).map (Yaml.textOf "name") = _
    rw [usableNames, List.map_map]
    rfl
  rw [ClashConfig.names, hproxies, clash_groups, clashGroups, autoNames]
  split <;> simp

/-- A group of a label has no comma, so a rule with it has the parts it was made of. -/
theorem comma_not_mem_group : ',' ∉ (clashGroup nodes opts).toList := by
  have hsafe : ',' ∉ (safeName opts.group "SR-Panel").toList := by
    unfold safeName cleanLabel orNull
    split
    · decide
    · intro hmem
      have := mem_of_mem_trim hmem
      simp at this
  have hplussed : ∀ k, ',' ∉ (plussed (safeName opts.group "SR-Panel") k).toList := by
    intro k
    induction k with
    | zero => exact hsafe
    | succ k ih => simp [plussed, ih]
  rw [clashGroup, groupAmong_eq]
  obtain ⟨i, -, heq, -⟩ := Fresh.firstFree_spec (plussed (safeName opts.group "SR-Panel"))
    (["Auto", "DIRECT"] ++ usableNames nodes) ((usableNames nodes).length + 3) 0
  rw [heq, Nat.zero_add]
  exact hplussed i

/-- The last rule goes to its group. -/
theorem ruleTarget_match {group : String} (h : ',' ∉ group.toList) :
    ruleTarget ("MATCH," ++ group) = group := by
  have hlist : ("MATCH," ++ group).toList = "MATCH".toList ++ ',' :: group.toList := by simp
  have hmatch : ("MATCH".toList).splitOn ',' = ["MATCH".toList] := by decide
  rw [ruleTarget, hlist, List.splitOn_append_cons_self, hmatch, List.splitOn_eq_singleton h]
  simp

/-- The groups refer to the nodes, to `Auto` where it is there, and to the direct outbound. -/
theorem clash_group_refs :
    (clashGroups nodes opts).flatMap (fun group => (group.list "proxies").map Yaml.text) =
      autoNames nodes ++ usableNames nodes ++ ["DIRECT"] ++ usableNames nodes := by
  have htext : ∀ l : List String, (l.map Yaml.str).map Yaml.text = l := by
    intro l
    rw [List.map_map]
    exact List.map_id l
  have hselect : ∀ (group : String) (l : List String), ((Yaml.map [("name", .str group),
      ("type", .word "select"),
      ("proxies", .seq (l.map .str))]).list "proxies").map Yaml.text = l :=
    fun _ l => htext l
  have hauto : ((Yaml.map [("name", .str "Auto"), ("type", .word "url-test"),
      ("url", .str TEST_URL), ("interval", .num 300), ("tolerance", .num 50),
        ("proxies", .seq ((usableNames nodes).map .str))]).list "proxies").map Yaml.text =
        usableNames nodes := htext _
  rw [clashGroups, List.flatMap_cons, hselect]
  split
  · next hnil => rw [hnil, List.flatMap_nil]
  · rw [List.flatMap_singleton, hauto]

/-- The fixed rules go to `DIRECT`. -/
theorem ruleTarget_rules : ∀ rule ∈ RULES, ruleTarget rule = "DIRECT" := by decide

theorem clash_refs_mem : ∀ r ∈ (toClashConfig nodes opts).refs,
    r ∈ (toClashConfig nodes opts).names := by
  have hrules : (Yaml.map (toClashConfig nodes opts).fields).list "rules" =
      (RULES ++ ["MATCH," ++ clashGroup nodes opts]).map .str := rfl
  rw [ClashConfig.refs, clash_groups, clash_group_refs, hrules, clash_names]
  intro r hr
  rcases List.mem_append.mp hr with hr | hr
  · simp only [List.mem_append, List.mem_cons, List.not_mem_nil, or_false] at hr ⊢
    rcases hr with ((hr | hr) | hr) | hr <;> simp [hr]
  · rw [List.map_map] at hr
    obtain ⟨rule, hrule, rfl⟩ := List.mem_map.mp hr
    rcases List.mem_append.mp hrule with hrule | hrule
    · simp [Yaml.text, ruleTarget_rules rule hrule]
    · obtain rfl := List.mem_singleton.mp hrule
      simp [Yaml.text, ruleTarget_match (comma_not_mem_group nodes opts)]

/-- A Clash document is sound if and only if no node in it has the name of `Auto` or of the direct
outbound. -/
theorem clash_namesSound_iff (hnodup : (usableNames nodes).Nodup) :
    NamesSound (toClashConfig nodes opts).names (toClashConfig nodes opts).refs ↔
      "Auto" ∉ usableNames nodes ∧ "DIRECT" ∉ usableNames nodes := by
  have hperm : (toClashConfig nodes opts).names.Perm
      (clashGroup nodes opts :: "DIRECT" :: (autoNames nodes ++ usableNames nodes)) := by
    rw [clash_names, List.perm_iff_count]
    intro name
    simp only [List.count_append, List.count_cons, List.count_nil]
    omega
  exact namesSound_iff hnodup (by decide) (groupAmong_not_mem _ _ _) hperm
    (clash_refs_mem nodes opts)

end Clash

/-! ## sing-box -/

section Singbox

variable (nodes : List ProxyNode) (rawGroup : String)

/-- The tag of the selector. -/
def singboxGroup : String := groupAmong (usableNames nodes) "direct" (safeTag rawGroup "SR-Panel")

/-- The outbounds after those of the nodes. -/
def singboxGroups : List Json :=
  (if usableNames nodes = [] then [] else [.obj [("type", .str "urltest"), ("tag", .str "Auto"),
      ("outbounds", .arr ((usableNames nodes).map .str)), ("url", .str TEST_URL),
      ("interval", .str "5m"),
      ("tolerance", .num 50)]]) ++
    [.obj [("type", .str "selector"), ("tag", .str (singboxGroup nodes rawGroup)),
        ("outbounds", .arr ((autoNames nodes ++ usableNames nodes ++ ["direct"]).map .str)),
        ("default", .str (if usableNames nodes = [] then "direct" else "Auto"))],
      .obj [("type", .str "direct"), ("tag", .str "direct")]]

theorem singbox_outbounds :
    (toSingboxConfig nodes rawGroup).list "outbounds" =
      (nodes.filter isPortableNode).map outboundOf ++ singboxGroups nodes rawGroup := by
  unfold singboxGroups autoNames
  rw [← List.append_assoc]
  rfl

/-- The tags that it defines. -/
theorem singbox_tags :
    (toSingboxConfig nodes rawGroup).tags =
      usableNames nodes ++ autoNames nodes ++ [singboxGroup nodes rawGroup, "direct"] := by
  have hnodes : ((nodes.filter isPortableNode).map outboundOf).map
      (fun o => (o.field "tag").elim "" Json.text) = usableNames nodes := by
    rw [usableNames, List.map_map]
    rfl
  have htag : ∀ (kind tag : String) (rest : List (String × Json)),
      ((Json.obj (("type", .str kind) :: ("tag", .str tag) ::
        rest)).field "tag").elim "" Json.text = tag :=
    fun _ _ _ => rfl
  rw [Json.tags, singbox_outbounds, List.map_append, hnodes, singboxGroups, autoNames]
  split <;> simp [htag]

/-- The fields that the outbound of a node can have. -/
def NODE_FIELDS : List String :=
  ["type", "tag", "server", "server_port", "uuid", "flow", "packet_encoding",
    "security", "alter_id", "password", "method", "tls", "transport"]

theorem outboundOf_field (node : ProxyNode) {key : String} (h : key ∉ NODE_FIELDS) :
    (outboundOf node).field key = none := by
  have htls : ∀ p ∈ tlsOf node, p.1 ∈ NODE_FIELDS := by
    intro p hp
    unfold tlsOf at hp
    split at hp
    · cases hp
    · rw [List.mem_singleton.mp hp]
      exact (by decide : "tls" ∈ NODE_FIELDS)
  have htransport : ∀ p ∈ transportOf node, p.1 ∈ NODE_FIELDS := by
    intro p hp
    unfold transportOf at hp
    split at hp <;> simp at hp <;> simp [hp, NODE_FIELDS]
  have hfields : ∃ fields, outboundOf node = .obj fields ∧ ∀ p ∈ fields, p.1 ∈ NODE_FIELDS := by
    refine ⟨_, rfl, ?_⟩
    intro p hp
    rcases List.mem_append.mp hp with hp | hp
    · simp only [List.mem_cons, List.not_mem_nil, or_false] at hp
      rcases hp with rfl | rfl | rfl | rfl <;> simp [NODE_FIELDS]
    · cases hkind : node.kind with
      | ss =>
          simp only [hkind, List.mem_cons, List.not_mem_nil, or_false] at hp
          rcases hp with rfl | rfl <;> simp [NODE_FIELDS]
      | trojan =>
          simp only [hkind, List.mem_append, List.mem_singleton] at hp
          rcases hp with (rfl | hp) | hp
          · simp [NODE_FIELDS]
          · exact htls p hp
          · exact htransport p hp
      | vmess =>
          simp only [hkind, List.mem_append, List.mem_cons, List.not_mem_nil, or_false] at hp
          rcases hp with ((rfl | rfl | rfl) | hp) | hp
          · simp [NODE_FIELDS]
          · simp [NODE_FIELDS]
          · simp [NODE_FIELDS]
          · exact htls p hp
          · exact htransport p hp
      | vless =>
          simp only [hkind, List.mem_append, List.mem_singleton] at hp
          rcases hp with (((rfl | hp) | rfl) | hp) | hp
          · simp [NODE_FIELDS]
          · split at hp <;> simp at hp
            simp [hp, NODE_FIELDS]
          · simp [NODE_FIELDS]
          · exact htls p hp
          · exact htransport p hp
  obtain ⟨fields, heq, hfields⟩ := hfields
  rw [heq, Json.field, List.lookup_eq_none_iff]
  intro p hp
  rw [bne_iff_ne]
  rintro rfl
  exact h (hfields p hp)

theorem outboundRefs_node (node : ProxyNode) : (outboundOf node).outboundRefs = [] := by
  rw [Json.outboundRefs, Json.list, outboundOf_field node (by decide),
    outboundOf_field node (by decide)]
  rfl

theorem Json.map_text (l : List String) : (l.map Json.str).map Json.text = l := by
  rw [List.map_map]
  exact List.map_id l

theorem outboundRefs_auto (l : List String) :
    (Json.obj [("type", .str "urltest"), ("tag", .str "Auto"), ("outbounds", .arr (l.map .str)),
      ("url", .str TEST_URL), ("interval", .str "5m"), ("tolerance", .num 50)]).outboundRefs = l :=
  (List.append_nil _).trans (Json.map_text l)

theorem outboundRefs_select (group first : String) (l : List String) :
    (Json.obj [("type", .str "selector"), ("tag", .str group), ("outbounds", .arr (l.map .str)),
      ("default", .str first)]).outboundRefs = l ++ [first] :=
  congrArg (· ++ [first]) (Json.map_text l)

/-- What the groups refer to. -/
theorem singbox_group_refs :
    (singboxGroups nodes rawGroup).flatMap Json.outboundRefs =
      usableNames nodes ++ (autoNames nodes ++ usableNames nodes ++ ["direct"] ++
        [if usableNames nodes = [] then "direct" else "Auto"]) := by
  have hdirect : (Json.obj [("type", .str "direct"), ("tag", .str "direct")]).outboundRefs = [] :=
    rfl
  rw [singboxGroups, List.flatMap_append, List.flatMap_cons, List.flatMap_singleton,
    outboundRefs_select, hdirect, List.append_nil]
  congr 1
  split
  · next hnil => rw [hnil, List.flatMap_nil]
  · rw [List.flatMap_singleton, outboundRefs_auto]

/-- What the document refers to. -/
theorem singbox_refs :
    (toSingboxConfig nodes rawGroup).refs =
      (singboxGroups nodes rawGroup).flatMap Json.outboundRefs ++
      ["direct", singboxGroup nodes rawGroup] := by
  have hroute : (toSingboxConfig nodes rawGroup).field "route" = some
      (.obj [("rules", .arr [.obj [("ip_is_private", .bool true), ("outbound", .str "direct")]]),
        ("final", .str (singboxGroup nodes rawGroup)),
        ("auto_detect_interface", .bool true)]) := rfl
  have hfinal : ∀ group : String, (Json.obj [("rules", .arr [.obj [("ip_is_private", .bool true),
      ("outbound", .str "direct")]]), ("final", .str group), ("auto_detect_interface",
        .bool true)]).routeRefs = ["direct", group] := fun _ => rfl
  have hnodes : ((nodes.filter isPortableNode).map outboundOf).flatMap Json.outboundRefs = [] := by
    rw [List.flatMap_eq_nil_iff]
    intro o ho
    obtain ⟨node, -, rfl⟩ := List.mem_map.mp ho
    exact outboundRefs_node node
  rw [Json.refs, hroute, singbox_outbounds, List.flatMap_append, hnodes, List.nil_append]
  exact congrArg _ (hfinal _)

theorem singbox_refs_mem :
    ∀ r ∈ (toSingboxConfig nodes rawGroup).refs, r ∈ (toSingboxConfig nodes rawGroup).tags := by
  rw [singbox_refs, singbox_group_refs, singbox_tags, autoNames]
  intro r hr
  simp only [List.mem_append, List.mem_cons, List.not_mem_nil, or_false] at hr ⊢
  rcases hr with (hr | ((hr | hr) | hr) | hr) | hr | hr
  · exact .inl (.inl hr)
  · exact .inl (.inr hr)
  · exact .inl (.inl hr)
  · exact .inr (.inr hr)
  · split at hr
    · exact .inr (.inr hr)
    · next hsome => exact .inl (.inr (by simp [hr, hsome]))
  · exact .inr (.inr hr)
  · exact .inr (.inl hr)

/-- A sing-box document is sound if and only if no node in it has the tag of `Auto` or of the direct
outbound. -/
theorem singbox_namesSound_iff (hnodup : (usableNames nodes).Nodup) :
    NamesSound (toSingboxConfig nodes rawGroup).tags (toSingboxConfig nodes rawGroup).refs ↔
      "Auto" ∉ usableNames nodes ∧ "direct" ∉ usableNames nodes := by
  have hperm : (toSingboxConfig nodes rawGroup).tags.Perm
      (singboxGroup nodes rawGroup :: "direct" :: (autoNames nodes ++ usableNames nodes)) := by
    rw [singbox_tags, List.perm_iff_count]
    intro name
    simp only [List.count_append, List.count_cons, List.count_nil]
    omega
  exact namesSound_iff hnodup (by decide) (groupAmong_not_mem _ _ _) hperm
    (singbox_refs_mem nodes rawGroup)

end Singbox

/-! ## All names -/

/-- In the documents of a list of links, every name is there once and every reference is to one of
them, exactly when the first node that is named like `Auto` or the direct outbound, if there is one,
is left out of the documents. -/
theorem names_sound_iff (x : SubEnv) (links : List ShareLink) (opts : ClashOptions)
    (rawGroup : String) : (NamesSound (toClashConfig (parseShareUris x links) opts).names
        (toClashConfig (parseShareUris x links) opts).refs ↔
      ¬ Claimed (readNodes x links) "Auto" ∧ ¬ Claimed (readNodes x links) "DIRECT") ∧
    (NamesSound (toSingboxConfig (parseShareUris x links) rawGroup).tags
        (toSingboxConfig (parseShareUris x links) rawGroup).refs ↔
      ¬ Claimed (readNodes x links) "Auto" ∧ ¬ Claimed (readNodes x links) "direct") := by
  have hnodup : (usableNames (rename [] (readNodes x links))).Nodup :=
    List.Sublist.nodup (List.filter_sublist.map _) (rename_names [] _).1
  have hmem : ∀ w, ' ' ∉ w.toList → (w ∈ usableNames (rename [] (readNodes x links)) ↔
      Claimed (readNodes x links) w) := fun w hw => mem_names_iff _ hw List.not_mem_nil
  rw [parseShareUris_eq, clash_namesSound_iff _ _ hnodup, singbox_namesSound_iff _ _ hnodup,
    hmem "Auto" (by decide), hmem "DIRECT" (by decide), hmem "direct" (by decide)]
  exact ⟨Iff.rfl, Iff.rfl⟩

/-! ## A node named like a group -/

/-- An owner's external link whose remark is `Auto`. -/
def autoLink : ShareLink := ⟨"trojan://secret@node.example:443#Auto", none⟩

/-- The node that it is read as. -/
def autoNode : ProxyNode :=
  ⟨.trojan, "Auto", "node.example", 443, "secret", "", .tcp, .none, "", [], "", false, "",
    none, "", "", "", "", 0⟩

/-- An environment with this link. -/
def autoEnv : SubEnv where
  subToken _ := "abcdefghijklmnop"
  brands := .empty
  defaultBrand := "SRPanel"
  externalLinks := [⟨true, .uri, "trojan://secret@node.example:443#Auto"⟩]
  fetched _ := none
  decodeB64 _ := ""
  inboundRemark _ i := i.protocol
  buildLinks _ _ _ _ _ := []
  parseShareUri link _ := if link = autoLink then some autoNode else none

/-- Both documents of this one link have the name `Auto` twice, for a proxy and for a group; neither
is sound. -/
theorem auto_named_twice :
    (toClashConfig (parseShareUris autoEnv [autoLink]) ⟨"Brand", "", ""⟩).names =
      ["Auto", "Brand", "Auto", "DIRECT"] ∧
    (toSingboxConfig (parseShareUris autoEnv [autoLink]) "Brand").tags =
    ["Auto", "Auto", "Brand", "direct"] ∧
    ¬ NamesSound (toClashConfig (parseShareUris autoEnv [autoLink]) ⟨"Brand", "", ""⟩).names
        (toClashConfig (parseShareUris autoEnv [autoLink]) ⟨"Brand", "", ""⟩).refs ∧
    ¬ NamesSound (toSingboxConfig (parseShareUris autoEnv [autoLink]) "Brand").tags
        (toSingboxConfig (parseShareUris autoEnv [autoLink]) "Brand").refs := by
  have hclash : (toClashConfig (parseShareUris autoEnv [autoLink]) ⟨"Brand", "", ""⟩).names =
      ["Auto", "Brand", "Auto", "DIRECT"] := by decide +kernel
  have hsingbox : (toSingboxConfig (parseShareUris autoEnv [autoLink]) "Brand").tags =
      ["Auto", "Auto", "Brand", "direct"] := by decide +kernel
  refine ⟨hclash, hsingbox, ?_, ?_⟩
  · intro h
    have := h.distinct
    rw [hclash] at this
    exact absurd this (by decide)
  · intro h
    have := h.distinct
    rw [hsingbox] at this
    exact absurd this (by decide)

end SRPanel
