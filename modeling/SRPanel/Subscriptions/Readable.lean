import SRPanel.Subscriptions.ClashLines

/-!
# The Clash document can be read

The document is one of YAML as long as no name is cut within a surrogate pair: a half of a pair
becomes an escape that YAML does not know. Comments are the other place; they are printed without
quotes.
-/

namespace SRPanel

namespace Clash

open Utf16 YamlText JsonText

/-! ## Comments -/

section

variable {us raw fallback group : Text} {opts : ClashOptions}

theorem marks_written : encode "# " = [35, 32] ∧ encode " +" = [32, 43] ∧
    encode "SR-Panel" = [83, 82, 45, 80, 97, 110, 101, 108] ∧
    (encode " (Clash / Mihomo)").all isCommentUnit := by
  decide +kernel

theorem not_isUnsafe_of_isSurrogate {u : UInt16} (hu : isSurrogate u) :
    isUnsafe u.toNat = false := by
  simp only [isSurrogate, isHigh, isLow, Bool.or_eq_true, Bool.and_eq_true, decide_eq_true_eq] at hu
  simp only [isUnsafe, Bool.or_eq_false_iff, decide_eq_false_iff_not]
  omega

/-- `safeName` drops ASCII characters only, and these are code units. -/
theorem stripped_isUnsafe (raw : Text) :
    stripped isUnsafe raw = trim (raw.filter fun u => !isUnsafe u.toNat) := by
  unfold stripped
  congr 1
  have hunit : ∀ (u : UInt16) (rest : List Text),
      (([u] :: rest).filter fun p => !isUnsafe (codePoint p)).flatten =
        [u].filter (fun u => !isUnsafe u.toNat) ++ (rest.filter fun p =>
          !isUnsafe (codePoint p)).flatten := by
    intro u rest
    have hpoint : codePoint [u] = u.toNat := rfl
    by_cases h : isUnsafe u.toNat = true
    · rw [List.filter_cons_of_neg (by rw [hpoint, h]; decide), List.filter_cons_of_neg (by rw [h]; decide)]
      rfl
    · rw [Bool.not_eq_true] at h
      rw [List.filter_cons_of_pos (by rw [hpoint, h]; rfl),
        List.filter_cons_of_pos (by rw [h]; rfl)]
      rfl
  induction raw using points.induct with
  | case1 => rfl
  | case2 u => rw [points, hunit]; exact List.append_nil _
  | case3 u v us hpair ih =>
    rw [points, if_pos hpair]
    rw [Bool.and_eq_true] at hpair
    have hu := not_isUnsafe_of_isSurrogate (show isSurrogate u by
      rw [isSurrogate, hpair.1, Bool.true_or])
    have hv := not_isUnsafe_of_isSurrogate (show isSurrogate v by
      rw [isSurrogate, hpair.2, Bool.or_true])
    have hbig : 127 < codePoint [u, v] := by
      change 127 < 0x10000 + (u.toNat - 0xd800) * 0x400 + (v.toNat - 0xdc00)
      omega
    have hpoint : isUnsafe (codePoint [u, v]) = false := by
      generalize codePoint [u, v] = n at hbig
      simp only [isUnsafe, Bool.or_eq_false_iff, decide_eq_false_iff_not]
      omega
    rw [List.filter_cons_of_pos (by rw [hpoint]; rfl), List.filter_cons_of_pos (by rw [hu]; rfl),
      List.filter_cons_of_pos (by rw [hv]; rfl), List.flatten_cons, ih]
    rfl
  | case4 u v us hpair ih =>
    rw [points, if_neg hpair, hunit, ih, ← List.filter_append]
    rfl

/-- A text that `safeName` leaves as it is. -/
structure Settled (us : Text) : Prop where
  safe : ∀ u ∈ us, isUnsafe u.toNat = false
  front : us.dropWhile isSpace = us
  back : us.rdropWhile isSpace = us
  ne : us ≠ []

theorem Settled.stripped_eq (h : Settled us) : stripped isUnsafe us = us := by
  have hall : us.filter (fun u => !isUnsafe u.toNat) = us := by
    apply List.filter_eq_self.mpr
    intro u hu
    rw [h.safe u hu]
    rfl
  rw [stripped_isUnsafe, hall, trim, h.front, h.back]

/-- A safe name is settled. -/
theorem settled_safeName (hfallback : Settled fallback) : Settled (safeName raw fallback) := by
  unfold safeName orText
  split
  · exact hfallback
  next hne =>
  rw [stripped_isUnsafe] at hne ⊢
  generalize hkept : raw.filter (fun u => !isUnsafe u.toNat) = kept at hne ⊢
  have hstart : trim kept <+: kept.dropWhile isSpace := List.rdropWhile_prefix isSpace _
  refine ⟨fun u hu => ?_, ?_, ?_, hne⟩
  · have hmem : u ∈ kept := List.dropWhile_subset isSpace (hstart.subset hu)
    rw [← hkept] at hmem
    simpa using (List.mem_filter.mp hmem).2
  · rw [List.dropWhile_eq_self_iff]
    intro hlen
    have hhead := hstart.getElem hlen
    rw [hhead]
    exact (List.dropWhile_eq_self_iff.mp (List.dropWhile_idempotent (p := isSpace) kept)) _
  · exact List.rdropWhile_idempotent isSpace _

/-- So is one with a plus sign behind it. -/
theorem Settled.plus (h : Settled us) : Settled (us ++ encode " +") := by
  rw [marks_written.2.1]
  refine ⟨fun u hu => ?_, ?_, ?_, by simp⟩
  · rw [List.mem_append, List.mem_pair] at hu
    rcases hu with hu | rfl | rfl
    · exact h.safe u hu
    · rfl
    · rfl
  · rw [List.dropWhile_append, if_neg]
    · rw [h.front]
    · rw [h.front, List.isEmpty_iff]
      exact h.ne
  · rw [show us ++ [32, 43] = (us ++ [32]) ++ [43] by simp]
    exact List.rdropWhile_concat_neg _ _ _ (by decide)

/-- The label of the group before it is set apart from the nodes. -/
def groupLabel (opts : ClashOptions) : Text := safeName opts.group (encode "SR-Panel")

/-- The title and the page are printable, as comments have to be. -/
def Printable (opts : ClashOptions) : Prop :=
  (safeName opts.title (groupLabel opts)).all isCommentUnit ∧ opts.pageUrl.all isCommentUnit

/-- So is the label of the group. -/
theorem settled_groupLabel (opts : ClashOptions) : Settled (groupLabel opts) := by
  refine settled_safeName ?_
  rw [marks_written.2.2.1]
  refine ⟨fun u hu => ?_, by decide, by decide, by decide⟩
  exact of_decide_eq_true (List.all_eq_true.mp (show [83, 82, 45, 80, 97, 110, 101, 108].all
    fun u : UInt16 => isUnsafe u.toNat = false from rfl) u hu)

/-- What is put behind a label that is taken. -/
theorem plussed_spec (h : Settled us) (k : ℕ) :
    Settled (plussed us k) ∧ ((plussed us k).all isCommentUnit ↔ us.all isCommentUnit) := by
  induction k with
  | zero => exact ⟨h, Iff.rfl⟩
  | succ k ih =>
    refine ⟨ih.1.plus, ?_⟩
    rw [plussed, List.all_append, marks_written.2.1, Bool.and_eq_true, ih.2]
    exact and_iff_left rfl

theorem groupAmong_spec (names : List Text) (opts : ClashOptions) :
    Settled (groupAmong names (groupLabel opts)) ∧
      ((groupAmong names (groupLabel opts)).all isCommentUnit ↔
        (groupLabel opts).all isCommentUnit) := by
  obtain ⟨k, -, heq, -⟩ :=
    Fresh.firstFree_spec (plussed (groupLabel opts)) (AUTO :: DIRECT :: names) (names.length + 2) 0
  rw [groupAmong, heq]
  exact plussed_spec (settled_groupLabel opts) _

/-- The heading of the document. -/
theorem heading_eq (h : Settled group) (title : Text) :
    safeName (orText title group) group = safeName title group := by
  unfold orText
  split
  · next hnil =>
    rw [hnil, safeName, h.stripped_eq, safeName]
    exact if_neg h.ne
  · rfl

theorem heading_printable (h : (group.all isCommentUnit ↔ us.all isCommentUnit)) (title : Text) :
    (safeName title group).all isCommentUnit ↔ (safeName title us).all isCommentUnit := by
  unfold safeName orText
  split
  · exact h
  · exact Iff.rfl

theorem readLine_comment (us : Text) :
    readLine 0 (encode "# " ++ us) = if us.all isCommentUnit then some [] else none := by
  rw [marks_written.1, List.cons_append, List.singleton_append, readLine, if_neg (by decide),
    if_pos rfl, List.all_cons]
  rfl

theorem break_not_mem_comment (h : us.all isCommentUnit) : 10 ∉ us := fun hmem =>
  absurd (List.all_eq_true.mp h 10 hmem) (by decide)

theorem lexes_comment (hus : WellFormed us) (h : us.all isCommentUnit) :
    Lexes [encode "# " ++ us] [] := by
  refine .singleton ?_ ?_ ?_
  · rw [readLine_comment, if_pos h]
  · rw [List.mem_append, not_or, marks_written.1]
    exact ⟨by decide, break_not_mem_comment h⟩
  · refine WellFormed.append ?_ hus
    exact wellFormed_fixed (by simp [TEXTS])

/-- The texts that the subscription page passes on. -/
structure OptionTexts (opts : ClashOptions) : Prop where
  group : WellFormed opts.group
  title : WellFormed opts.title
  pageUrl : WellFormed opts.pageUrl
  /-- the URL has no control characters -/
  control : ∀ u ∈ opts.pageUrl, 32 ≤ u.toNat ∧ ¬(127 ≤ u.toNat ∧ u.toNat ≤ 159)

/-- A safe name is well formed. -/
theorem wellFormed_safeName (hraw : WellFormed raw) (hfallback : WellFormed fallback) :
    WellFormed (safeName raw fallback) := wellFormed_orText (wellFormed_stripped hraw) hfallback

/-- So is the name of the group. -/
theorem wellFormed_groupAmong (hopts : OptionTexts opts) (names : List Text) :
    WellFormed (groupAmong names (groupLabel opts)) := by
  obtain ⟨k, -, heq, -⟩ :=
    Fresh.firstFree_spec (plussed (groupLabel opts)) (AUTO :: DIRECT :: names) (names.length + 2) 0
  rw [groupAmong, heq]
  generalize 0 + k = n
  have hplus : WellFormed (encode " +") := wellFormed_fixed (by simp [TEXTS])
  induction n with
  | zero => exact wellFormed_safeName hopts.group (wellFormed_fixed (by simp [TEXTS]))
  | succ n ih => exact ih.append hplus

/-- Printable comments are read as nothing. -/
theorem lexes_comments (hopts : OptionTexts opts) (hprintable : Printable opts)
    (names : List Text) : Lexes (commentLines (groupAmong names (groupLabel opts)) opts) [] := by
  obtain ⟨hsettled, hlabel⟩ := groupAmong_spec names opts
  have hgroup := wellFormed_groupAmong hopts names
  generalize groupAmong names (groupLabel opts) = group at hsettled hlabel hgroup
  have hclash : WellFormed (encode " (Clash / Mihomo)") := wellFormed_fixed (by simp [TEXTS])
  have htitle : Lexes [encode "# " ++
      (safeName (orText opts.title group) group ++ encode " (Clash / Mihomo)")] [] := by
    rw [heading_eq hsettled]
    refine lexes_comment ((wellFormed_safeName hopts.title hgroup).append hclash) ?_
    rw [List.all_append, Bool.and_eq_true, heading_printable hlabel]
    exact ⟨hprintable.1, marks_written.2.2.2⟩
  have hpage : Lexes (if opts.pageUrl = [] then [] else [encode "# " ++ opts.pageUrl]) [] := by
    split
    · exact .nil
    · exact lexes_comment hopts.pageUrl hprintable.2
  exact htitle.append hpage

/-! ## The document of nodes -/

variable {nodes : List ProxyNode} {v : Value}

/-- Nodes with well-formed texts and printable comments make a document, and it says what the nodes
say. -/
theorem reads_of_wellFormed (hopts : OptionTexts opts) (hprintable : Printable opts)
    (hnodes : ∀ node ∈ nodes.filter isPortableNode, NodeTexts node ∧ WellFormed node.name) :
    Reads (toClashConfig nodes opts) (document nodes opts) := by
  have hcomments := lexes_comments hopts hprintable
    ((nodes.filter isPortableNode).map ProxyNode.name)
  have hgroup := wellFormed_groupAmong hopts ((nodes.filter isPortableNode).map ProxyNode.name)
  obtain ⟨ts, hlex, hfields⟩ := lines_document hgroup hnodes
  have hnode : Node 0 (document nodes opts) ts :=
    .map (Nat.zero_le _) (by simp [settingEntries]) (among_document.nodup (by simp)) hfields
  have hlines := hcomments.append hlex
  unfold toClashConfig
  refine reads_of_lexes (by simp [configLines, commentLines]) ?_ hnode
  unfold configLines
  simp only [List.append_assoc] at hlines ⊢
  exact hlines

/-- The heading is one line. -/
theorem safe_heading (h : Settled group) (title : Text) : 10 ∉ safeName title group := fun hmem =>
  absurd ((settled_safeName h).safe 10 hmem) (by decide)

/-- The comments of a document are printable. -/
theorem printable_of_reads (hopts : OptionTexts opts) (h : Reads (toClashConfig nodes opts) v) :
    Printable opts := by
  unfold toClashConfig configLines commentLines at h
  extract_lets usable names group at h
  obtain ⟨hsettled, hlabel⟩ :
      Settled group ∧ (group.all isCommentUnit ↔ (groupLabel opts).all isCommentUnit) :=
    groupAmong_spec names opts
  generalize group = g at h hsettled hlabel
  have hmark : ∀ us : Text, 10 ∉ us → 10 ∉ encode "# " ++ us := by
    intro us hus
    rw [List.mem_append, not_or, marks_written.1]
    exact ⟨by decide, hus⟩
  have hcomment : ∀ us : Text, readLine 0 (encode "# " ++ us) ≠ none → us.all isCommentUnit := by
    intro us hread
    rw [readLine_comment] at hread
    by_contra hnot
    exact hread (if_neg hnot)
  constructor
  · have hclash : 10 ∉ encode " (Clash / Mihomo)" := break_not_mem_comment marks_written.2.2.2
    have hall := hcomment _ (h.readLine_ne_none List.mem_cons_self (hmark _ ?_))
    · rw [heading_eq hsettled, List.all_append, Bool.and_eq_true, heading_printable hlabel] at hall
      exact hall.1
    · rw [heading_eq hsettled, List.mem_append, not_or]
      exact ⟨safe_heading hsettled opts.title, hclash⟩
  · by_cases hnil : opts.pageUrl = []
    · rw [hnil]
      rfl
    · refine hcomment _ (h.readLine_ne_none ?_ (hmark _ fun hmem => ?_))
      · rw [if_neg hnil]
        simp
      · have hlow := (hopts.control 10 hmem).1
        exact absurd hlow (by decide)

/-- The names in a document are well formed. -/
theorem names_of_reads (h : Reads (toClashConfig nodes opts) v) :
    ∀ node ∈ nodes.filter isPortableNode, WellFormed node.name := by
  intro node hnode
  have hbreak : 10 ∉ add 3 (item (q node.name)) := by
    have hquote := break_not_mem_quote node.name
    simp only [add, item, List.mem_append, List.mem_cons, not_or]
    exact ⟨break_not_mem_indent _, by decide, by decide, hquote⟩
  refine wellFormed_of_readLine (c := 2 * 3) (h.readLine_ne_none ?_ hbreak)
  unfold configLines selectLines
  have hname : add 3 (item (q node.name)) ∈
      ((nodes.filter isPortableNode).map ProxyNode.name).map fun name => add 3 (item (q name)) :=
    List.mem_map_of_mem (List.mem_map_of_mem hnode)
  simp only [List.mem_append, List.mem_cons]
  tauto

/-! ## The links -/

variable {env : UriEnv} {link : ShareLink} {links : List ShareLink} {node : ProxyNode}

/-- What is parsed, its name aside. -/
def unnamed (node : ProxyNode) : ProxyNode := { node with name := [] }

theorem parseUrlLike_unnamed (kind : NodeKind) (raw fallback fallback' : Text) :
    (parseUrlLike env kind raw fallback).map unnamed =
    (parseUrlLike env kind raw fallback').map unnamed := by
  unfold parseUrlLike
  rw [Option.map_bind, Option.map_bind]
  refine congrArg (Option.bind _) (funext fun url => ?_)
  dsimp only [Function.comp_apply]
  split
  · rfl
  · rfl

theorem parseVmess_unnamed (raw fallback fallback' : Text) :
    (parseVmess env raw fallback).map unnamed = (parseVmess env raw fallback').map unnamed := by
  unfold parseVmess
  dsimp only
  rw [Option.map_bind, Option.map_bind]
  refine congrArg (Option.bind _) (funext fun fields => ?_)
  dsimp only [Function.comp_apply]
  split
  · rfl
  · rfl

theorem ssNode_unnamed (creds hostPort name name' : Text) :
    (ssNode creds hostPort name).map unnamed = (ssNode creds hostPort name').map unnamed := by
  unfold ssNode
  split
  · split
    · rfl
    split
    · rfl
    · rfl
  · rfl

theorem parseSs_unnamed (raw fallback fallback' : Text) :
    (parseSs env raw fallback).map unnamed = (parseSs env raw fallback').map unnamed := by
  unfold parseSs
  dsimp only
  split
  · rfl
  split
  · exact ssNode_unnamed _ _ _ _
  split
  · exact ssNode_unnamed _ _ _ _
  · rfl

/-- The fallback of a name changes nothing else. -/
theorem parseShareUri_unnamed (link : ShareLink) (fallback fallback' : Text) :
    (parseShareUri env link fallback).map unnamed =
    (parseShareUri env link fallback').map unnamed := by
  unfold parseShareUri
  dsimp only
  rw [Option.map_bind, Option.map_bind]
  refine congrArg (Option.bind _) (funext fun parts => ?_)
  dsimp only [Function.comp_apply]
  split
  · exact parseUrlLike_unnamed _ _ _ _
  split
  · exact parseUrlLike_unnamed _ _ _ _
  split
  · exact parseVmess_unnamed _ _ _
  split
  · exact parseSs_unnamed _ _ _
  · rfl

/-- The link is one to a node that the format can carry. -/
def Usable (env : UriEnv) (link : ShareLink) : Prop :=
  ∃ node ∈ parseShareUri env link [], isPortableNode node

theorem usable_iff (link : ShareLink) (fallback : Text) :
    Usable env link ↔ ∃ node ∈ parseShareUri env link fallback, isPortableNode node := by
  have hcarry : ∀ a b : Option ProxyNode, a.map unnamed = b.map unnamed →
      (∃ node ∈ a, isPortableNode node) → ∃ node ∈ b, isPortableNode node := by
    rintro a b hab ⟨node, rfl, hportable⟩
    cases b with
    | none => cases hab
    | some node' =>
      have hsame : unnamed node = unnamed node' := Option.some.inj hab
      refine ⟨node', rfl, ?_⟩
      change isPortableNode (unnamed node') = true
      rw [← hsame]
      exact hportable
  exact ⟨hcarry _ _ (parseShareUri_unnamed link _ _), hcarry _ _ (parseShareUri_unnamed link _ _)⟩

/-- A node of the list comes from a link, and its name is made unique. -/
theorem mem_parseFrom {fallbackPrefix : Text} {index : ℕ} {used : List Text}
    (h : node ∈ parseFrom env fallbackPrefix index used links) :
    ∃ link ∈ links, ∃ k used' node', parseShareUri env link (fallbackPrefix ++ (32 :: numeral k)) =
      some node' ∧ node = { node' with name := uniqueName node'.name used' } := by
  induction links generalizing index used with
  | nil => exact absurd h List.not_mem_nil
  | cons link links ih =>
    rw [parseFrom] at h
    split at h
    · obtain ⟨link', hlink', hrest⟩ := ih h
      exact ⟨link', List.mem_cons_of_mem _ hlink', hrest⟩
    · next node' hparse =>
      rcases List.mem_cons.mp h with rfl | h
      · exact ⟨link, List.mem_cons_self, index, used, node', hparse, rfl⟩
      · obtain ⟨link', hlink', hrest⟩ := ih h
        exact ⟨link', List.mem_cons_of_mem _ hlink', hrest⟩

theorem parseFrom_of_mem (hlink : link ∈ links)
    (hnode : ∀ fallback, ∃ node, parseShareUri env link fallback = some node)
    (fallbackPrefix : Text) (index : ℕ) (used : List Text) :
    ∃ k used' node', parseShareUri env link (fallbackPrefix ++ (32 :: numeral k)) = some node' ∧
      { node' with name := uniqueName node'.name used' } ∈
        parseFrom env fallbackPrefix index used links := by
  induction links generalizing index used with
  | nil => exact absurd hlink List.not_mem_nil
  | cons first links ih =>
    rw [parseFrom]
    rcases List.mem_cons.mp hlink with rfl | hlink
    · obtain ⟨node', hparse⟩ := hnode (fallbackPrefix ++ (32 :: numeral index))
      rw [hparse]
      exact ⟨index, used, node', hparse, List.mem_cons_self⟩
    · split
      · exact ih hlink _ _
      · obtain ⟨k, used', node', hparse, hmem⟩ := ih hlink (index + 1) _
        exact ⟨k, used', node', hparse, List.mem_cons_of_mem _ hmem⟩

variable {fallbackPrefix : Text}

theorem wellFormed_fallback (hfallback : WellFormed fallbackPrefix) (k : ℕ) :
    WellFormed (fallbackPrefix ++ (32 :: numeral k)) :=
  hfallback.append (.unit rfl (wellFormed_word (isWord_numeral k)))

/-- A node whose label is not cut within a pair has well-formed texts. -/
theorem node_texts (henv : env.Unicode) (hlinks : ∀ link ∈ links, LinkTexts env link)
    (hfallback : WellFormed fallbackPrefix)
    (hcut : ∀ link ∈ links, Usable env link → ¬CutsPair (labelOf env link)) :
    ∀ node ∈ (parseShareUris env links fallbackPrefix).filter isPortableNode,
      NodeTexts node ∧ WellFormed node.name := by
  intro node hnode
  obtain ⟨hmem, hportable⟩ := List.mem_filter.mp hnode
  obtain ⟨link, hlink, k, used, node', hparse, rfl⟩ := mem_parseFrom hmem
  obtain ⟨htexts, hown, hname⟩ := parseShareUri_texts henv (hlinks link hlink) hparse
  have hlabel := hcut link hlink ((usable_iff link _).mpr ⟨node', hparse, hportable⟩)
  obtain ⟨suffix, hunique, hsuffix, -⟩ := uniqueName_eq_append node'.name used
  refine ⟨{ htexts with }, ?_⟩
  change WellFormed (uniqueName node'.name used)
  rw [hunique, hname]
  refine WellFormed.append ?_ hsuffix
  exact name_wellFormed hown (hlinks link hlink).remark (wellFormed_fallback hfallback k) hlabel

/-- A name that is cut within a pair is not well formed, and no number behind it makes it so. -/
theorem not_cutsPair_of_wellFormed {own remark : Text} {used : List Text}
    (h : WellFormed (uniqueName (cleanName own (cleanName remark fallback)) used)) :
    ¬CutsPair (orText (stripped isControl own) (stripped isControl remark)) := by
  intro hcut
  obtain ⟨x, u, hx, hu⟩ : ∃ x u, cleanName own (cleanName remark fallback) = x ++ [u] ∧ isHigh u :=
    name_of_cutsPair hcut
  obtain ⟨suffix, hunique, -, hsuffix⟩ :=
    uniqueName_eq_append (cleanName own (cleanName remark fallback)) used
  rw [hunique, hx, List.append_assoc, List.singleton_append] at h
  have hstart : WellFormed x := (h.part fun v hv => by
    obtain rfl : u = v := by simpa using hv
    exact isLow_of_isHigh hu).1
  exact not_wellFormed_cut hstart hu hsuffix h

/-- The labels in a document are not cut within a pair. -/
theorem labels_of_reads (henv : env.Unicode) (hlinks : ∀ link ∈ links, LinkTexts env link)
    (h : Reads (toClashConfig (parseShareUris env links fallbackPrefix) opts) v) :
    ∀ link ∈ links, Usable env link → ¬CutsPair (labelOf env link) := by
  intro link hlink husable
  have hall : ∀ fallback, ∃ node, parseShareUri env link fallback = some node := by
    intro fallback
    obtain ⟨node, hnode, -⟩ := (usable_iff link fallback).mp husable
    exact ⟨node, hnode⟩
  obtain ⟨k, used, node', hparse, hmem⟩ := parseFrom_of_mem hlink hall fallbackPrefix 1 []
  obtain ⟨node, hnode, hportable⟩ :=
    (usable_iff link (fallbackPrefix ++ (32 :: numeral k))).mp husable
  obtain rfl : node' = node := Option.some.inj (hparse.symm.trans hnode)
  have hname := names_of_reads h _ (List.mem_filter.mpr ⟨hmem, hportable⟩)
  obtain ⟨-, -, heq⟩ := parseShareUri_texts henv (hlinks link hlink) hparse
  change WellFormed (uniqueName node'.name used) at hname
  rw [heq] at hname
  exact not_cutsPair_of_wellFormed hname

/-- The text is a document, and it says what the nodes say, exactly if no label of a node is cut
within a pair and the comments are printable; it says nothing else in any case. -/
theorem clash_reads_iff (env : UriEnv) (henv : env.Unicode) (links : List ShareLink)
    (hlinks : ∀ link ∈ links, LinkTexts env link) (fallbackPrefix : Text)
    (hfallback : WellFormed fallbackPrefix)
    (opts : ClashOptions) (hopts : OptionTexts opts) :
    (Reads (toClashConfig (parseShareUris env links fallbackPrefix) opts)
        (document (parseShareUris env links fallbackPrefix) opts) ↔
      (∀ link ∈ links, Usable env link → ¬CutsPair (labelOf env link)) ∧ Printable opts) ∧
    ∀ v, Reads (toClashConfig (parseShareUris env links fallbackPrefix) opts) v →
      v = document (parseShareUris env links fallbackPrefix) opts := by
  have hreads : ∀ v, Reads (toClashConfig (parseShareUris env links fallbackPrefix) opts) v →
      (∀ link ∈ links, Usable env link → ¬CutsPair (labelOf env link)) ∧ Printable opts :=
    fun v h => ⟨labels_of_reads henv hlinks h, printable_of_reads hopts h⟩
  have hdocument : (∀ link ∈ links, Usable env link → ¬CutsPair (labelOf env link)) ∧
      Printable opts → Reads (toClashConfig (parseShareUris env links fallbackPrefix) opts)
        (document (parseShareUris env links fallbackPrefix) opts) :=
    fun h => reads_of_wellFormed hopts h.2 (node_texts henv hlinks hfallback h.1)
  exact ⟨⟨hreads _, hdocument⟩, fun v h => h.unique (hdocument (hreads v h))⟩

end

/-! ## A label that is cut -/

/-- A runtime that knows one URL, as far as a link to it needs it. -/
def vlessEnv : UriEnv where
  parseUrl raw :=
    if raw = encode "vless://u@h:443" then some ⟨encode "h", encode "443", encode "u", [], fun _ =>
      none⟩ else none
  decodeURIComponent value := if value.all fun u =>
    u.toNat < 128 && u ≠ 37 then some value else none
  base64 _ := []
  parseJson _ := none

/-- A group label, without a title and a page. -/
def plainOptions : ClashOptions := ⟨encode "SR", [], []⟩

/-- A remark of 59 letters and an emoji. -/
def longRemark : Text := List.replicate 59 97 ++ [0xd83d, 0xde00]

/-- The texts and the labels of the two examples below. -/
theorem vless_samples :
    (isBasic (encode "h") ∧ isBasic (encode "u") ∧ isBasic (encode "vless://u@h:443") ∧
      isBasic (encode "node") ∧ isBasic (encode "SR")) ∧
    ((safeName plainOptions.title (groupLabel plainOptions)).all isCommentUnit ∧
      plainOptions.pageUrl.all isCommentUnit) ∧
    labelOf vlessEnv (.row (encode "vless://u@h:443") []) = [] ∧
    labelOf vlessEnv (.row (encode "vless://u@h:443") longRemark) = longRemark ∧
    (parseShareUri vlessEnv (.row
      (encode "vless://u@h:443") longRemark) []).any isPortableNode := by
  decide +kernel

/-- The texts of the example are plain. -/
theorem vlessTexts_basic :
    isBasic (encode "h") ∧ isBasic (encode "u") ∧ isBasic (encode "vless://u@h:443") ∧
    isBasic (encode "node") ∧ isBasic (encode "SR") := vless_samples.1

/-- Its environment reads Unicode as the real one does. -/
theorem vlessEnv_unicode : vlessEnv.Unicode := by
  have hurl : ∀ raw url, vlessEnv.parseUrl raw = some url →
      url = ⟨encode "h", encode "443", encode "u", [], fun _ => none⟩ := by
    intro raw url h
    simp only [vlessEnv] at h
    split at h
    · exact (Option.some.inj h).symm
    · cases h
  exact
    { hostname := fun raw url h => hurl raw url h ▸ wellFormed_of_isBasic vlessTexts_basic.1
      username := fun raw url h => hurl raw url h ▸ wellFormed_of_isBasic vlessTexts_basic.2.1
      hash := by
        intro raw url h u hu
        rw [hurl raw url h] at hu
        cases hu
      get := by
        intro raw url h key s hs
        rw [hurl raw url h] at hs
        cases hs
      decodeURIComponent := by
        intro value s _ h
        simp only [vlessEnv] at h
        split at h
        · next hall =>
          obtain rfl := Option.some.inj h
          refine wellFormed_of_forall fun u hu => isSurrogate_of_lt ?_
          have hlow := List.all_eq_true.mp hall u hu
          simp only [Bool.and_eq_true, decide_eq_true_eq] at hlow
          omega
        · cases h
      base64 := fun _ => .nil
      number := by
        intro text fields h
        cases h }

/-- Its link has well-formed texts. -/
theorem linkTexts_vless (remark : Text) (hremark : WellFormed remark) :
    LinkTexts vlessEnv (.row (encode "vless://u@h:443") remark) where
  raw := wellFormed_trim (wellFormed_of_isBasic vlessTexts_basic.2.2.1)
  remark := wellFormed_trim hremark
  fields := by
    intro fields h
    unfold vmessFields at h
    extract_lets text at h
    split at h
    · cases h
    · cases h

/-- So do its options. -/
theorem plainOptions_texts : OptionTexts plainOptions where
  group := wellFormed_of_isBasic vlessTexts_basic.2.2.2.2
  title := .nil
  pageUrl := .nil
  control := fun _ hu => absurd hu List.not_mem_nil

/-- They are printable. -/
theorem plainOptions_printable : Printable plainOptions := vless_samples.2.1

theorem clash_reads_plain :
    Reads (toClashConfig (parseShareUris vlessEnv [.row (encode "vless://u@h:443") []]
      (encode "node")) plainOptions) (document
        (parseShareUris vlessEnv [.row (encode "vless://u@h:443") []]
          (encode "node")) plainOptions) := by
  refine (clash_reads_iff vlessEnv vlessEnv_unicode [.row (encode "vless://u@h:443") []] ?_
    (encode "node") ?_ plainOptions plainOptions_texts).1.mpr ⟨?_, plainOptions_printable⟩
  · intro link hlink
    obtain rfl := List.mem_singleton.mp hlink
    exact linkTexts_vless [] .nil
  · exact wellFormed_of_isBasic vlessTexts_basic.2.2.2.1
  · intro link hlink husable hcut
    obtain rfl := List.mem_singleton.mp hlink
    have hlabel : labelOf vlessEnv (.row (encode "vless://u@h:443") []) = [] := vless_samples.2.2.1
    rw [hlabel] at hcut
    exact absurd hcut.1 (by decide)

/-- The long remark is well formed. -/
theorem wellFormed_longRemark : WellFormed longRemark := by
  have hletters : WellFormed (List.replicate 59 97) := wellFormed_of_forall fun u hu => by
    rw [List.eq_of_mem_replicate hu]
    decide
  exact hletters.append (.pair (by decide) (by decide) .nil)

/-- The name of a node with this remark ends in the middle of the emoji, and the text is no
document. -/
theorem clash_unreadable :
    LinkTexts vlessEnv (.row (encode "vless://u@h:443") longRemark) ∧ OptionTexts plainOptions ∧
      ¬∃ v, Reads (toClashConfig
        (parseShareUris vlessEnv [.row (encode "vless://u@h:443") longRemark]
          (encode "node")) plainOptions) v := by
  have htexts := linkTexts_vless longRemark wellFormed_longRemark
  refine ⟨htexts, plainOptions_texts, ?_⟩
  rintro ⟨v, h⟩
  have hlinks : ∀ link ∈ [ShareLink.row (encode "vless://u@h:443") longRemark],
      LinkTexts vlessEnv link := by
    intro link hlink
    obtain rfl := List.mem_singleton.mp hlink
    exact htexts
  have husable : Usable vlessEnv (.row (encode "vless://u@h:443") longRemark) :=
    (Option.any_eq_true isPortableNode _).mp vless_samples.2.2.2.2
  have hlabel : labelOf vlessEnv (.row (encode "vless://u@h:443") longRemark) = longRemark :=
    vless_samples.2.2.2.1
  refine labels_of_reads vlessEnv_unicode hlinks h _ List.mem_cons_self husable ?_
  rw [hlabel]
  exact ⟨by decide, 0xd83d, by decide, by decide⟩

end Clash

end SRPanel
