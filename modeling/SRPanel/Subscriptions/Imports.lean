import SRPanel.Subscriptions.LinkTexts

/-!
# Imported credentials

An import keeps one text for a client: the UUID or else the password of the first entry with its
email, without white space around it. The links are made of this text on every inbound, without
dashes on a Shadowsocks one. So the links carry what the panel holds exactly when every entry with
the email has that text as its secret, or, where the text is not plain in the link, what is read
from it there.
-/

namespace SRPanel

namespace Credentials

/-- The entries of a panel in the order of the scan, each with the id of its inbound. -/
def panelEntries (inbounds : List PanelInbound) : List (ℕ × PanelEntry) :=
  inbounds.flatMap fun ib => ib.clients.map fun c => (ib.id, c)

/-- The first entry with an email. -/
def firstEntry (inbounds : List PanelInbound) (email : String) : Option (ℕ × PanelEntry) :=
  (panelEntries inbounds).find? fun e => e.2.emailText = email

/-- The imported client is on every inbound that the panel has it on, and each of its links there,
to whatever endpoint, is read as the secret that the panel holds. -/
def KeepsSecrets (inbounds : List PanelInbound) (row : PanelClientRow) : Prop :=
  ∀ ib ∈ inbounds, ∀ c ∈ ib.clients, c.emailText = row.email → ib.id ∈ row.inboundIds ∧
    ∀ extras eps, (∀ ep ∈ eps, '@' ∉ ep.host.toList) → ∀ link ∈ buildLinks ib row.uuid eps,
      ∃ secret, panelSecret ib.protocol c = some secret ∧ linkSecret (link.uri extras) =
      some (ib.expected secret)

/-- Every entry with the email has the text of the first one as its secret; where this is not plain
in a link, it has as its secret what is read from the text. -/
def OneSecret (inbounds : List PanelInbound) (email : String) : Prop :=
  ∀ first ∈ firstEntry inbounds email, ∀ ib ∈ inbounds, ∀ c ∈ ib.clients, c.emailText = email →
    (PlainOn ib first.2.uuidText →
      panelSecret ib.protocol c = some (linkText ib.protocol first.2.uuidText)) ∧
    (¬PlainOn ib first.2.uuidText → ∃ secret, panelSecret ib.protocol c = some secret ∧
      ib.expected secret = reading ib first.2.uuidText)

/-! ## The scan -/

section

variable {email : String} {id : ℕ} {row : PanelClientRow}

@[simp]
theorem addInbound_email : (addInbound email id row).email = row.email := by
  unfold addInbound
  split <;> rfl

@[simp]
theorem addInbound_uuid : (addInbound email id row).uuid = row.uuid := by
  unfold addInbound
  split <;> rfl

theorem mem_addInbound_of_mem {other : ℕ} (h : other ∈ row.inboundIds) :
    other ∈ (addInbound email id row).inboundIds := by
  unfold addInbound
  split
  · exact List.mem_append_left _ h
  · exact h

theorem mem_addInbound (h : row.email = email) : id ∈ (addInbound email id row).inboundIds := by
  unfold addInbound
  split
  · exact List.mem_append_right _ (List.mem_singleton.mpr rfl)
  · next hnot => simpa [h] using hnot

end

/-- What the rows say about the entries that have been scanned. -/
structure Scanned (entries : List (ℕ × PanelEntry)) (rows : List PanelClientRow) : Prop where
  email : ∀ row ∈ rows, row.email ≠ ""
  first : ∀ row ∈ rows, ∃ first, entries.find? (fun e => e.2.emailText = row.email) = some first ∧
    row.uuid = first.2.uuidText
  inbounds : ∀ row ∈ rows, ∀ e ∈ entries, e.2.emailText = row.email → e.1 ∈ row.inboundIds
  covers : ∀ e ∈ entries, e.2.emailText ≠ "" → ∃ row ∈ rows, row.email = e.2.emailText

section

variable {entries : List (ℕ × PanelEntry)} {rows : List PanelClientRow} {x : ℕ × PanelEntry}

theorem Scanned.first_append (h : Scanned entries rows) (x : ℕ × PanelEntry) :
    ∀ row ∈ rows, ∃ first, (entries ++ [x]).find? (fun e => e.2.emailText = row.email) =
      some first ∧ row.uuid = first.2.uuidText := by
  intro row hrow
  obtain ⟨first, hfind, huuid⟩ := h.first row hrow
  exact ⟨first, by rw [List.find?_append, hfind]; rfl, huuid⟩

/-- An entry without an email is skipped. -/
theorem Scanned.skip (h : Scanned entries rows) (hempty : x.2.emailText = "") :
    Scanned (entries ++ [x]) rows := by
  refine ⟨h.email, h.first_append x, fun row hrow e he heq => ?_, fun e he hne => ?_⟩
  · obtain he | he := List.mem_append.mp he
    · exact h.inbounds row hrow e he heq
    · rw [List.mem_singleton.mp he, hempty] at heq
      exact absurd heq.symm (h.email row hrow)
  · obtain he | he := List.mem_append.mp he
    · exact h.covers e he hne
    · rw [List.mem_singleton.mp he] at hne
      exact absurd hempty hne

/-- A client that is there may get another inbound. -/
theorem Scanned.known (h : Scanned entries rows) {known : PanelClientRow} (hknown : known ∈ rows)
    (hsame : known.email = x.2.emailText) :
    Scanned (entries ++ [x]) (rows.map (addInbound x.2.emailText x.1)) := by
  refine ⟨fun row hrow => ?_, fun row hrow => ?_, fun row hrow e he heq => ?_, fun e he hne => ?_⟩
  · obtain ⟨old, hold, rfl⟩ := List.mem_map.mp hrow
    rw [addInbound_email]
    exact h.email old hold
  · obtain ⟨old, hold, rfl⟩ := List.mem_map.mp hrow
    rw [addInbound_email, addInbound_uuid]
    exact h.first_append x old hold
  · obtain ⟨old, hold, rfl⟩ := List.mem_map.mp hrow
    rw [addInbound_email] at heq
    obtain he | he := List.mem_append.mp he
    · exact mem_addInbound_of_mem (h.inbounds old hold e he heq)
    · rw [List.mem_singleton.mp he] at heq ⊢
      exact mem_addInbound heq.symm
  · obtain he | he := List.mem_append.mp he
    · obtain ⟨row, hrow, heq⟩ := h.covers e he hne
      exact ⟨_, List.mem_map_of_mem hrow, addInbound_email.trans heq⟩
    · rw [List.mem_singleton.mp he]
      exact ⟨_, List.mem_map_of_mem hknown, addInbound_email.trans hsame⟩

/-- A client whose email no row has. -/
theorem Scanned.added (h : Scanned entries rows) (hemail : x.2.emailText ≠ "")
    (hnot : ∀ row ∈ rows, row.email ≠ x.2.emailText) :
    Scanned (entries ++ [x]) (rows ++ [⟨x.2.emailText, x.2.uuidText, [x.1]⟩]) := by
  have hnew : ∀ e ∈ entries, e.2.emailText ≠ x.2.emailText := by
    intro e he heq
    obtain ⟨row, hrow, hsame⟩ := h.covers e he (by rwa [heq])
    exact hnot row hrow (hsame.trans heq)
  refine ⟨fun row hrow => ?_, fun row hrow => ?_, fun row hrow e he heq => ?_, fun e he hne => ?_⟩
  · obtain hrow | hrow := List.mem_append.mp hrow
    · exact h.email row hrow
    · rw [List.mem_singleton.mp hrow]
      exact hemail
  · obtain hrow | hrow := List.mem_append.mp hrow
    · exact h.first_append x row hrow
    · rw [List.mem_singleton.mp hrow]
      have hnone : entries.find? (fun e => e.2.emailText = x.2.emailText) = none :=
        List.find?_eq_none.mpr fun e he => by simpa using hnew e he
      exact ⟨x, by rw [List.find?_append, hnone, List.find?_singleton]; simp, rfl⟩
  · obtain hrow | hrow := List.mem_append.mp hrow
    · obtain he | he := List.mem_append.mp he
      · exact h.inbounds row hrow e he heq
      · rw [List.mem_singleton.mp he] at heq
        exact absurd heq.symm (hnot row hrow)
    · rw [List.mem_singleton.mp hrow] at heq ⊢
      obtain he | he := List.mem_append.mp he
      · exact absurd heq (hnew e he)
      · rw [List.mem_singleton.mp he]
        exact List.mem_singleton.mpr rfl
  · obtain he | he := List.mem_append.mp he
    · obtain ⟨row, hrow, heq⟩ := h.covers e he hne
      exact ⟨row, List.mem_append_left _ hrow, heq⟩
    · rw [List.mem_singleton.mp he]
      exact ⟨_, List.mem_append_right _ (List.mem_singleton.mpr rfl), rfl⟩

theorem Scanned.step (h : Scanned entries rows) (x : ℕ × PanelEntry) :
    Scanned (entries ++ [x]) (scanEntry x.1 rows x.2) := by
  unfold scanEntry
  split
  · next hempty => exact h.skip hempty
  · next hemail =>
    split
    · next hany =>
      obtain ⟨known, hknown, hsame⟩ := List.any_eq_true.mp hany
      exact h.known hknown (of_decide_eq_true hsame)
    · next hany =>
      refine h.added hemail fun row hrow hsame => hany ?_
      exact List.any_eq_true.mpr ⟨row, hrow, decide_eq_true hsame⟩

end

theorem Scanned.run {entries : List (ℕ × PanelEntry)} {rows : List PanelClientRow}
    (h : Scanned entries rows) (more : List (ℕ × PanelEntry)) :
    Scanned (entries ++ more) (more.foldl (fun rows e => scanEntry e.1 rows e.2) rows) := by
  induction more generalizing entries rows with
  | nil => simpa using h
  | cons x more ih => simpa using ih (h.step x)

theorem scanned_panel (inbounds : List PanelInbound) :
    Scanned (panelEntries inbounds) (scanRows inbounds) := by
  have hnil : Scanned [] [] := ⟨by simp, by simp, by simp, by simp⟩
  have hrun := hnil.run (panelEntries inbounds)
  rw [List.nil_append, panelEntries, List.foldl_flatMap] at hrun
  simp only [List.foldl_map] at hrun
  exact hrun

/-! ## The import -/

theorem createClients_subset {row : PanelClientRow} {taken : List String}
    {rows : List PanelClientRow} (h : row ∈ createClients taken rows) : row ∈ rows := by
  induction rows generalizing taken with
  | nil => exact h
  | cons x rows ih =>
    rw [createClients] at h
    split at h
    · exact List.mem_cons_of_mem _ (ih h)
    · obtain rfl | h := List.mem_cons.mp h
      · exact List.mem_cons_self
      · exact List.mem_cons_of_mem _ (ih h)

section

variable {le : String → String → Bool} {inbounds : List PanelInbound}
  {linked taken emails : List String} {row : PanelClientRow}

/-- A client that is imported has the text of the first entry with its email, and every inbound with
such an entry. -/
theorem imported_row (h : row ∈ importPanelClients le inbounds linked taken emails) :
    (∃ first, firstEntry inbounds row.email = some first ∧ row.uuid = first.2.uuidText) ∧
      ∀ ib ∈ inbounds, ∀ c ∈ ib.clients, c.emailText = row.email → ib.id ∈ row.inboundIds := by
  have hscan := List.mem_mergeSort.mp (List.mem_of_mem_filter (createClients_subset h))
  obtain ⟨old, hold, rfl⟩ := List.mem_map.mp hscan
  have hscanned := scanned_panel inbounds
  refine ⟨hscanned.first old hold, fun ib hib c hc heq => ?_⟩
  rw [List.mem_mergeSort]
  exact hscanned.inbounds old hold (ib.id, c)
    (List.mem_flatMap.mpr ⟨ib, hib, List.mem_map.mpr ⟨c, hc, rfl⟩⟩) heq

/-- An import keeps the credentials of a client exactly when every entry with its email has the text
of the first entry as its secret, as links show it. -/
theorem import_keepsSecrets_iff (h : row ∈ importPanelClients le inbounds linked taken emails) :
    KeepsSecrets inbounds row ↔ OneSecret inbounds row.email := by
  obtain ⟨⟨first, hfirst, huuid⟩, hinbounds⟩ := imported_row h
  have htrim : trim row.uuid = row.uuid := by
    rw [huuid]
    exact trim_trim _
  -- on a plain inbound, what is read is the text
  have hplain : ∀ ib : PanelInbound, PlainOn ib row.uuid → ∀ secret,
      ib.expected secret = reading ib row.uuid ↔ secret = linkText ib.protocol row.uuid := by
    intro ib hplain secret
    rw [reading_of_plain htrim hplain]
    exact (expected_injective ib).eq_iff
  constructor
  · intro hkeeps found hfound ib hib c hc heq
    obtain rfl : first = found := Option.some.inj (hfirst.symm.trans hfound)
    obtain ⟨link, hlink⟩ : ∃ link, link ∈ buildLinks ib row.uuid [⟨"", 0, "", ""⟩] :=
      ⟨_, List.mem_cons_self⟩
    have hhosts : ∀ ep ∈ [(⟨"", 0, "", ""⟩ : Endpoint)], '@' ∉ ep.host.toList := by simp
    obtain ⟨secret, hsecret, hread⟩ :=
      (hkeeps ib hib c hc heq).2 ⟨fun _ _ => "", fun _ _ => "", fun _ => ""⟩ _ hhosts link hlink
    rw [linkSecret_of_mem hhosts _ hlink] at hread
    have hexpected : ib.expected secret = reading ib row.uuid := (Option.some.inj hread).symm
    rw [← huuid]
    refine ⟨fun hp => ?_, fun _ => ⟨secret, hsecret, hexpected⟩⟩
    rw [hsecret, (hplain ib hp secret).mp hexpected]
  · intro hone ib hib c hc heq
    refine ⟨hinbounds ib hib c hc heq, fun extras eps hhosts link hlink => ?_⟩
    obtain ⟨hp, hnot⟩ := hone first hfirst ib hib c hc heq
    rw [← huuid] at hp hnot
    rw [linkSecret_of_mem hhosts extras hlink]
    by_cases hcase : PlainOn ib row.uuid
    · exact ⟨_, hp hcase, by rw [(hplain ib hcase _).mpr rfl]⟩
    · obtain ⟨secret, hsecret, hexpected⟩ := hnot hcase
      exact ⟨secret, hsecret, by rw [hexpected]⟩

end

/-- A client on a vless and on a Trojan inbound of a panel. -/
def mixedPanel (password : String) : List PanelInbound :=
  [⟨1, "vless", none, none, [⟨some "sara", some "8c6d1a52", none, none⟩], "none", "tcp"⟩,
    ⟨2, "trojan", none, none, [⟨some "sara", none, some password, none⟩], "none", "tcp"⟩]

/-- The client that an import makes of it. -/
def mixedRow : PanelClientRow := ⟨"sara", "8c6d1a52", [1, 2]⟩

theorem mixedRow_imported {password : String}
    (hrows : scanRows (mixedPanel password) = [mixedRow]) :
    mixedRow ∈ importPanelClients (fun _ _ => true) (mixedPanel password) [] [] [] := by
  have himport : importPanelClients (fun _ _ => true) (mixedPanel password) [] [] [] =
      [mixedRow] := by
    rw [importPanelClients, scanPanelClients, hrows, List.map_singleton, List.mergeSort_singleton,
      List.mergeSort_of_pairwise (by decide)]
    decide +kernel
  rw [himport]
  exact List.mem_singleton.mpr rfl

/-- The Trojan link of a client that has a UUID on another inbound carries the UUID instead of the
password. -/
theorem trojan_password_lost :
    mixedRow ∈ importPanelClients (fun _ _ => true) (mixedPanel "p4ss") [] [] [] ∧
    ¬KeepsSecrets (mixedPanel "p4ss") mixedRow := by
  refine ⟨mixedRow_imported (by decide +kernel), fun hkeeps => ?_⟩
  have hhosts : ∀ ep ∈ [(⟨"1.2.3.4", 443, "tls", "sara"⟩ : Endpoint)], '@' ∉ ep.host.toList := by
    simp only [List.mem_singleton, forall_eq]
    decide +kernel
  obtain ⟨secret, hsecret, hread⟩ :=
    (hkeeps ⟨2, "trojan", none, none, [⟨some "sara", none, some "p4ss", none⟩], "none", "tcp"⟩
      (by simp [mixedPanel]) ⟨some "sara", none, some "p4ss", none⟩ (by simp) (by decide +kernel)).2
      ⟨fun _ _ => "security=tls", fun _ _ => "", fun _ => "sara"⟩ _ hhosts _ List.mem_cons_self
  obtain rfl : "p4ss" = secret := Option.some.inj hsecret
  exact absurd hread (by decide +kernel)

/-- With one text on both inbounds, the links stay valid. -/
theorem import_keepsSecrets_same : KeepsSecrets (mixedPanel "8c6d1a52") mixedRow := by
  refine (import_keepsSecrets_iff (mixedRow_imported (by decide +kernel))).mpr fun first hfirst =>
    ?_
  have hfound : firstEntry (mixedPanel "8c6d1a52") mixedRow.email
      = some (1, ⟨some "sara", some "8c6d1a52", none, none⟩) := by decide +kernel
  obtain rfl := Option.some.inj (hfound.symm.trans hfirst)
  have hnone : ("8c6d1a52".toList.all fun c => c ∉ ['\t', '\n', '\r', '/', '?', '#', ':']) = true :=
    by decide
  have huser : PlainUser "8c6d1a52".toList := by
    refine ⟨fun c hc => ?_, .inl (by decide)⟩
    unfold UserEnds
    exact of_decide_eq_true (List.all_eq_true.mp hnone c hc)
  have hsecrets : ∀ ib ∈ mixedPanel "8c6d1a52", ∀ c ∈ ib.clients,
      ib.protocol ≠ "vmess" ∧ ib.protocol ≠ "shadowsocks" ∧
        panelSecret ib.protocol c = some (linkText ib.protocol "8c6d1a52") := by decide +kernel
  have htext : (⟨some "sara", some "8c6d1a52", none, none⟩ : PanelEntry).uuidText = "8c6d1a52" :=
    by decide +kernel
  intro ib hib c hc _
  rw [htext]
  obtain ⟨hvmess, hss, hsecret⟩ := hsecrets ib hib c hc
  have hplain : PlainOn ib "8c6d1a52" := by
    rw [PlainOn, if_neg hvmess, if_neg hss]
    exact huser
  exact ⟨fun _ => hsecret, fun hnot => absurd hplain hnot⟩

/-- A password with a hash on a trojan inbound is cut by whoever reads the link. -/
example : linkSecret ((ShareLink.trojan "a#b" ⟨"1.2.3.4", 443, "tls", "sara"⟩).uri
    ⟨fun _ _ => "security=tls", fun _ _ => "", fun _ => "sara"⟩) = some "" := by decide +kernel

end Credentials

end SRPanel
