import SRPanel.Lib.Pool
import SRPanel.Model.Backups
import Mathlib.Data.List.Nodup

/-!
# The file of a backup row

A dump is named after the minute it begins in, and everything that is done to a file goes by its
name. While a run finds its name free, no two rows name one file, and the file of every row that is
`OK` holds what the run of that row has dumped. Two runs in one minute share a file; so does a
safety backup with the backup that is being restored, if both fall into one minute.
-/

namespace SRPanel.Backups

open Interleaving Prog

namespace BackupStore

/-- The file of every row that is `OK` holds what the row's own run has dumped; a row that was
imported has had no run. -/
def OwnDumps (s : BackupStore) : Prop :=
  ∀ r ∈ s.rows, r.status = .ok →
    (∃ f ∈ s.files.get? r.fileName, s.dumped.get? r.id = some f.bytes) ∨
      s.dumped.get? r.id = none ∧ r.trigger = "imported"

/-- What has been replayed is what was checked, and it has passed the check. -/
def ReplaysVerified (s : BackupStore) : Prop :=
  ∀ p ∈ s.replays, p.replayed = p.verified ∧ p.check.ok = true ∧
    ∃ t : BackupStore, p.check = t.checkOf p.fileName p.verified

/-- The invariant: rows have different names, and ids that were drawn. -/
structure Intact (s : BackupStore) : Prop where
  own : s.OwnDumps
  names : (s.rows.map Backup.fileName).Nodup
  drawn : ∀ r ∈ s.rows, r.id < s.nextId
  undrawn : ∀ n, s.nextId ≤ n → s.dumped.get? n = none
  replays : s.ReplaysVerified

/-- The files of the backups `held`, which no other row names, are as `fs` has them. -/
def Holds (held : List Backup) (fs : String → Option DumpFile) (s : BackupStore) : Prop :=
  ∀ r ∈ held, r.status = .ok ∧ (∀ q ∈ s.rows, q.fileName = r.fileName → q = r) ∧
    s.files.get? r.fileName = fs r.fileName

/-- The invariant, with backups that are held. -/
def Keeps (held : List Backup) (fs : String → Option DumpFile) (s : BackupStore) : Prop :=
  s.Intact ∧ s.Holds held fs

/-- No backup has the name of a dump that begins now. -/
def NameFree (s : BackupStore) : Prop := ∀ r ∈ s.rows, r.fileName ≠ s.dumpName

end BackupStore

section States

variable {held : List Backup} {fs : String → Option DumpFile} {s t : BackupStore}
    {p : Backup → Bool}

/-- Rows of one name are one row. -/
theorem BackupStore.Intact.row_unique (h : s.Intact) {r r' : Backup} (hr : r ∈ s.rows)
    (hr' : r' ∈ s.rows) (hname : r.fileName = r'.fileName) : r = r' :=
  List.inj_on_of_nodup_map h.names hr hr' hname

/-- The invariant is about the rows, the files and what was dumped and replayed. -/
theorem BackupStore.Keeps.same (h : s.Keeps held fs) (hrows : t.rows = s.rows)
    (hfiles : t.files = s.files) (hdumped : t.dumped = s.dumped) (hid : t.nextId = s.nextId)
    (hreplays : t.replays = s.replays) :
    t.Keeps held fs := by
  obtain ⟨h, hheld⟩ := h
  refine ⟨⟨?_, ?_, ?_, ?_, ?_⟩, ?_⟩
  · unfold BackupStore.OwnDumps
    rw [hrows, hfiles, hdumped]
    exact h.own
  · rw [hrows]
    exact h.names
  · rw [hrows, hid]
    exact h.drawn
  · rw [hid, hdumped]
    exact h.undrawn
  · unfold BackupStore.ReplaysVerified
    rw [hreplays]
    exact h.replays
  · unfold BackupStore.Holds
    rw [hrows, hfiles]
    exact hheld

/-- Rows may go. -/
theorem BackupStore.Keeps.filter (h : s.Keeps held fs) :
    ({ s with rows := s.rows.filter p } : BackupStore).Keeps held fs := by
  obtain ⟨h, hheld⟩ := h
  refine ⟨⟨?_, ?_, ?_, h.undrawn, h.replays⟩, ?_⟩
  · intro r hr hok
    exact h.own r (List.mem_filter.mp hr).1 hok
  · exact (List.filter_sublist.map _).nodup h.names
  · intro r hr
    exact h.drawn r (List.mem_filter.mp hr).1
  · intro r hr
    obtain ⟨hok, hone, hfile⟩ := hheld r hr
    exact ⟨hok, fun q hq => hone q (List.mem_filter.mp hq).1, hfile⟩

/-- Rows that are not `OK` may change into others that are not. -/
theorem BackupStore.Keeps.map {f : Backup → Backup} (h : s.Keeps held fs)
    (hf : ∀ r ∈ s.rows, (f r).fileName = r.fileName ∧ (f r).id = r.id ∧
      (f r = r ∨ r.status ≠ .ok ∧ (f r).status ≠ .ok)) :
    ({ s with rows := s.rows.map f } : BackupStore).Keeps held fs := by
  obtain ⟨h, hheld⟩ := h
  refine ⟨⟨?_, ?_, ?_, h.undrawn, h.replays⟩, ?_⟩
  · intro r hr hok
    obtain ⟨q, hq, rfl⟩ := List.mem_map.mp hr
    rcases (hf q hq).2.2 with heq | ⟨-, hnot⟩
    · rw [heq] at hok ⊢
      exact h.own q hq hok
    · exact absurd hok hnot
  · have hnames : (s.rows.map f).map Backup.fileName = s.rows.map Backup.fileName := by
      rw [List.map_map]
      exact List.map_congr_left fun r hr => (hf r hr).1
    show ((s.rows.map f).map Backup.fileName).Nodup
    rw [hnames]
    exact h.names
  · intro r hr
    obtain ⟨q, hq, rfl⟩ := List.mem_map.mp hr
    rw [(hf q hq).2.1]
    exact h.drawn q hq
  · intro r hr
    obtain ⟨hok, hone, hfile⟩ := hheld r hr
    refine ⟨hok, fun q hq hname => ?_, hfile⟩
    obtain ⟨q', hq', rfl⟩ := List.mem_map.mp hq
    obtain rfl := hone q' hq' ((hf q' hq').1.symm.trans hname)
    rcases (hf q' hq').2.2 with heq | ⟨hnot, -⟩
    · exact heq
    · exact absurd hok hnot

/-- A file that no row names that is `OK` may change or go. -/
theorem BackupStore.Keeps.files (h : s.Keeps held fs) {files : Table String DumpFile}
    (hfiles : ∀ r ∈ s.rows, r.status = .ok → files.get? r.fileName = s.files.get? r.fileName)
    (hfs : ∀ r ∈ held, files.get? r.fileName = s.files.get? r.fileName) :
    ({ s with files := files } : BackupStore).Keeps held fs := by
  obtain ⟨h, hheld⟩ := h
  refine ⟨⟨?_, h.names, h.drawn, h.undrawn, h.replays⟩, ?_⟩
  · intro r hr hok
    show (∃ f ∈ files.get? r.fileName, _) ∨ _
    rw [hfiles r hr hok]
    exact h.own r hr hok
  · intro r hr
    obtain ⟨hok, hone, hfile⟩ := hheld r hr
    exact ⟨hok, hone, (hfs r hr).trans hfile⟩

end States

/-! ## Retention and housekeeping -/

section Housekeeping

variable {held : List Backup} {fs : String → Option DumpFile} {s : BackupStore}

/-- The deletion of a backup that is not held. -/
theorem deleteBackup_keeps {id : ℕ} (h : s.Keeps held fs) (hid : ∀ r ∈ held, r.id ≠ id) :
    Prog.wp (deleteBackup id) (fun _ => BackupStore.Keeps held fs)
      (fun _ => BackupStore.Keeps held fs) s := by
  unfold deleteBackup look unlinkDump change
  rw [wp_bind, wp_query]
  cases hfound : s.rows.find? (·.id = id) with
  | none => exact h
  | some b =>
      have hb : b ∈ s.rows := List.mem_of_find?_eq_some hfound
      have hbid : b.id = id := by simpa using List.find?_some hfound
      -- the row goes first here: the file that goes with it is then no other row's
      have hrows : ({ s with rows := s.rows.filter (·.id ≠ id) } : BackupStore).Keeps held fs :=
        h.filter
      have hother : ∀ r ∈ s.rows.filter (·.id ≠ id), r.fileName ≠ b.fileName := by
        intro r hr hname
        obtain ⟨hmem, hne⟩ := List.mem_filter.mp hr
        obtain rfl := h.1.row_unique hmem hb hname
        simp [hbid] at hne
      dsimp only
      split
      · rw [wp_bind, wp_modify, wp_modify]
        have hfiles : ({ s with rows := s.rows.filter (·.id ≠ id), files := s.files.erase b.fileName } :
            BackupStore).Keeps held fs := by
          refine hrows.files (fun r hr _ => ?_) fun r hr => ?_
          · rw [Table.get?_erase, if_neg (hother r hr)]
          · rw [Table.get?_erase, if_neg]
            intro hname
            exact hid r hr ((h.2 r hr).2.1 b hb hname.symm ▸ hbid)
        exact hfiles.same rfl rfl rfl rfl rfl
      · rw [wp_modify]
        exact hrows

theorem dropOldFailures_keeps (h : s.Keeps held fs) :
    Prog.wp dropOldFailures (fun _ => BackupStore.Keeps held fs) (fun _ _ => False) s := by
  unfold dropOldFailures change
  rw [wp_modify]
  exact h.filter

theorem retain_keeps {bs : BackupSettings} {protect : List ℕ} {cutoff : ℤ}
    (hprotect : ∀ r ∈ held, r.id ∈ protect) (i : ℕ) (ok : List Backup) (h : s.Keeps held fs) :
    Prog.wp (retain bs protect cutoff i ok) (fun _ => BackupStore.Keeps held fs)
      (fun _ _ => False) s := by
  induction ok generalizing i s with
  | nil => exact h
  | cons b ok ih =>
      rw [retain]
      split
      · exact ih (i + 1) h
      · next hkeep =>
          split
          · have hid : ∀ r ∈ held, r.id ≠ b.id := by
              intro r hr heq
              simp [heq ▸ hprotect r hr] at hkeep
            rw [wp_bind, wp_attempt]
            refine wp_mono _ (deleteBackup_keeps h hid) (fun _ t ht => ih (i + 1) ht) fun _ t ht =>
              ?_
            rw [wp_pure]
            exact ih (i + 1) ht
          · exact ih (i + 1) h

theorem applyRetention_keeps {bs : BackupSettings} {protect : List ℕ}
    (hprotect : ∀ r ∈ held, r.id ∈ protect) (h : s.Keeps held fs) :
    Prog.wp (applyRetention bs protect) (fun _ => BackupStore.Keeps held fs)
      (fun _ _ => False) s := by
  unfold applyRetention look
  rw [wp_bind, wp_query, wp_bind, wp_query, wp_bind]
  exact wp_mono _ (retain_keeps hprotect 0 _ h) (fun _ t ht => dropOldFailures_keeps ht)
    fun _ _ hf => hf

theorem cleanupBackups_keeps (h : s.Keeps held fs) :
    Prog.wp cleanupBackups (fun _ => BackupStore.Keeps held fs) (fun _ _ => False) s := by
  unfold cleanupBackups look change
  rw [wp_bind, wp_query, wp_bind, wp_modify, wp_bind, wp_modify, wp_bind]
  -- runs that were interrupted are not `OK`, neither before nor after
  have hmap := h.map (f := fun r => if r.status = .running && r.at' < s.now - 6 * 3600000 then
      { r with status := .failed, error := some "interrupted", finishedAt := some s.now } else r)
        fun r _ => by
    split
    · next hrun => simp [show r.status = .running by simpa using (Bool.and_eq_true_iff.mp hrun).1]
    · exact ⟨rfl, rfl, .inl rfl⟩
  refine wp_mono _ (dropOldFailures_keeps hmap.filter) (fun _ t ht => ?_) fun _ _ hf => hf
  rw [wp_modify]
  exact ht.same rfl rfl rfl rfl rfl

end Housekeeping

/-! ## A run -/

/-- The row of a run that is in progress: the only one with its id and the only one with its name,
and not `OK`. -/
structure BackupStore.Pending (held : List Backup) (fs : String → Option DumpFile) (row : Backup)
    (s : BackupStore) : Prop where
  keeps : s.Keeps held fs
  sole : ∀ r ∈ s.rows, r.id = row.id ↔ r.fileName = row.fileName
  open' : ∀ r ∈ s.rows, r.id = row.id → r.status ≠ .ok
  other : ∀ r ∈ held, r.fileName ≠ row.fileName
  drawn : row.id < s.nextId

section Runs

variable {held : List Backup} {fs : String → Option DumpFile} {s t : BackupStore} {row : Backup}

/-- What happens to the file of a run in progress is its own matter. -/
theorem BackupStore.Pending.files (h : s.Pending held fs row) {files : Table String DumpFile}
    (hfiles : ∀ name, name ≠ row.fileName → files.get? name = s.files.get? name) :
    ({ s with files := files } : BackupStore).Pending held fs row := by
  refine ⟨h.keeps.files (fun r hr hok => hfiles _ fun hname => ?_) fun r hr =>
    hfiles _ (h.other r hr), h.sole, h.open', h.other, h.drawn⟩
  exact h.open' r hr ((h.sole r hr).mpr hname) hok

theorem BackupStore.Pending.same (h : s.Pending held fs row) (hrows : t.rows = s.rows)
    (hfiles : t.files = s.files) (hdumped : t.dumped = s.dumped) (hid : t.nextId = s.nextId)
    (hreplays : t.replays = s.replays) :
    t.Pending held fs row :=
  ⟨h.keeps.same hrows hfiles hdumped hid hreplays, hrows ▸ h.sole, hrows ▸ h.open', h.other,
    hid ▸ h.drawn⟩

/-- What the run of a row has dumped is noted; the row is not `OK` yet. -/
theorem BackupStore.Pending.dumped (h : s.Pending held fs row) (bytes : Bytes) :
    ({ s with dumped := s.dumped.set row.id bytes } : BackupStore).Pending held fs row := by
  obtain ⟨⟨hintact, hheld⟩, hsole, hopen, hother, hdrawn⟩ := h
  refine ⟨⟨⟨?_, hintact.names, hintact.drawn, ?_, hintact.replays⟩, hheld⟩, hsole, hopen,
    hother, hdrawn⟩
  · intro r hr hok
    show (∃ f ∈ s.files.get? r.fileName, (s.dumped.set row.id bytes).get? r.id = _) ∨
      (s.dumped.set row.id bytes).get? r.id = none ∧ _
    rw [Table.get?_set, if_neg fun heq => hopen r hr heq hok]
    exact hintact.own r hr hok
  · intro n hn
    show (s.dumped.set row.id bytes).get? n = none
    rw [Table.get?_set, if_neg]
    · exact hintact.undrawn n hn
    · rintro rfl
      exact absurd hdrawn (Nat.not_lt.mpr hn)

/-- The row of a run may be changed, as long as it does not become `OK`. -/
theorem updateBackup_fails {f : Backup → Backup} (h : s.Pending held fs row)
    (hf : ∀ r, (f r).fileName = r.fileName ∧ (f r).id = r.id ∧ (f r).status ≠ .ok) :
    Prog.wp (updateBackup row.id f) (fun _ => BackupStore.Keeps held fs)
      (fun _ => BackupStore.Keeps held fs) s := by
  unfold updateBackup
  rw [wp_step]
  cases s.rows.find? (·.id = row.id) with
  | none => exact h.keeps
  | some _ =>
      refine h.keeps.map fun r hr => ?_
      split
      · next hid => exact ⟨(hf r).1, (hf r).2.1, .inr ⟨h.open' r hr hid, (hf r).2.2⟩⟩
      · exact ⟨rfl, rfl, .inl rfl⟩

/-- The row of a run may become `OK` once its file holds what the run has dumped. -/
theorem updateBackup_finishes {f : Backup → Backup} {bytes : Bytes} {file : DumpFile}
    (h : s.Pending held fs row) (hfile : s.files.get? row.fileName = some file)
    (hbytes : file.bytes = bytes)
    (hdumped : s.dumped.get? row.id = some bytes)
    (hf : ∀ r, (f r).fileName = r.fileName ∧ (f r).id = r.id) :
    Prog.wp (updateBackup row.id f) (fun _ => BackupStore.Keeps held fs)
      (fun _ => BackupStore.Pending held fs row) s := by
  unfold updateBackup
  rw [wp_step]
  cases s.rows.find? (·.id = row.id) with
  | none => exact h
  | some _ =>
      obtain ⟨⟨hintact, hheld⟩, hsole, hopen, hother, hdrawn⟩ := h
      -- the write as a map of the rows, which keeps ids and names
      let g : Backup → Backup := fun r => if r.id = row.id then f r else r
      have hname : ∀ r, (g r).fileName = r.fileName := by
        intro r
        by_cases hid : r.id = row.id
        · rw [show g r = f r from if_pos hid, (hf r).1]
        · rw [show g r = r from if_neg hid]
      have hid : ∀ r, (g r).id = r.id := by
        intro r
        by_cases hid : r.id = row.id
        · rw [show g r = f r from if_pos hid, (hf r).2]
        · rw [show g r = r from if_neg hid]
      refine ⟨⟨?_, ?_, ?_, hintact.undrawn, hintact.replays⟩, ?_⟩
      · intro r hr hok
        obtain ⟨q, hq, rfl⟩ := List.mem_map.mp (show r ∈ s.rows.map g from hr)
        by_cases hown : q.id = row.id
        · left
          rw [hname, hid, hown, (hsole q hq).mp hown]
          exact ⟨file, hfile, hbytes ▸ hdumped⟩
        · rw [show g q = q from if_neg hown] at hok ⊢
          exact hintact.own q hq hok
      · show ((s.rows.map g).map Backup.fileName).Nodup
        rw [List.map_map, show Backup.fileName ∘ g = Backup.fileName from funext hname]
        exact hintact.names
      · intro r hr
        obtain ⟨q, hq, rfl⟩ := List.mem_map.mp (show r ∈ s.rows.map g from hr)
        rw [hid]
        exact hintact.drawn q hq
      · intro r hr
        obtain ⟨hok, hone, hfile⟩ := hheld r hr
        refine ⟨hok, fun q hq hqname => ?_, hfile⟩
        obtain ⟨q', hq', rfl⟩ := List.mem_map.mp (show q ∈ s.rows.map g from hq)
        obtain rfl := hone q' hq' ((hname q').symm.trans hqname)
        exact if_neg fun hown => hopen q' hq' hown hok

/-- Checking a file changes nothing. -/
theorem inspectFile_keeps (fileName : String) : (inspectFile fileName).Keeps fun s t => t = s := by
  unfold inspectFile look
  refine keeps_bind (keeps_query (R := fun s t => t = s) (fun _ => rfl) _ _) fun u => ?_
  cases u.files.get? fileName with
  | none => exact keeps_throw _
  | some file => exact keeps_pure _

/-- The check of a file is about its content. -/
theorem inspectFile_spec {fileName : String} {file : DumpFile}
    (hfile : s.files.get? fileName = some file) :
      Prog.wp (inspectFile fileName) (fun check t => t = s ∧ check = s.checkOf fileName file.bytes)
        (fun _ t => t = s) s := by
  unfold inspectFile look
  rw [wp_bind, wp_query, id, hfile]
  exact ⟨rfl, rfl⟩

theorem verifyDump_keeps (verify : Bool) (fileName : String) :
    (verifyDump verify fileName).Keeps fun s t => t = s :=
  keeps_ite (keeps_bind (inspectFile_keeps fileName) fun _ =>
    keeps_ite (keeps_throw _) (keeps_pure _)) (keeps_pure _)

/-- A run that has dumped leaves what it has dumped in its file. -/
theorem pgDumpToGzip_keeps (h : s.Pending held fs row) :
    Prog.wp (pgDumpToGzip row) (fun bytes t => t.Pending held fs row ∧
      (∃ file, t.files.get? row.fileName = some file ∧ file.bytes = bytes) ∧
      t.dumped.get? row.id = some bytes)
      (fun _ => BackupStore.Pending held fs row) s := by
  unfold pgDumpToGzip
  rw [wp_step]
  obtain ⟨bytes, e⟩ := s.env.pgDump s.rows
  have hfile : ({ s with files := s.files.set row.fileName ⟨bytes, s.now⟩ } :
    BackupStore).Pending held fs row :=
    h.files fun name hne => Table.get?_set_of_ne _ _ hne
  cases e with
  | some e => exact hfile
  | none =>
      exact ⟨hfile.dumped bytes, ⟨⟨bytes, s.now⟩, Table.get?_set_self _ _ _, rfl⟩,
        Table.get?_set_self _ _ _⟩

theorem dumpRow_keeps {trigger : String} {protectIds : List ℕ}
    (hprotect : ∀ r ∈ held, r.id ∈ protectIds) (h : s.Pending held fs row) :
    Prog.wp (dumpRow row trigger protectIds) (fun _ => BackupStore.Keeps held fs)
      (fun _ => BackupStore.Pending held fs row) s := by
  unfold dumpRow look writeMeta change
  rw [wp_bind, wp_query]
  split
  · exact h
  · rw [wp_bind]
    refine wp_mono _ (pgDumpToGzip_keeps h) (fun bytes t ht => ?_) fun _ _ ht => ht
    obtain ⟨hpending, ⟨file, hfile, hbytes⟩, hdumped⟩ := ht
    rw [wp_bind, wp_query, wp_bind]
    refine wp_mono _ ((verifyDump_keeps _ _).wp (fun _ => rfl)
      (fun _ _ _ h h' => h'.trans h) t) ?_ ?_
    · rintro check u rfl
      simp only [wp_bind, wp_query, wp_modify]
      have hmeta : ({ u with metas := u.metas.set row.fileName (newMeta u bytes trigger check) } :
          BackupStore).Pending held fs row := hpending.same rfl rfl rfl rfl rfl
      refine wp_mono _ (updateBackup_finishes hmeta hfile hbytes hdumped fun r =>
        ⟨rfl, rfl⟩) ?_ fun _ _ h => h
      intro done v hv
      have hids : ∀ r ∈ held, r.id ∈ row.id :: protectIds :=
        fun r hr => List.mem_cons_of_mem _ (hprotect r hr)
      refine wp_mono _ (applyRetention_keeps hids hv) (fun _ v' hv' => ?_) fun _ _ hf => hf.elim
      split
      · rw [wp_bind]
        exact wp_mono _ (cleanupBackups_keeps hv') (fun _ _ h => h) fun _ _ hf => hf.elim
      · exact hv'
    · rintro e u rfl
      exact hpending

theorem failRow_keeps (e : AppError) (h : s.Pending held fs row) :
    Prog.wp (failRow row e) (fun _ => BackupStore.Keeps held fs)
      (fun _ => BackupStore.Keeps held fs) s := by
  unfold failRow unlinkDump look change
  rw [wp_bind, wp_modify, wp_bind, wp_query]
  have hfiles : ({ s with files := s.files.erase row.fileName } :
    BackupStore).Pending held fs row := by
    refine h.files fun name hne => ?_
    rw [Table.get?_erase, if_neg hne]
  exact updateBackup_fails (hfiles.same rfl rfl rfl rfl rfl) fun r => ⟨rfl, rfl, by simp⟩

/-- A new row under a name that is free. -/
theorem createBackup_keeps {fileName trigger : String} (h : s.Keeps held fs)
    (hfree : ∀ r ∈ s.rows, r.fileName ≠ fileName) (hheld : ∀ r ∈ held, r.fileName ≠ fileName) :
    Prog.wp (createBackup fileName trigger) (fun row => BackupStore.Pending held fs row)
      (fun _ _ => False) s := by
  unfold createBackup
  rw [wp_step]
  obtain ⟨hintact, hheld'⟩ := h
  let row : Backup := ⟨s.nextId, s.now, .running, fileName, none, false, trigger, none, none⟩
  have hrows : ∀ r, r ∈ s.rows ++ [row] ↔ r ∈ s.rows ∨ r = row := by simp
  refine ⟨⟨⟨?_, ?_, ?_, ?_, hintact.replays⟩, ?_⟩, ?_, ?_, hheld, Nat.lt_succ_self _⟩
  · intro r hr hok
    rcases (hrows r).mp hr with hr | rfl
    · exact hintact.own r hr hok
    · cases hok
  · show ((s.rows ++ [row]).map Backup.fileName).Nodup
    rw [List.map_append, List.map_singleton, List.nodup_append]
    refine ⟨hintact.names, List.nodup_singleton _, ?_⟩
    intro name hname name' hname' heq
    obtain ⟨r, hr, rfl⟩ := List.mem_map.mp hname
    exact hfree r hr (heq.trans (List.mem_singleton.mp hname'))
  · intro r hr
    rcases (hrows r).mp hr with hr | rfl
    · exact Nat.lt_succ_of_lt (hintact.drawn r hr)
    · exact Nat.lt_succ_self _
  · intro n hn
    exact hintact.undrawn n (Nat.le_of_succ_le hn)
  · intro r hr
    obtain ⟨hok, hone, hfile⟩ := hheld' r hr
    refine ⟨hok, fun q hq hname => ?_, hfile⟩
    rcases (hrows q).mp hq with hq | rfl
    · exact hone q hq hname
    · exact absurd hname.symm (hheld r hr)
  · intro r hr
    rcases (hrows r).mp hr with hr | rfl
    · have hid : r.id ≠ s.nextId := (hintact.drawn r hr).ne
      exact ⟨fun h => absurd h hid, fun h => absurd h (hfree r hr)⟩
    · exact ⟨fun _ => rfl, fun _ => rfl⟩
  · intro r hr hid hok
    rcases (hrows r).mp hr with hr | rfl
    · exact absurd hid (hintact.drawn r hr).ne
    · cases hok

/-- A run whose name is free keeps the invariant and the files of the backups it has to protect. -/
theorem runBackup_keeps {trigger : String} {protectIds : List ℕ}
    (hprotect : ∀ r ∈ held, r.id ∈ protectIds) (h : s.Keeps held fs) (hfree : s.NameFree)
    (hheld : ∀ r ∈ held, r.fileName ≠ s.dumpName) :
    Prog.wp (runBackup trigger protectIds) (fun _ => BackupStore.Keeps held fs)
      (fun _ => BackupStore.Keeps held fs) s := by
  unfold runBackup look change
  rw [wp_bind, wp_query]
  split
  · exact h
  · split
    · exact h
    · rw [wp_bind, wp_modify, wp_bind]
      have hrun : ({ s with running := true } : BackupStore).Keeps held fs :=
        h.same rfl rfl rfl rfl rfl
      refine wp_mono _ (createBackup_keeps hrun hfree hheld) (fun row t ht => ?_) fun _ _ hf =>
        hf.elim
      simp only [wp_bind, wp_attempt, wp_modify, wp_throw, wp_pure]
      refine wp_mono _ (dumpRow_keeps hprotect ht) (fun _ u hu => hu.same rfl rfl rfl rfl rfl)
        fun e u hu => ?_
      exact wp_mono _ (failRow_keeps e hu) (fun _ v hv => hv.same rfl rfl rfl rfl rfl) fun _ v hv =>
        hv.same rfl rfl rfl rfl rfl

end Runs

/-! ## Restore -/

/-- The rows that the replay of a dump leaves have different names and ids that were drawn, and
those that are `OK` are there already: it brings back no backup that has been deleted. -/
def BackupStore.Restorable (s : BackupStore) (bytes : Bytes) : Prop :=
  ((s.env.psql bytes s.rows).1.map Backup.fileName).Nodup ∧
    ∀ r ∈ (s.env.psql bytes s.rows).1, r.id < s.nextId ∧ (r.status = .ok → r ∈ s.rows)

section Restore

variable {s : BackupStore}

/-- The dumps that no row names get rows under their names. -/
theorem importDumps_keeps {known names : List String} (imported : ℕ) (h : s.Intact)
    (hnodup : names.Nodup) (hnew : ∀ f ∈ names, f ∉ known → ∀ r ∈ s.rows, r.fileName ≠ f) :
    Prog.wp (importDumps known names imported) (fun _ => BackupStore.Intact)
      (fun _ _ => False) s := by
  -- on the names: a new row takes the next id, under which nothing was dumped
  induction names generalizing imported s with
  | nil => exact h
  | cons f names ih =>
      obtain ⟨hf, hnodup⟩ := List.nodup_cons.mp hnodup
      have hnew' : ∀ f ∈ names, f ∉ known → ∀ r ∈ s.rows, r.fileName ≠ f := fun g hg =>
        hnew g (List.mem_cons_of_mem f hg)
      rw [importDumps]
      split
      · exact ih imported h hnodup hnew'
      · next hknown =>
          rw [wp_bind, wp_step]
          cases s.files.get? f with
          | none => exact ih _ h hnodup hnew'
          | some file =>
              have hrows : ∀ r, r ∈ s.rows ++ [s.importedRow f file] ↔
                  r ∈ s.rows ∨ r = s.importedRow f file := by
                simp
              refine ih (s := { s with nextId := s.nextId + 1, rows := s.rows ++
                [s.importedRow f file] }) _ ⟨?_, ?_, ?_, ?_, h.replays⟩ hnodup ?_
              · intro r hr hok
                rcases (hrows r).mp hr with hr | rfl
                · exact h.own r hr hok
                · exact .inr ⟨h.undrawn _ (Nat.le_refl _), rfl⟩
              · show ((s.rows ++ [s.importedRow f file]).map Backup.fileName).Nodup
                rw [List.map_append, List.map_singleton, List.nodup_append]
                refine ⟨h.names, List.nodup_singleton _, ?_⟩
                intro name hname name' hname' heq
                obtain ⟨r, hr, rfl⟩ := List.mem_map.mp hname
                exact hnew f List.mem_cons_self hknown r hr
                  (heq.trans (List.mem_singleton.mp hname'))
              · intro r hr
                rcases (hrows r).mp hr with hr | rfl
                · exact Nat.lt_succ_of_lt (h.drawn r hr)
                · exact Nat.lt_succ_self _
              · intro n hn
                exact h.undrawn n (Nat.le_of_succ_le hn)
              · intro g hg hknown' r hr
                rcases (hrows r).mp hr with hr | rfl
                · exact hnew' g hg hknown' r hr
                · rintro rfl
                  exact hf hg

theorem reindexBackups_keeps (h : s.Intact) :
    Prog.wp reindexBackups (fun _ => BackupStore.Intact) (fun _ _ => False) s := by
  unfold reindexBackups look
  rw [wp_bind, wp_query, wp_bind, wp_query]
  refine importDumps_keeps 0 h ((s.files.nodup_keys.filter _).filter _) fun f _ hknown r hr hname =>
    ?_
  exact hknown (List.mem_map.mpr ⟨r, hr, hname⟩)

theorem psqlRestore_keeps {fileName : String} {file : DumpFile} {check : BackupCheck} (h : s.Intact)
    (hfile : s.files.get? fileName = some file) (hcheck : check.ok = true)
    (habout : ∃ t : BackupStore, check = t.checkOf fileName file.bytes)
    (hrestorable : s.Restorable file.bytes) :
    Prog.wp (psqlRestore fileName file.bytes check) (fun _ => BackupStore.Intact)
      (fun _ => BackupStore.Intact) s := by
  unfold psqlRestore
  rw [wp_step, hfile]
  dsimp only
  obtain ⟨hnames, hrows⟩ := hrestorable
  have hintact : ({ s with
      rows := (s.env.psql file.bytes s.rows).1
      replays := ⟨fileName, file.bytes, check, file.bytes⟩ :: s.replays } :
      BackupStore).Intact := by
    refine ⟨fun r hr hok => h.own r ((hrows r hr).2 hok) hok, hnames, fun r hr => (hrows r hr).1,
      h.undrawn, ?_⟩
    intro p hp
    rcases List.mem_cons.mp hp with rfl | hp
    · exact ⟨rfl, hcheck, habout⟩
    · exact h.replays p hp
  cases (s.env.psql file.bytes s.rows).2 with
  | some e => exact hintact
  | none => exact hintact

theorem replay_keeps {fileName : String} {file : DumpFile} {check : BackupCheck}
    {safetyBackupId : Option ℕ} (h : s.Intact) (hfile : s.files.get? fileName = some file)
    (hcheck : check.ok = true)
    (habout : ∃ t : BackupStore, check = t.checkOf fileName file.bytes)
    (hrestorable : s.Restorable file.bytes) :
    Prog.wp (replay fileName file.bytes check safetyBackupId) (fun _ => BackupStore.Intact)
      (fun _ => BackupStore.Intact) s := by
  have hintact : ∀ {t u : BackupStore}, t.Intact → u.rows = t.rows → u.files = t.files →
      u.dumped = t.dumped → u.nextId = t.nextId → u.replays = t.replays → u.Intact := by
    intro t u ht h₁ h₂ h₃ h₄ h₅
    have hkeeps : t.Keeps [] fun _ => none := ⟨ht, fun _ hr => by cases hr⟩
    exact (hkeeps.same h₁ h₂ h₃ h₄ h₅).1
  unfold replay change
  simp only [wp_bind, wp_modify, wp_attempt, wp_throw, wp_pure]
  have hstart : ({ s with restoring := true } : BackupStore).Intact := hintact h rfl rfl rfl rfl rfl
  refine wp_mono _ (psqlRestore_keeps hstart hfile hcheck habout hrestorable)
    (fun _ t ht => ?_) fun _ t ht =>
    hintact ht rfl rfl rfl rfl rfl
  exact wp_mono _ (reindexBackups_keeps (hintact ht rfl rfl rfl rfl rfl)) (fun _ _ h => h)
    fun _ _ hf => hf.elim

/-- The safety backup leaves the file alone that is to be restored. -/
theorem safetyRun_keeps {b : Backup} {safetyBackup : Bool} (h : s.Intact) (hb : b ∈ s.rows)
    (hok : b.status = .ok) (hfree : safetyBackup → s.NameFree) :
    Prog.wp (safetyRun b.id safetyBackup)
      (fun _ t => t.Intact ∧ t.files.get? b.fileName = s.files.get? b.fileName)
        (fun _ => BackupStore.Intact) s := by
  unfold safetyRun
  split
  · next hsafety =>
      have hheld : s.Keeps [b] s.files.get? := by
        refine ⟨h, fun r hr => ?_⟩
        obtain rfl := List.mem_singleton.mp hr
        exact ⟨hok, fun q hq hname => h.row_unique hq hb hname, rfl⟩
      have hprotect : ∀ r ∈ [b], r.id ∈ [b.id] := by
        intro r hr
        rw [List.mem_singleton.mp hr]
        exact List.mem_singleton_self _
      have hother : ∀ r ∈ [b], r.fileName ≠ s.dumpName := by
        intro r hr
        rw [List.mem_singleton.mp hr]
        exact hfree hsafety b hb
      rw [wp_bind]
      refine wp_mono _ (runBackup_keeps hprotect hheld (hfree hsafety) hother)
        (fun safety t ht => ?_) fun _ _ ht => ht.1
      split
      · exact ht.1
      · exact ⟨ht.1, (ht.2 b (List.mem_singleton_self b)).2.2⟩
  · exact ⟨h, rfl⟩

/-- The row that a restore goes by is `OK` and has a file. -/
theorem backupFilePath_spec (id : ℕ) :
    Prog.wp (backupFilePath id) (fun b t => t = s ∧ s.rows.find? (·.id = id) = some b ∧
      b.status = .ok ∧ ∃ file, s.files.get? b.fileName = some file) (fun _ t => t = s) s := by
  unfold backupFilePath look
  rw [wp_bind, wp_query]
  cases hfound : s.rows.find? (·.id = id) with
  | none => rfl
  | some b =>
      dsimp only
      split
      · rfl
      · next hstatus =>
          split
          · rfl
          · next hfile =>
              refine ⟨rfl, rfl, ?_, ?_⟩
              · simp only [Bool.or_eq_true, not_or, decide_eq_true_eq, not_not] at hstatus
                exact hstatus.1
              · exact Option.isSome_iff_exists.mp (by simpa [Option.isSome_iff_ne_none] using hfile)

/-- A restore keeps the invariant if its safety backup finds its name free, and if the dump, once
the safety backup is made, brings back no backup that has been deleted. -/
theorem restoreBackup_keeps {id : ℕ} {confirmFileName : String} {safetyBackup : Bool} (h : s.Intact)
    (hfree : safetyBackup → s.NameFree)
    (hrestorable : ∀ b ∈ s.rows.find? (·.id = id), ∀ file ∈ s.files.get? b.fileName,
      ((safetyRun id safetyBackup).run s).2.Restorable file.bytes) :
    Prog.wp (restoreBackup id confirmFileName safetyBackup) (fun _ => BackupStore.Intact)
      (fun _ => BackupStore.Intact) s := by
  unfold restoreBackup look
  rw [wp_bind, wp_query]
  split
  · exact h
  split
  · exact h
  rw [wp_bind]
  refine wp_mono _ (backupFilePath_spec id) ?_ fun _ t ht => ht ▸ h
  rintro b t ⟨rfl, hfound, hok, file, hfile⟩
  have hb : b ∈ t.rows := List.mem_of_find?_eq_some hfound
  have hid : b.id = id := by simpa using List.find?_some hfound
  split
  · exact h
  split
  · exact h
  rw [wp_bind, wp_query, wp_bind, hfile]
  refine wp_mono _ (inspectFile_spec hfile) ?_ ?_
  · rintro check u ⟨rfl, habout⟩
    split
    · exact h
    · next hpassed =>
      have hcheck : check.ok = true := by simpa using hpassed
      rw [wp_bind]
      subst hid
      refine wp_mono _ (wp_run _ (safetyRun_keeps h hb hok hfree)) ?_ fun _ _ ht => ht.1
      rintro safetyBackupId v ⟨⟨hv, hsame⟩, hrun⟩
      exact replay_keeps hv (hsame.trans hfile) hcheck ⟨_,
        habout⟩ (hrun ▸ hrestorable b hfound file hfile)
  · rintro _ u rfl
    exact h

end Restore

/-! ## Sequences of calls -/

/-- A call on the backups. -/
inductive BackupCall
  | run (trigger : String)
  | delete (id : ℕ)
  | retention (settings : BackupSettings) (protectIds : List ℕ)
  | restore (id : ℕ) (confirmFileName : String) (safetyBackup : Bool)

def BackupCall.task : BackupCall → BackupTask Unit
  | run trigger => (runBackup trigger []).void
  | delete id => (deleteBackup id).void
  | retention settings protectIds => (applyRetention settings protectIds).void
  | restore id confirmFileName safetyBackup => (restoreBackup id confirmFileName safetyBackup).void

/-- A run, also one for the safety of a restore, finds its name free; and what a restore replays
brings back no backup that has been deleted. -/
def BackupCall.Apart : BackupCall → BackupStore → Prop
  | run _, s => s.NameFree
  | restore id _ safetyBackup, s => (safetyBackup → s.NameFree) ∧
      ∀ b ∈ s.rows.find? (·.id = id), ∀ file ∈ s.files.get? b.fileName,
        ((safetyRun id safetyBackup).run s).2.Restorable file.bytes
  | _, _ => True

/-- What may happen between two calls: time passes, settings change, and so does what is outside;
sidecars may be written. -/
structure Meanwhile (s t : BackupStore) : Prop where
  rows : t.rows = s.rows
  files : t.files = s.files
  dumped : t.dumped = s.dumped
  nextId : t.nextId = s.nextId
  replays : t.replays = s.replays

/-- A call that meets its condition keeps the invariant. -/
theorem BackupCall.intact (c : BackupCall) {s : BackupStore} (h : s.Intact) (hok : c.Apart s) :
    ((c.task).run s).2.Intact := by
  have hkeeps : s.Keeps [] fun _ => none := ⟨h, fun _ hr => by cases hr⟩
  have hintact : ∀ {α : Type} {p : BackupTask α},
      Prog.wp p (fun _ => BackupStore.Keeps [] fun _ => none)
        (fun _ => BackupStore.Keeps [] fun _ => none) s → (p.void.run s).2.Intact := by
    intro α p hp
    rw [run_void]
    exact ((wp_store_iff (P := BackupStore.Keeps [] fun _ => none) p).mp hp).1
  cases c with
  | run trigger => exact hintact (runBackup_keeps (fun _ hr => by cases hr) hkeeps hok fun _ hr =>
    by cases hr)
  | delete id => exact hintact (deleteBackup_keeps hkeeps fun _ hr => by cases hr)
  | retention settings protectIds =>
      refine hintact (wp_mono _ (applyRetention_keeps (fun _ hr => ?_) hkeeps) (fun _ _ h => h)
        fun _ _ hf => hf.elim)
      cases hr
  | restore id confirmFileName safetyBackup =>
      show ((restoreBackup id confirmFileName safetyBackup).void.run s).2.Intact
      rw [run_void]
      exact (wp_store_iff (P := BackupStore.Intact) _).mp (restoreBackup_keeps h hok.1 hok.2)

instance (s : BackupStore) : Decidable s.NameFree :=
  inferInstanceAs (Decidable (∀ r ∈ s.rows, r.fileName ≠ s.dumpName))

instance (s : BackupStore) (bytes : Bytes) : Decidable (s.Restorable bytes) :=
  inferInstanceAs (Decidable (((s.env.psql bytes s.rows).1.map Backup.fileName).Nodup ∧
    ∀ r ∈ (s.env.psql bytes s.rows).1, r.id < s.nextId ∧ (r.status = .ok → r ∈ s.rows)))

instance : ∀ (c : BackupCall) (s : BackupStore), Decidable (c.Apart s)
  | .run _, s => inferInstanceAs (Decidable s.NameFree)
  | .restore id _ safetyBackup, s => inferInstanceAs (Decidable ((safetyBackup → s.NameFree) ∧
      ∀ b ∈ s.rows.find? (·.id = id), ∀ file ∈ s.files.get? b.fileName,
        ((safetyRun id safetyBackup).run s).2.Restorable file.bytes))
  | .delete _, _ => isTrue trivial
  | .retention _ _, _ => isTrue trivial

instance (s : BackupStore) : Decidable s.OwnDumps :=
  inferInstanceAs (Decidable (∀ r ∈ s.rows, r.status = .ok →
    (∃ f ∈ s.files.get? r.fileName, s.dumped.get? r.id = some f.bytes) ∨
      s.dumped.get? r.id = none ∧ r.trigger = "imported"))

/-- A server whose dumps tell how many rows of backups there were; the first dump was made while its
own run was the only row. -/
def tinyEnv : BackupEnv where
  databaseUrl := "postgresql://db/panel"
  localTime t := ⟨2025, 1, 1, 10, (t / 60000).toNat⟩
  pgDump rows := ([rows.length], none)
  psql _ _ := ([⟨0, 0, .running, "srpanel-20250101-1000.sql.gz", none, false, "manual", none,
    none⟩], none)
  scan _ := ⟨1, 1, none⟩
  sha256 bytes := toString bytes.length
  sendDocument _ := false

/-- A panel that has no backups, at ten o'clock. -/
def newPanel : BackupStore where
  now := 0
  nextId := 0
  running := false
  restoring := false
  rows := []
  files := .empty
  metas := .empty
  settings := ⟨7, 0, true, true, false⟩
  telegram := ⟨false, false, "", ""⟩
  env := tinyEnv
  dumped := .empty
  replays := []

theorem newPanel_intact : newPanel.Intact where
  own r hr := by cases hr
  names := List.nodup_nil
  drawn r hr := by cases hr
  undrawn n _ := Table.get?_empty n
  replays p hp := by cases hp

/-- The panel after its first backup, a minute later. -/
def laterPanel : BackupStore :=
  { ((BackupCall.run "manual").task.run newPanel).2 with now := 60000 }

def firstRestore : BackupCall := .restore 0 "srpanel-20250101-1000.sql.gz" true

end SRPanel.Backups
