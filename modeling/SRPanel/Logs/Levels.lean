import SRPanel.Lib.Lines
import SRPanel.Logs.Paging

/-!
# The level filter

`auditLevelOf` cuts an action at its first dot, and `verbWhere` looks for a verb behind the last
one; `webhookLevel` takes an empty error text for no error, and `WH_ERROR` takes it for one. A row
is found under the level that it is reported with exactly when neither difference concerns it.
-/

namespace SRPanel

/-- What stands behind the last dot; all of an action without a dot. -/
def lastPart (action : String) : String :=
  .ofList (action.toList.rtakeWhile (· ≠ '.'))

/-- The verbs that decide a level. -/
def LEVEL_VERBS : List String := ERROR_VERBS ++ WARNING_VERBS ++ SUCCESS_VERBS

/-- An audit action has one dot, or no verb of a level behind its last one; a delivery has no empty
error text, or failed by its status. -/
def LogSource.Classified : (s : LogSource) → s.Row → Prop
  | .audit, r => r.action.toList.count '.' = 1 ∨ lastPart r.action ∉ LEVEL_VERBS
  | .webhook, r => r.error ≠ some "" ∨ r.status.any (400 ≤ ·)
  | _, _ => True

/-- The database lists the row for a filter: the source is read at all, and the row satisfies its
condition. -/
def LogSource.listed (env : LogEnv) (db : LogTables) (f : SourceFilter) (s : LogSource)
    (r : s.Row) : Bool :=
  isActive s f && s.where' env db f r

/-- The filter, for all levels. -/
def SourceFilter.allLevels (f : SourceFilter) : SourceFilter := { f with levels := LOG_LEVELS }

/-- The levels of a filter select the row exactly when it is reported with one of them. -/
def LogSource.LevelExact (env : LogEnv) (db : LogTables) (s : LogSource) (r : s.Row) : Prop :=
  ∀ f : SourceFilter, f.levels.Nodup → f.levels ≠ [] → s.listed env db f.allLevels r →
    (s.listed env db f r ↔ (s.entry db r).level ∈ f.levels)

/-- `endsWith` of the database: the text ends with the suffix. -/
def LogEnv.Suffixes (env : LogEnv) : Prop :=
  ∀ value suffix, env.endsWith value suffix ↔ suffix.toList <:+ value.toList

/-! ## Dots -/

section Dots

variable {cs verb : List Char}

/-- A name with a dot, cut at the first. -/
theorem exists_first_dot (h : '.' ∈ cs) :
    ∃ category rest, '.' ∉ category ∧ cs = category ++ '.' :: rest := by
  obtain ⟨category, rest, rfl, hnot⟩ := List.eq_append_cons_of_mem h
  exact ⟨category, rest, hnot, rfl⟩

/-- The same name, cut at the last. -/
theorem exists_last_dot (h : '.' ∈ cs) :
    ∃ before last, '.' ∉ last ∧ cs = before ++ '.' :: last := by
  obtain ⟨rest, category, hnot, heq⟩ := exists_first_dot (List.mem_reverse.mpr h)
  refine ⟨category.reverse, rest.reverse, by rwa [List.mem_reverse], ?_⟩
  have := congrArg List.reverse heq
  rwa [List.reverse_reverse, List.reverse_append, List.reverse_cons, List.append_assoc,
    List.singleton_append] at this

/-- A verb behind a dot is the last part of the action. -/
theorem dot_suffix_iff (hverb : '.' ∉ verb) :
    '.' :: verb <:+ cs ↔ '.' ∈ cs ∧ cs.rtakeWhile (· ≠ '.') = verb := by
  constructor
  · rintro ⟨before, rfl⟩
    exact ⟨by simp, Lines.rtakeWhile_ne hverb before⟩
  · rintro ⟨hdot, rfl⟩
    obtain ⟨before, last, hlast, rfl⟩ := exists_last_dot hdot
    rw [Lines.rtakeWhile_ne hlast]
    exact List.suffix_append _ _

end Dots

/-! ## Actions -/

section Audit

variable {env : LogEnv} {action : String}

/-- The verb that `auditLevelOf` compares. -/
def verbOf (action : String) : String :=
  if action.toList.contains '.' then
    .ofList ((action.toList.dropWhile (· ≠ '.')).drop 1) else action

theorem auditLevelOf_eq (action : String) :
    auditLevelOf action =
      if verbOf action ∈ ERROR_VERBS then .error
      else if verbOf action ∈ WARNING_VERBS then .warning
      else if verbOf action ∈ SUCCESS_VERBS then .success
      else .info := by
  simp only [auditLevelOf, verbOf, List.contains_iff_mem]

/-- The verbs of all levels together. -/
theorem mem_level_verbs (verb : String) :
    verb ∈ LEVEL_VERBS ↔ verb ∈ ERROR_VERBS ∨ verb ∈ WARNING_VERBS ∨ verb ∈ SUCCESS_VERBS := by
  rw [LEVEL_VERBS, List.mem_append, List.mem_append, or_assoc]

/-- No verb of a level has a dot. -/
theorem dot_not_mem_verb {verb : String} (h : verb ∈ LEVEL_VERBS) : '.' ∉ verb.toList := by
  have hall : ∀ v ∈ LEVEL_VERBS, '.' ∉ v.toList := by decide +kernel
  exact hall verb h

/-- The verbs of two levels differ. -/
theorem level_verbs_disjoint (verb : String) :
    (verb ∈ ERROR_VERBS → verb ∉ WARNING_VERBS ∧ verb ∉ SUCCESS_VERBS) ∧
      (verb ∈ WARNING_VERBS → verb ∉ SUCCESS_VERBS) := by
  have herror : ∀ v ∈ ERROR_VERBS, v ∉ WARNING_VERBS ∧ v ∉ SUCCESS_VERBS := by decide +kernel
  have hwarning : ∀ v ∈ WARNING_VERBS, v ∉ SUCCESS_VERBS := by decide +kernel
  exact ⟨herror verb, hwarning verb⟩

/-- The patterns find an action by its last part, when there is a dot before it. -/
theorem verbWhere_iff (hends : env.Suffixes) {verbs : List String} (hsub : verbs ⊆ LEVEL_VERBS) :
    verbWhere env verbs action ↔ '.' ∈ action.toList ∧ lastPart action ∈ verbs := by
  have hpattern : ∀ v ∈ verbs,
      (env.endsWith action ("." ++ v) ↔ '.' ∈ action.toList ∧ lastPart action = v) := by
    intro v hv
    have hchars : ("." ++ v).toList = '.' :: v.toList := by
      rw [String.toList_append]
      rfl
    rw [hends, hchars, dot_suffix_iff (dot_not_mem_verb (hsub hv)), lastPart, ← String.toList_inj,
      String.toList_ofList]
  rw [verbWhere, List.any_eq_true]
  constructor
  · rintro ⟨v, hv, hfound⟩
    obtain ⟨hdot, rfl⟩ := (hpattern v hv).mp hfound
    exact ⟨hdot, hv⟩
  · rintro ⟨hdot, hlast⟩
    exact ⟨_, hlast, (hpattern _ hlast).mpr ⟨hdot, rfl⟩⟩

/-- Without a dot, the verb is the whole action, and so is the last part. -/
theorem verbOf_no_dot (h : '.' ∉ action.toList) :
    verbOf action = action ∧ lastPart action = action := by
  constructor
  · rw [verbOf, if_neg (by rwa [List.contains_iff_mem])]
  · rw [lastPart, Lines.rtakeWhile_ne_self h, String.ofList_toList]

theorem verbOf_dot {category rest : List Char} (hnot : '.' ∉ category)
    (h : action.toList = category ++ '.' :: rest) : (verbOf action).toList = rest := by
  have hall : ∀ c ∈ category, decide (c ≠ '.') = true := fun c hc => decide_eq_true fun heq =>
    hnot (heq ▸ hc)
  have hdot : action.toList.contains '.' = true := by
    rw [List.contains_iff_mem, h]
    simp
  rw [verbOf, if_pos hdot, String.toList_ofList, h, List.dropWhile_append_of_pos hall]
  simp

/-- With one dot, the verb is the last part. -/
theorem verbOf_one_dot (h : action.toList.count '.' = 1) : verbOf action = lastPart action := by
  have hdot : '.' ∈ action.toList := List.count_pos_iff.mp (by omega)
  obtain ⟨category, rest, hnot, heq⟩ := exists_first_dot hdot
  have hrest : '.' ∉ rest := by
    rw [heq, List.count_append, List.count_cons_self, List.count_eq_zero_of_not_mem hnot] at h
    exact List.count_eq_zero.mp (by omega)
  rw [← String.toList_inj, verbOf_dot hnot heq, lastPart, String.toList_ofList, heq,
    Lines.rtakeWhile_ne hrest]

/-- With more dots, the verb has a dot itself, so no level lists it. -/
theorem verbOf_more_dots (h : 2 ≤ action.toList.count '.') : verbOf action ∉ LEVEL_VERBS := by
  have hdot : '.' ∈ action.toList := List.count_pos_iff.mp (by omega)
  obtain ⟨category, rest, hnot, heq⟩ := exists_first_dot hdot
  have hrest : '.' ∈ rest := by
    rw [heq, List.count_append, List.count_cons_self, List.count_eq_zero_of_not_mem hnot] at h
    exact List.count_pos_iff.mp (by omega)
  intro hverb
  exact dot_not_mem_verb hverb (verbOf_dot hnot heq ▸ hrest)

/-- On a classified action, the patterns and the verb agree. -/
theorem verbWhere_iff_verbOf (hends : env.Suffixes)
    (h : action.toList.count '.' = 1 ∨ lastPart action ∉ LEVEL_VERBS) {verbs : List String}
    (hsub : verbs ⊆ LEVEL_VERBS) : verbWhere env verbs action ↔ verbOf action ∈ verbs := by
  rw [verbWhere_iff hends hsub]
  obtain hone | hlast := h
  · rw [verbOf_one_dot hone]
    exact and_iff_right (List.count_pos_iff.mp (by omega))
  · have hnone : verbOf action ∉ LEVEL_VERBS := by
      by_cases htwo : 2 ≤ action.toList.count '.'
      · exact verbOf_more_dots htwo
      · by_cases hdot : '.' ∈ action.toList
        · have := List.count_pos_iff.mpr hdot
          rwa [verbOf_one_dot (by omega)]
        · obtain ⟨hverb, hpart⟩ := verbOf_no_dot hdot
          rwa [hverb, ← hpart]
    exact ⟨fun hfound => absurd (hsub hfound.2) hlast, fun hverb => absurd (hsub hverb) hnone⟩

/-- On another action they differ already in whether there is a verb of a level. -/
theorem classified_of_verbWhere (hends : env.Suffixes)
    (h : verbWhere env LEVEL_VERBS action ↔ verbOf action ∈ LEVEL_VERBS) :
    action.toList.count '.' = 1 ∨ lastPart action ∉ LEVEL_VERBS := by
  by_contra hnot
  obtain ⟨hone, hlast⟩ := not_or.mp hnot
  rw [not_not] at hlast
  have hfound := h.symm.trans (verbWhere_iff hends (List.Subset.refl _))
  by_cases hdot : '.' ∈ action.toList
  · have htwo : 2 ≤ action.toList.count '.' := by
      have := List.count_pos_iff.mpr hdot
      omega
    exact verbOf_more_dots htwo (hfound.mpr ⟨hdot, hlast⟩)
  · obtain ⟨hverb, hpart⟩ := verbOf_no_dot hdot
    rw [hpart] at hlast
    exact hdot (hfound.mp (by rwa [hverb])).1

end Audit

/-! ## Levels -/

/-- A filter with four different levels has them all. -/
theorem mem_levels_of_length {L : List LogLevel} (hnodup : L.Nodup)
    (h : LOG_LEVELS.length ≤ L.length) (level : LogLevel) : level ∈ L := by
  have hall : ∀ l : LogLevel, l ∈ LOG_LEVELS := by
    intro l
    cases l <;> decide
  have hperm := (hnodup.subperm fun l _ => hall l).perm_of_length_le h
  exact hperm.mem_iff.mpr (hall level)

/-- The part of the condition of a source that depends on the levels. -/
def LogSource.picks (env : LogEnv) (L : List LogLevel) : (s : LogSource) → s.Row → Bool
  | .audit, r =>
      LOG_LEVELS.length ≤ L.length || L.contains .error && verbWhere env ERROR_VERBS r.action ||
        L.contains .warning && verbWhere env WARNING_VERBS r.action ||
        L.contains .success && verbWhere env SUCCESS_VERBS r.action ||
        L.contains .info && !verbWhere env LEVEL_VERBS r.action
  | .notification, r => L.contains .info = L.contains .error || r.ok = L.contains .info
  | .webhook, r =>
      L.contains .error && L.contains .success && L.contains .info || L.contains .error &&
        webhookFailed r || L.contains .success && webhookDone r || L.contains .info &&
          webhookPending r
  | .incident, r =>
      L.contains .error = L.contains .success || r.status = if L.contains .error then
        .open' else .resolved
  | .backup, r =>
      match r.status with
      | .ok => L.contains .success
      | .failed => L.contains .error
      | .running => L.contains .info

section Filters

variable {env : LogEnv} {db : LogTables} {f : SourceFilter}

/-- All levels leave the search text. -/
@[simp] theorem allLevels_q : f.allLevels.q = f.q := rfl

/-- They leave the admin. -/
@[simp] theorem allLevels_adminId : f.allLevels.adminId = f.adminId := rfl

/-- They are all levels. -/
@[simp] theorem allLevels_levels : f.allLevels.levels = LOG_LEVELS := rfl

/-- The dates do not look at levels. -/
@[simp] theorem inDates_allLevels (time : ℤ) : inDates env f.allLevels time = inDates env f time :=
  rfl

/-- Nor does the search. -/
@[simp] theorem like_allLevels (column : Option String) :
    env.like f.allLevels column = env.like f column := rfl

theorem isActive_allLevels (s : LogSource) :
    isActive s f = (isActive s f.allLevels && (SOURCE_LEVELS s).any f.levels.contains) := by
  have hall : (SOURCE_LEVELS s).any LOG_LEVELS.contains = true := by
    cases s <;> decide
  simp only [isActive, allLevels_adminId, allLevels_levels, hall]
  split <;> simp only [Bool.false_and, Bool.true_and]

/-- All levels pick every row. -/
theorem LogSource.picks_allLevels (s : LogSource) (r : s.Row) :
    s.picks env LOG_LEVELS r = true := by
  cases s with
  | audit => rfl
  | notification => rfl
  | webhook => rfl
  | incident => rfl
  | backup =>
    cases h : r.status <;> simp only [picks, h] <;> rfl

/-- A filter lists the rows that it would list for all levels and that its levels pick. -/
theorem LogSource.listed_iff (s : LogSource) (r : s.Row) :
    s.listed env db f r ↔
      s.listed env db f.allLevels r ∧ (SOURCE_LEVELS s).any f.levels.contains ∧
      s.picks env f.levels r := by
  have hwhere : s.where' env db f r =
      (s.where' env db f.allLevels r && s.picks env f.levels r) := by
    have hpicks : s.picks env LOG_LEVELS r = true := s.picks_allLevels r
    cases s
    all_goals
      change (_ && picks env f.levels _ r) =
      ((_ && picks env LOG_LEVELS _ r) && picks env f.levels _ r)
      rw [hpicks, Bool.and_true]
      rfl
  rw [listed, hwhere, isActive_allLevels, listed]
  simp only [Bool.and_eq_true]
  tauto

/-- The filter with levels alone. -/
def plainFilter (L : List LogLevel) : SourceFilter := ⟨"", L, none, "", ""⟩

theorem inDates_plain (L : List LogLevel) (time : ℤ) : inDates env (plainFilter L) time = true := by
  simp [inDates, dateFilter, plainFilter]

/-- For all levels and no other condition, every row is listed. -/
theorem LogSource.listed_plain (L : List LogLevel) (s : LogSource) (r : s.Row) :
    s.listed env db (plainFilter L).allLevels r := by
  rw [listed, Bool.and_eq_true]
  constructor
  · cases s <;> rfl
  · have hpicks : s.picks env LOG_LEVELS r = true := s.picks_allLevels r
    cases s with
    | audit =>
      change (inDates env (plainFilter L) r.at' && true && true && picks env LOG_LEVELS .audit r) =
        true
      rw [hpicks, inDates_plain]
      rfl
    | notification =>
      change (inDates env (plainFilter L) r.at' && true && true &&
        picks env LOG_LEVELS .notification r) = true
      rw [hpicks, inDates_plain]
      rfl
    | webhook =>
      change (inDates env (plainFilter L) r.createdAt && true && true &&
        picks env LOG_LEVELS .webhook r) = true
      rw [hpicks, inDates_plain]
      rfl
    | incident =>
      change (inDates env (plainFilter L) r.startedAt && true && picks env LOG_LEVELS .incident r) =
        true
      rw [hpicks, inDates_plain]
      rfl
    | backup =>
      change (inDates env (plainFilter L) r.at' && true && picks env LOG_LEVELS .backup r) = true
      rw [hpicks, inDates_plain]
      rfl

/-- Only the levels matter. -/
theorem LogSource.levelExact_iff (s : LogSource) (r : s.Row) :
    s.LevelExact env db r ↔ ∀ L : List LogLevel, L.Nodup → L ≠ [] →
      ((SOURCE_LEVELS s).any L.contains ∧ s.picks env L r ↔ (s.entry db r).level ∈ L) := by
  constructor
  · intro h L hnodup hne
    have hplain : s.listed env db (plainFilter L).allLevels r := s.listed_plain L r
    have hexact := h (plainFilter L) hnodup hne hplain
    rw [listed_iff] at hexact
    exact (and_iff_right hplain).symm.trans hexact
  · intro h f hnodup hne hall
    rw [← h f.levels hnodup hne, listed_iff]
    exact and_iff_right hall

/-- Of three levels that exclude each other and the rest, a row is reported with the one that it is
picked for. -/
theorem level_mem_iff {error warning success : Prop} [Decidable error] [Decidable warning]
    [Decidable success] {L : List LogLevel} (herror : error → ¬warning ∧ ¬success)
    (hwarning : warning → ¬success) :
    .error ∈ L ∧ error ∨ .warning ∈ L ∧ warning ∨ .success ∈ L ∧ success ∨
        .info ∈ L ∧ ¬(error ∨ warning ∨ success) ↔
      (if error then LogLevel.error else if warning then .warning else if success then
        .success else .info) ∈ L := by
  split
  · tauto
  · split
    · tauto
    · split <;> tauto

/-- Every filter that is not empty has a level of audit rows. -/
theorem audit_active {L : List LogLevel} (hne : L ≠ []) :
    (SOURCE_LEVELS .audit).any L.contains = true := by
  obtain ⟨level, hlevel⟩ := List.exists_mem_of_ne_nil _ hne
  rw [List.any_eq_true]
  exact ⟨level, by cases level <;> decide, by rwa [List.contains_iff_mem]⟩

theorem audit_levelExact_iff (hends : env.Suffixes) (r : AuditLog) :
    LogSource.audit.LevelExact env db r ↔ LogSource.audit.Classified r := by
  rw [LogSource.levelExact_iff]
  have hlevel : (LogSource.audit.entry db r).level = auditLevelOf r.action := rfl
  rw [hlevel, auditLevelOf_eq]
  constructor
  · intro h
    have hinfo := h [.info] (by simp) (by simp)
    rw [and_iff_right (audit_active (by simp)), List.mem_singleton] at hinfo
    have hpicked : LogSource.picks env [.info] .audit r ↔ ¬verbWhere env LEVEL_VERBS r.action := by
      simp [LogSource.picks, LOG_LEVELS]
    rw [hpicked] at hinfo
    refine classified_of_verbWhere hends ?_
    rw [← not_iff_not, hinfo, mem_level_verbs]
    split
    · simp [*]
    · split
      · simp [*]
      · split <;> simp [*]
  · intro h L hnodup hne
    rw [and_iff_right (audit_active hne)]
    by_cases hlen : LOG_LEVELS.length ≤ L.length
    · have hpicked : LogSource.picks env L .audit r = true := by
        simp [LogSource.picks, hlen]
      exact iff_of_true hpicked (mem_levels_of_length hnodup hlen _)
    · have hagree : ∀ verbs ⊆ LEVEL_VERBS,
      (verbWhere env verbs r.action ↔ verbOf r.action ∈ verbs) :=
        fun verbs hsub => verbWhere_iff_verbOf hends h hsub
      have herror := hagree ERROR_VERBS (by decide)
      have hwarning := hagree WARNING_VERBS (by decide)
      have hsuccess := hagree SUCCESS_VERBS (by decide)
      have hany := hagree LEVEL_VERBS (List.Subset.refl _)
      have hdisjoint := level_verbs_disjoint (verbOf r.action)
      rw [mem_level_verbs] at hany
      rw [← level_mem_iff hdisjoint.1 hdisjoint.2]
      simp only [LogSource.picks, decide_eq_false hlen, Bool.false_or, Bool.or_eq_true,
        Bool.and_eq_true, Bool.not_eq_true', ← Bool.not_eq_true, List.contains_iff_mem, herror,
        hwarning, hsuccess, hany, or_assoc]

/-- A status is fine below 400. -/
theorem webhookStatusFine_eq (r : WebhookDelivery) :
    webhookStatusFine r = !r.status.any (400 ≤ ·) := by
  rw [webhookStatusFine]
  cases r.status with
  | none => rfl
  | some status =>
    simp only [Option.isNone_some, Option.any_some, Bool.false_or, ← decide_not, not_le]

theorem webhookDone_eq (r : WebhookDelivery) :
    webhookDone r = (!webhookFailed r && r.doneAt.isSome) := by
  rw [webhookDone, webhookFailed, webhookStatusFine_eq]
  cases r.error <;> cases r.doneAt <;> simp

theorem webhookPending_eq (r : WebhookDelivery) :
    webhookPending r = (!webhookFailed r && !r.doneAt.isSome) := by
  rw [webhookPending, webhookFailed, webhookStatusFine_eq]
  cases r.error <;> cases r.doneAt <;> simp

theorem webhook_levelExact_iff (r : WebhookDelivery) :
    LogSource.webhook.LevelExact env db r ↔ LogSource.webhook.Classified r := by
  rw [LogSource.levelExact_iff, LogSource.Classified]
  have hlevel : (LogSource.webhook.entry db r).level = webhookLevel r := rfl
  rw [hlevel]
  constructor
  · intro h
    by_contra hnot
    obtain ⟨hempty, hfine⟩ := not_or.mp hnot
    rw [not_not] at hempty
    have herror := h [.error] (by simp) (by simp)
    have hpicked : LogSource.picks env [.error] .webhook r = true := by
      simp [LogSource.picks, webhookFailed, hempty]
    rw [hpicked] at herror
    have hlevel := herror.mp ⟨rfl, rfl⟩
    rw [List.mem_singleton, webhookLevel, hempty] at hlevel
    rw [Bool.not_eq_true] at hfine
    cases hdone : r.doneAt.isSome <;> simp [hfine, hdone, orNull] at hlevel
  · intro h L _ _
    have hfailed : webhookFailed r = ((r.error.bind orNull).isSome || r.status.any (400 ≤ ·)) := by
      obtain herror | hstatus := h
      · rw [webhookFailed]
        cases hr : r.error with
        | none => rfl
        | some text =>
          have htext : text ≠ "" := fun heq => herror (by rw [hr, heq])
          simp [orNull, htext]
      · simp [webhookFailed, hstatus]
    rw [webhookLevel, ← hfailed]
    simp only [LogSource.picks, webhookDone_eq, webhookPending_eq, SOURCE_LEVELS]
    cases webhookFailed r <;> cases r.doneAt.isSome <;> simp <;> tauto

/-- Notifications are filtered exactly. -/
theorem notification_levelExact (r : NotificationLog) :
    LogSource.notification.LevelExact env db r := by
  rw [LogSource.levelExact_iff]
  intro L _ _
  simp only [SOURCE_LEVELS, LogSource.picks, LogSource.entry]
  by_cases herror : .error ∈ L <;> by_cases hinfo : .info ∈ L <;> cases hok :
    r.ok <;> simp [herror, hinfo]

/-- So are incidents. -/
theorem incident_levelExact (r : Incident) : LogSource.incident.LevelExact env db r := by
  rw [LogSource.levelExact_iff]
  intro L _ _
  simp only [SOURCE_LEVELS, LogSource.picks, LogSource.entry]
  by_cases herror : .error ∈ L <;> by_cases hsuccess : .success ∈ L <;> cases hok : r.status <;>
    simp [herror, hsuccess]

/-- So are backups. -/
theorem backup_levelExact (r : Backup) : LogSource.backup.LevelExact env db r := by
  rw [LogSource.levelExact_iff]
  intro L _ _
  simp only [SOURCE_LEVELS, LogSource.picks, LogSource.entry]
  cases hstatus : r.status <;> simp <;> tauto

/-- The levels of a filter select a row exactly when it is reported with one of them, for the
classified rows and no others. -/
theorem level_filter_exact_iff (hends : env.Suffixes) (s : LogSource) (r : s.Row) :
    s.LevelExact env db r ↔ s.Classified r := by
  cases s with
  | audit => exact audit_levelExact_iff hends r
  | notification => exact iff_of_true (notification_levelExact r) trivial
  | webhook => exact webhook_levelExact_iff r
  | incident => exact iff_of_true (incident_levelExact r) trivial
  | backup => exact iff_of_true (backup_levelExact r) trivial

end Filters

/-! ## A payment that is rejected -/

/-- The ends of texts are compared as they are. -/
def LogEnv.comparing : LogEnv :=
  { LogEnv.plain with endsWith := fun value suffix => suffix.toList.isSuffixOf value.toList }

theorem LogEnv.comparing_suffixes : LogEnv.comparing.Suffixes :=
  fun _ _ => List.isSuffixOf_iff_suffix

/-- An audit row of an action. -/
def actionRow (action : String) : AuditLog := { loginRow 1 5 with action := action }

/-- A delivery that was done with status 200 and has an empty error text. -/
def quietDelivery : WebhookDelivery := ⟨1, 1, "order.paid", some 200, some "", 1, some 5, 5⟩

/-- The rejection of a plugin payment is listed under the errors and reported as information; a
delivery with an empty error text is listed under the errors and reported as a success. -/
theorem rejected_payment_misfiled :
    ¬LogSource.audit.LevelExact .comparing (loginLog 5 9) (actionRow "pay.plugin.reject") ∧
      ¬LogSource.webhook.LevelExact .comparing (loginLog 5 9) quietDelivery := by
  constructor
  · intro h
    have hlisted := h (plainFilter [.error]) (by decide) (by decide) (by decide +kernel)
    have hlevel : (LogSource.audit.entry (loginLog 5 9) (actionRow "pay.plugin.reject")).level =
        .info := by
      decide +kernel
    rw [hlevel] at hlisted
    exact absurd (hlisted.mp (by decide +kernel)) (by decide)
  · intro h
    have hlisted := h (plainFilter [.error]) (by decide) (by decide) (by decide +kernel)
    have hlevel : (LogSource.webhook.entry (loginLog 5 9) quietDelivery).level = .success := rfl
    rw [hlevel] at hlisted
    exact absurd (hlisted.mp (by decide +kernel)) (by decide)

/-- Actions of a category and a verb are found under their level. -/
theorem level_filter_exact_login :
    LogSource.audit.LevelExact .comparing (loginLog 5 9) (actionRow "auth.login_failed") :=
  (level_filter_exact_iff LogEnv.comparing_suffixes .audit (actionRow "auth.login_failed")).mpr
    (Or.inl (by decide +kernel))

end SRPanel
