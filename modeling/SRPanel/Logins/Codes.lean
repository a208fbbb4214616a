import SRPanel.Lib.Rely
import SRPanel.Model.LoginCodes

/-!
# Codes that are used once

The attempts of a code are counted in a value that is read in one step and written in another, so
two guesses that read it together count as one, and two calls that read a right code together both
accept it. As long as every write finds the codes that its call has read as they were, a code is
accepted at most once, before it expires, and not after five wrong guesses.
-/

namespace SRPanel

open Interleaving

/-- The number of the mailing that an event is about. -/
def CodeEvent.issue : CodeEvent → ℕ
  | .mailed issue _ _ _ => issue
  | .wrong issue => issue
  | .accepted issue _ => issue

namespace CodeDesk

variable {d d' : CodeDesk} {n : ℕ} {u : String} {c : MailedCode}

/-! ## What has become of a code -/

/-- The code has been accepted. -/
def isAccept (n : ℕ) : CodeEvent → Bool
  | .accepted issue _ => issue = n
  | _ => false

/-- A wrong code has been given for it. -/
def isWrong (n : ℕ) : CodeEvent → Bool
  | .wrong issue => issue = n
  | _ => false

theorem isAccept_of_ne {e : CodeEvent} (h : e.issue ≠ n) : isAccept n e = false := by
  cases e with
  | accepted m t => exact decide_eq_false h
  | mailed m username hash exp => rfl
  | wrong m => rfl

theorem isWrong_of_ne {e : CodeEvent} (h : e.issue ≠ n) : isWrong n e = false := by
  cases e with
  | wrong m => exact decide_eq_false h
  | mailed m username hash exp => rfl
  | accepted m t => rfl

/-- How often a code has been accepted. -/
def accepts (l : List CodeEvent) (n : ℕ) : ℕ := l.countP (isAccept n)

/-- How often a wrong code has been given for it. -/
def wrongs (l : List CodeEvent) (n : ℕ) : ℕ := l.countP (isWrong n)

/-- A mailed code is accepted at most once, before it expires, and not after five wrong guesses. -/
structure SingleUse (l : List CodeEvent) : Prop where
  once : ∀ n, accepts l n ≤ 1
  unexpired : ∀ n t, .accepted n t ∈ l → ∃ username hash exp,
    .mailed n username hash exp ∈ l ∧ t ≤ exp
  guesses : ∀ later n t earlier, l = later ++ .accepted n t :: earlier → wrongs earlier n < 5

/-! ## Sound codes -/

/-- A stored code has been mailed, and the trail knows of no more attempts than it counts. -/
structure Stored (l : List CodeEvent) (u : String) (c : MailedCode) : Prop where
  mailed : .mailed c.issue u c.hash c.exp ∈ l
  unused : accepts l c.issue = 0
  counted : wrongs l c.issue ≤ c.tries

/-- What every step keeps. -/
structure Sound (d : CodeDesk) : Prop where
  stored : ∀ u c, d.codes.get? u = some c → Stored d.trail u c
  distinct : ∀ u u' c c', d.codes.get? u = some c → d.codes.get? u' = some c' →
    c.issue = c'.issue → u = u'
  fresh : ∀ e ∈ d.trail, e.issue < d.nextId
  single : SingleUse d.trail

/-- The codes that the call has read are still stored as they were. -/
def Intact : CodeMark → CodeDesk → Prop
  | .other, _ => True
  | .putCodes seen, d => ∀ r ∈ seen.rows, d.codes.get? r.1 = some r.2

instance : ∀ mark d, Decidable (Intact mark d)
  | .other, _ => isTrue trivial
  | .putCodes seen, d => inferInstanceAs (Decidable (∀ r ∈ seen.rows, d.codes.get? r.1 = some r.2))

theorem Intact.get? {seen : Table String MailedCode} (h : Intact (.putCodes seen) d)
    (hget : seen.get? u = some c) : d.codes.get? u = some c :=
  h (u, c) ((seen.mem_rows_iff u c).mpr hget)

/-- The columns that the codes are judged by are the same, and numbers are not used twice. -/
structure SameCodes (d d' : CodeDesk) : Prop where
  codes : d'.codes = d.codes
  trail : d'.trail = d.trail
  nextId : d.nextId ≤ d'.nextId

theorem Sound.of_sameCodes (h : d.Sound) (hsame : SameCodes d d') : d'.Sound where
  stored u c hget := by
    rw [hsame.codes] at hget
    rw [hsame.trail]
    exact h.stored u c hget
  distinct u u' c c' hget hget' := by
    rw [hsame.codes] at hget hget'
    exact h.distinct u u' c c' hget hget'
  fresh e he := by
    rw [hsame.trail] at he
    exact lt_of_lt_of_le (h.fresh e he) hsame.nextId
  single := by
    rw [hsame.trail]
    exact h.single

/-! ## Trails -/

section Trails

variable {l : List CodeEvent} {e : CodeEvent}

theorem SingleUse.cons (h : SingleUse l) (he : ∀ n t, e = .accepted n t →
    accepts l n = 0 ∧ wrongs l n < 5 ∧ ∃ username hash exp,
    .mailed n username hash exp ∈ l ∧ t ≤ exp) :
    SingleUse (e :: l) where
  once n := by
    rw [accepts, List.countP_cons]
    cases e with
    | accepted m t =>
      by_cases hmn : m = n
      · subst hmn
        have hzero := (he m t rfl).1
        rw [accepts] at hzero
        rw [hzero]
        split <;> omega
      · have hno : isAccept n (.accepted m t) = false := by simp [isAccept, hmn]
        rw [if_neg (by simp [hno])]
        exact h.once n
    | mailed m username hash exp => exact h.once n
    | wrong m => exact h.once n
  unexpired n t hmem := by
    rcases List.mem_cons.mp hmem with heq | hmem
    · obtain ⟨-, -, username, hash, exp, hmailed, hle⟩ := he n t heq.symm
      exact ⟨username, hash, exp, List.mem_cons_of_mem _ hmailed, hle⟩
    · obtain ⟨username, hash, exp, hmailed, hle⟩ := h.unexpired n t hmem
      exact ⟨username, hash, exp, List.mem_cons_of_mem _ hmailed, hle⟩
  guesses later n t earlier heq := by
    cases later with
    | nil =>
      obtain ⟨hhead, rfl⟩ := List.cons.inj (heq.trans (List.nil_append _))
      exact (he n t hhead).2.1
    | cons e' later => exact h.guesses later n t earlier (List.cons.inj heq).2

/-- An event about another code. -/
theorem Stored.cons (h : Stored l u c) (hne : e.issue ≠ c.issue) : Stored (e :: l) u c where
  mailed := List.mem_cons_of_mem _ h.mailed
  unused := by
    rw [accepts, List.countP_cons_of_neg (by simp [isAccept_of_ne hne])]
    exact h.unused
  counted := by
    rw [wrongs, List.countP_cons_of_neg (by simp [isWrong_of_ne hne])]
    exact h.counted

/-- A code of which no event tells yet. -/
theorem stored_of_fresh (hfresh : ∀ e ∈ l, e.issue < n) (code : LoginCode) :
    Stored (.mailed n u code.hash code.exp :: l) u ⟨code, n⟩ where
  mailed := List.mem_cons_self
  unused := by
    have hzero : accepts l n = 0 :=
      List.countP_eq_zero.mpr fun e he => by simp [isAccept_of_ne (Nat.ne_of_lt (hfresh e he))]
    rw [accepts, List.countP_cons_of_neg (by simp [isAccept])]
    exact hzero
  counted := by
    have hzero : wrongs l n = 0 :=
      List.countP_eq_zero.mpr fun e he => by simp [isWrong_of_ne (Nat.ne_of_lt (hfresh e he))]
    rw [wrongs, List.countP_cons_of_neg (by simp [isWrong])]
    exact hzero.le.trans (Nat.zero_le _)

end Trails

/-! ## Writing the codes -/

/-- A step that writes back some of the codes that were there, and one with a new count. -/
theorem Sound.put (h : d.Sound) {codes : Table String MailedCode} {events : List CodeEvent}
    (hkept : ∀ u c, codes.get? u = some c → ∃ c', d.codes.get? u = some c' ∧ c.issue = c'.issue)
    (hstored : ∀ u c, codes.get? u = some c → Stored (events ++ d.trail) u c)
    (hfresh : ∀ e ∈ events, e.issue < d.nextId) (hsingle : SingleUse (events ++ d.trail)) :
    Sound { d with codes := codes, trail := events ++ d.trail } where
  stored := hstored
  distinct u u' c c' hget hget' hissue := by
    obtain ⟨c₁, hget₁, heq₁⟩ := hkept u c hget
    obtain ⟨c₂, hget₂, heq₂⟩ := hkept u' c' hget'
    exact h.distinct u u' c₁ c₂ hget₁ hget₂ (heq₁.symm.trans (hissue.trans heq₂))
  fresh e he := by
    rcases List.mem_append.mp he with he | he
    · exact hfresh e he
    · exact h.fresh e he
  single := hsingle

section Writes

variable {seen : Table String MailedCode} (h : d.Sound) (hok : Intact (.putCodes seen) d)
include h hok

/-- Dropping the code of an account, of which nothing is told. -/
theorem Sound.drop (u : String) :
    Sound { d with codes := seen.erase u, trail := [] ++ d.trail } := by
  have hseen : ∀ v c, (seen.erase u).get? v = some c → d.codes.get? v = some c := by
    intro v c hget
    rw [Table.get?_erase] at hget
    split at hget
    · cases hget
    · exact hok.get? hget
  refine h.put (fun v c hget => ⟨c, hseen v c hget, rfl⟩)
    (fun v c hget => h.stored v c (hseen v c hget)) ?_ h.single
  intro e he
  cases he

/-- A wrong guess, counted. -/
theorem Sound.miss (hget : seen.get? u = some c) :
    Sound { d with
      codes := seen.set u { c with tries := c.tries + 1 }
      trail := [.wrong c.issue] ++ d.trail } := by
  have hseen : ∀ v c', (seen.set u { c with tries := c.tries + 1 }).get? v = some c' →
      v = u ∧ c' = { c with tries := c.tries + 1 } ∨ v ≠ u ∧ d.codes.get? v = some c' := by
    intro v c' hget'
    rw [Table.get?_set] at hget'
    split at hget'
    · next heq => exact .inl ⟨heq, (Option.some.inj hget').symm⟩
    · next hne => exact .inr ⟨hne, hok.get? hget'⟩
  have hcode := hok.get? hget
  have hstored := h.stored u c hcode
  refine h.put (fun v c' hget' => ?_) (fun v c' hget' => ?_) (fun e he => ?_) ?_
  · rcases hseen v c' hget' with ⟨rfl, rfl⟩ | ⟨-, hget'⟩
    · exact ⟨c, hcode, rfl⟩
    · exact ⟨c', hget', rfl⟩
  · rcases hseen v c' hget' with ⟨rfl, rfl⟩ | ⟨hne, hget'⟩
    · refine ⟨List.mem_cons_of_mem _ hstored.mailed, ?_, ?_⟩
      · show accepts (.wrong c.issue :: d.trail) c.issue = 0
        rw [accepts, List.countP_cons_of_neg (by simp [isAccept])]
        exact hstored.unused
      · show wrongs (.wrong c.issue :: d.trail) c.issue ≤ c.tries + 1
        rw [wrongs, List.countP_cons_of_pos (by simp [isWrong])]
        exact Nat.succ_le_succ hstored.counted
    · refine (h.stored v c' hget').cons fun heq => hne ?_
      exact h.distinct v u c' c hget' hcode heq.symm
  · rw [List.mem_singleton.mp he]
    exact h.fresh (.mailed c.issue u c.hash c.exp) hstored.mailed
  · exact h.single.cons fun n t heq => by cases heq

/-- A code is accepted: nothing has been told of it but fewer than five wrong guesses. -/
theorem Sound.accept {t : ℤ} (hget : seen.get? u = some c) (hlive : ¬(c.exp < t ∨ 5 ≤ c.tries)) :
    Sound { d with codes := seen.erase u, trail := [.accepted c.issue t] ++ d.trail } := by
  have hseen : ∀ v c', (seen.erase u).get? v = some c' → v ≠ u ∧ d.codes.get? v = some c' := by
    intro v c' hget'
    rw [Table.get?_erase] at hget'
    split at hget'
    · cases hget'
    · next hne => exact ⟨hne, hok.get? hget'⟩
  have hcode := hok.get? hget
  have hstored := h.stored u c hcode
  have hcounted := hstored.counted
  refine h.put (fun v c' hget' => ⟨c', (hseen v c' hget').2, rfl⟩)
    (fun v c' hget' => ?_) (fun e he => ?_) ?_
  · obtain ⟨hne, hget'⟩ := hseen v c' hget'
    refine (h.stored v c' hget').cons fun heq => hne ?_
    exact h.distinct v u c' c hget' hcode heq.symm
  · rw [List.mem_singleton.mp he]
    exact h.fresh (.mailed c.issue u c.hash c.exp) hstored.mailed
  · refine h.single.cons fun n t' heq => ?_
    obtain ⟨rfl, rfl⟩ := CodeEvent.accepted.inj heq
    exact ⟨hstored.unused, by omega, u, c.hash, c.exp, hstored.mailed, by omega⟩

/-- A new code for an account, beside some of the codes that were there. -/
theorem Sound.issue (p : String → Bool) (u : String) (code : LoginCode) :
    Sound { d with
      codes := (seen.keep p).set u ⟨code, d.nextId⟩
      trail := .mailed d.nextId u code.hash code.exp :: d.trail
      nextId := d.nextId + 1 } := by
  have hseen : ∀ v c', ((seen.keep p).set u ⟨code, d.nextId⟩).get? v = some c' →
      v = u ∧ c' = ⟨code, d.nextId⟩ ∨ v ≠ u ∧ d.codes.get? v = some c' := by
    intro v c' hget'
    rw [Table.get?_set, Table.get?_keep] at hget'
    split at hget'
    · next heq => exact .inl ⟨heq, (Option.some.inj hget').symm⟩
    · next hne =>
      split at hget'
      · exact .inr ⟨hne, hok.get? hget'⟩
      · cases hget'
  have hold : ∀ v c', d.codes.get? v = some c' → c'.issue < d.nextId :=
    fun v c' hget' => h.fresh _ (h.stored v c' hget').mailed
  refine ⟨fun v c' hget' => ?_, fun v v' c₁ c₂ h₁ h₂ hissue => ?_, fun e he => ?_, ?_⟩
  · rcases hseen v c' hget' with ⟨rfl, rfl⟩ | ⟨-, hget'⟩
    · exact stored_of_fresh h.fresh code
    · exact (h.stored v c' hget').cons (Nat.ne_of_lt (hold v c' hget')).symm
  · rcases hseen v c₁ h₁ with ⟨rfl, rfl⟩ | ⟨-, hold₁⟩
    · rcases hseen v' c₂ h₂ with ⟨rfl, -⟩ | ⟨-, h₂⟩
      · rfl
      · exact absurd hissue.symm (Nat.ne_of_lt (hold v' c₂ h₂))
    · rcases hseen v' c₂ h₂ with ⟨rfl, rfl⟩ | ⟨-, h₂⟩
      · exact absurd hissue (Nat.ne_of_lt (hold v c₁ hold₁))
      · exact h.distinct v v' c₁ c₂ hold₁ h₂ hissue
  · rcases List.mem_cons.mp he with rfl | he
    · exact Nat.lt_succ_self _
    · exact Nat.lt_succ_of_lt (h.fresh e he)
  · exact h.single.cons fun n t heq => by cases heq

end Writes

/-! ## Calls -/

section Steps

variable {α : Type} {env : LoginEnv} (d : CodeDesk)

/-- A step beside the codes. -/
theorem upholds_other {F : CodeDesk → Except AppError α × CodeDesk}
    (hF : ∀ d, SameCodes d (F d).2) :
    Upholds Intact Sound Anything (fun _ _ => True) (fun _ _ => True) (.step .other F) d := by
  refine upholds_step fun t _ hI _ => ?_
  exact ⟨hI.of_sameCodes (hF t), trivial, fun _ _ => trivial, fun _ _ => trivial⟩

theorem refuseIf_upholds (b : Bool) (e : AppError) :
    Upholds Intact Sound Anything (fun _ _ => True) (fun _ _ => True) (refuseIf b e) d := by
  unfold refuseIf
  exact upholds_ite (fun _ => upholds_throw trivial) fun _ => upholds_pure trivial

theorem audit_upholds (adminId : Option AdminId) (action target : String) (ip : Option String) :
    Upholds Intact Sound Anything (fun _ _ => True)
      (fun _ _ => True) (audit adminId action target ip) d := by
  unfold audit
  refine upholds_attempt (upholds_other d fun d => ⟨rfl, rfl, Nat.le_succ _⟩) fun _ _ _ =>
    upholds_pure trivial

theorem sendMail_upholds (taken : Bool) (mail : CodeMail) :
    Upholds Intact Sound Anything (fun _ _ => True) (fun _ _ => True) (sendMail taken mail) d := by
  unfold sendMail
  refine upholds_other d fun d => ?_
  cases taken with
  | true => exact ⟨rfl, rfl, le_rfl⟩
  | false => exact ⟨rfl, rfl, le_rfl⟩

theorem requestLoginCode_upholds (usernameRaw password : String) (ip : Option String)
    (draw : Fin 1000000) (taken : Bool) :
      Upholds Intact Sound Anything (fun _ _ => True)
        (fun _ _ => True) (requestLoginCode env usernameRaw password ip draw taken) d := by
  unfold requestLoginCode getMailSettings getCodes
  refine upholds_read fun d _ _ _ => ?_
  refine upholds_bind (refuseIf_upholds d _ _) fun _ d _ _ => ?_
  refine upholds_bind (refuseIf_upholds d _ _) fun _ d _ _ => ?_
  refine upholds_read fun d _ _ _ => ?_
  split
  · exact upholds_bind (audit_upholds d _ _ _ _) fun _ d _ _ => upholds_throw trivial
  · next admin _ =>
    refine upholds_bind (refuseIf_upholds d _ _) fun _ d _ _ => ?_
    refine upholds_read fun d _ _ _ => ?_
    have hput : ∀ (seen : Table String MailedCode) (p : String →
        Bool) (code : LoginCode) (d : CodeDesk), Upholds Intact Sound Anything (fun _ _ =>
          True) (fun _ _ => True) (putFresh seen (seen.keep p) (normUser usernameRaw) code) d := by
      intro seen p code d
      refine upholds_step fun t _ hI hok => ?_
      exact ⟨hI.issue hok p (normUser usernameRaw) code, trivial, fun _ _ => trivial,
        fun _ _ => trivial⟩
    refine upholds_bind (hput _ _ _ d) fun _ d _ _ => ?_
    refine upholds_bind (sendMail_upholds d _ _) fun _ d _ _ => ?_
    exact upholds_bind (audit_upholds d _ _ _ _) fun _ d _ _ => upholds_pure trivial

/-- A call that writes the codes it has read does so on the ground of what it has read. -/
theorem consumeLoginCode_upholds (usernameRaw code : String) :
    Upholds Intact Sound Anything (fun _ _ => True)
      (fun _ _ => True) (consumeLoginCode env usernameRaw code) d := by
  unfold consumeLoginCode getCodes
  refine upholds_read fun d₁ _ _ _ => ?_
  have hput : ∀ (codes : Table String MailedCode) (events : List CodeEvent) (b : Bool),
      (∀ t, t.Sound → Intact (.putCodes d₁.codes) t →
        Sound { t with codes := codes, trail := events ++ t.trail }) →
      Upholds Intact Sound Anything (fun _ _ => True) (fun _ _ => True)
        (putCodes d₁.codes codes events >>= fun _ => pure b) d₁ := by
    intro codes events b hsound
    have hwrite : Upholds Intact Sound Anything (fun _ _ => True)
      (fun _ _ => True) (putCodes d₁.codes codes events) d₁ :=
      upholds_step fun t _ hI hok =>
        ⟨hsound t hI hok, trivial, fun _ _ => trivial, fun _ _ => trivial⟩
    exact upholds_bind hwrite fun _ _ _ _ => upholds_pure trivial
  dsimp only
  split
  · exact upholds_pure trivial
  · next row hrow =>
    have hget := (Option.filter_eq_some_iff.mp hrow).1
    refine upholds_ite (fun _ => ?_) fun hlive => upholds_ite (fun _ => ?_) fun _ => ?_
    · exact hput _ _ _ fun t hI hok => hI.drop hok (normUser usernameRaw)
    · exact hput _ _ _ fun t hI hok => hI.miss hok hget
    · exact hput _ _ _ fun t hI hok => hI.accept hok hget hlive

theorem task_upholds (call : Call) :
    Upholds Intact Sound Anything (fun _ _ => True) (fun _ _ => True) (task env call) d := by
  cases call with
  | request username password ip draw taken =>
    exact upholds_void (requestLoginCode_upholds d username password ip draw taken)
  | consume username code => exact upholds_void (consumeLoginCode_upholds d username code)

end Steps

/-! ## Runs -/

/-- Passwords, codes of the authenticator and hashes as they are. -/
def plainChecks : LoginEnv :=
  ⟨fun password hash => password = hash, fun secret code _ => code = secret, id⟩

/-- A panel whose owner logs in with a code by e-mail; no code has been asked for. -/
def quiet : CodeDesk where
  now := 0
  nextId := 0
  mail := ⟨true, "smtp", "", "p@x.io", "o@x.io", true, 5⟩
  admins := Table.ofRows [("owner", ⟨1, "secret", true, none, false, none, none, none⟩)]
  codes := .empty
  inbox := []
  auditLog := []
  trail := []

theorem quiet_sound : quiet.Sound where
  stored u c h := by cases h
  distinct u u' c c' h := by cases h
  fresh e h := by cases h
  single := ⟨fun _ => Nat.zero_le _, fun _ _ h => (by cases h), fun _ _ _ _ h => by
    simp [quiet] at h⟩

/-- Asking for the code 000042, and two attempts with it. -/
def askAndTryTwice : List Call :=
  [.request "owner" "secret" none 42 true, .consume "owner" "000042", .consume "owner" "000042"]

end CodeDesk

end SRPanel
