import SRPanel.Lib.Lines
import SRPanel.Model.Mailer

/-!
# The SMTP dialogue

A server reads what the mailer writes line by line: commands, after `DATA` the lines of a message up
to a line with a single dot, and commands again. The mailer puts the host, the sender and the
recipient into its lines as they are; the subject, the name and the body are encoded. The server
therefore hears the fixed dialogue exactly when none of these three texts has a line break.
-/

namespace SRPanel

open Lines

/-! ## What a server hears -/

/-- What a server takes a line for. -/
inductive Heard
  | command (line : List Char)
  | header (line : List Char)
  | blank
  | content (line : List Char)
  | endOfData
  deriving DecidableEq

/-- What a server expects next. -/
inductive Phase
  | commands
  /-- some more lines of `AUTH LOGIN` -/
  | credentials (n : ℕ)
  | headers
  | body
  deriving DecidableEq

/-- One line. -/
def hearLine : Phase → List Char → Heard × Phase
  | .commands, line =>
      (.command line, if line = "AUTH LOGIN".toList then .credentials 2
        else if line = "DATA".toList then .headers else .commands)
  | .credentials n, line => (.command line, if n ≤ 1 then .commands else .credentials (n - 1))
  | .headers, line =>
      if line = ['.'] then (.endOfData, .commands)
      else if line = [] then (.blank, .body) else (.header line, .headers)
  | .body, line => if line = ['.'] then (.endOfData, .commands) else (.content line, .body)

/-- Lines one after the other. -/
def hear : Phase → List (List Char) → List Heard
  | _, [] => []
  | p, line :: lines => (hearLine p line).1 :: hear (hearLine p line).2 lines

/-- What a server hears on the socket. -/
def heard (written : List String) : List Heard :=
  hear .commands (linesOf (written.flatMap String.toList))

/-! ## The dialogue -/

/-- The lines of a text in base64, of 76 characters each but for the last; `n` characters of the
first one are there already. -/
def b64Rows : (n : ℕ) → (row text : List Char) → List (List Char)
  | _, row, [] => [row]
  | n, row, c :: text =>
      if n = 75 then (row ++ [c]) :: b64Rows 0 [] text else b64Rows (n + 1) (row ++ [c]) text

/-- The commands before the message. -/
def opening (s : SmtpSettings) (to' : String) : List String :=
  ("EHLO " ++ s.host) :: (if s.user ≠ "" then ["AUTH LOGIN", b64 s.user, b64 s.pass] else []) ++
    ["MAIL FROM:<" ++ envelopeSender s ++ ">", "RCPT TO:<" ++ to' ++ ">", "DATA"]

/-- The dialogue of a mail: the commands, the seven headers, the text in base64, the end of the data
and `QUIT`. -/
def fixedDialogue (s : SmtpSettings) (to' subject text : String) (now : Time) : List Heard :=
  (opening s to').map (fun line => .command line.toList) ++
    (mailHeaders s to' subject now).map (fun line => .header line.toList) ++ [.blank] ++
    (b64Rows 0 [] (b64 text).toList).map .content ++ [.endOfData, .command "QUIT".toList]

/-- Whatever the server replies, it hears the fixed dialogue up to the point where the mailer gives
up, and all of it if the mail is sent. -/
def KeepsDialogue (s : SmtpSettings) (to' : Option String) (subject text : String)
    (now : Time) : Prop :=
  ∀ replies,
    heard (sendMail s to' subject text now replies).written <+: fixedDialogue s
      (mailTarget s to') subject text now ∧
    ((sendMail s to' subject text now replies).result = .ok () →
      heard (sendMail s to' subject text now replies).written =
      fixedDialogue s (mailTarget s to') subject text now)

/-- A text without a line break. -/
def OneLine (v : String) : Prop := LF ∉ v.toList

instance (v : String) : Decidable (OneLine v) := inferInstanceAs (Decidable (_ ∉ _))

@[simp] theorem oneLine_append (v w : String) : OneLine (v ++ w) ↔ OneLine v ∧ OneLine w := by
  simp [OneLine, not_or]

@[simp] theorem oneLine_ofList (cs : List Char) : OneLine (.ofList cs) ↔ LF ∉ cs := by
  simp [OneLine]

/-! ## Encoded texts are one line -/

/-- No digit of Base64 is a line feed or a dot. -/
theorem b64Digit_ne (n : ℕ) : b64Digit n ≠ LF ∧ b64Digit n ≠ '.' := by
  by_cases hn : n < 63
  · revert n
    decide
  · have hlast : b64Digit n = '/' := by
      unfold b64Digit
      rw [if_neg (by omega), if_neg (by omega), if_neg (by omega), if_neg (by omega)]
    rw [hlast]
    decide

/-- Nor is any character of encoded bytes. -/
theorem b64Bytes_ne {bytes : List UInt8} {c : Char} (hc : c ∈ b64Bytes bytes) :
    c ≠ LF ∧ c ≠ '.' := by
  have hpad : '=' ≠ LF ∧ '=' ≠ '.' := by decide
  induction bytes using b64Bytes.induct with
  | case1 a b d rest ih =>
      simp only [b64Bytes, List.mem_cons] at hc
      rcases hc with rfl | rfl | rfl | rfl | hc
      · exact b64Digit_ne _
      · exact b64Digit_ne _
      · exact b64Digit_ne _
      · exact b64Digit_ne _
      · exact ih hc
  | case2 a b =>
      simp only [b64Bytes, List.mem_cons, List.not_mem_nil, or_false] at hc
      rcases hc with rfl | rfl | rfl | rfl
      · exact b64Digit_ne _
      · exact b64Digit_ne _
      · exact b64Digit_ne _
      · exact hpad
  | case3 a =>
      simp only [b64Bytes, List.mem_cons, List.not_mem_nil, or_false] at hc
      rcases hc with rfl | rfl | rfl | rfl
      · exact b64Digit_ne _
      · exact b64Digit_ne _
      · exact hpad
      · exact hpad
  | case4 => cases hc

/-- Nor is any of an encoded text. -/
theorem b64_ne {v : String} {c : Char} (hc : c ∈ (b64 v).toList) : c ≠ LF ∧ c ≠ '.' := by
  rw [b64, String.toList_ofList] at hc
  exact b64Bytes_ne hc

/-- So an encoded text is one line. -/
theorem oneLine_b64 (v : String) : OneLine (b64 v) := fun h => (b64_ne h).1 rfl

/-- So is the value of a header. -/
theorem oneLine_headerValue (v : String) : OneLine (headerValue v) := by
  unfold headerValue
  split
  · next h =>
      intro hmem
      exact absurd (List.all_eq_true.mp h _ hmem) (by decide)
  · rw [oneLine_append, oneLine_append]
    exact ⟨⟨by decide, oneLine_b64 v⟩, by decide⟩

/-- So is a number. -/
theorem oneLine_toString (n : ℕ) : OneLine (toString n) := by
  intro h
  rw [Nat.toString_eq_repr, Nat.toList_repr] at h
  exact absurd (Nat.isDigit_of_mem_toDigits (by decide) (by decide) h) (by decide)

/-- So are two digits. -/
theorem oneLine_twoDigits (n : ℕ) : OneLine (twoDigits n) := by
  unfold twoDigits
  split
  · exact (oneLine_append _ _).mpr ⟨by decide, oneLine_toString n⟩
  · exact oneLine_toString n

/-- So is one of a list of names that are. -/
theorem oneLine_getD {names : List String} (h : ∀ v ∈ names, OneLine v) (i : ℕ) :
    OneLine (names.getD i "") := by
  rw [List.getD_eq_getElem?_getD]
  cases hi : names[i]? with
  | none => decide
  | some v => exact h v (List.mem_of_getElem? hi)

/-- So is a date. -/
theorem oneLine_toUTCString (now : Time) : OneLine (toUTCString now) := by
  have hday : ∀ i, OneLine (WEEKDAYS.getD i "") := oneLine_getD (by decide)
  have hmonth : ∀ i, OneLine (MONTHS.getD i "") := oneLine_getD (by decide)
  simp only [toUTCString, oneLine_append]
  simp only [hday, hmonth, oneLine_twoDigits, oneLine_toString, true_and, and_true]
  decide

/-! ## The lines of the mailer -/

/-- The lines of the message, with the dot that ends it. -/
def messageLines (s : SmtpSettings) (to' subject text : String) (now : Time) : List (List Char) :=
  (mailHeaders s to' subject now).map String.toList ++ [[]] ++
    b64Rows 0 [] (b64 text).toList ++ [['.']]

/-- The lines of the whole conversation. -/
def mailLines (s : SmtpSettings) (to' subject text : String) (now : Time) : List (List Char) :=
  (opening s to').map String.toList ++ messageLines s to' subject text now ++ ["QUIT".toList]

theorem withEnds_b64Rows (n : ℕ) (row text : List Char) :
    withEnds (b64Rows n row text) = row ++ foldLines n text ++ ['\r', LF] := by
  induction text generalizing n row with
  | nil => simp [b64Rows, foldLines]
  | cons c text ih =>
      rw [b64Rows, foldLines]
      split
      · rw [withEnds_cons, ih]
        simp [LF]
      · rw [ih]
        simp

/-- The rows hold the characters of the text. -/
theorem mem_b64Rows {n : ℕ} {row text line : List Char}
    (hline : line ∈ b64Rows n row text) {c : Char} (hc : c ∈ line) : c ∈ row ∨ c ∈ text := by
  induction text generalizing n row with
  | nil =>
      obtain rfl := List.mem_singleton.mp hline
      exact .inl hc
  | cons d text ih =>
      rw [b64Rows] at hline
      have hrow : c ∈ row ++ [d] → c ∈ row ∨ c ∈ d :: text := by
        intro h
        rcases List.mem_append.mp h with h | h
        · exact .inl h
        · rw [List.mem_singleton.mp h]
          exact .inr List.mem_cons_self
      split at hline
      · rcases List.mem_cons.mp hline with rfl | hline
        · exact hrow hc
        · rcases ih hline with h | h
          · cases h
          · exact .inr (List.mem_cons_of_mem d h)
      · rcases ih hline with h | h
        · exact hrow h
        · exact .inr (List.mem_cons_of_mem d h)

theorem b64Rows_ne {text : String} {line : List Char}
    (hline : line ∈ b64Rows 0 [] (b64 text).toList) : LF ∉ line ∧ line ≠ ['.'] := by
  have hchars : ∀ c ∈ line, c ≠ LF ∧ c ≠ '.' := by
    intro c hc
    rcases mem_b64Rows hline hc with h | h
    · cases h
    · exact b64_ne h
  refine ⟨fun h => (hchars _ h).1 rfl, ?_⟩
  rintro rfl
  exact (hchars '.' List.mem_cons_self).2 rfl

/-- The message as the mailer joins it. -/
theorem buildMessage_toList (s : SmtpSettings) (to' subject text : String) (now : Time) :
    (buildMessage s to' subject text now ++ "\r\n.\r\n").toList = withEnds
    (messageLines s to' subject text now) := by
  have hend : ("\r\n.\r\n" : String).toList = ['\r', LF] ++ withEnds [['.']] := by decide
  have hcrlf : CRLF.toList = ['\r', LF] := by decide
  have hbody : withEnds [(b64Lines text).toList] = withEnds (b64Rows 0 [] (b64 text).toList) := by
    rw [withEnds_b64Rows, b64Lines, String.toList_ofList, withEnds_cons]
    rfl
  have hne : (mailHeaders s to' subject now ++ ["", b64Lines text]).map String.toList ≠ [] := by
    simp
  rw [buildMessage, String.toList_append, hend, String.toList_intercalate, hcrlf,
    ← List.append_assoc, ← withEnds_eq_intercalate hne, messageLines, withEnds_append,
    withEnds_append, ← hbody, ← withEnds_append,
    ← withEnds_append, List.map_append]
  simp

/-! ## What is heard of these lines -/

/-- What a server expects after some lines. -/
def phaseAfter : Phase → List (List Char) → Phase
  | p, [] => p
  | p, line :: lines => phaseAfter (hearLine p line).2 lines

theorem hear_append (p : Phase) (lines lines' : List (List Char)) :
    hear p (lines ++ lines') = hear p lines ++ hear (phaseAfter p lines) lines' := by
  induction lines generalizing p with
  | nil => rfl
  | cons line lines ih => rw [List.cons_append, hear, hear, ih, phaseAfter, List.cons_append]

/-- Each line is heard once. -/
theorem length_hear (p : Phase) (lines : List (List Char)) :
    (hear p lines).length = lines.length := by
  induction lines generalizing p with
  | nil => rfl
  | cons line lines ih => rw [hear, List.length_cons, List.length_cons, ih]

/-- A command that opens neither the login nor the data. -/
theorem hearLine_command {line : List Char} (hhead : ∀ c ∈ line.head?, c ≠ 'A' ∧ c ≠ 'D') :
    hearLine .commands line = (.command line, .commands) := by
  have hlogin : line ≠ "AUTH LOGIN".toList := by
    rintro rfl
    exact (hhead 'A' (by decide)).1 rfl
  have hdata : line ≠ "DATA".toList := by
    rintro rfl
    exact (hhead 'D' (by decide)).2 rfl
  rw [hearLine, if_neg hlogin, if_neg hdata]

theorem hear_opening (s : SmtpSettings) (to' : String) :
    hear .commands ((opening s to').map String.toList) =
      (opening s to').map (fun line => .command line.toList) ∧
      phaseAfter .commands ((opening s to').map String.toList) = .headers := by
  have hehlo : hearLine .commands ("EHLO " ++ s.host).toList = (.command ("EHLO " ++ s.host).toList,
      .commands) :=
    hearLine_command (by simp)
  have hmail : hearLine .commands ("MAIL FROM:<" ++ envelopeSender s ++ ">").toList =
      (.command ("MAIL FROM:<" ++ envelopeSender s ++ ">").toList, .commands) :=
    hearLine_command (by simp)
  have hrcpt : hearLine .commands ("RCPT TO:<" ++ to' ++ ">").toList =
      (.command ("RCPT TO:<" ++ to' ++ ">").toList, .commands) := hearLine_command (by simp)
  have hlogin : hearLine .commands "AUTH LOGIN".toList =
      (.command "AUTH LOGIN".toList, .credentials 2) := rfl
  have hfirst : ∀ line, hearLine (.credentials 2) line = (.command line, .credentials 1) :=
    fun _ => rfl
  have hsecond : ∀ line, hearLine (.credentials 1) line = (.command line, .commands) := fun _ => rfl
  have hdata : hearLine .commands "DATA".toList = (.command "DATA".toList, .headers) := rfl
  unfold opening
  by_cases huser : s.user ≠ ""
  · rw [if_pos huser]
    simp only [List.cons_append, List.nil_append, List.map_cons, List.map_nil, hear, phaseAfter,
      hehlo, hmail, hrcpt, hlogin, hfirst, hsecond, hdata, and_self]
  · rw [if_neg huser]
    simp only [List.cons_append, List.nil_append, List.map_cons, List.map_nil, hear, phaseAfter,
      hehlo, hmail, hrcpt, hdata, and_self]

theorem hear_headers {lines : List (List Char)} (h : ∀ line ∈ lines, 2 ≤ line.length) :
    hear .headers lines = lines.map .header ∧ phaseAfter .headers lines = .headers := by
  induction lines with
  | nil => exact ⟨rfl, rfl⟩
  | cons line lines ih =>
      obtain ⟨hrest, hphase⟩ := ih fun line' hline' => h line' (List.mem_cons_of_mem line hline')
      have hlen := h line List.mem_cons_self
      have hone : hearLine .headers line = (.header line, .headers) := by
        rw [hearLine, if_neg, if_neg]
        · rintro rfl
          simp at hlen
        · rintro rfl
          simp at hlen
      rw [hear, phaseAfter, hone, hrest, List.map_cons]
      exact ⟨rfl, hphase⟩

theorem hear_body {lines : List (List Char)} (h : ∀ line ∈ lines, line ≠ ['.']) :
    hear .body lines = lines.map .content ∧ phaseAfter .body lines = .body := by
  induction lines with
  | nil => exact ⟨rfl, rfl⟩
  | cons line lines ih =>
      obtain ⟨hrest, hphase⟩ := ih fun line' hline' => h line' (List.mem_cons_of_mem line hline')
      rw [hear, phaseAfter, hearLine, if_neg (h line List.mem_cons_self), hrest, List.map_cons]
      exact ⟨rfl, hphase⟩

/-- The headers begin with their names. -/
theorem mailHeaders_length {s : SmtpSettings} {to' subject : String} {now : Time} :
    ∀ line ∈ (mailHeaders s to' subject now).map String.toList, 2 ≤ line.length := by
  intro line hline
  obtain ⟨v, hv, rfl⟩ := List.mem_map.mp hline
  simp only [mailHeaders, List.mem_cons, List.not_mem_nil, or_false] at hv
  rcases hv with rfl | rfl | rfl | rfl | rfl | rfl | rfl
  · simp
  · simp
  · simp
  · simp
  · decide
  · decide
  · decide

/-- A server that gets the lines of the conversation hears the dialogue. -/
theorem hear_mailLines (s : SmtpSettings) (to' subject text : String) (now : Time) :
    hear .commands (mailLines s to' subject text now) = fixedDialogue s to' subject text now := by
  obtain ⟨hopen, hdata⟩ := hear_opening s to'
  have hlength : ∀ line ∈ (mailHeaders s to' subject now).map String.toList, 2 ≤ line.length :=
    mailHeaders_length
  have hrows : ∀ line ∈ b64Rows 0 [] (b64 text).toList, line ≠ ['.'] := fun line hline =>
    (b64Rows_ne hline).2
  obtain ⟨hheaders, hafter⟩ := hear_headers hlength
  obtain ⟨hbody, hrest⟩ := hear_body hrows
  have hblank : hear .headers [[]] = [.blank] ∧ phaseAfter .headers [[]] = .body := ⟨rfl, rfl⟩
  have hdot : hear .body [['.']] = [.endOfData] ∧ phaseAfter .body [['.']] = .commands := ⟨rfl, rfl⟩
  have hquit : hear .commands ["QUIT".toList] = [.command "QUIT".toList] := rfl
  simp only [mailLines, messageLines, List.append_assoc, hear_append, hopen, hdata, hheaders,
    hafter, hblank, hbody, hrest, hdot, hquit, fixedDialogue, List.map_map]
  rfl

/-! ## The conversation -/

/-- The lines of each exchange, in order. -/
def exchangeLines (s : SmtpSettings) (to' subject text : String) (now : Time) :
    List (List (List Char)) :=
  [] :: ((opening s to').map fun line => [line.toList]) ++ [messageLines s to' subject text now]

theorem exchanges_lines (s : SmtpSettings) (to' subject text : String) (now : Time) :
    List.Forall₂ (fun x lines => x.command.toList.flatMap String.toList = withEnds lines)
      (exchanges s to' subject text now) (exchangeLines s to' subject text now) := by
  have hone : ∀ (line : String) (expected : List ℕ),
      (Exchange.of line expected).command.toList.flatMap String.toList =
      withEnds [line.toList] := by
    intro line expected
    have hcrlf : CRLF.toList = ['\r', LF] := by decide
    simp [Exchange.of, hcrlf]
  have hmessage : (some (buildMessage s to' subject text now ++
      "\r\n.\r\n")).toList.flatMap String.toList =
      withEnds (messageLines s to' subject text now) := by
    rw [Option.toList_some, List.flatMap_singleton]
    exact buildMessage_toList s to' subject text now
  unfold exchanges exchangeLines opening
  by_cases huser : s.user ≠ ""
  · rw [if_pos huser, if_pos huser]
    exact .cons rfl (.cons (hone _ _)
      (.cons (hone _ _) (.cons (hone _ _)
        (.cons (hone _ _) (.cons (hone _ _)
          (.cons (hone _ _) (.cons (hone _ _) (.cons hmessage .nil))))))))
  · rw [if_neg huser, if_neg huser]
    exact .cons rfl (.cons (hone _ _)
      (.cons (hone _ _) (.cons (hone _ _) (.cons (hone _ _) (.cons hmessage .nil)))))

/-- The client writes the lines of the exchanges up to the one whose reply it does not accept. -/
theorem converse_lines {xs : List Exchange} {ls : List (List (List Char))}
    (h : List.Forall₂
      (fun x lines => x.command.toList.flatMap String.toList = withEnds lines) xs ls)
    (replies : List SmtpReply) : ∃ lines, lines <+: ls.flatten ++ ["QUIT".toList] ∧
      (converse xs replies).written.flatMap String.toList = withEnds lines ∧
      ((converse xs replies).result = .ok () → lines = ls.flatten ++ ["QUIT".toList]) := by
  induction h generalizing replies with
  | nil =>
      have hquit : ["QUIT" ++ CRLF].flatMap String.toList = withEnds ["QUIT".toList] := by decide
      exact ⟨["QUIT".toList], List.prefix_refl _, hquit, fun _ => rfl⟩
  | @cons x lines xs ls hx _ ih =>
      have hfirst : lines <+: (lines :: ls).flatten ++ ["QUIT".toList] := by
        rw [List.flatten_cons, List.append_assoc]
        exact List.prefix_append _ _
      cases replies with
      | nil => exact ⟨lines, hfirst, hx, fun hok => by cases hok⟩
      | cons reply replies =>
          rw [converse]
          split
          · obtain ⟨rest, hrest, hwritten, hall⟩ := ih replies
            refine ⟨lines ++ rest, ?_, ?_, fun hok => ?_⟩
            · rw [List.flatten_cons, List.append_assoc]
              exact (List.prefix_append_right_inj lines).mpr hrest
            · rw [List.flatMap_append, hx, hwritten, withEnds_append]
            · rw [hall hok, List.flatten_cons, List.append_assoc]
          · exact ⟨lines, hfirst, hx, fun hok => by cases hok⟩

/-- A server that takes everything is told everything. -/
theorem converse_accepted {xs : List Exchange} (h : ∀ x ∈ xs, x.expected ≠ []) :
    ∃ replies, (converse xs replies).result = .ok () := by
  induction xs with
  | nil => exact ⟨[], rfl⟩
  | cons x xs ih =>
      obtain ⟨replies, hok⟩ := ih fun y hy => h y (List.mem_cons_of_mem x hy)
      obtain ⟨code, hcode⟩ := List.exists_mem_of_ne_nil _ (h x List.mem_cons_self)
      exact ⟨⟨code, ""⟩ :: replies, by rw [converse, if_pos hcode]; exact hok⟩

/-- Every exchange expects an answer. -/
theorem exchanges_expected {s : SmtpSettings} {to' subject text : String} {now : Time} :
    ∀ x ∈ exchanges s to' subject text now, x.expected ≠ [] := by
  intro x hx
  unfold exchanges at hx
  split at hx
  · simp only [List.cons_append, List.nil_append, List.mem_cons, List.not_mem_nil, or_false] at hx
    rcases hx with rfl | rfl | rfl | rfl | rfl | rfl | rfl | rfl | rfl <;> simp [Exchange.of]
  · simp only [List.cons_append, List.nil_append, List.mem_cons, List.not_mem_nil, or_false] at hx
    rcases hx with rfl | rfl | rfl | rfl | rfl | rfl <;> simp [Exchange.of]

/-- The lines of the exchanges and `QUIT` are those of the conversation. -/
theorem exchangeLines_flatten (s : SmtpSettings) (to' subject text : String) (now : Time) :
    (exchangeLines s to' subject text now).flatten ++ ["QUIT".toList] =
    mailLines s to' subject text now := by
  have hsingle : ∀ lines : List String,
      (lines.map fun line => [line.toList]).flatten = lines.map String.toList := by
    intro lines
    induction lines with
    | nil => rfl
    | cons line lines ih => rw [List.map_cons, List.flatten_cons, ih]; rfl
  rw [exchangeLines, List.cons_append, List.flatten_cons, List.nil_append, List.flatten_append,
    hsingle, mailLines]
  simp

/-! ## The fixed dialogue -/

/-- Only the host, the sender and the recipient can bring a line break into a line. -/
theorem mailLines_oneLine (s : SmtpSettings) (to' subject text : String) (now : Time) :
    (∀ line ∈ mailLines s to' subject text now, LF ∉ line) ↔
      OneLine s.host ∧ OneLine (envelopeSender s) ∧ OneLine to' := by
  have hehlo : ("EHLO " ++ s.host).toList ∈ mailLines s to' subject text now := by
    simp [mailLines, opening]
  have hmail : ("MAIL FROM:<" ++ envelopeSender s ++ ">").toList ∈
      mailLines s to' subject text now := by
    simp [mailLines, opening]
  have hrcpt : ("RCPT TO:<" ++ to' ++ ">").toList ∈ mailLines s to' subject text now := by
    simp [mailLines, opening]
  constructor
  · intro h
    have hhost := (oneLine_append _ _).mp (h _ hehlo)
    have hsender := (oneLine_append _ _).mp ((oneLine_append _ _).mp (h _ hmail)).1
    have hto := (oneLine_append _ _).mp ((oneLine_append _ _).mp (h _ hrcpt)).1
    exact ⟨hhost.2, hsender.2, hto.2⟩
  · rintro ⟨hhost, hsender, hto⟩
    have hehlo : OneLine ("EHLO " ++ s.host) := (oneLine_append _ _).mpr ⟨by decide, hhost⟩
    have hmail : OneLine ("MAIL FROM:<" ++ envelopeSender s ++ ">") := by
      rw [oneLine_append, oneLine_append]
      exact ⟨⟨by decide, hsender⟩, by decide⟩
    have hrcpt : OneLine ("RCPT TO:<" ++ to' ++ ">") := by
      rw [oneLine_append, oneLine_append]
      exact ⟨⟨by decide, hto⟩, by decide⟩
    have hopen : ∀ v ∈ opening s to', OneLine v := by
      intro v hv
      unfold opening at hv
      split at hv
      · simp only [List.cons_append, List.nil_append, List.mem_cons, List.not_mem_nil, or_false] at hv
        rcases hv with rfl | rfl | rfl | rfl | rfl | rfl | rfl
        · exact hehlo
        · decide
        · exact oneLine_b64 _
        · exact oneLine_b64 _
        · exact hmail
        · exact hrcpt
        · decide
      · simp only [List.cons_append, List.nil_append, List.mem_cons, List.not_mem_nil, or_false] at hv
        rcases hv with rfl | rfl | rfl | rfl
        · exact hehlo
        · exact hmail
        · exact hrcpt
        · decide
    have hheaders : ∀ v ∈ mailHeaders s to' subject now, OneLine v := by
      intro v hv
      simp only [mailHeaders, List.mem_cons, List.not_mem_nil, or_false] at hv
      rcases hv with rfl | rfl | rfl | rfl | rfl | rfl | rfl
      · split
        · simp only [oneLine_append, oneLine_headerValue, hsender, and_true, true_and]
          decide
        · simp only [oneLine_append, hsender, and_true]
          decide
      · simp only [oneLine_append, hto, and_true]
        decide
      · simp only [oneLine_append, oneLine_headerValue, and_true]
        decide
      · simp only [oneLine_append, oneLine_toUTCString, and_true]
        decide
      · decide
      · decide
      · decide
    intro line hline
    simp only [mailLines, messageLines, List.mem_append, List.mem_map, List.mem_singleton] at hline
    rcases hline with (⟨v, hv, rfl⟩ | ((⟨v, hv, rfl⟩ | rfl) | hrow) | rfl) | rfl
    · exact hopen v hv
    · exact hheaders v hv
    · exact List.not_mem_nil
    · exact (b64Rows_ne hrow).1
    · decide
    · decide

section Sending

variable {s : SmtpSettings} {to' : Option String} {subject text : String} {now : Time}

/-- A mail that can be sent is a conversation. -/
theorem sendMail_eq (hready : mailReady s.toMailSettings) (hto : mailTarget s to' ≠ "")
    (replies : List SmtpReply) : sendMail s to' subject text now replies =
      converse (exchanges s (mailTarget s to') subject text now) replies := by
  rw [sendMail, hready, if_neg (by decide), if_neg hto]

/-- A server that takes the mail hears more than the dialogue if one of its lines has a line break.
-/
theorem oneLine_of_keepsDialogue (hready : mailReady s.toMailSettings) (hto : mailTarget s to' ≠ "")
    (h : KeepsDialogue s to' subject text now) :
    OneLine s.host ∧ OneLine (envelopeSender s) ∧ OneLine (mailTarget s to') := by
  refine (mailLines_oneLine s (mailTarget s to') subject text now).mp ?_
  have hexpected : ∀ x ∈ exchanges s (mailTarget s to') subject text now, x.expected ≠ [] :=
    exchanges_expected
  obtain ⟨replies, hok⟩ := converse_accepted hexpected
  obtain ⟨lines, -, hwritten, hall⟩ :=
    converse_lines (exchanges_lines s (mailTarget s to') subject text now) replies
  have heq := (h replies).2
  rw [sendMail_eq hready hto] at heq
  have heard_eq := heq hok
  rw [heard, hwritten, hall hok, exchangeLines_flatten, ← hear_mailLines] at heard_eq
  have hlength := congrArg List.length heard_eq
  rw [length_hear, length_hear] at hlength
  exact lf_not_mem_of_length hlength

/-- Lines without a line break are heard as they are, as far as the conversation goes. -/
theorem keepsDialogue_of_oneLine (hready : mailReady s.toMailSettings) (hto : mailTarget s to' ≠ "")
    (h : OneLine s.host ∧ OneLine (envelopeSender s) ∧ OneLine (mailTarget s to')) :
    KeepsDialogue s to' subject text now := by
  have hlf := (mailLines_oneLine s (mailTarget s to') subject text now).mpr h
  intro replies
  obtain ⟨lines, hfirst, hwritten, hall⟩ :=
    converse_lines (exchanges_lines s (mailTarget s to') subject text now) replies
  rw [exchangeLines_flatten] at hfirst hall
  rw [sendMail_eq hready hto, ← hear_mailLines, heard, hwritten,
    linesOf_withEnds fun line hline => hlf line (hfirst.subset hline)]
  refine ⟨?_, fun hok => by rw [hall hok]⟩
  obtain ⟨rest, hrest⟩ := hfirst
  rw [← hrest, hear_append]
  exact List.prefix_append _ _

end Sending

/-- The mailer keeps to the dialogue of a mail exactly when neither the host, nor the sender, nor
the recipient has a line break, whatever the subject and the text are. -/
theorem keepsDialogue_iff (s : SmtpSettings) (to' : Option String) (subject text : String)
    (now : Time) (hready : mailReady s.toMailSettings) (hto : mailTarget s to' ≠ "") :
    KeepsDialogue s to' subject text now ↔
      OneLine s.host ∧ OneLine (envelopeSender s) ∧ OneLine (mailTarget s to') :=
  ⟨oneLine_of_keepsDialogue hready hto, keepsDialogue_of_oneLine hready hto⟩

/-- A mail account. -/
def mailAccount : SmtpSettings where
  enabled := true
  host := "smtp.example.com"
  user := "panel@example.com"
  from' := ""
  to' := ""
  loginCode := false
  ttlMin := 5
  pass := "secret"
  fromName := "Panel"

/-- A mail to a buyer. -/
theorem keepsDialogue_buyer :
    KeepsDialogue mailAccount
      (some "buyer@example.com") "Your panel" "Welcome.\n.\nQUIT\n" 1764633600123 :=
  (keepsDialogue_iff mailAccount
    (some "buyer@example.com") "Your panel" "Welcome.\n.\nQUIT\n" 1764633600123 (by decide)
    (by decide)).mpr (by decide)

/-- The text of an order's e-mail field with a second recipient in it. -/
def twoRecipients : String := "a@example.com>\r\nRCPT TO:<b@example.com"

/-- An order accepts a second recipient in its e-mail field, and the mailer passes it on. -/
theorem dialogue_injected : orderEmail (some twoRecipients) none = some twoRecipients ∧
    ¬ KeepsDialogue mailAccount
      (orderEmail (some twoRecipients) none) "Your panel" "Welcome." 1764633600123 := by
  have hemail : orderEmail (some twoRecipients) none = some twoRecipients := by decide
  refine ⟨hemail, fun h => ?_⟩
  have hto := (oneLine_of_keepsDialogue (by decide) (by decide) h).2.2
  revert hto
  decide

end SRPanel
