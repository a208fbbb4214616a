import SRPanel.Lib.Lines
import SRPanel.Model.SmtpReplies
import Mathlib.Data.List.ReduceOption

/-!
# Replies in chunks

`takeReply` cannot tell a line that has not arrived completely from a finished one: a last line
counts as soon as its code and the blank are there. What is left of the line starts the buffer of
the next step. This does no harm unless the rest looks like a last line itself, or only the line
feed is left and hides the code of a reply of one line.
-/

namespace SRPanel

open Chunks

/-- Chunks end only at the places that are allowed. -/
def EndsAt (places : ℕ → Prop) (chunks : List (List Char)) : Prop :=
  ∀ l₁ l₂, chunks = l₁ ++ l₂ → l₁ ≠ [] → l₂ ≠ [] → places l₁.flatten.length

/-- However the replies are cut at these places, every step gets the code of its reply. -/
def ReadAlike (places : ℕ → Prop) (replies : List ServerReply) : Prop :=
  ∀ (steps : List (List ℕ)) (chunks : List (List Char)), chunks.flatten = replyStream replies →
    EndsAt places chunks → commandCodes steps [] chunks = answered steps (replies.map fun r =>
      codeValue r.code)

/-! ## The ends of replies -/

theorem isReplyEnd_iff {line : List Char} : isReplyEnd line ↔
    ∃ a b c rest, line = a :: b :: c :: ' ' :: rest ∧ [a, b, c].all Char.isDigit := by
  constructor
  · intro h
    unfold isReplyEnd at h
    split at h
    · exact ⟨_, _, _, _, rfl, h⟩
    · cases h
  · rintro ⟨a, b, c, rest, rfl, h⟩
    exact h

/-- The end of a reply as a mark of its line, with its code. -/
def replyMark : Chunks.Mark '\r' '\n' (Option ℕ) where
  marked := isReplyEnd
  mark line := codeValue (line.take 3)
  cr_ne_lf := by decide
  marked_append x y h := by
    obtain ⟨a, b, c, rest, rfl, hdigits⟩ := isReplyEnd_iff.mp h
    exact hdigits
  mark_append x y h := by
    obtain ⟨a, b, c, rest, rfl, hdigits⟩ := isReplyEnd_iff.mp h
    rfl
  marked_cr x h := by
    obtain ⟨a, b, c, rest, heq, hdigits⟩ := isReplyEnd_iff.mp h
    obtain _ | ⟨x₁, _ | ⟨x₂, _ | ⟨x₃, _ | ⟨x₄, x⟩⟩⟩⟩ := x
    all_goals simp only [List.nil_append, List.cons_append, List.cons.injEq] at heq
    · simp at heq
    · simp at heq
    · simp at heq
    · exact absurd heq.2.2.2.1 (by decide)
    · obtain ⟨rfl, rfl, rfl, rfl, -⟩ := heq
      exact hdigits
  not_marked_lf x h := by
    obtain ⟨a, b, c, rest, heq, hdigits⟩ := isReplyEnd_iff.mp h
    obtain rfl := (List.cons.inj heq).1
    exact absurd hdigits (by simp)

@[simp] theorem replyMark_marked (line : List Char) : replyMark.marked line = isReplyEnd line := rfl

@[simp] theorem replyMark_mark (line : List Char) : replyMark.mark line = codeValue (line.take 3) :=
  rfl

/-! ## One reply -/

/-- No finished line of a text has a line feed. -/
def TidyText (text : List Char) : Prop :=
  ∀ line ∈ splitLines '\r' '\n' text, isReplyEnd line → '\n' ∉ line

theorem replyCode_of_lines {lines : List (List Char)} {line : List Char} (hline : '\n' ∉ line) :
    replyCode (['\n'].intercalate (lines ++ [line])) = codeValue (line.take 3) := by
  rw [replyCode, Lines.rtakeWhile_intercalate hline]

/-- A buffer without the end of a reply. -/
theorem takeReply_eq_none {buf : List Char} (h : replyMark.textMarks buf = []) :
    takeReply buf = none := by
  have hnone := Chunks.Mark.marks_eq_nil_iff.mp h
  rw [takeReply, Option.map_eq_none_iff, List.findIdx?_eq_none_iff]
  exact fun line hline => eq_false_of_ne_true (hnone line hline)

/-- A buffer with one: the first one is taken off. -/
theorem takeReply_eq_some {buf : List Char} {code : Option ℕ} {codes : List (Option ℕ)}
    (htidy : TidyText buf) (h : replyMark.textMarks buf = code :: codes) :
      ∃ reply rest, takeReply buf = some (reply, rest) ∧ replyCode reply = code ∧
      replyMark.textMarks rest = codes ∧
      replyMark.leftover rest = replyMark.leftover buf ∧ rest <:+ buf := by
  obtain ⟨before, line, after, hlines, hbefore, hline, rfl, rfl⟩ := Chunks.Mark.marks_eq_cons h
  have hindex : (before ++ line :: after).findIdx? isReplyEnd = some before.length := by
    have hnone : before.findIdx? isReplyEnd = none :=
      List.findIdx?_eq_none_iff.mpr fun l hl => eq_false_of_ne_true (hbefore l hl)
    have hend : isReplyEnd line = true := hline
    rw [List.findIdx?_append, hnone, List.findIdx?_cons, if_pos hend]
    simp
  have htake : (before ++ line :: after).take (before.length + 1) = before ++ [line] := by
    rw [List.take_length_add_append]
    rfl
  have hdrop : (before ++ line :: after).drop (before.length + 1) = after := by
    rw [List.drop_length_add_append]
    rfl
  have hlf : '\n' ∉ line := htidy line (by rw [hlines]; simp) hline
  have hleft : replyMark.leftover buf =
      joinLines '\r' '\n' (after.rtakeWhile fun line => !replyMark.marked line) := by
    rw [Chunks.Mark.leftover, hlines, Lines.rtakeWhile_append_cons]
    simpa using hline
  refine ⟨_, joinLines '\r' '\n' after, by
    rw [takeReply, hlines, hindex, Option.map_some, htake, hdrop],
    replyCode_of_lines hlf, ?_⟩
  by_cases hafter : after = []
  · subst hafter
    refine ⟨Chunks.Mark.textMarks_nil, ?_, List.nil_suffix⟩
    rw [hleft]
    rfl
  · have hsplit : splitLines '\r' '\n' buf = (before ++ [line]) ++ after := by rw [hlines, List.append_assoc]; rfl
    obtain ⟨t, hbuf, hcut⟩ := splitLines_cut hsplit hafter
    have hback : splitLines '\r' '\n' (joinLines '\r' '\n' after) = after := by
      have := hcut (joinLines '\r' '\n' after)
      rw [← hbuf, hsplit] at this
      exact (List.append_cancel_left this).symm
    refine ⟨?_, ?_, t, hbuf.symm⟩
    · rw [Chunks.Mark.textMarks, hback]
    · rw [hleft, Chunks.Mark.leftover, hback]

/-! ## All replies -/

/-- What the waiting steps take off a buffer are the marks of the buffer. -/
theorem settle_spec {buffer : List Char} (htidy : ∀ text, text <:+ buffer → TidyText text)
    (steps : List (List ℕ)) :
      (settle steps buffer).1 = answered steps (replyMark.textMarks buffer) ∧
        (∀ more, answered steps (replyMark.textMarks buffer ++ more) =
          answered steps (replyMark.textMarks buffer) ++ answered (settle steps buffer).2.1 more) ∧
      ((settle steps buffer).2.1 ≠ [] → (settle steps buffer).2.2 = replyMark.leftover buffer) := by
  induction steps generalizing buffer with
  | nil => exact ⟨rfl, fun more => rfl, fun h => absurd rfl h⟩
  | cons expected steps ih =>
    cases hmarks : replyMark.textMarks buffer with
    | nil =>
      have hnone := takeReply_eq_none hmarks
      have hsettle : settle (expected :: steps) buffer = ([], expected :: steps, buffer) := by
        rw [settle, hnone]
      rw [hsettle]
      exact ⟨rfl, fun more => rfl, fun _ => (Chunks.Mark.leftover_of_textMarks hmarks).symm⟩
    | cons code codes =>
      obtain ⟨reply, rest, htake, hcode, hrest, hleft, hsuffix⟩ :=
        takeReply_eq_some (htidy buffer List.suffix_rfl) hmarks
      obtain ⟨hcodes, happend, hbuffer⟩ := ih fun text htext => htidy text (htext.trans hsuffix)
      by_cases hexpected : code ∈ expected.map some
      · have hsettle : settle (expected :: steps) buffer =
            (code :: (settle steps rest).1, (settle steps rest).2) := by
          rw [settle, htake]
          simp only [hcode, if_pos hexpected]
        rw [hrest] at hcodes happend
        simp only [hsettle, answered, if_pos hexpected, List.cons_append, happend, hcodes,
          implies_true, true_and]
        exact fun h => (hbuffer h).trans hleft
      · have hsettle : settle (expected :: steps) buffer = ([code], [], rest) := by
          rw [settle, htake]
          simp only [hcode, if_neg hexpected]
        simp only [hsettle, answered, if_neg hexpected, List.cons_append, List.append_nil,
          implies_true, true_and]
        exact fun h => absurd rfl h

theorem commandCodes_nil (buffer : List Char) (chunks : List (List Char)) :
    commandCodes [] buffer chunks = [] := by
  induction chunks generalizing buffer with
  | nil => rfl
  | cons chunk chunks ih => rw [commandCodes, settle, ih, List.append_nil]

/-- A text whose parts are tidy. -/
def TidyParts (text : List Char) : Prop := ∀ part, part <:+: text → TidyText part

/-- The codes of the steps are the marks that are read from the chunks. -/
theorem commandCodes_eq {steps : List (List ℕ)} {buffer : List Char} {chunks : List (List Char)}
    (htidy : TidyParts (buffer ++ chunks.flatten)) :
    commandCodes steps buffer chunks = answered steps (replyMark.read buffer chunks) := by
  induction chunks generalizing steps buffer with
  | nil =>
    cases steps with
    | nil => rfl
    | cons expected steps => rfl
  | cons chunk chunks ih =>
    rw [List.flatten_cons, ← List.append_assoc] at htidy
    have hbuffer : ∀ text, text <:+ buffer ++ chunk → TidyText text := fun text h =>
      htidy text (h.isInfix.trans (List.prefix_append _ _).isInfix)
    obtain ⟨hcodes, happend, hrest⟩ := settle_spec hbuffer steps
    rw [commandCodes, Chunks.Mark.read, happend, hcodes]
    congr 1
    by_cases hnil : (settle steps (buffer ++ chunk)).2.1 = []
    · rw [hnil, commandCodes_nil]
      rfl
    · rw [hrest hnil, ih]
      intro part hpart
      have hsuffix : replyMark.leftover (buffer ++ chunk) <:+ buffer ++ chunk :=
        Chunks.Mark.leftover_suffix _
      obtain ⟨t, heq⟩ := hsuffix
      have hwhole : t ++ (replyMark.leftover (buffer ++ chunk) ++ chunks.flatten) =
          buffer ++ chunk ++ chunks.flatten := by rw [← List.append_assoc, heq]
      exact htidy part (hpart.trans (List.IsSuffix.isInfix ⟨t, hwhole⟩))

/-! ## The stream of a server -/

/-- Line feeds stand behind carriage returns only. -/
def Paired (text : List Char) : Prop := text.IsChain fun a b => b = '\n' → a = '\r'

/-- In such a text a line has no line feed, except as its first character. -/
theorem lf_not_mem_tail (line : List Char) {text : List Char} (hpaired : Paired (line ++ text))
    (hline : '\n' ∉ line.tail) :
    ∀ l ∈ continued '\r' '\n' line text, '\n' ∉ l.tail := by
  induction text generalizing line with
  | nil =>
    intro l hl
    rwa [List.mem_singleton.mp hl]
  | cons c text ih =>
    intro l hl
    rw [continued] at hl
    split at hl
    · next hcut =>
      obtain rfl | hl := List.mem_cons.mp hl
      · intro hlf
        rw [List.tail_dropLast] at hlf
        exact hline (List.dropLast_subset _ hlf)
      · exact ih [] (List.isChain_cons.mp hpaired.right_of_append).2 List.not_mem_nil l hl
    · next hcut =>
      refine ih _ (by rwa [List.append_assoc]) ?_ l hl
      obtain _ | ⟨b, line⟩ := line
      · exact List.not_mem_nil
      · rw [List.cons_append, List.tail_cons, List.mem_append, List.mem_singleton]
        rintro (hlf | rfl)
        · exact hline hlf
        · refine hcut ⟨rfl, ?_⟩
          have hne : b :: line ≠ [] := List.cons_ne_nil b line
          have hlast := List.getLast?_eq_some_getLast hne
          rw [hlast, (List.isChain_append.mp hpaired).2.2 _ hlast _ rfl rfl]

theorem tidyParts_of_paired {text : List Char} (h : Paired text) : TidyParts text := by
  rintro part hpart line hline hend hlf
  have hpaired : Paired ([] ++ part) := List.IsChain.infix h hpart
  have htail := lf_not_mem_tail [] hpaired List.not_mem_nil line hline
  obtain ⟨a, b, c, rest, rfl, hdigits⟩ := isReplyEnd_iff.mp hend
  obtain rfl | hlf := List.mem_cons.mp hlf
  · simp at hdigits
  · exact htail hlf

theorem paired_line {line text : List Char} (hline : '\n' ∉ line) (htext : Paired ('\r' :: text))
    (c : Char) : Paired (c :: (line ++ '\r' :: text)) := by
  induction line generalizing c with
  | nil => exact List.isChain_cons_cons.mpr ⟨fun h => absurd h (by decide), htext⟩
  | cons d line ih =>
    obtain ⟨hd, hline⟩ := not_or.mp (List.mem_cons.not.mp hline)
    exact List.isChain_cons_cons.mpr ⟨fun h => absurd h.symm hd, ih hline d⟩

theorem paired_withEnds {lines : List (List Char)} (h : ∀ line ∈ lines, '\n' ∉ line) (c : Char) :
    Paired (c :: Lines.withEnds lines) := by
  induction lines generalizing c with
  | nil => exact List.isChain_singleton c
  | cons line lines ih =>
    obtain ⟨hline, hlines⟩ := List.forall_mem_cons.mp h
    rw [Lines.withEnds_cons]
    exact paired_line hline (List.isChain_cons_cons.mpr ⟨fun _ => rfl, ih hlines _⟩) c

theorem splitLines_withEnds {lines : List (List Char)} (h : ∀ line ∈ lines, '\n' ∉ line) :
    splitLines '\r' '\n' (Lines.withEnds lines) = lines ++ [[]] := by
  induction lines with
  | nil => rfl
  | cons line lines ih =>
    obtain ⟨hline, hlines⟩ := List.forall_mem_cons.mp h
    rw [Lines.withEnds_cons]
    exact (splitLines_line (by decide) hline _).trans (congrArg (line :: ·) (ih hlines))

namespace ServerReply

variable {r : ServerReply}

theorem WellFormed.lines_lf (h : r.WellFormed) : ∀ line ∈ r.lines, '\n' ∉ line := by
  have hcode : '\n' ∉ r.code := fun hlf => by simpa using h.digits _ hlf
  intro line hline
  rw [lines, List.mem_append, List.mem_map, List.mem_singleton] at hline
  obtain ⟨text, htext, rfl⟩ | rfl := hline
  · rw [List.mem_append, List.mem_cons]
    rintro (hlf | hlf | hlf)
    · exact hcode hlf
    · exact absurd hlf (by decide)
    · exact (h.more text htext).2 hlf
  · rw [List.mem_append]
    rintro (hlf | hlf)
    · exact hcode hlf
    · cases hlast : r.last with
      | none =>
        rw [hlast] at hlf
        cases hlf
      | some text =>
        rw [hlast] at hlf
        obtain hlf | hlf := List.mem_cons.mp hlf
        · exact absurd hlf (by decide)
        · exact (h.last text hlast).2 hlf

/-- A reply that arrives at once shows its code if there is a blank behind the code of its last
line. -/
theorem WellFormed.marks (h : r.WellFormed) :
    replyMark.marks r.lines = if r.last.isSome then [codeValue r.code] else [] := by
  obtain ⟨a, b, c, hcode⟩ := List.length_eq_three.mp h.length
  have hmore : replyMark.marks (r.more.map fun text => r.code ++ '-' :: text) = [] := by
    rw [Chunks.Mark.marks_eq_nil_iff]
    intro line hline
    obtain ⟨text, -, rfl⟩ := List.mem_map.mp hline
    rw [hcode]
    exact Bool.false_ne_true
  rw [lines, Chunks.Mark.marks_append, hmore, List.nil_append]
  cases r.last with
  | none =>
    refine Chunks.Mark.marks_cons_unmarked ?_ []
    rw [hcode]
    exact Bool.false_ne_true
  | some text =>
    have hdigits : [a, b, c].all Char.isDigit := List.all_eq_true.mpr (hcode ▸ h.digits)
    have hend : replyMark.marked (r.code ++ ((some text).map (' ' :: ·)).getD []) := by
      rw [hcode]
      exact hdigits
    rw [Chunks.Mark.marks_cons_marked hend, hcode]
    rfl

end ServerReply

/-- What the mailer reads when all replies arrive at once. -/
theorem textMarks_replyStream {replies : List ServerReply} (h : ∀ r ∈ replies, r.WellFormed) :
    replyMark.textMarks (replyStream replies) =
      (replies.filter fun r => r.last.isSome).map fun r => codeValue r.code := by
  have hlf : ∀ line ∈ replies.flatMap ServerReply.lines, '\n' ∉ line := by
    intro line hline
    obtain ⟨r, hr, hline⟩ := List.mem_flatMap.mp hline
    exact (h r hr).lines_lf line hline
  have hempty : replyMark.marks [[]] = [] := rfl
  rw [Chunks.Mark.textMarks, replyStream, splitLines_withEnds hlf, Chunks.Mark.marks_append, hempty,
    List.append_nil]
  clear hlf
  induction replies with
  | nil => rfl
  | cons r replies ih =>
    obtain ⟨hr, hreplies⟩ := List.forall_mem_cons.mp h
    rw [List.flatMap_cons, Chunks.Mark.marks_append, hr.marks, ih hreplies]
    split
    · next hlast => rw [List.filter_cons, if_pos hlast, List.map_cons, List.singleton_append]
    · next hlast => rw [List.filter_cons, if_neg hlast, List.nil_append]

theorem replyStream_tidy {replies : List ServerReply} (h : ∀ r ∈ replies, r.WellFormed) :
    TidyParts (replyStream replies) := by
  refine tidyParts_of_paired (paired_withEnds ?_ ' ').tail
  intro line hline
  obtain ⟨r, hr, hline⟩ := List.mem_flatMap.mp hline
  exact (h r hr).lines_lf line hline

/-- What the steps get. -/
theorem commandCodes_replyStream {replies : List ServerReply} (h : ∀ r ∈ replies, r.WellFormed)
    (steps : List (List ℕ)) {chunks : List (List Char)}
    (hchunks : chunks.flatten = replyStream replies) :
    commandCodes steps [] chunks = answered steps (replyMark.read [] chunks) := by
  refine commandCodes_eq ?_
  rw [List.nil_append, hchunks]
  exact replyStream_tidy h

/-! ## All places -/

/-- Steps that expect all of the codes get all of them. -/
theorem answered_eq_self {codes : List (Option ℕ)} {expected : List ℕ} {n : ℕ}
    (hlen : codes.length ≤ n) (h : ∀ code ∈ codes, code ∈ expected.map some) :
    answered (List.replicate n expected) codes = codes := by
  induction codes generalizing n with
  | nil => cases n <;> rfl
  | cons code codes ih =>
    obtain ⟨hcode, hcodes⟩ := List.forall_mem_cons.mp h
    obtain ⟨n, rfl⟩ := Nat.exists_eq_add_of_le' (Nat.one_le_of_lt hlen)
    rw [List.replicate_succ, answered, if_pos hcode, ih (by simpa using hlen) hcodes]

theorem codeValue_isSome {text : List Char} (hne : text ≠ []) (h : text.all Char.isDigit) :
    (codeValue text).isSome := by
  rw [codeValue, if_pos ⟨hne, h⟩]
  rfl

/-- Every code that is read is a number. -/
theorem isSome_of_mem_read {buffer : List Char} {chunks : List (List Char)} {code : Option ℕ}
    (h : code ∈ replyMark.read buffer chunks) : code.isSome := by
  induction chunks generalizing buffer with
  | nil => cases h
  | cons chunk chunks ih =>
    obtain h | h := List.mem_append.mp h
    · obtain ⟨line, hline, rfl⟩ := List.mem_map.mp h
      obtain ⟨a, b, c, rest, rfl, hdigits⟩ := isReplyEnd_iff.mp (List.mem_filter.mp hline).2
      exact codeValue_isSome (List.cons_ne_nil _ _) hdigits
    · exact ih h

theorem ServerReply.WellFormed.isSome {r : ServerReply} (h : r.WellFormed) :
    (codeValue r.code).isSome := by
  refine codeValue_isSome ?_ (List.all_eq_true.mpr h.digits)
  have hlen := h.length
  rintro hnil
  rw [hnil] at hlen
  cases hlen

/-- Where the replies are read alike, as many codes are read as there are replies. -/
theorem ReadAlike.length {places : ℕ → Prop} {replies : List ServerReply}
    (halike : ReadAlike places replies) (h : ∀ r ∈ replies, r.WellFormed)
    {chunks : List (List Char)} (hchunks : chunks.flatten = replyStream replies)
    (hends : EndsAt places chunks) : (replyMark.read [] chunks).length = replies.length := by
  let codes := replies.map fun r => codeValue r.code
  let all := (replyMark.read [] chunks ++ codes).reduceOption
  have hall : ∀ code ∈ replyMark.read [] chunks ++ codes, code ∈ all.map some := by
    intro code hcode
    have hsome : code.isSome := by
      obtain hread | hreply := List.mem_append.mp hcode
      · exact isSome_of_mem_read hread
      · obtain ⟨r, hr, rfl⟩ := List.mem_map.mp hreply
        exact (h r hr).isSome
    obtain ⟨n, rfl⟩ := Option.isSome_iff_exists.mp hsome
    exact List.mem_map.mpr ⟨n, List.reduceOption_mem_iff.mpr hcode, rfl⟩
  have heq := halike (List.replicate
    ((replyMark.read [] chunks).length + codes.length) all) chunks hchunks hends
  rw [commandCodes_replyStream h _ hchunks,
    answered_eq_self (by omega) fun code hcode => hall code (List.mem_append_left _ hcode),
    answered_eq_self (by omega) fun code hcode => hall code (List.mem_append_right _ hcode)] at heq
  rw [heq, List.length_map]

theorem endsAt_singleton (places : ℕ → Prop) (text : List Char) : EndsAt places [text] := by
  intro l₁ l₂ hl hne₁ hne₂
  have hlen := congrArg List.length hl
  have h₁ := List.length_pos_iff.mpr hne₁
  have h₂ := List.length_pos_iff.mpr hne₂
  rw [List.length_append, List.length_singleton] at hlen
  omega

theorem endsAt_pair {places : ℕ → Prop} {s : List Char} (h : places s.length) (text : List Char) :
    EndsAt places [s, text] := by
  intro l₁ l₂ hl hne₁ hne₂
  obtain ⟨c, l₁, rfl⟩ := List.exists_cons_of_ne_nil hne₁
  obtain ⟨rfl, htail⟩ := List.cons.inj hl
  by_cases hnil : l₁ = []
  · subst hnil
    simpa using h
  · have hlen := congrArg List.length htail
    have h₁ := List.length_pos_iff.mpr hnil
    have h₂ := List.length_pos_iff.mpr hne₂
    rw [List.append_eq, List.length_append, List.length_singleton] at hlen
    omega

/-- However the replies are cut at these places, every step gets the code of its reply, exactly when
every reply has a blank behind the code of its last line and none of the places is harmful. -/
theorem readAlike_iff {replies : List ServerReply} (h : ∀ r ∈ replies, r.WellFormed)
    (places : ℕ → Prop) : ReadAlike places replies ↔ (∀ r ∈ replies, r.last.isSome) ∧
      ∀ n, places n → ¬replyMark.Harmful ((replyStream replies).take n)
        ((replyStream replies).drop n) := by
  have hmarks := textMarks_replyStream h
  constructor
  · intro halike
    -- everything arrives at once
    have hlast : ∀ r ∈ replies, r.last.isSome := by
      have hlen := halike.length h List.flatten_singleton (endsAt_singleton places _)
      rw [Chunks.Mark.read, Chunks.Mark.read, List.nil_append, List.append_nil, hmarks,
        List.length_map, List.length_filter_eq_length_iff] at hlen
      exact hlen
    refine ⟨hlast, fun n hn hharm => ?_⟩
    -- one cut, at the place in question
    have hlt : n < (replyStream replies).length := by
      by_contra hle
      rw [List.drop_eq_nil_of_le (not_lt.mp hle)] at hharm
      exact Chunks.Mark.not_harmful_end _ hharm
    have hflatten : [(replyStream replies).take n, (replyStream replies).drop n].flatten =
        replyStream replies := by
      simp
    have hplace : places ((replyStream replies).take n).length := by
      rwa [List.length_take_of_le hlt.le]
    have hlen := halike.length h hflatten (endsAt_pair hplace _)
    have hall : (replies.filter fun r => r.last.isSome) = replies := List.filter_eq_self.mpr hlast
    refine (Chunks.Mark.read_pair_iff _ _).mp ?_ hharm
    rw [hlen, List.take_append_drop, hmarks, List.length_map, hall]
  · rintro ⟨hlast, hplaces⟩ steps chunks hchunks hends
    have hall : (replies.filter fun r => r.last.isSome) = replies := List.filter_eq_self.mpr hlast
    rw [commandCodes_replyStream h steps hchunks, Chunks.Mark.read_chunks, hchunks, hmarks, hall]
    intro l₁ l₂ hl
    by_cases hne₁ : l₁ = []
    · rw [hne₁]
      exact Chunks.Mark.not_harmful_nil _
    by_cases hne₂ : l₂ = []
    · rw [hne₂]
      exact Chunks.Mark.not_harmful_end _
    have hharm := hplaces _ (hends l₁ l₂ hl hne₁ hne₂)
    have hstream : replyStream replies = l₁.flatten ++ l₂.flatten :=
      by rw [← hchunks, hl, List.flatten_append]
    rwa [hstream, List.take_left, List.drop_left] at hharm

/-! ## Two replies to a message -/

/-- A reply of one line. -/
def lineReply (code text : String) : ServerReply := ⟨code.toList, [], some text.toList⟩

/-- The replies to two commands; the text of the first holds a number. -/
def queuedReplies : List ServerReply :=
  [lineReply "250" "queued as 123 bytes", lineReply "250" "ok"]

theorem queuedReplies_wellFormed : ∀ r ∈ queuedReplies, r.WellFormed := by
  have hline : ∀ code text : String, (lineReply code text).code.length = 3 →
      code.toList.all Char.isDigit → '\r' ∉ text.toList ∧ '\n' ∉ text.toList →
        (lineReply code text).WellFormed := by
    intro code text hlen hdigits htext
    refine ⟨hlen, List.all_eq_true.mp hdigits, by simp [lineReply], fun t ht => ?_⟩
    rwa [← Option.some.inj ht]
  intro r hr
  obtain rfl | hr := List.mem_cons.mp hr
  · exact hline _ _ (by decide) (by decide) (by decide)
  · rw [List.mem_singleton.mp hr]
    exact hline _ _ (by decide) (by decide) (by decide)

/-- A chunk that ends before the number makes it the code of the next command; one that ends between
carriage return and line feed hides the next reply. -/
theorem number_read_as_code :
    commandCodes [[250], [250]] [] ["250 queued as ".toList, "123 bytes\r\n".toList,
        "250 ok\r\n".toList] = [some 250, some 123] ∧
      commandCodes [[250], [250]] [] ["250 queued as 123 bytes\r".toList, "\n".toList,
        "250 ok\r\n".toList] = [some 250] ∧
      ¬ReadAlike (fun _ => True) queuedReplies := by
  have hnumber : commandCodes [[250], [250]] []
      ["250 queued as ".toList, "123 bytes\r\n".toList, "250 ok\r\n".toList] =
      [some 250, some 123] := by
    decide +kernel
  refine ⟨hnumber, by decide +kernel, fun h => ?_⟩
  have heq := h [[250], [250]] ["250 queued as ".toList, "123 bytes\r\n".toList,
    "250 ok\r\n".toList] (by decide +kernel) fun _ _ _ _ _ => trivial
  rw [hnumber] at heq
  exact absurd heq (by decide +kernel)

/-- Replies that arrive in a chunk each are read right. -/
theorem queuedReplies_alike : ReadAlike (fun n => n = 25) queuedReplies := by
  refine (readAlike_iff queuedReplies_wellFormed _).mpr ⟨by decide, ?_⟩
  rintro n rfl ⟨hmarked, -⟩
  exact absurd hmarked (by decide +kernel)

end SRPanel
