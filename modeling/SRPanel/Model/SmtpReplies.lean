import SRPanel.Lib.Chunks
import SRPanel.Lib.Lines
import SRPanel.Model.Mailer

/-!
# Reading SMTP replies

The reading half of `sendMail`: the socket hands over chunks of text, `takeReply` splits a finished
reply off the buffer, and `settle` gives it to the step that waits. The chunks are texts, as the
decoder of the socket holds unfinished characters back.
-/

namespace SRPanel

open Chunks

/-- `/^\d{3} /.test(line)`. -/
def isReplyEnd : List Char → Bool
  | a :: b :: c :: ' ' :: _ => [a, b, c].all Char.isDigit
  | _ => false

/-- `takeReply`: the reply and the rest of the buffer. -/
def takeReply (buf : List Char) : Option (List Char × List Char) :=
  let lines := splitLines '\r' '\n' buf
  (lines.findIdx? isReplyEnd).map fun i =>
    (['\n'].intercalate (lines.take (i + 1)), joinLines '\r' '\n' (lines.drop (i + 1)))

/-- `Number(text)` of digits; any other text is no code of a reply. -/
def codeValue (text : List Char) : Option ℕ :=
  if text ≠ [] ∧ text.all Char.isDigit then some (digitsValue text) else none

/-- The code of a reply: `Number((reply.split("\n").pop() ?? "").slice(0, 3))`. -/
def replyCode (reply : List Char) : Option ℕ := codeValue ((reply.rtakeWhile (· ≠ '\n')).take 3)

/-- What the steps that wait one after the other take off the buffer: the codes, the steps that
still wait, and the buffer. A step is the list of the codes that it expects; one that gets another
code throws, and none follows. -/
def settle : (steps : List (List ℕ)) → (buffer : List Char) →
    List (Option ℕ) × List (List ℕ) × List Char
  | [], buffer => ([], [], buffer)
  | expected :: steps, buffer =>
      match takeReply buffer with
      | none => ([], expected :: steps, buffer)
      | some (reply, rest) =>
          if replyCode reply ∈ expected.map some then
            let next := settle steps rest
            (replyCode reply :: next.1, next.2)
          else ([replyCode reply], [], rest)

/-- The codes that the steps should get, up to one that its step does not expect. -/
def answered : (steps : List (List ℕ)) → (codes : List (Option ℕ)) → List (Option ℕ)
  | [], _ => []
  | _ :: _, [] => []
  | expected :: steps, code :: codes =>
      if code ∈ expected.map some then code :: answered steps codes else [code]

/-- The codes that the steps get, in order, from the chunks that arrive. -/
def commandCodes : (steps : List (List ℕ)) → (buffer : List Char) → (chunks : List (List Char)) →
    List (Option ℕ)
  | _, _, [] => []
  | steps, buffer, chunk :: chunks =>
      let next := settle steps (buffer ++ chunk)
      next.1 ++ commandCodes next.2.1 next.2.2 chunks

/-! ## Replies of a server -/

/-- A reply as a server means it: three digits, the texts of the lines before the last, and the text
of the last line, which may consist of the code alone. -/
structure ServerReply where
  code : List Char
  more : List (List Char)
  last : Option (List Char)
  deriving DecidableEq

namespace ServerReply

/-- The lines of a reply. -/
def lines (r : ServerReply) : List (List Char) :=
  r.more.map (fun text => r.code ++ '-' :: text) ++ [r.code ++ (r.last.map (' ' :: ·)).getD []]

/-- A code has three digits, and no text has a line break. -/
structure WellFormed (r : ServerReply) : Prop where
  length : r.code.length = 3
  digits : ∀ c ∈ r.code, c.isDigit
  more : ∀ text ∈ r.more, '\r' ∉ text ∧ '\n' ∉ text
  last : ∀ text ∈ r.last, '\r' ∉ text ∧ '\n' ∉ text

end ServerReply

/-- The replies as the server sends them. -/
def replyStream (replies : List ServerReply) : List Char :=
  Lines.withEnds (replies.flatMap ServerReply.lines)

end SRPanel
