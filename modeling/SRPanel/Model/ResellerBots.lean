import SRPanel.Model.Access

/-!
# Sales bots of resellers

The operations of `services/resellerBots.ts`. The master switch, the activation fee and the bots of
all resellers are one book in the settings table, which every operation reads, edits and writes back
as a whole.
-/

namespace SRPanel

open Interleaving

/-- `ResellerBot`. -/
structure ResellerBot where
  token : String
  username : String
  enabled : Bool
  /-- the owner's lock: keeps the row but stops the bot -/
  blocked : Bool
  /-- the activation fee that has been paid -/
  paid : ℕ
  activatedAt : Option ℤ
  deriving DecidableEq

/-- `ResellerBotsSettings`. -/
structure ResellerBotsSettings where
  /-- the master switch -/
  enabled : Bool
  setupPrice : ℕ
  welcome : String
  bots : Table AdminId ResellerBot

/-- The site, the book of the bots, and what Telegram says about a token: the name of its bot or an
error. -/
structure BotDesk where
  site : Site
  book : ResellerBotsSettings
  getMe : String → Except String (Option String)

abbrev BotTask := Prog Mark BotDesk AppError

/-- The texts of the refusals. -/
def botsOff : AppError := forbiddenError "سرویس ربات فروش برای نمایندگان فعال نیست"

def botBlocked : AppError := forbiddenError "ربات فروش شما توسط مالک پنل قفل شده است"

def noBot : AppError := notFoundError "ربات فروشی ثبت نشده است"

/-- `TOKEN_RE`: `/^\d{6,}:[A-Za-z0-9_-]{20,}$/`. -/
def isBotToken (s : String) : Bool :=
  match s.toList.span Char.isDigit with
  | (digits, ':' :: rest) =>
      6 ≤ digits.length && 20 ≤ rest.length && rest.all fun c => c.isAlphanum || c = '_' || c = '-'
  | _ => false

/-- What the ledger rows of the activation fee refer to. -/
def botFeeRef (adminId : AdminId) : TxRef := .other (some "reseller_bot") (some (toString adminId))

/-- `ResellerBotsConfig`: the part of the book that the owner sets. -/
structure BotsConfigInput where
  enabled : Option Bool
  setupPrice : Option ℕ
  welcome : Option String

namespace BotDesk

/-- The site under the desk. -/
def siteFocus : Focus Site BotDesk where
  get := BotDesk.site
  put s d := { d with site := s }
  get_put _ _ := rfl
  put_get _ := rfl
  put_put _ _ _ := rfl

/-- A task on the site. -/
def onSite {α : Type} (p : Task α) : BotTask α := p.zoom siteFocus id

/-- `getResellerBots`. -/
def getResellerBots : BotTask ResellerBotsSettings := .query .other BotDesk.book

/-- `persist`. -/
def persist (book : ResellerBotsSettings) : BotTask Unit :=
  .modify .other fun d => { d with book := book }

/-- The audit row of an operation. -/
def note (actor : Operator) (action : String) : BotTask Unit :=
  onSite (Site.lift (audit (some actor.id) action))

def refuseIf (c : Bool) (e : AppError) : BotTask Unit := if c then throw e else pure ()

/-- The book with this row for a bot. -/
def withBot (book : ResellerBotsSettings) (adminId : AdminId) (bot : ResellerBot) :
    ResellerBotsSettings :=
  { book with bots := book.bots.set adminId bot }

/-- `saveResellerBotsConfig`. -/
def saveResellerBotsConfig (actor : Operator) (input : BotsConfigInput) : BotTask Unit := do
  refuseIf (actor.role ≠ .owner) (forbiddenError "دسترسی غیرمجاز")
  let cfg ← getResellerBots
  persist { cfg with
    enabled := input.enabled.getD cfg.enabled
    setupPrice := input.setupPrice.getD cfg.setupPrice
    welcome := sliceTo 600 (input.welcome.getD cfg.welcome) }
  note actor "resellerBot.config"

/-- The fee that a registration costs: owners and those who have paid are free. -/
def activationFee (actor : Operator) (cfg : ResellerBotsSettings) (mine : Option ResellerBot) : ℕ :=
  if actor.role = .owner ∨ 0 < (mine.map ResellerBot.paid).getD 0 then 0 else cfg.setupPrice

/-- The fee is taken from the wallet. -/
def chargeFee (actor : Operator) (fee : ℕ) : Task Unit :=
  if 0 < fee then do
    Site.assertAffordable actor fee
    let _ ← Site.lift (chargeWallet actor.actor (-(fee : ℤ)) .purchase
        (botFeeRef actor.id) none false)
  else pure ()

/-- The row that a registration writes. -/
def registered (mine : Option ResellerBot) (token : String) (username : Option String)
    (fee : ℕ) (now : ℤ) : ResellerBot where
  token := token
  username := username.getD ""
  enabled := true
  blocked := false
  paid := (mine.map ResellerBot.paid).getD 0 + fee
  activatedAt := (mine.bind ResellerBot.activatedAt).or (some now)

/-- The end of `setResellerBot`: the fee is charged, then the row is written. -/
def activate (actor : Operator) (cfg : ResellerBotsSettings) (token : String)
    (username : Option String) (fee : ℕ) : BotTask Unit := do
  onSite (chargeFee actor fee)
  let now ← onSite Site.now
  persist (withBot cfg actor.id (registered (cfg.bots.get? actor.id) token username fee now))
  note actor "resellerBot.set"

/-- `setResellerBot`: register or replace the token. -/
def setResellerBot (actor : Operator) (token : String) : BotTask Unit := do
  let cfg ← getResellerBots
  let mine := cfg.bots.get? actor.id
  refuseIf (actor.role ≠ .owner && !cfg.enabled) botsOff
  refuseIf (actor.role ≠ .owner && (mine.map ResellerBot.blocked).getD false) botBlocked
  let clean := trim token
  refuseIf (!isBotToken clean) (badRequest "توکن ربات نامعتبر است")
  refuseIf (cfg.bots.rows.any fun r => r.1 ≠ actor.id && r.2.token = clean)
    (badRequest "این توکن قبلاً برای ربات دیگری ثبت شده است")
  let me ← .query .other fun d => d.getMe clean
  match me with
  | .error e => throw (badRequest ("توکن ربات نامعتبر است: " ++ e))
  | .ok username => activate actor cfg clean username (activationFee actor cfg mine)

/-- The actor's own bot, or the row of another one. -/
def botOf (cfg : ResellerBotsSettings) (adminId : AdminId) : Option ResellerBot :=
  (cfg.bots.get? adminId).filter fun b => b.token ≠ ""

/-- `setResellerBotEnabled`: pause or resume. -/
def setResellerBotEnabled (actor : Operator) (enabled : Bool) : BotTask Unit := do
  let cfg ← getResellerBots
  match botOf cfg actor.id with
  | none => throw noBot
  | some b => do
      refuseIf (enabled && actor.role ≠ .owner && !cfg.enabled) botsOff
      refuseIf (enabled && actor.role ≠ .owner && b.blocked) botBlocked
      persist (withBot cfg actor.id { b with enabled := enabled })

/-- The bot that a removal is about. -/
def deleteTarget (actor : Operator) (adminId : Option AdminId) : AdminId := adminId.getD actor.id

/-- `deleteResellerBot`. -/
def deleteResellerBot (actor : Operator) (adminId : Option AdminId) : BotTask Unit := do
  let target := deleteTarget actor adminId
  refuseIf (target ≠ actor.id && actor.role ≠ .owner) (forbiddenError "دسترسی غیرمجاز")
  let cfg ← getResellerBots
  persist { cfg with bots := cfg.bots.erase target }
  note actor "resellerBot.delete"

/-- `setResellerBotBlocked`. -/
def setResellerBotBlocked (actor : Operator) (adminId : AdminId) (blocked : Bool) :
    BotTask Unit := do
  refuseIf (actor.role ≠ .owner) (forbiddenError "دسترسی غیرمجاز")
  let cfg ← getResellerBots
  match botOf cfg adminId with
  | none => throw noBot
  | some b => do
      persist (withBot cfg adminId { b with blocked := blocked, enabled := if blocked then
        false else b.enabled })
      note actor "resellerBot.block"

/-- The condition of `pollResellerBots`: the bot is polled for messages. -/
def Running (d : BotDesk) (adminId : AdminId) : Prop :=
  d.book.enabled ∧ ∃ b ∈ d.book.bots.get? adminId, b.token ≠ "" ∧ b.enabled ∧ ¬b.blocked

end BotDesk

/-- The requests of `/api/settings/reseller-bots`. -/
inductive BotRequest
  | config (input : BotsConfigInput)
  | set (token : String)
  | enable (enabled : Bool)
  | delete (adminId : Option AdminId)
  | block (adminId : AdminId) (blocked : Bool)

end SRPanel
