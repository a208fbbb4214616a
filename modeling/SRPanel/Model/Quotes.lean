import SRPanel.Model.Clients

/-!
# Quotes

`quoteForActor` shows a reseller what a client would cost right now, with every limit that would
reject the request. It says that it mirrors `quoteClientCost`, `assertAffordable` and `assertQuota`.
-/

namespace SRPanel

open Interleaving

/-- `ResellerLimits`. -/
structure ResellerLimits where
  trafficQuota : Option ℤ
  allocated : ℤ
  remaining : Option ℤ
  clientLimit : Option ℕ
  clients : ℕ
  clientsRemaining : Option ℕ
  expiresAt : Option ℤ
  expired : Bool
  deriving DecidableEq

/-- `QuoteInput`. -/
structure QuoteInput where
  /-- the whole size when creating, only the added GB when renewing -/
  trafficGB : ℚ
  /-- the period when creating, only the added days when renewing -/
  days : ℤ
  /-- the renewal of an existing client -/
  renew : Bool
  /-- GB booked against the traffic quota; `trafficGB` if absent -/
  quotaGB : Option ℚ
  /-- the client would be unlimited -/
  unlimited : Bool

/-- `WalletQuote`. -/
structure WalletQuote where
  billingEnabled : Bool
  renew : Bool
  chargeOnRenew : Bool
  perGB : ℤ
  perDay : ℤ
  trafficGB : ℤ
  days : ℤ
  cost : ℤ
  balance : ℤ
  after : ℤ
  creditLimit : ℤ
  affordable : Bool
  limits : Option ResellerLimits
  blockers : List String

namespace Site

/-- `resellerLimits`; there are none for an owner. -/
def resellerLimits (adminId : AdminId) : Task (Option ResellerLimits) := do
  let a ← read fun s => s.operator adminId
  match a with
  | none => pure none
  | some a =>
      if a.role = .owner then pure none
      else do
        let allocated ← read fun s =>
          ((s.clients.rows.filter fun r => r.2.adminId = adminId).map fun r => r.2.trafficLimit).sum
        let clients ← read fun s => (s.clients.rows.filter fun r => r.2.adminId = adminId).length
        let t ← now
        pure (some ⟨a.account.trafficQuota, allocated, a.account.trafficQuota.map (· - allocated),
          a.account.clientLimit, clients, a.account.clientLimit.map (· - clients),
          a.account.expiresAt,
          a.account.expiresAt.any (· < t)⟩)

/-- The blocker of a traffic quota. -/
def quotaBlockers (limits : ResellerLimits) (input : QuoteInput) : List String :=
  if limits.trafficQuota.isNone then []
  else if input.unlimited then ["با سهمیهٔ محدود نمی‌توانید کلاینت نامحدود بسازید"]
  else
    let need := mathRound (max 0 (input.quotaGB.getD input.trafficGB) * GB)
    if limits.remaining.any (· < need) then ["سهمیهٔ ترافیک شما کافی نیست"] else []

/-- The reasons for which the panel would reject a request. -/
def quoteBlockers (limits : Option ResellerLimits) (affordable : Bool) (missing : ℤ)
    (input : QuoteInput) : List String :=
  (if limits.any ResellerLimits.expired then ["اعتبار حساب شما به پایان رسیده است"] else []) ++
  (if affordable then [] else ["اعتبار کافی نیست (کمبود " ++ fmt missing ++ " تومان)"]) ++
  (if !input.renew && limits.any (fun l => l.clientsRemaining = some 0) then
    ["سقف تعداد کلاینت (" ++ toString ((limits.bind ResellerLimits.clientLimit).getD 0) ++
      ") پر شده است"]
    else []) ++
  (limits.map fun l => quotaBlockers l input).getD []

/-- `quoteForActor`. -/
def quoteForActor (actor : Operator) (input : QuoteInput) : Task WalletQuote := do
  let pricing ← read Site.pricing
  let limit ← lift (Db.read World.creditLimit)
  let unit ← read fun s => unitPrices s.pricing actor.account
  let balance ← (if actor.role = .owner then pure 0 else lift (walletBalance actor.id))
  let limits ← (if actor.role = .owner then pure none else resellerLimits actor.id)
  let gb := max 0 ⌈input.trafficGB⌉
  let days := max 0 input.days
  let cost := if actor.role = .owner || !unit.enabled then 0 else gb * unit.perGB +
    days * unit.perDay
  let after := balance - cost
  let affordable : Bool := cost ≤ 0 || -(limit : ℤ) ≤ after
  pure ⟨unit.enabled, input.renew, pricing.chargeOnRenew, unit.perGB, unit.perDay, gb, days,
    cost, balance, after, limit, affordable, limits,
    if actor.role = .owner then [] else quoteBlockers limits affordable (-(after + limit)) input⟩

end Site

end SRPanel
