import SRPanel.Model.Panels

/-!
# The names on a panel

`addToPanel` against a panel that holds the emails and the subIds of other clients as well. What the
panel says to names that it does not take is a parameter, and so are the texts of the ids and the
digest.
-/

namespace SRPanel

/-- What the names of a remote client are made from. -/
structure NameEnv where
  /-- the token that was drawn for a client -/
  subToken : Draw → String
  /-- the id of a server -/
  serverId : ServerId → String
  /-- the hex digits of the SHA-1 digest of a text -/
  sha1Hex : String → String

/-- `remoteSubId`, with the salt of the attempt. -/
def remoteSubId (x : NameEnv) (k : SubId) : String :=
  let salt := if k.attempt = 0 then "" else "r" ++ toString k.attempt
  let digest := x.sha1Hex (x.subToken k.subToken ++ ":" ++ x.serverId k.serverId ++ ":" ++
    toString k.inboundId ++ ":" ++ salt)
  sliceTo 8 (x.subToken k.subToken) ++ sliceTo 8 digest

/-- The names of the clients on a panel. -/
structure Panel where
  emails : List String
  subIds : List String
  deriving DecidableEq

/-- What a panel says to an email and a subId, and nothing where it takes them. -/
abbrev Refusal := Panel → (email subId : String) → Option String

namespace Panel

variable (refusal : Refusal) (x : NameEnv)

/-- The panel's answer to `addClient`: it holds the new names as well, or it stays as it is and says
why. -/
def addClient (p : Panel) (email subId : String) : Except String Panel :=
  match refusal p email subId with
  | none => .ok ⟨email :: p.emails, subId :: p.subIds⟩
  | some message => .error message

/-- The subId of an attempt. -/
def subIdAt (group : PanelGroup) (client : Client) (attempt : ℕ) : String :=
  remoteSubId x ⟨client.subToken, group.serverId, group.inboundIds.headD 0, attempt⟩

/-- The attempts of `addToPanel`, of which `n` are left. -/
def addAttempts (group : PanelGroup) (client : Client) (baseEmail : String) (p : Panel) :
    (n attempt : ℕ) → (email : String) → (last : String) → Except String (String × Panel)
  | 0, _, _, last => .error last
  | n + 1, attempt, email, _ =>
      match addClient refusal p email (subIdAt x group client attempt) with
      | .ok after => .ok (email, after)
      | .error message =>
          if !isCollision message then .error message
          else if namesSubId message then addAttempts group client baseEmail p n
            (attempt + 1) email message
          else if namesEmail message then
            addAttempts group client baseEmail p n (attempt + 1)
              (baseEmail ++ "-" ++ toString (attempt + 2)) message
          else .error message

/-- `addToPanel`, which returns the email that the panel took. -/
def addToPanel (group : PanelGroup) (client : Client) (baseEmail : String) (p : Panel) :
    Except String (String × Panel) :=
  addAttempts refusal x group client baseEmail p Site.PANEL_ATTEMPTS 0 baseEmail ""

end Panel

end SRPanel
