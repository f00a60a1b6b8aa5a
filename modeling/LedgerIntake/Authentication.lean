import LedgerIntake.Json.Fields
import LedgerIntake.Json.Writer

/-!
# Authentication

A connection to a guarded server begins with a request that names the shared token. The reply tells
whether the token is right and, if not, whether there was a token at all; the text that describes a
guard never holds the token.
-/

namespace LedgerIntake

open Json

/-- The request that opens a guarded connection. -/
structure AuthRequest where
  kind : String
  token : String
deriving DecidableEq

namespace AuthRequest

/-- What a request calls itself. -/
def kindName : String := "auth"

/-- The request that offers a token. -/
def ofToken (token : String) : AuthRequest := ⟨kindName, token⟩

/-- The request as an object. -/
def toText (request : AuthRequest) : String :=
  object [("type", quoted request.kind), ("token", quoted request.token)]

/-- The payload that carries a request. -/
def payload (request : AuthRequest) : Bytes := Utf8.encode request.toText

/-- Reads a payload. -/
def ofPayload? (bytes : Bytes) : Option AuthRequest := do
  match ← (← Source.read? bytes).fields? ["type", "token"] with
  | [some kind, some token] => return ⟨← kind.text?, ← token.text?⟩
  | _ => none

end AuthRequest

/-- The reply to a request. -/
structure AuthReply where
  success : Bool
  error : Option String
deriving DecidableEq

namespace AuthReply

/-- The reply as an object; a reason that is not given is left out. -/
def toText (reply : AuthReply) : String :=
  object
    ([("success", if reply.success then "true" else "false")]
      ++ (match reply.error with
        | some reason => [("error", quoted reason)]
        | none => []))

/-- The payload that carries a reply. -/
def payload (reply : AuthReply) : Bytes := Utf8.encode reply.toText

/-- Reads a payload. -/
def ofPayload? (bytes : Bytes) : Option AuthReply := do
  match ← (← Source.read? bytes).fields? ["success", "error"] with
  | [some success, reason] => return ⟨← success.bool?, ← Source.optional? Source.text? reason⟩
  | _ => none

/-- The reply to the right token. -/
def welcome : AuthReply := ⟨true, none⟩

/-- A refusal for a reason. -/
def refusal (reason : String) : AuthReply := ⟨false, some reason⟩

end AuthReply

/-- What stands in front of a server: a token that every connection has to name, or nothing. -/
structure Guard where
  token : Option String
deriving DecidableEq

namespace Guard

/-- Whether connections have to authenticate. -/
def isEnabled (guard : Guard) : Bool := guard.token.isSome

/-- Whether a token is the right one; where none is asked for every token is. -/
def admits (guard : Guard) (candidate : String) : Bool :=
  match guard.token with
  | none => true
  | some token => candidate = token

/-- Answers the first message of a connection. A message that is no request and an empty token leave
authentication outstanding; any other token fails or succeeds. -/
def handshake (guard : Guard) (message : Bytes) : AuthReply :=
  match AuthRequest.ofPayload? message with
  | none => .refusal "authentication required"
  | some request =>
    if request.kind ≠ AuthRequest.kindName ∨ request.token.isEmpty then
      .refusal "authentication required"
    else if guard.admits request.token then .welcome
    else .refusal "authentication failed"

/-- What is shown of a guard. -/
def description (guard : Guard) : String :=
  "Authenticator \x7b enabled: " ++ (if guard.isEnabled then "true" else "false") ++ " \x7d"

end Guard

end LedgerIntake
