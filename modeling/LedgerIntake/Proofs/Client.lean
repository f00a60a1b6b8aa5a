import LedgerIntake.Session
import LedgerIntake.Proofs.Connection.Handshake

/-!
# What clients get

A client reads replies under a limit of its own, so it gets a reply or the fault of its length. Its
exchange with a server is the server's answer to its message, read in that way.

A token is offered by a request, and a guarded server takes requests up to a limit too. Up to that
limit, the client is let through if and only if it offers the right token, and is told so if not. A
request above the limit is turned down by a rejection, which no client takes for the reply to a
token. That happens to the right token as well: a server whose settings pass their check may have a
token that nobody can offer.
-/

namespace LedgerIntake

open Json Text

/-- A request takes a few bytes besides its token in quotes, so its length is
told by the token's characters. -/
theorem AuthRequest.length_payload_ofToken (token : String) :
    (ofToken token).payload.length = (quoted token).utf8ByteSize + 24 := by
  have kind : (quoted "type").utf8ByteSize + (quoted kindName).utf8ByteSize + 2 = 14 := by decide
  have key : (quoted "token").utf8ByteSize = 7 := by decide
  rw [payload, Utf8.length_encode, toText, utf8ByteSize_object (List.cons_ne_nil _ _)]
  simp only [ofToken, List.map_cons, List.map_nil, List.sum_cons, List.sum_nil, kind, key]
  omega

namespace Client

/-- A client gets a reply that is no longer than its limit, and nothing of a longer one. -/
theorem receive_eq (reply : Bytes) (fits : reply.length < UInt32.size) :
    receive reply =
      if reply.length ≤ responseLimit then .ok reply
      else .error (.framing (.tooLarge reply.length responseLimit)) := by
  have bytes : (Inflow.ofBytes (Frame.wire reply)).bytes = Frame.wire reply ++ [] := rfl
  rw [receive, Frame.encode_eq_wire reply fits]
  dsimp only
  by_cases short : reply.length ≤ responseLimit
  · obtain ⟨inner, later, read, payload, -, -⟩ := Inflow.read_message _ short fits bytes
    rw [if_pos short, Inflow.readFrame, read]
    dsimp only
    rw [payload]
    rfl
  · have held : Inflow.lengthSize ≤ (Inflow.ofBytes (Frame.wire reply)).bytes.length := by
      rw [bytes, List.append_nil, Frame.length_wire]
      exact Nat.le_add_right _ _
    obtain ⟨inner, read, -, -⟩ := Inflow.readLength_of_le _ held
    rw [bytes, Frame.announced_wire reply [] fits] at read
    rw [if_neg short, Inflow.readFrame, read]
    dsimp only
    rw [Inflow.readPayload, if_pos (Nat.lt_of_not_le short)]
    rfl

/-- A short reply is received as it was given, since its length fits four bytes. -/
theorem receive_of_le {reply : Bytes} (short : reply.length ≤ responseLimit) :
    receive reply = .ok reply := by
  rw [receive_eq reply (Nat.lt_of_le_of_lt short (by decide)), if_pos short]

/-- A client understands every reply to a request as it was meant, whatever reason it gives. -/
theorem readAuthReply_payload (reply : AuthReply) :
    readAuthReply reply.payload =
      if reply.success then .ok ()
        else .error (.authRejected (reply.error.getD "no reason given")) := by
  rw [readAuthReply, reply.ofPayload?_payload]
  obtain ⟨success, error⟩ := reply
  cases success <;> rfl

/-- A client cannot take a rejection for a reply to a request, as it says nothing of success. -/
theorem readAuthReply_rejected (rejection : Rejection) :
    readAuthReply (Acknowledgment.rejected rejection).payload =
      .error (.unreadableAuthReply (Acknowledgment.rejected rejection).payload) := by
  rw [readAuthReply, AuthReply.ofPayload?_rejected]

end Client

/-- Settings that pass their check have no empty token, so an empty one is never offered rightly. -/
theorem Settings.token_ne_empty {settings : Settings} {token : String}
    (accepted : settings.fault? = none)
    (guarded : settings.authToken = some token) : token ≠ "" := by
  rintro rfl
  rw [fault?, guarded, if_pos rfl] at accepted
  split at accepted
  · contradiction
  split at accepted
  · contradiction
  split at accepted <;> contradiction

namespace Link

variable {link : Link} {message : Bytes}

/-- On a connection that is not closed, a client gets what the server answers to its message. -/
theorem exchange_of_active [Diagnostics] (active : link.phase ≠ .closed)
    (fits : message.length < UInt32.size) (elapsed : Elapsed) :
    link.exchange message elapsed =
      let turn := link.server.answer link.phase message link.intake elapsed
      (Client.receive turn.reply, { link with phase := turn.phase, intake := turn.intake }) := by
  rw [exchange, Frame.encode_eq_wire message fits]
  exact if_neg active

/-- A message whose length does not fit into four bytes is not sent, and
nothing happens to the connection. -/
theorem exchange_of_unrepresentable [Diagnostics] (link : Link)
    (long : UInt32.size ≤ message.length) (elapsed : Elapsed) :
    link.exchange message elapsed =
      (.error (.framing (.unrepresentable message.length)), link) := by
  have refused : Frame.encode message = .error (.unrepresentable message.length) :=
    if_neg (Nat.not_lt.mpr long)
  rw [exchange, refused]

variable [Diagnostics] {settings : Settings} {token : String} {intake : Intake}

/-- A client offers a token on a new connection to a guarded server: its
request is what it exchanges. -/
theorem authenticate_dial (guarded : settings.authToken = some token) (candidate : String)
    (fits : (AuthRequest.ofToken candidate).payload.length < UInt32.size) (elapsed : Elapsed) :
    ((dial settings.server intake).authenticate candidate elapsed).1 =
      (Client.receive
        (settings.server.answer .authenticating (AuthRequest.ofToken candidate).payload intake
        elapsed).reply).bind Client.readAuthReply := by
  have opening : settings.server.opening = .authenticating := Server.opening_of_guarded guarded
  have active : (dial settings.server intake).phase ≠ .closed := by
    rw [dial, opening]
    exact (by decide : Phase.authenticating ≠ .closed)
  rw [authenticate, exchange_of_active active fits]
  simp only [dial, opening]

/-- The guard's answer to a request that is not too long reaches the client. -/
theorem authenticate_of_le (guarded : settings.authToken = some token) (present : token ≠ "")
    (candidate : String)
    (short : (AuthRequest.ofToken candidate).payload.length ≤ Server.requestLimit)
    (elapsed : Elapsed) :
    ((dial settings.server intake).authenticate candidate elapsed).1 =
      if candidate = token then .ok ()
      else .error (.authRejected
        (if candidate = "" then "authentication required" else "authentication failed")) := by
  have guard : settings.server.guard = ⟨some token⟩ := congrArg Guard.mk guarded
  have reply :
      (settings.server.answer .authenticating (AuthRequest.ofToken candidate).payload
        intake elapsed).reply
      = (settings.server.guard.handshake (AuthRequest.ofToken candidate).payload).payload := by
    rw [Server.answer, Server.limitIn_authenticating, if_neg (Nat.not_lt.mpr short), Server.accept,
      Server.authenticate]
    split <;> rfl
  have small :=
    settings.server.guard.length_payload_handshake_le (AuthRequest.ofToken candidate).payload
  rw [authenticate_dial guarded candidate (Nat.lt_of_le_of_lt short (by decide)), reply,
    Client.receive_of_le (Nat.le_trans small (by decide)), Except.bind,
      Client.readAuthReply_payload, guard,
    Guard.handshake_ofToken present]
  by_cases same : candidate = token
  · rw [if_pos same, if_pos same]
    rfl
  · rw [if_neg same, if_neg same]
    by_cases empty : candidate = ""
    · rw [if_pos empty, if_pos empty]
      rfl
    · rw [if_neg empty, if_neg empty]
      rfl

/-- A request that is too long is answered by what no client can read, whichever token it offers. -/
theorem authenticate_of_lt (guarded : settings.authToken = some token) (candidate : String)
    (fits : (AuthRequest.ofToken candidate).payload.length < UInt32.size)
    (long : Server.requestLimit < (AuthRequest.ofToken candidate).payload.length)
    (elapsed : Elapsed) :
    ((dial settings.server intake).authenticate candidate elapsed).1 =
      .error (.unreadableAuthReply (Acknowledgment.rejected
        (.ofOverlong (AuthRequest.ofToken candidate).payload.length)).payload) := by
  have small := Rejection.length_payload_ofOverlong_le _ fits
  rw [authenticate_dial guarded candidate fits, Server.answer, Server.limitIn_authenticating,
    if_pos long, Server.refuse_authenticating,
    Client.receive_of_le (Nat.le_trans small (by decide)), Except.bind,
    Client.readAuthReply_rejected]

/-- What a client gets that offers a token on a new connection. The server's settings have passed
their check. The length of the request decides first, for its prefix and then for the server, whose
reply to an overlong one is no reply to a token; the token decides last. -/
theorem authenticate_eq (settings : Settings) (accepted : settings.fault? = none) (token : String)
    (guarded : settings.authToken = some token) (candidate : String) (intake : Intake)
    (elapsed : Elapsed) :
    ((dial settings.server intake).authenticate candidate elapsed).1 =
      let size := (AuthRequest.ofToken candidate).payload.length
      if UInt32.size ≤ size then .error (.framing (.unrepresentable size))
      else if Server.requestLimit < size then
        .error (.unreadableAuthReply (Acknowledgment.rejected (.ofOverlong size)).payload)
      else if candidate = token then .ok ()
      else .error (.authRejected
        (if candidate = "" then "authentication required" else "authentication failed")) := by
  dsimp only
  split
  · next vast =>
    rw [authenticate, exchange_of_unrepresentable _ vast]
    rfl
  · next fits =>
    split
    · next long => exact authenticate_of_lt guarded candidate (Nat.lt_of_not_le fits) long elapsed
    · next short =>
      exact authenticate_of_le guarded (Settings.token_ne_empty accepted guarded)
        candidate (Nat.le_of_not_lt short)
        elapsed

end Link

namespace Link

attribute [local instance] Diagnostics.plain

/-- The right token, with a character that is escaped and one of two
bytes, lets a client through. -/
theorem authenticate_eq_escaped :
    ({ Settings.standard with authToken := some "k\"é" }).fault? = none ∧
      ((dial (Settings.server { Settings.standard with authToken := some "k\"é" })
        ⟨⟨1, [], 1, 0, 0⟩, .fresh⟩).authenticate "k\"é" ⟨0, 0⟩).1 = .ok () := by
  have passes : ({ Settings.standard with authToken := some "k\"é" }).fault? = none := by decide
  have result :=
    authenticate_eq { Settings.standard with authToken := some "k\"é" } passes "k\"é" rfl "k\"é"
      ⟨⟨1, [], 1, 0, 0⟩, .fresh⟩ ⟨0, 0⟩
  have size : (AuthRequest.ofToken "k\"é").payload.length = 31 := by decide +kernel
  refine ⟨passes, result.trans ?_⟩
  simp only [size]
  decide

/-- A token whose request is one byte too long. -/
def longToken : String := String.ofList (List.replicate 4071 'a')

/-- Its settings pass their check, and yet the client that offers it gets an
answer that it cannot read. -/
theorem authenticate_longToken :
    ({ Settings.standard with authToken := some longToken }).fault? = none ∧
      ((dial (Settings.server { Settings.standard with authToken := some longToken })
        ⟨⟨1, [], 1, 0, 0⟩, .fresh⟩).authenticate longToken ⟨0, 0⟩).1 =
          .error (.unreadableAuthReply (Acknowledgment.rejected (.ofOverlong 4097)).payload) := by
  have bytes : longToken.utf8ByteSize = 4071 := utf8ByteSize_replicate 4071 'a' (by decide)
  have present : longToken ≠ "" := by
    intro empty
    rw [empty, String.utf8ByteSize_empty] at bytes
    omega
  have one : (Style.plain.char 'a').utf8ByteSize = 1 := by decide
  have quotes : (quoted longToken).utf8ByteSize = 4071 * (Style.plain.char 'a').utf8ByteSize + 2 :=
    utf8ByteSize_quoted_replicate 4071 'a'
  have size : (AuthRequest.ofToken longToken).payload.length = 4097 := by
    have whole := AuthRequest.length_payload_ofToken longToken
    omega
  have fits : (AuthRequest.ofToken longToken).payload.length < UInt32.size := by
    rw [size]
    decide
  have long : Server.requestLimit < (AuthRequest.ofToken longToken).payload.length := by
    rw [size]
    decide
  constructor
  · simp [Settings.fault?, Settings.standard, greatestMessageSize, Pool.defaultCapacity, present]
  · rw [← size]
    exact authenticate_of_lt rfl longToken fits long ⟨0, 0⟩

end Link

end LedgerIntake
