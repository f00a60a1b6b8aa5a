import LedgerIntake.Proofs.Authentication
import LedgerIntake.Proofs.Connection

/-!
# The gate of a guarded server

The first message of a connection decides whether anything behind it counts. If it is the request
that offers the token, the rest of the stream is served as if there were no guard. Whatever else a
peer sends, the pool and all that is counted of batches stay as they were; one rejection is counted
if the first message came whole or was announced too long, and none if the peer left before that.
What stands behind the first message, or behind a length that is too great, plays no part then.

The laws hold of every stream, however its reads are cut and whether its peer closes its side or the
connection breaks.
-/

namespace LedgerIntake

/-- All of an intake stays as it was, but for the number of connections that
were turned down at the gate. -/
structure Intake.Untouched (before after : Intake) : Prop where
  pool : after.pool = before.pool
  counters : ∀ counter, counter ≠ .rejected .auth →
    after.metrics.get counter = before.metrics.get counter
  batchSize : after.metrics.batchSize = before.metrics.batchSize
  batchLatency : after.metrics.batchLatency = before.metrics.batchLatency

namespace Intake

/-- An intake is untouched if nothing was done to it. -/
theorem untouched_self (intake : Intake) : intake.Untouched intake :=
  ⟨rfl, fun _ _ => rfl, rfl, rfl⟩

/-- Counting a connection that was turned down touches nothing else: neither
the pool nor what is measured. -/
theorem untouched_countRejection (intake : Intake) :
    intake.Untouched (intake.countRejection .auth) where
  pool := rfl
  counters := by
    intro counter other
    cases counter with
    | rejected kind =>
      cases kind with
      | auth => exact absurd rfl other
      | _ => rfl
    | _ => rfl
  batchSize := rfl
  batchLatency := rfl

end Intake

namespace Frame

/-- A stream begins with a whole message of a length that requests may have. -/
structure Begins (stream message after : Bytes) : Prop where
  within : message.length ≤ Server.requestLimit
  whole : stream = wire message ++ after

/-- A message at the front of a stream has a length that its four bytes can tell. -/
theorem Begins.fits {stream message after : Bytes} (begins : Begins stream message after) :
    message.length < UInt32.size :=
  Nat.lt_of_le_of_lt begins.within (by decide)

/-- A stream begins with the request that offers a token. -/
def Offers (token : String) (stream after : Bytes) : Prop :=
  ∃ message, Begins stream message after ∧ AuthRequest.ofPayload? message = some (.ofToken token)

/-- A stream announces a message that is longer than requests may be. -/
structure Exceeds (stream : Bytes) : Prop where
  held : Inflow.lengthSize ≤ stream.length
  above : Server.requestLimit < announced stream

/-- Two streams have the same first message, or announce the same length that is too great. -/
def Alike (stream other : Bytes) : Prop :=
  (∃ message after behind, Begins stream message after ∧ Begins other message behind) ∨
    (Exceeds stream ∧ Exceeds other ∧ announced other = announced stream)

/-- A stream holds all that an answer needs: its first message, or a length that is too great. -/
def Settles (stream : Bytes) : Prop :=
  (∃ message after, Begins stream message after) ∨ Exceeds stream

/-- A stream that settles nothing ends too early: within its length, or
within the message behind it. -/
theorem short_of_not_settles {stream : Bytes} (unsettled : ¬Settles stream) :
    stream.length < Inflow.lengthSize + announced stream ∧
      (stream.length < Inflow.lengthSize ∨ announced stream ≤ Server.requestLimit) := by
  obtain ⟨partly, modest⟩ := not_or.mp unsettled
  have plain : stream.length < Inflow.lengthSize ∨ announced stream ≤ Server.requestLimit := by
    by_cases held : Inflow.lengthSize ≤ stream.length
    · exact .inr (Nat.le_of_not_lt fun above => modest ⟨held, above⟩)
    · exact .inl (Nat.lt_of_not_le held)
  refine ⟨?_, plain⟩
  apply Nat.lt_of_not_le
  intro held
  have within : announced stream ≤ Server.requestLimit := by
    rcases plain with few | within
    · exact absurd (Nat.le_of_add_right_le held) (Nat.not_le.mpr few)
    · exact within
  obtain ⟨message, after, length, same⟩ := eq_wire_append stream held
  exact partly ⟨message, after, length ▸ within, same⟩

end Frame

/-- The rejection of a message for its length, where a request for authentication was expected. -/
def Rejection.ofOverlong (size : Nat) : Rejection :=
  ⟨.auth, "expected auth frame, got " ++ size.repr ++ " bytes", []⟩

/-- The reply to an announced length stays below the limit of requests, as it
is short whatever the length. -/
theorem Rejection.length_payload_ofOverlong_le (size : Nat) (fits : size < UInt32.size) :
    (Acknowledgment.rejected (.ofOverlong size)).payload.length ≤ 4096 := by
  have told : (ofOverlong size).message.utf8ByteSize ≤ 100 := by
    have digits := Text.utf8ByteSize_repr_le size (Nat.lt_trans fits (by decide))
    exact Nat.le_trans
      (Text.utf8ByteSize_append_le (Text.utf8ByteSize_append_le (Nat.le_refl _) digits)
      (Nat.le_refl _)) (by decide)
  have whole := (ofOverlong size).utf8ByteSize_toText_le 100 told (by simp [ofOverlong])
  have rowless : (ofOverlong size).rows.length = 0 := rfl
  rw [Acknowledgment.payload, Utf8.length_encode]
  rw [rowless] at whole
  exact Nat.le_trans whole (by decide)

namespace Server

variable {server : Server} {token : String} {clock : Nat → Elapsed} {inflow : Inflow}
    {intake : Intake}

/-- A connection that serves goes by the limit of its server alone, and by the clock from its turn
on. The induction is on the bytes that are left: each message takes some. -/
theorem serveFrom_congr [Diagnostics] (server other : Server) (limit : server.limit = other.limit)
    (clock shifted : Nat → Elapsed)
    (turn turn' : Nat) (clocks : ∀ count, clock (turn + count) = shifted (turn' + count))
    (inflow : Inflow)
    (intake : Intake) :
    server.serveFrom clock turn .serving inflow intake
      = other.serveFrom shifted turn' .serving inflow intake := by
  induction length :
      inflow.bytes.length using Nat.strongRecOn generalizing turn turn' inflow intake with
  | ind count inductionHypothesis =>
    have now : clock turn = shifted turn' := clocks 0
    have onwards (count : Nat) : clock (turn + 1 + count) = shifted (turn' + 1 + count) := by
      rw [Nat.add_assoc, Nat.add_assoc]
      exact clocks (1 + count)
    rw [serveFrom_eq (by decide), serveFrom_eq (by decide)]
    rcases header : inflow.readLength with ⟨fault | _ | size, inner⟩
    · rfl
    · rfl
    · rw [limitIn_serving, limitIn_serving, ← limit]
      dsimp only
      split
      · rw [refuse_serving, refuse_serving, refusalFault_serving, refusalFault_serving, limit]
      · rcases body : inner.readPayload size server.limit with ⟨fault | message, later⟩
        · rfl
        · have fewer : later.bytes.length < count := length ▸ Inflow.length_bytes_lt header body
          simp only [accept_serving, now]
          split
          · rfl
          · rw [inductionHypothesis _ fewer (turn + 1) (turn' + 1) onwards later _ rfl]

/-- The reply that lets a connection through, as it is spelled. -/
def welcome : Bytes := Utf8.encode "\x7b\"success\":true\x7d"

/-- The welcome that is sent is the text that peers wait for, byte by byte. -/
theorem payload_welcome : AuthReply.welcome.payload = welcome := by decide

/-- A refusal of the guard is not the welcome, whatever its reason, as it denies success. -/
theorem payload_refusal_ne_welcome (reason : String) :
    (AuthReply.refusal reason).payload ≠ welcome := by
  intro same
  rw [← payload_welcome] at same
  have success : false = true := congrArg AuthReply.success (AuthReply.payload_injective same)
  contradiction

/-- No rejection is the welcome: the welcome is read as one member, and a rejection as others. -/
theorem payload_rejected_ne_welcome (rejection : Rejection) :
    (Acknowledgment.rejected rejection).payload ≠ welcome := by
  intro same
  have read := AuthReply.ofPayload?_rejected rejection
  rw [same, ← payload_welcome, AuthReply.ofPayload?_payload] at read
  contradiction

/-- A guarded connection begins by asking for the token, whatever token that is. -/
theorem opening_of_guarded (guarded : server.guard.token = some token) :
    server.opening = .authenticating := by
  rw [opening, Guard.isEnabled, guarded]
  rfl

/-- The request that offers the token lets the connection serve, and leaves the intake as it is. -/
theorem accept_of_offer [Diagnostics] (guarded : server.guard.token = some token)
    (present : token ≠ "") {message : Bytes}
    (offers : AuthRequest.ofPayload? message = some (.ofToken token)) (intake : Intake)
    (elapsed : Elapsed) :
    server.accept .authenticating message intake elapsed
      = ⟨AuthReply.welcome.payload, .serving, intake⟩ := by
  have guard : server.guard = ⟨some token⟩ := congrArg Guard.mk guarded
  rw [accept, authenticate, guard, Guard.handshake_of_offer present offers]
  rfl

/-- Any other message is refused, and that is counted; the connection closes. -/
theorem accept_of_other [Diagnostics] (guarded : server.guard.token = some token) {message : Bytes}
    (other : AuthRequest.ofPayload? message ≠ some (.ofToken token)) (intake : Intake)
    (elapsed : Elapsed) :
    server.accept .authenticating message intake elapsed =
      ⟨(server.guard.handshake message).payload, .closed, intake.countRejection .auth⟩ := by
  have guard : server.guard = ⟨some token⟩ := congrArg Guard.mk guarded
  obtain ⟨reason, refused⟩ := Guard.handshake_of_other other
  rw [accept, authenticate, guard, refused]
  rfl

/-- A length that is too great is refused, and that is counted in the same way. -/
theorem refuse_authenticating (size : Nat) :
    server.refuse .authenticating size intake =
      ⟨(Acknowledgment.rejected (.ofOverlong size)).payload,
        .closed, intake.countRejection .auth⟩ := rfl

/-- Behind the request that offers the token, the connection goes on as one without a guard. -/
theorem serve_of_offer [Diagnostics] (guarded : server.guard.token = some token)
    (present : token ≠ "") {after : Bytes}
    (offers : Frame.Offers token inflow.bytes after) :
    ∃ rest : Inflow, rest.bytes = after ∧ rest.ending = inflow.ending ∧
      (server.serve clock inflow intake).exchange =
        let served :=
          (serve ⟨⟨none⟩, server.limit⟩ (fun turn => clock (turn + 1)) rest intake).exchange
        ⟨Frame.wire AuthReply.welcome.payload ++ served.written, served.intake⟩ := by
  obtain ⟨message, begins, offers⟩ := offers
  have accepted := accept_of_offer guarded present offers intake (clock 0)
  have short : AuthReply.welcome.payload.length < UInt32.size := by decide
  obtain ⟨rest, bytes, ending, served⟩ :=
    serveFrom_of_accepted (by decide : Phase.authenticating ≠ .closed)
      clock 0 message after begins.within begins.fits begins.whole (by rwa [accepted])
  have alike (count : Nat) : clock (0 + 1 + count) = clock (0 + count + 1) :=
    congrArg clock (by omega)
  have unguarded :=
    serveFrom_congr server ⟨⟨none⟩, server.limit⟩ rfl clock (fun turn => clock (turn + 1)) (0 + 1) 0
      alike rest intake
  refine ⟨rest, bytes, ending, ?_⟩
  rw [accepted] at served
  dsimp only at served
  rw [serve, opening_of_guarded guarded, served, unguarded]
  rfl

/-- A message that is no such request is answered by a refusal, and the connection ends. -/
theorem serve_of_other [Diagnostics] (guarded : server.guard.token = some token)
    {message after : Bytes}
    (begins : Frame.Begins inflow.bytes message after)
    (other : AuthRequest.ofPayload? message ≠ some (.ofToken token)) :
    (server.serve clock inflow intake).exchange =
      ⟨Frame.wire (server.guard.handshake message).payload, intake.countRejection .auth⟩ := by
  have accepted := accept_of_other guarded other intake (clock 0)
  have short : (server.guard.handshake message).payload.length < UInt32.size :=
    Nat.lt_of_le_of_lt (server.guard.length_payload_handshake_le message) (by decide)
  obtain ⟨rest, -, -, served⟩ := serveFrom_of_accepted (by decide : Phase.authenticating ≠ .closed)
    clock 0 message after begins.within begins.fits begins.whole (by rwa [accepted])
  rw [accepted] at served
  dsimp only at served
  rw [serve, opening_of_guarded guarded, served, serveFrom, if_pos rfl]
  exact congrArg (Exchange.mk · _) (List.append_nil _)

/-- A length that is too great is refused as well, and that is counted. The
message itself is not read. -/
theorem serve_of_excess [Diagnostics] (guarded : server.guard.token = some token)
    (exceeds : Frame.Exceeds inflow.bytes) :
    (server.serve clock inflow intake).exchange =
      ⟨Frame.wire (Acknowledgment.rejected (.ofOverlong (Frame.announced inflow.bytes))).payload,
        intake.countRejection .auth⟩ := by
  have short :=
    Rejection.length_payload_ofOverlong_le (Frame.announced inflow.bytes) (Frame.announced_lt _)
  have served : _ → (server.serveFrom clock 0 .authenticating inflow intake).exchange = _ :=
    serveFrom_of_excess (by decide) clock 0 intake exceeds.held exceeds.above
  rw [refuse_authenticating] at served
  dsimp only at served
  rw [serve, opening_of_guarded guarded]
  exact served (Nat.lt_of_le_of_lt short (by decide))

/-- If the stream ends before its first message does, nothing happens at all. -/
theorem serve_of_not_settles [Diagnostics] (guarded : server.guard.token = some token)
    (clock : Nat → Elapsed) (intake : Intake)
    (unsettled : ¬Frame.Settles inflow.bytes) :
    (server.serve clock inflow intake).exchange = ⟨[], intake⟩ := by
  obtain ⟨short, plain⟩ := Frame.short_of_not_settles unsettled
  rw [serve, opening_of_guarded guarded]
  exact serveFrom_of_short (by decide) short plain

/-- What a connection does with a stream when the guard asks for a token. -/
structure Gated [Diagnostics] (server : Server) (token : String) (clock : Nat → Elapsed)
    (inflow : Inflow) (intake : Intake) :
    Prop where
  /-- The right token is welcomed, and what follows is served as if there were no guard. -/
  welcomed : ∀ after, Frame.Offers token inflow.bytes after →
    ∃ rest : Inflow, rest.bytes = after ∧ rest.ending = inflow.ending ∧
      (server.serve clock inflow intake).exchange =
        let served :=
          (serve ⟨⟨none⟩, server.limit⟩ (fun turn => clock (turn + 1)) rest intake).exchange
        ⟨Frame.wire welcome ++ served.written, served.intake⟩
  /-- Nothing else leads to the pool or is counted as a batch. -/
  untouched : (∀ after, ¬Frame.Offers token inflow.bytes after) →
    intake.Untouched (server.serve clock inflow intake).intake
  /-- There is at most one reply then, and it is no welcome. -/
  refused : (∀ after, ¬Frame.Offers token inflow.bytes after) →
    (server.serve clock inflow intake).written = [] ∨
      ∃ reply, reply ≠ welcome ∧ reply.length < UInt32.size ∧
        (server.serve clock inflow intake).written = Frame.wire reply
  /-- A message that came whole, or was announced too long, is counted once. -/
  counted : (∀ after, ¬Frame.Offers token inflow.bytes after) → Frame.Settles inflow.bytes →
    (server.serve clock inflow intake).intake.metrics.get (.rejected .auth)
      = intake.metrics.get (.rejected .auth) + 1
  /-- One that ended too early is neither answered nor counted. -/
  left : ¬Frame.Settles inflow.bytes → (server.serve clock inflow intake).exchange = ⟨[], intake⟩
  /-- What stands behind the message, or behind the length that is too great, plays no part. -/
  unread : (∀ after, ¬Frame.Offers token inflow.bytes after) →
    ∀ other : Inflow, Frame.Alike inflow.bytes other.bytes →
      (server.serve clock other intake).exchange = (server.serve clock inflow intake).exchange

/-- Whatever a stream begins with, unless it is the request that offers the token: it is answered by
one frame that is no welcome and is counted, or it ended too early. -/
theorem serve_of_no_offer [Diagnostics] (guarded : server.guard.token = some token)
    (clock : Nat → Elapsed) (intake : Intake)
    (unoffered : ∀ after, ¬Frame.Offers token inflow.bytes after)
    (settled : Frame.Settles inflow.bytes) :
    ∃ reply, reply ≠ welcome ∧ reply.length < UInt32.size ∧
      (server.serve clock inflow intake).exchange
        = ⟨Frame.wire reply, intake.countRejection .auth⟩ := by
  rcases settled with ⟨message, after, begins⟩ | exceeds
  · have other : AuthRequest.ofPayload? message ≠ some (.ofToken token) :=
      fun offers => unoffered after ⟨message, begins, offers⟩
    have guard : server.guard = ⟨some token⟩ := congrArg Guard.mk guarded
    obtain ⟨reason, refused⟩ := Guard.handshake_of_other other
    have short := server.guard.length_payload_handshake_le message
    refine ⟨_, ?_, Nat.lt_of_le_of_lt short (by decide), serve_of_other guarded begins other⟩
    rw [guard, refused]
    exact payload_refusal_ne_welcome reason
  · have short :=
      Rejection.length_payload_ofOverlong_le (Frame.announced inflow.bytes) (Frame.announced_lt _)
    exact ⟨_, payload_rejected_ne_welcome _, Nat.lt_of_le_of_lt short (by decide),
      serve_of_excess guarded exceeds⟩

/-- A guarded connection lets nothing past its gate but the right token, whatever stream it meets.
Only its first message matters, or a length in its place that is too great, so two streams that
agree in these are answered alike. -/
theorem serve_gated [Diagnostics] (server : Server) (token : String)
    (guarded : server.guard.token = some token)
    (present : token ≠ "") (clock : Nat → Elapsed) (inflow : Inflow) (intake : Intake) :
    server.Gated token clock inflow intake := by
  constructor
  case welcomed =>
    intro after offers
    rw [← payload_welcome]
    exact serve_of_offer guarded present offers
  case untouched =>
    intro unoffered
    by_cases settled : Frame.Settles inflow.bytes
    · obtain ⟨reply, -, -, served⟩ := serve_of_no_offer guarded clock intake unoffered settled
      have counted : (server.serve clock inflow intake).intake = _ :=
        congrArg Exchange.intake served
      rw [counted]
      exact intake.untouched_countRejection
    · have served := serve_of_not_settles guarded clock intake settled
      have same : (server.serve clock inflow intake).intake = _ := congrArg Exchange.intake served
      rw [same]
      exact intake.untouched_self
  case refused =>
    intro unoffered
    by_cases settled : Frame.Settles inflow.bytes
    · obtain ⟨reply, other, fits, served⟩ :=
        serve_of_no_offer guarded clock intake unoffered settled
      exact .inr ⟨reply, other, fits, congrArg Exchange.written served⟩
    · exact .inl (congrArg Exchange.written (serve_of_not_settles guarded clock intake settled))
  case counted =>
    intro unoffered settled
    obtain ⟨reply, -, -, served⟩ := serve_of_no_offer guarded clock intake unoffered settled
    have counted : (server.serve clock inflow intake).intake = _ := congrArg Exchange.intake served
    rw [counted]
    rfl
  case left =>
    intro unsettled
    exact serve_of_not_settles guarded clock intake unsettled
  case unread =>
    -- The answer depends on the message, or on the length that is too great, and on nothing else.
    intro unoffered other alike
    rcases alike with ⟨message, after, behind, begins, same⟩ | ⟨exceeds, again, announced⟩
    · have different : AuthRequest.ofPayload? message ≠ some (.ofToken token) :=
        fun offers => unoffered after ⟨message, begins, offers⟩
      rw [serve_of_other guarded begins different, serve_of_other guarded same different]
    · rw [serve_of_excess guarded exceeds, serve_of_excess guarded again, announced]

section

attribute [local instance] Diagnostics.plain

/-- The token `k` in a request whose members stand the other way around, cut within its length and
within its name; two bytes come behind it before the connection breaks. -/
def offering : Inflow :=
  ⟨[[0, 0], [0, 27, 123, 34, 116, 111],
    [107, 101, 110, 34, 58, 34, 107, 34, 44, 34, 116, 121, 112, 101, 34, 58, 34, 97,
    117, 116, 104, 34, 125, 0], [0]], .broken "pipe broke"⟩

/-- The pieces make up a request that offers the token, and what comes
behind it is met as batches. -/
theorem serve_gated_offering :
    (Server.guard ⟨⟨some "k"⟩, 1000⟩).token = some "k" ∧ "k" ≠ "" ∧
      Frame.Offers "k" offering.bytes [0, 0] ∧
      Gated ⟨⟨some "k"⟩, 1000⟩ "k" (fun _ => ⟨0, 0⟩) offering ⟨⟨1, [], 1, 0, 0⟩, .fresh⟩ := by
  refine ⟨rfl, by decide,
    ⟨(offering.bytes.drop 4).take 27, ⟨by decide, by decide⟩, by decide +kernel⟩, ?_⟩
  exact serve_gated ⟨⟨some "k"⟩, 1000⟩ "k" rfl (by decide) (fun _ => ⟨0, 0⟩)
    offering ⟨⟨1, [], 1, 0, 0⟩, .fresh⟩

end

end Server

end LedgerIntake
