import LedgerIntake.Authentication
import LedgerIntake.Proofs.Acknowledgment.Reading

/-!
# Tokens and their replies

A request and the reply to it are read as they were written, so both ends of a connection mean the
same token and the same answer. A guard welcomes a message if and only if it reads as the request
that offers its own token; the empty token is never offered. A rejection of a batch or a length is
no reply to a request, although both are objects.
-/

namespace LedgerIntake

open Json

namespace AuthRequest

/-- The members of a request, with what they spell. -/
def entries (request : AuthRequest) : List Entry :=
  [.quoted "type" request.kind, .quoted "token" request.token]

/-- The payload of a request is read as that request, whatever characters its token has. -/
theorem ofPayload?_payload (request : AuthRequest) : ofPayload? request.payload = some request := by
  have text : request.toText = object (request.entries.map Entry.member) := rfl
  have different : (request.entries.map Entry.key).Nodup := (by decide : ["type", "token"].Nodup)
  have fields := Entry.fields?_object request.entries different ["type", "token"]
  rw [ofPayload?, payload, text, Entry.read_object]
  simp only [Option.bind_eq_bind, Option.bind_some, fields]
  simp [entries, Entry.under?, Entry.quoted]

end AuthRequest

namespace AuthReply

/-- The members of a reply, with what they spell. -/
def entries (reply : AuthReply) : List Entry :=
  [.truth "success" reply.success]
    ++ (match reply.error with
      | some reason => [.quoted "error" reason]
      | none => [])

/-- The object of a reply's entries is the text that is sent. -/
theorem map_member_entries (reply : AuthReply) :
    object (reply.entries.map Entry.member) = reply.toText := by
  obtain ⟨success, error⟩ := reply
  cases error <;> rfl

/-- The payload of a reply is read as that reply, with or without a reason. -/
theorem ofPayload?_payload (reply : AuthReply) : ofPayload? reply.payload = some reply := by
  have different : (reply.entries.map Entry.key).Nodup := by
    rw [entries]
    cases reply.error with
    | none => exact (by decide : ["success"].Nodup)
    | some reason => exact (by decide : ["success", "error"].Nodup)
  have fields := Entry.fields?_object reply.entries different ["success", "error"]
  rw [ofPayload?, payload, ← map_member_entries, Entry.read_object]
  simp only [Option.bind_eq_bind, Option.bind_some, fields]
  obtain ⟨success, error⟩ := reply
  cases error <;>
    simp [entries, Entry.under?, Entry.truth, Entry.quoted, Source.bool?, Source.optional?]

/-- A rejection is no reply to a request: it does not tell whether the token is right. -/
theorem ofPayload?_rejected (rejection : Rejection) :
    ofPayload? (Acknowledgment.rejected rejection).payload = none := by
  have untold : Entry.under? rejection.entries "success" = none := by
    have absent : ∀ entry ∈ rejection.entries, entry.key ≠ "success" := by
      intro entry among same
      have key : "success" ∈ rejection.entries.map Entry.key :=
        List.mem_map.mpr ⟨entry, among, same⟩
      rcases rejection.keys_entries with keys | keys <;> rw [keys] at key <;> revert key <;> decide
    rw [Entry.under?, List.find?_eq_none.mpr (by simpa using absent)]
    rfl
  have fields := Entry.fields?_object rejection.entries rejection.nodup_entries ["success", "error"]
  rw [ofPayload?, Acknowledgment.payload, rejection.toText_eq, Entry.read_object]
  simp only [Option.bind_eq_bind, Option.bind_some, fields, List.map_cons, untold]

/-- Replies with different contents have different payloads, since reading undoes writing. -/
theorem payload_injective {reply other : AuthReply} (same : reply.payload = other.payload) :
    reply = other := by
  have read := reply.ofPayload?_payload
  rw [same, other.ofPayload?_payload] at read
  exact (Option.some.inj read).symm

end AuthReply

namespace Guard

variable {token : String}

/-- A guard welcomes the request that offers its token, in whatever form the request was written. -/
theorem handshake_of_offer (present : token ≠ "") {message : Bytes}
    (offers : AuthRequest.ofPayload? message = some (.ofToken token)) :
    handshake ⟨some token⟩ message = .welcome := by
  have named : token.isEmpty = false := by simpa using present
  simp only [handshake, offers, AuthRequest.ofToken, named, admits, decide_true, ne_eq,
    not_true_eq_false, Bool.false_eq_true, or_self, if_false, if_true]

/-- It refuses every other message: one that is no request for want of authentication, and a request
with another token because that is wrong. -/
theorem handshake_of_other {message : Bytes}
    (other : AuthRequest.ofPayload? message ≠ some (.ofToken token)) :
    ∃ reason, handshake ⟨some token⟩ message = .refusal reason := by
  unfold handshake
  split
  · exact ⟨_, rfl⟩
  · next request read =>
    split
    · exact ⟨_, rfl⟩
    · next proper =>
      rw [not_or, Decidable.not_not] at proper
      split
      · next same =>
        have equal : request.token = token := of_decide_eq_true same
        obtain ⟨kind, offered⟩ := request
        dsimp only at proper equal
        rw [read, proper.1, equal] at other
        exact absurd rfl other
      · exact ⟨_, rfl⟩

/-- Whatever the message is, the answer to it is short: it is one of three. -/
theorem length_payload_handshake_le (guard : Guard) (message : Bytes) :
    (guard.handshake message).payload.length ≤ 64 := by
  have among : guard.handshake message ∈
      [.refusal "authentication required", .refusal "authentication failed", .welcome] := by
    unfold handshake
    split
    · exact List.mem_cons_self
    · split
      · exact List.mem_cons_self
      · split <;> simp
  have short :
      ∀ reply
        ∈ [.refusal "authentication required", .refusal "authentication failed", AuthReply.welcome],
      reply.payload.length ≤ 64 := by decide
  exact short _ among

/-- A request for a token is answered by whether it is the guard's; an empty
token gets a wording of its own. -/
theorem handshake_ofToken (present : token ≠ "") (candidate : String) :
    handshake ⟨some token⟩ (AuthRequest.ofToken candidate).payload =
      if candidate = token then .welcome
      else if candidate = "" then .refusal "authentication required"
      else .refusal "authentication failed" := by
  rw [handshake, AuthRequest.ofPayload?_payload]
  by_cases same : candidate = token
  · subst same
    simp [AuthRequest.ofToken, admits, present]
  · by_cases empty : candidate = ""
    · simp [AuthRequest.ofToken, empty, present.symm]
    · simp [AuthRequest.ofToken, admits, same, empty]

end Guard

end LedgerIntake
