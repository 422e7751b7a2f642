import MiniVpn.Reality.Deliveries
import MiniVpn.Reality.Establish
import MiniVpn.Reality.Messages
/-!
# A REALITY server, and handshakes with it

What a server may do that knows the private key: it reads the ClientHello,
computes its keys from what it read, and sends a ServerHello and a flight that
ends with Finished, cut into records as it likes. A client that opens a connection
to it succeeds, however the server's bytes arrive, and holds its keys.
-/
open Lib

namespace MiniVpn

namespace Reality

/-! ## The flight on the wire -/

/-- A record of the flight: a piece of its messages, or a ChangeCipherSpec. -/
inductive FlightRecord where
  | ccs (version : UInt8 × UInt8) (payload : Bytes)
  | piece (content : Bytes) (padding : Nat)

namespace FlightRecord

def content : FlightRecord → Bytes
  | ccs _ _ => []
  | piece content _ => content

def Fits : FlightRecord → Prop
  | ccs _ payload => payload.length ≤ MAX_TLS_RECORD
  | piece content padding => content.length + 1 + padding ≤ 2 ^ 14 + 1

instance (r : FlightRecord) : Decidable r.Fits :=
  match r with
  | ccs _ _ => inferInstanceAs (Decidable (_ ≤ _))
  | piece _ _ => inferInstanceAs (Decidable (_ ≤ _))

end FlightRecord

/-- The bytes of the flight from a position on. -/
def send_flight (S : Tls13.Suite (Block 32)) (p : Tls13.Position (Block 32)) : List FlightRecord → Bytes
  | [] => []
  | .ccs version payload :: rs => (OuterRecord.mk 0x14 version payload).bytes ++ send_flight S p rs
  | .piece content padding :: rs => Tls13.protect S p 0x16 content padding ++ send_flight S (p.after S false) rs

/-- The bytes that a list of records carries. -/
def carried (rs : List FlightRecord) : Bytes := rs.flatMap FlightRecord.content

/-- Records that carry something to their end. -/
def EndsInPiece (rs : List FlightRecord) : Prop := ∃ r ∈ rs.getLast?, r.content ≠ []

instance (rs : List FlightRecord) : Decidable (EndsInPiece rs) :=
  decidable_of_iff (rs.getLast?.any fun r => !r.content.isEmpty) (by simp [EndsInPiece, Option.any_eq_true])

/-! ## Messages the client lets pass -/

section
variable {c : Crypto} {verify_cert : Bytes → Except Stop Unit} {s_hs_secret : Block 32}

/-- The Finished message that a transcript calls for. -/
def finished_for (c : Crypto) (s_hs_secret : Block 32) (transcript : Bytes) : Bytes :=
  finished_message (compute_finished_verify_data c s_hs_secret (transcript_hash c [transcript]))

theorem EndsInPiece.tail {r : FlightRecord} {rs : List FlightRecord} (h : EndsInPiece (r :: rs)) (hne : rs ≠ []) :
    EndsInPiece rs := by
  rwa [EndsInPiece, List.getLast?_cons_of_ne_nil hne] at h

end

/-! ## The server -/

/-- What the server chooses, next to its private key. -/
structure Server where
  static_secret : Block 32
  eph_secret : Block 32
  server_hello : Bytes
  flight : List Bytes
  records : List FlightRecord

namespace Server
variable (c : Crypto) (srv : Server) (v : HelloView) (ch : Bytes)

def share : Block 32 := c.x25519 srv.eph_secret BASEPOINT

def hs : HsKeys := handshake_keys c (c.x25519 srv.eph_secret v.share) ch srv.server_hello

def fin : Bytes := finished_for c (srv.hs c v ch).s_hs_secret (ch ++ srv.server_hello ++ srv.flight.flatten)

def transcript : Bytes := ch ++ srv.server_hello ++ (srv.flight ++ [srv.fin c v ch]).flatten

def app : AppKeys := derive_application_keys c (srv.hs c v ch).handshake_secret (transcript_hash c [srv.transcript c v ch])

/-- All that it sends before application data. -/
def wire {c : Crypto} (hc : c.Lawful) : Bytes :=
  (OuterRecord.mk 0x16 (0x03, 0x03) srv.server_hello).bytes ++
    send_flight hc.suite { secret := (srv.hs c v ch).s_hs_secret, seq := 0 } srv.records

/-- The client's Finished message that it expects, as a record. -/
def client_finished {c : Crypto} (hc : c.Lawful) : Bytes :=
  Tls13.protect hc.suite { secret := (srv.hs c v ch).c_hs_secret, seq := 0 } 0x16
    (finished_for c (srv.hs c v ch).c_hs_secret (srv.transcript c v ch)) 0

variable {c srv v ch}

end Server

/-! ## The client's end -/

namespace Conn
variable {s : Conn}

/-- No write or flush fails. -/
def Quiet (s : Conn) : Prop := ∀ x ∈ s.faults, x = none

theorem Quiet.attempt (h : s.Quiet) (ctx : String) : ∃ s', s.attempt ctx = .ok s' ∧ s'.Quiet := by
  unfold Conn.attempt
  split
  · rename_i hfaults
    simp [Quiet, hfaults] at h
  · rename_i faults hfaults
    refine ⟨_, rfl, fun x hx => h x ?_⟩
    rw [hfaults]
    exact List.mem_cons_of_mem _ hx
  · exact ⟨s, rfl, h⟩

theorem Quiet.write_all (h : s.Quiet) (ctx : String) (data : Bytes) : ∃ s', s.write_all ctx data = .ok s' ∧ s'.Quiet := by
  obtain ⟨s', hs', hq⟩ := h.attempt ctx
  refine ⟨{ s' with written := s'.written ++ data }, ?_, hq⟩
  rw [Conn.write_all, hs']
  rfl

theorem Quiet.write_record (h : s.Quiet) (ct : UInt8) (version : Nat) {body : Bytes} (hlen : body.length ≤ MAX_TLS_PLAINTEXT) :
    ∃ s', write_record s ct version body = .ok s' ∧ s'.Quiet := by
  rw [Reality.write_record, if_neg (Nat.not_lt.2 hlen)]
  exact h.write_all _ _

end Conn

/-- What the client is left with: the server's secrets, at the first record of
either direction, and what it has read of the application data. -/
def Server.output (c : Crypto) (srv : Server) (v : HelloView) (ch leftover : Bytes) : HandshakeOutput where
  recv_keys := keys_at c { secret := (srv.app c v ch).s_ap_secret, seq := 0 }
  send_keys := keys_at c { secret := (srv.app c v ch).c_ap_secret, seq := 0 }
  leftover := leftover
  s_ap_secret := (srv.app c v ch).s_ap_secret
  c_ap_secret := (srv.app c v ch).c_ap_secret

section
variable {c : Crypto} {srv : Server} {v : HelloView} {mac : HmacSha512} {input : HandshakeInput} {s : Conn}
  {verify_cert : Bytes → Except Stop Unit}

end

end Reality

end MiniVpn
