import MiniVpn.Reality.ReadPath
import MiniVpn.Reality.Server
/-!
# A session

`RealityUpstream::open_tcp` connects, establishes the session and hands the
stream over. With a conforming server at the other end nothing of this fails, and
whatever the consumer then calls in whatever order, each side reads what the other
one has sent.
-/
open Lib

namespace MiniVpn

namespace Reality

namespace RealityStream

/-- `inner` is the answer of the writer to its own shutdown. -/
def poll_shutdown (s : RealityStream) (inner : Poll Unit) : Poll Unit × RealityStream := s.poll_flush inner

/-! ## The sending side while the stream is used -/

section
variable {c : Crypto} {s s' : RealityStream}

theorem on_key_update_send_seq {msg : Bytes} {r : Except IoError Unit} (h : s.on_key_update c msg = some (r, s')) :
    s'.send_keys.seq ≤ s.send_keys.seq := by
  unfold on_key_update at h
  split at h
  · split at h
    · obtain ⟨-, rfl⟩ := Prod.mk.inj (Option.some.inj h)
      rfl
    · dsimp only at h
      split at h
      · simp only [Option.bind_eq_bind, Option.bind_eq_some_iff, Option.pure_def, Option.some.injEq, Prod.mk.injEq] at h
        obtain ⟨_, _, _, rfl⟩ := h
        exact Nat.zero_le _
      · obtain ⟨-, rfl⟩ := Prod.mk.inj (Option.some.inj h)
        rfl
  · obtain ⟨-, rfl⟩ := Prod.mk.inj (Option.some.inj h)
    rfl

/-- Reading does not use up sequence numbers: an answer is the last record under its
keys. -/
theorem poll_read_send_seq {n : Nat} {r : Poll Bytes} (h : s.poll_read c n = some (r, s')) :
    s'.send_keys.seq ≤ s.send_keys.seq := by
  refine @poll_read_inv c (fun t => t.send_keys.seq ≤ s.send_keys.seq) ?_ ?_ (fun _ ht => ht) _ _ _ _ le_rfl h
  · intro t t' hout ht
    simp only [outward, Prod.mk.injEq] at hout
    rw [hout.2.2.2.1]
    exact ht
  · exact fun t msg r t' ht hk => (on_key_update_send_seq hk).trans ht

theorem poll_write_returns (hwriter : WriterOk s.write_half) (hsend : s.send_keys.seq + 1 < 2 ^ 64) (buf : Bytes) :
    ∃ r s', s.poll_write c buf = some (r, s') ∧ (∀ e, r ≠ .error e) ∧ s'.inbound = s.inbound ∧
      s'.recv_keys = s.recv_keys ∧ s'.server_ap_secret = s.server_ap_secret ∧ WriterOk s'.write_half ∧
      s'.send_keys.seq ≤ s.send_keys.seq + 1 := by
  obtain ⟨hok, hwriter₁⟩ := hwriter.flush_loop s.write_pending s.wire
  unfold RealityStream.poll_write
  split
  · rename_i s₁ hs
    obtain rfl := (Prod.mk.inj hs).2
    exact ⟨_, _, rfl, by simp, rfl, rfl, rfl, hwriter₁, Nat.le_succ _⟩
  · rename_i e s₁ hs
    exact absurd (Prod.mk.inj hs).1 (hok e)
  · rename_i s₁ hs
    obtain rfl := (Prod.mk.inj hs).2
    split
    · exact ⟨_, _, rfl, by simp, rfl, rfl, rfl, hwriter₁, Nat.le_succ _⟩
    · obtain ⟨rec, hseal⟩ := @exists_seal_record c s.send_keys hsend 0x17 (buf.take (min buf.length MAX_PLAINTEXT))
      dsimp only
      rw [hseal]
      simp only [Option.bind_eq_bind, Option.bind_some]
      have hflush := hwriter₁.flush_loop ((flush_loop s.write_half s.write_pending s.wire).2.2.1 ++ rec)
        (flush_loop s.write_half s.write_pending s.wire).2.2.2
      split
      · rename_i e s₂ hs₂
        exact absurd (Prod.mk.inj hs₂).1 (hflush.1 e)
      · rename_i r s₂ hs₂
        obtain rfl := (Prod.mk.inj hs₂).2
        exact ⟨_, _, rfl, by simp, rfl, rfl, rfl, hflush.2, le_rfl⟩

theorem flush_loop_ready {writes : List (Poll Nat)} {pending wire : Bytes}
    (h : (flush_loop writes pending wire).1 = .ready ()) : (flush_loop writes pending wire).2.2.1 = [] := by
  fun_induction flush_loop writes pending wire with
  | case1 => rfl
  | case6 k writes pending wire hne ih => exact ih h
  | _ => cases h

/-- What a flush leaves does not depend on the writer's own flush. -/
theorem poll_flush_snd (s : RealityStream) (inner : Poll Unit) : (s.poll_flush inner).2 = s.poll_flush_pending.2 := by
  unfold poll_flush
  split <;>
  · rename_i hs
    rw [hs]

theorem poll_flush_no_error (hwriter : WriterOk s.write_half) {inner : Poll Unit} (hinner : ∀ e, inner ≠ .error e) :
    ∀ e, (s.poll_flush inner).1 ≠ .error e := by
  unfold poll_flush
  split
  · exact hinner
  · rename_i r s₁ hne hs
    exact fun e he => hwriter.poll_flush_pending e (by rw [hs]; exact he)

end

/-! ## The calls of a consumer -/

/-- A call that has room for what it reads; the writer's own flush does not fail. -/
def Op.Proper : Op → Prop
  | .read remaining => 1 ≤ remaining
  | .write _ => True
  | .flush inner => ∀ e, inner ≠ .error e

def Op.isRead : Op → Bool
  | .read _ => true
  | _ => false

def Outcome.Fails : Outcome → Prop
  | .read r => ∃ e, r = .error e
  | .write _ r => ∃ e, r = .error e
  | .flush r => ∃ e, r = .error e

section
variable {c : Crypto} (hc : c.Lawful) (v : Response) (reads : List (Poll Bytes)) (start : Tls13.Position (Block 32))

/-- Both directions at once: what was delivered, what was accepted, and room for `k`
more records. -/
structure InSession (delivered accepted : Bytes) (k : Nat) (s : RealityStream) : Prop where
  reading : Reading hc v reads delivered s
  sent : Decryptable hc start accepted s
  room : s.send_keys.seq + k + 1 < 2 ^ 64

/-- How far the consumer is from having the payload: bytes and reads. -/
def missing (delivered : Bytes) (s : RealityStream) : Nat :=
  v.payload.length - delivered.length + s.read_half.length

variable {hc v reads start} {delivered accepted : Bytes} {k : Nat} {s : RealityStream}

/-- What leaves the receiving side alone. -/
theorem Reading.congr {s' : RealityStream} (h : Reading hc v reads delivered s) (hin : s'.inbound = s.inbound)
    (hkeys : s'.recv_keys = s.recv_keys) (hsecret : s'.server_ap_secret = s.server_ap_secret)
    (hsend : s'.send_keys.seq + 1 < 2 ^ 64) (hwriter : WriterOk s'.write_half) : Reading hc v reads delivered s' := by
  obtain ⟨p, rs, h⟩ := h
  exact ⟨p, rs, h.congr hin ⟨hkeys.trans h.ready.keys, hsecret.trans h.ready.secret, hsend, hwriter⟩⟩

theorem InSession.mono (h : InSession hc v reads start delivered accepted (k + 1) s) :
    InSession hc v reads start delivered accepted k s :=
  ⟨h.reading, h.sent, by have := h.room; omega⟩

theorem InSession.read (h : InSession hc v reads start delivered accepted (k + 1) s) {n : Nat} (hn : 1 ≤ n) :
    ∃ r s', s.poll_read c n = some (r, s') ∧ Answers hc v reads delivered r s' ∧
      InSession hc v reads start (delivered ++ read_bytes r) accepted k s' := by
  obtain ⟨r, s', hread, hans⟩ := h.reading.poll_read hn
  have hcall : s.call c (.read n) = some (.read r, s') := by
    rw [RealityStream.call, hread]
    rfl
  have hsent := h.sent.call hcall
  rw [show (Outcome.read r).accepted = [] from rfl, List.append_nil] at hsent
  have hseq := poll_read_send_seq hread
  have hroom := h.room
  exact ⟨r, s', hread, hans, hans.reading, hsent, by omega⟩

theorem InSession.write (h : InSession hc v reads start delivered accepted (k + 1) s) (buf : Bytes) :
    ∃ r s', s.poll_write c buf = some (r, s') ∧ (∀ e, r ≠ .error e) ∧ s'.read_half = s.read_half ∧
      InSession hc v reads start delivered (accepted ++ (Outcome.write buf r).accepted) k s' := by
  have hroom := h.room
  obtain ⟨r, s', hwrite, hok, hin, hkeys, hsecret, hwriter, hseq⟩ :=
    @poll_write_returns c s h.sent.writer (by omega) buf
  refine ⟨r, s', hwrite, hok, congrArg Prod.fst hin, ?_, h.sent.poll_write hwrite, by omega⟩
  exact h.reading.congr hin hkeys hsecret (by omega) hwriter

theorem InSession.flush (h : InSession hc v reads start delivered accepted (k + 1) s) (inner : Poll Unit) :
    InSession hc v reads start delivered accepted k (s.poll_flush inner).2 := by
  have hroom := h.room
  have hsent := h.sent.poll_flush inner
  rw [poll_flush_snd] at hsent ⊢
  refine ⟨h.reading.congr rfl rfl rfl ?_ (h.sent.writer.flush_loop _ _).2, hsent, ?_⟩
  · show s.send_keys.seq + 1 < 2 ^ 64
    omega
  · show s.send_keys.seq + k + 1 < 2 ^ 64
    omega

theorem InSession.call {op : Op} (h : InSession hc v reads start delivered accepted (k + 1) s) (hop : op.Proper) :
    ∃ o s', s.call c op = some (o, s') ∧ ¬o.Fails ∧
      InSession hc v reads start (delivered ++ o.delivered) (accepted ++ o.accepted) k s' ∧
      (delivered = v.payload ∨
        missing v (delivered ++ o.delivered) s' + (if op.isRead then 1 else 0) ≤ missing v delivered s) := by
  cases op with
  | read n =>
    obtain ⟨r, s', hread, hans, hsess⟩ := h.read hop
    refine ⟨.read r, s', by rw [RealityStream.call, hread]; rfl, not_exists.2 hans.no_error, ?_, ?_⟩
    · rw [show (Outcome.read r).accepted = [] from rfl, List.append_nil]
      exact hsess
    · by_cases hpay : delivered = v.payload
      · exact .inl hpay
      · exact .inr (hans.progress hread hpay)
  | write buf =>
    obtain ⟨r, s', hwrite, hok, hhalf, hsess⟩ := h.write buf
    refine ⟨.write buf r, s', by rw [RealityStream.call, hwrite]; rfl, not_exists.2 hok, ?_, .inr ?_⟩
    · rw [show (Outcome.write buf r).delivered = [] from rfl, List.append_nil]
      exact hsess
    · simp [missing, hhalf, Outcome.delivered, Op.isRead]
  | flush inner =>
    refine ⟨.flush (s.poll_flush inner).1, _, rfl, not_exists.2 (poll_flush_no_error h.sent.writer hop), ?_, .inr ?_⟩
    · rw [show (Outcome.flush (s.poll_flush inner).1).accepted = [] from rfl, List.append_nil,
        show (Outcome.flush (s.poll_flush inner).1).delivered = [] from rfl, List.append_nil]
      exact h.flush inner
    · rw [poll_flush_snd, show (Outcome.flush (s.poll_flush inner).1).delivered = [] from rfl, List.append_nil]
      exact le_rfl

theorem InSession.run {ops : List Op} (h : InSession hc v reads start delivered accepted ops.length s)
    (hops : ∀ op ∈ ops, op.Proper) :
    ∃ os s', s.run c ops = some (os, s') ∧ (∀ o ∈ os, ¬o.Fails) ∧
      InSession hc v reads start (delivered ++ os.flatMap Outcome.delivered) (accepted ++ os.flatMap Outcome.accepted) 0 s' ∧
      (delivered ++ os.flatMap Outcome.delivered = v.payload ∨
        missing v (delivered ++ os.flatMap Outcome.delivered) s' + ops.countP Op.isRead ≤ missing v delivered s) := by
  induction ops generalizing s delivered accepted with
  | nil => exact ⟨[], s, rfl, by simp, by simpa using h, .inr (by simp)⟩
  | cons op ops ih =>
    obtain ⟨o, s₁, hcall, hok, hsess, hstep⟩ := h.call (hops op List.mem_cons_self)
    obtain ⟨os, s₂, hrun, hoks, hsess', hdone⟩ := ih hsess fun op' hop' => hops op' (List.mem_cons_of_mem _ hop')
    rw [List.append_assoc, List.append_assoc] at hsess'
    rw [List.append_assoc] at hdone
    refine ⟨o :: os, s₂, ?_, ?_, hsess', ?_⟩
    · rw [RealityStream.run, hcall]
      simp [hrun]
    · simpa using ⟨hok, hoks⟩
    · rw [List.flatMap_cons, List.countP_cons]
      rcases hstep with hpay | hstep
      · have hle : v.payload.length ≤ (delivered ++ (o.delivered ++ os.flatMap Outcome.delivered)).length := by
          rw [List.length_append, hpay]
          omega
        exact .inl (hsess'.reading.payload_begins.eq_of_length_le hle)
      · exact hdone.imp_right fun hdone => by omega

end

end RealityStream

/-! ## Opening -/

/-- The halves of a connection that was split: what the coming polls return. -/
structure Halves where
  reads : List (Poll Bytes)
  writes : List (Poll Nat)

/-- A read of the connection, as the poll that returns it. -/
def polled : Except String Bytes → Poll Bytes
  | .ok b => .ready b
  | .error e => .error ⟨.Other, e⟩

section
variable (c : Crypto) (aes : Aes256Gcm) (mac : HmacSha512) (cfg : RealityClientConfig) (draw : Draw)

/-- `connect` is what connecting comes to, if it is in time; `in_time` says whether
the handshake is. -/
def open_tcp (connect : Option (Except String Conn)) (in_time : Bool) (into_split : Conn → Halves) (target : TargetAddr) :
    Except Stop (RealityStream × Conn) := do
  let s ← match connect with
    | none => err s!"TCP 连 REALITY 出口 {cfg.server} 超时"
    | some (.error e) => err s!"TCP 连 REALITY 出口 {cfg.server} 失败: {e}"
    | some (.ok s) => .ok s
  let (out, s) ← if in_time then establish c aes mac cfg draw s target else err "REALITY 握手超时（慢/半开 server）"
  let halves := into_split s
  return (.new halves.reads halves.writes out.recv_keys out.send_keys out.leftover out.s_ap_secret out.c_ap_secret, s)

end

section
variable {c : Crypto} {aes : Aes256Gcm} {mac : HmacSha512} {cfg : RealityClientConfig} {draw : Draw} {srv : Server}
  {ch : Bytes} {s : Conn} {target : TargetAddr}

/-- What the client holds after it has sent its request. -/
def Server.opened (c : Crypto) (srv : Server) (v : HelloView) (ch leftover : Bytes) : HandshakeOutput :=
  { srv.output c v ch leftover with send_keys := keys_at c { secret := (srv.app c v ch).c_ap_secret, seq := 1 } }

end

namespace Sample

/-- A traffic secret, with its key and its vector. -/
structure Traffic where
  secret : Nat
  key : Nat
  iv : Nat

namespace Traffic

/-- How the two are derived. -/
def expands (t : Traffic) : List ((Block 32 × Bytes) × Nat) :=
  [((.ofNat 32 t.secret, hkdf_label 16 "key" []), t.key), ((.ofNat 32 t.secret, hkdf_label 12 "iv" []), t.iv)]

/-- A record sealed under the key. -/
def record (t : Traffic) (seq : Nat) (inner ct : Bytes) : Sealed 16 :=
  ⟨.ofNat 16 t.key, per_record_nonce (.ofNat 12 t.iv) seq, record_header ct.length, inner, ct⟩

end Traffic

namespace Tcp

/-! A session of the client above with a server that cuts its flight inside the
certificate and sends a ChangeCipherSpec between the records. The values are those of
the real primitives. -/

def c_hs : Traffic where
  secret := 0x54f0d81f4427458735ce7cbf4c360d5fd9011376b285054ef8c157cb1414cbed
  key := 0x74860561ebd2c4bf5df87e9980524b58
  iv := 0x25a6339110d55e0b57184736

def s_hs : Traffic where
  secret := 0xc8fc9f7e764a0130a4f02152215ec6004981ed0d881daab9c5996d242d616181
  key := 0x21eb874302497f8e53531ac0a323531b
  iv := 0xb91c431dc3647c59378d2fd9

def c_ap : Traffic where
  secret := 0x26f98743532cac2aaa3909d5a58d514896a9819c3d43aad4e46e0340413b511d
  key := 0x224bc02b895addba3829069e56ae4fed
  iv := 0x059a394c5f7456939b4fcb84

def s_ap : Traffic where
  secret := 0xc7cc330c53ac6764505e9c1925d320451fa800abdf2053c7df6ab7791250e8d1
  key := 0x9f2e3b6a9f457702d6d1d90db35d3b7b
  iv := 0xde07836374fd84dc41c1bffb

def c_ap₂ : Traffic where
  secret := 0x1255f1d4a731fef99d3b1dbaf590bfd03a2ee03a655d4452bbb30772e1a163a0
  key := 0xb682911e01d98cef56c6fd158006ee3b
  iv := 0x7c70316595bdf489c476878a

def s_ap₂ : Traffic where
  secret := 0xf0508379205e89b6bd027348aab25851c9b4586cb67f1e3e0ed1f994beca8cf6
  key := 0x5802da73ec1e61d49090bf9f06ca78bc
  iv := 0x70a52d6f6bffb05bbc70931e

def auth : Block 32 := .ofNat 32 0xd15968ad2ddedac59d8ba44cade515c822703be0db7c7227c9ff0991506dda4b

def th_hellos : Block 32 := .ofNat 32 0xd03d46086e299a4c436c20f908057ab18d66d7a9a368f5d719e632a4b55d5b64
def th_flight : Block 32 := .ofNat 32 0x0314bff559644d680207fc9f1a634f2823a1e60707f6a63f67cb2f804298879c
def th_finished : Block 32 := .ofNat 32 0x346c6a0b573bf266a45572e16b54da5abda5710bb3822760d6ec1e40be84cf44
def s_finished_key : Block 32 := .ofNat 32 0xd1b0e4f50238d5d3178ed88b24c8a2a678ae3839933bad6c7ba1ce8e2525c45b
def c_finished_key : Block 32 := .ofNat 32 0x7d6fbb5f1552b6dc99372da480ba1e246ba612131ab867e77e0e8b43e74bfbdf
def s_verify : Block 32 := .ofNat 32 0x106afe859078fba5451f0579cd81ec7ecede602e43022cf454d1eda39467b31f
def c_verify : Block 32 := .ofNat 32 0xc149582d5eb572cfbf411f9feb322c9779e73dcc5d86e08ef69e1d07152f566a

def leaf_key : Block 32 := .ofNat 32 0xd75a980182b10ab7d54bfed3c964073a0ee172f3daa62325af021a68f707511a

/-- HMAC-SHA-512 of the key in the leaf. -/
def leaf_mac : Bytes :=
  Wire.be 32 0x26f6ff8671954cbc9548c7d5e5f7e60ac2199e97232db8b04cd6baa78bd8ecd3 ++
  Wire.be 32 0x1ad5db578672204a4594e1079a280ee0b3e4a29fa102291a9fb85dde9c6f610f

def mac : HmacSha512 := fun key msg => known 64 [((auth.1, leaf_key.1), Wire.ofBe leaf_mac)] (key, msg)

/-- A leaf that is a key and the MAC of it. -/
def certificate : Bytes :=
  let body := Cert.certificateBody [] (Cert.ED25519_SPKI_MARKER ++ (leaf_key.1 ++ leaf_mac)) [] []
  [0x0b] ++ (Wire.be 3 body.length ++ body)

def server_hello : Bytes :=
  let extensions : List (UInt16 × Bytes) := [(0x002b, [0x03, 0x04]), (0x0033, [0x00, 0x1d, 0x00, 0x20] ++ eph_public.1)]
  let body := ServerHello.serverHelloBody
    (.ofNat 32 0xa6af06a4121860dc5e6e60249cd34c95930c8ac5cb1434dac155772ed3e26928) sealed_id.1
    (extensions.flatMap ServerHello.entry) []
  [0x02] ++ (Wire.be 3 body.length ++ body)

def flight : Bytes := encrypted_extensions ++ (certificate ++ finished_message s_verify)

def target : TargetAddr := .DomainPort "example.com" 443

def records : List (Sealed 16) := [
  s_hs.record 0 (flight.take 9 ++ [0x16]) (Wire.be 26 0x1e3ee949f028d77f4af7977f331a9d8d2a2c8a559ac26fa4c738),
  s_hs.record 1 (flight.drop 9 ++ [0x16, 0x00, 0x00]) (
    Wire.be 42 0x0c77d4c82934a03bc76eeba93b327b5a2b80082f6767ac513bf4be640b4f2d9cfadd2ca3aa64c32c8f0c ++
    Wire.be 42 0x595509fdc63272d15473b27570e56fdfa87ee6b82e1ad54a4b9335918e9e1e494d22807be854826e3877 ++
    Wire.be 42 0x2f4fcaee3108ec47606216fbbf823462aa563b3238f9273dfc8c7a35d154e314f4dc5542ab764c6fb634 ++
    Wire.be 41 0x57c21ae531644bc7388a6825eb50cdfac4f60805ac297fda4c905693c4b2703d324a709f3d349a7ff8),
  c_hs.record 0 (finished_message c_verify ++ [0x16]) (
    Wire.be 27 0xc88b73617fd53a263c2b8b9ce4b76aaac9a7ffd07f82e13a7cfa69 ++
    Wire.be 26 0x2ec67fe2b084bc234bb3efc4182e38ba05a42038fb16d6f46952),
  c_ap.record 0 (encode_vless_request client_config.uuid VLESS_CMD_TCP target ++ [0x17]) (
    Wire.be 26 0xe3759838a38560f30463cdf60ac483f3ce7f07ed919aa2293cc7 ++
    Wire.be 25 0xe742b07f0cb8fa935c017abf4b1ce98cf146a2e2f70b985cf2),
  s_ap.record 0 [0x00, 0x01, 0xaa, 0x68, 0x17, 0x00, 0x00] (Wire.be 23 0x93121fc113bcfff8826520b5cb6ae87ef683155779737c),
  s_ap.record 1 ((Tls13.Content.post [ticket] (some true)).bytes ++ [0x16]) (
    Wire.be 40 0xa1574113893c65759095fc3c1f4d825fb634eab24ca38feeac24b458d9b1f28a21dfc12803d0a7b9),
  s_ap₂.record 0 [0x69, 0x17] (Wire.be 18 0x4d1d57097e3116e06d39c781eb61aa81091e),
  s_ap₂.record 1 [0x01, 0x00, 0x15] (Wire.be 19 0x5d571059e39b2881efa420a6582e8c5c1e04d1),
  c_ap.record 1 [0x61, 0x17] (Wire.be 18 0x8c372dd15f2773d0e4f52c134d3b46607ed0),
  c_ap.record 2 (Tls13.keyUpdate false ++ [0x16]) (Wire.be 22 0x616741b22fae80e1ca22cd21780a688e3ff48cd1fada),
  c_ap₂.record 0 [0x62, 0x17] (Wire.be 18 0xbac1daf5d441d0ed8ca2ee7fc002b258b617)]

theorem distinct_records : Sealed.Distinct records := by decide +kernel

/-- The primitives, as far as the session uses them. -/
def crypto : Crypto where
  sha256 := known 32 [
    ([], Wire.ofBe th_empty.1),
    (hello_with sealed_id ++ server_hello, Wire.ofBe th_hellos.1),
    (hello_with sealed_id ++ server_hello ++ (encrypted_extensions ++ certificate), Wire.ofBe th_flight.1),
    (hello_with sealed_id ++ server_hello ++ flight, Wire.ofBe th_finished.1)]
  hmac key msg := known 32 [
    ((s_finished_key.1, th_flight.1), Wire.ofBe s_verify.1),
    ((c_finished_key.1, th_finished.1), Wire.ofBe c_verify.1)] (key, msg)
  hkdf_extract salt ikm := known 32 (auth_extracts ++ [
    (((Block.zero 32).1, (Block.zero 32).1), Wire.ofBe early.1),
    ((derived1.1, Wire.be 32 0x8bd4054fb55b9d63fdfbacf9f04b9f0d35e6d63f537563efd46272900f89492d), Wire.ofBe handshake_secret.1),
    ((derived2.1, (Block.zero 32).1), Wire.ofBe master.1)]) (salt, ikm)
  hkdf_expand prk info n := known n (auth_expands ++ [c_hs, s_hs, c_ap, s_ap, c_ap₂, s_ap₂].flatMap Traffic.expands ++ [
    ((early, hkdf_label 32 "derived" th_empty.1), Wire.ofBe derived1.1),
    ((handshake_secret, hkdf_label 32 "derived" th_empty.1), Wire.ofBe derived2.1),
    ((handshake_secret, hkdf_label 32 "c hs traffic" th_hellos.1), c_hs.secret),
    ((handshake_secret, hkdf_label 32 "s hs traffic" th_hellos.1), s_hs.secret),
    ((.ofNat 32 c_hs.secret, hkdf_label 32 "finished" []), Wire.ofBe c_finished_key.1),
    ((.ofNat 32 s_hs.secret, hkdf_label 32 "finished" []), Wire.ofBe s_finished_key.1),
    ((master, hkdf_label 32 "c ap traffic" th_finished.1), c_ap.secret),
    ((master, hkdf_label 32 "s ap traffic" th_finished.1), s_ap.secret),
    ((.ofNat 32 c_ap.secret, hkdf_label 32 "traffic upd" []), c_ap₂.secret),
    ((.ofNat 32 s_ap.secret, hkdf_label 32 "traffic upd" []), s_ap₂.secret)]) (prk, info)
  x25519 := exchange key_pairs shared_secrets
  encrypt := Sealed.encrypt records
  decrypt := Sealed.decrypt records

theorem lawful : crypto.Lawful where
  decrypt_encrypt := Sealed.decrypt_encrypt distinct_records
  length_encrypt := Sealed.length_encrypt distinct_records

/-- The flight in two records, cut inside the certificate, with a ChangeCipherSpec
between them. -/
def server : Server where
  static_secret := static_secret
  eph_secret := eph_secret
  server_hello := server_hello
  flight := [encrypted_extensions, certificate]
  records := [.piece (flight.take 9) 0, .ccs (0x03, 0x03) [0x01], .piece (flight.drop 9) 2]

/-- What it sees of the ClientHello. -/
def view : HelloView := { share := client_public, random := client_draw.random, session_id := sealed_id }

/-- What the server sends. -/
def bytes : Bytes :=
  server.wire view (hello_with sealed_id) lawful ++ Tls13.transmit lawful.suite
    { secret := (server.app crypto view (hello_with sealed_id)).s_ap_secret, seq := 0 } response.records

/-- The pieces in which it arrives; the second one reaches into the application data. -/
def pieces : List Bytes := [bytes.take 100, (bytes.drop 100).take 240, bytes.drop 340]

def conn : Conn := { reads := delivery pieces, faults := [none], written := [] }

/-- A connection whose first poll has to wait, and that first takes only three
bytes. -/
def split (s : Conn) : Halves where
  reads := .pending :: s.reads.map polled
  writes := [.ready 3, .pending, .ready 100, .ready 100, .ready 100]

/-- The second write comes when the KeyUpdate of the server has been read. -/
def ops : List RealityStream.Op :=
  [.read 1, .write [0x61], .read 8, .flush (.ready ()), .read 8, .write [0x62], .read 8]

end Tcp

end Sample

end Reality

end MiniVpn
