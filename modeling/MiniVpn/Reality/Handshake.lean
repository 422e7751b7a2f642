import MiniVpn.Reality.Record
import MiniVpn.Reality.ServerHello
/-!
# The handshake driver

`handshake.rs`: records are read from the connection, the server's encrypted
flight is cut into messages across record boundaries, and `drive` ends when a
Finished message has been checked. The connection is a script: what the reads
will return, in pieces of any size, and which writes will fail.
-/
open Lib

namespace MiniVpn

namespace Reality

def hex2 (b : UInt8) : String :=
  String.ofList [Nat.digitChar (b.toNat / 16), Nat.digitChar (b.toNat % 16)]

def err {α : Type} (m : String) : Except Stop α := .error (.error m)

/-- `io_err`: the context and the text of the I/O error. -/
def io_err {α : Type} (ctx e : String) : Except Stop α := .error (.error (ctx ++ ": " ++ e))

/-! ## Handshake messages -/

/-- Cuts whole messages off the front: a type, a length of three bytes, a body. -/
def cut_messages (buf : Bytes) : List Bytes × Bytes :=
  match buf with
  | typ :: l₂ :: l₁ :: l₀ :: rest =>
    let len := Wire.ofBe [l₂, l₁, l₀]
    if rest.length < len then ([], buf)
    else
      let (out, buf) := cut_messages (rest.drop len)
      ((typ :: l₂ :: l₁ :: l₀ :: rest.take len) :: out, buf)
  | buf => ([], buf)
termination_by buf.length
decreasing_by exact Wire.length_drop_lt ..

structure HandshakeReassembler where
  buf : Bytes

namespace HandshakeReassembler

def new : HandshakeReassembler := { buf := [] }

def push (r : HandshakeReassembler) (data : Bytes) : List Bytes × HandshakeReassembler :=
  let (out, buf) := cut_messages (r.buf ++ data)
  (out, { buf := buf })

end HandshakeReassembler

/-! ## Records -/

/-- The results of `read_buf` that are still to come: bytes, none at the end of
the stream, or an I/O error. -/
abbrev Reads := List (Except String Bytes)

/-- The unread rest of the connection, with a byte for every read. -/
def Reads.size (reads : Reads) : Nat := (reads.map fun r => 1 + (r.toOption.getD []).length).sum

structure RecordReader where
  buf : Bytes

namespace RecordReader

def new : RecordReader := { buf := [] }

/-- `while self.buf.len() < n`: the two loops of `next` differ in their texts. -/
def fill (ctx eof : String) (n : Nat) (buf : Bytes) (reads : Reads) : Except Stop (Bytes × Reads) :=
  if n ≤ buf.length then .ok (buf, reads)
  else
    match reads with
    | [] => .error .waiting
    | .error e :: _ => io_err ctx e
    | .ok [] :: _ => err eof
    | .ok chunk :: reads => fill ctx eof n (buf ++ chunk) reads
termination_by reads.length

/-- The content type, the five bytes of the header and the payload. -/
def next (r : RecordReader) (reads : Reads) : Except Stop ((UInt8 × Bytes × Bytes) × RecordReader × Reads) := do
  let (buf, reads) ← fill "读 record 头" "连接关闭（读 record 头 EOF）" 5 r.buf reads
  match buf with
  | ct :: v₁ :: v₀ :: l₁ :: l₀ :: _ =>
    let len := Wire.ofBe [l₁, l₀]
    if MAX_TLS_RECORD < len then err s!"record 长度 {len} 超 TLS 上限"
    else
      let (buf, reads) ← fill "读 record body" "连接关闭（读 record body EOF）" (5 + len) buf reads
      return ((ct, [ct, v₁, v₀, l₁, l₀], (buf.drop 5).take len), { buf := (buf.drop 5).drop len }, reads)
  | _ => .error .panicked

end RecordReader

/-- The part of the connection that is not yet consumed went from `buf` and
`reads` to `buf'` and `reads'`, and `bytes` are what lies between. -/
def Consumed (buf : Bytes) (reads : Reads) (bytes buf' : Bytes) (reads' : Reads) : Prop :=
  ∃ chunks : List Bytes, reads = chunks.map .ok ++ reads' ∧ buf ++ chunks.flatten = bytes ++ buf'

theorem Consumed.trans {buf buf' buf'' bytes bytes' : Bytes} {reads reads' reads'' : Reads}
    (h : Consumed buf reads bytes buf' reads') (h' : Consumed buf' reads' bytes' buf'' reads'') :
    Consumed buf reads (bytes ++ bytes') buf'' reads'' := by
  obtain ⟨chunks, rfl, hbytes⟩ := h
  obtain ⟨chunks', rfl, hbytes'⟩ := h'
  refine ⟨chunks ++ chunks', by simp, ?_⟩
  rw [List.flatten_append, ← List.append_assoc, hbytes, List.append_assoc, hbytes', List.append_assoc]

theorem size_map_ok (chunks : List Bytes) (reads : Reads) :
    Reads.size (chunks.map .ok ++ reads) = chunks.length + chunks.flatten.length + reads.size := by
  induction chunks with
  | nil => simp
  | cons b chunks ih =>
    simp only [Reads.size, List.map_cons, List.cons_append, List.sum_cons, List.length_cons, List.flatten_cons,
      List.length_append] at ih ⊢
    rw [ih]
    simp [Except.toOption]
    omega

theorem Consumed.size_le {buf buf' bytes : Bytes} {reads reads' : Reads} (h : Consumed buf reads bytes buf' reads') :
    bytes.length + (buf'.length + reads'.size) ≤ buf.length + reads.size := by
  obtain ⟨chunks, rfl, hbytes⟩ := h
  have hlen := congrArg List.length hbytes
  rw [List.length_append, List.length_append] at hlen
  rw [size_map_ok]
  omega

namespace RecordReader

theorem fill_consumed {ctx eof : String} {n : Nat} {buf buf' : Bytes} {reads reads' : Reads}
    (h : fill ctx eof n buf reads = .ok (buf', reads')) : n ≤ buf'.length ∧ Consumed buf reads [] buf' reads' := by
  induction reads generalizing buf with
  | nil =>
    unfold fill at h
    split at h
    · simp only [Except.ok.injEq, Prod.mk.injEq] at h
      obtain ⟨rfl, rfl⟩ := h
      exact ⟨‹_›, [], by simp⟩
    · simp at h
  | cons r reads ih =>
    unfold fill at h
    split at h
    · simp only [Except.ok.injEq, Prod.mk.injEq] at h
      obtain ⟨rfl, rfl⟩ := h
      exact ⟨‹_›, [], by simp⟩
    · match r with
      | .error e => simp [io_err] at h
      | .ok [] => simp [err] at h
      | .ok (b :: chunk) =>
        obtain ⟨hlen, chunks, rfl, hbytes⟩ := ih h
        refine ⟨hlen, (b :: chunk) :: chunks, by simp, ?_⟩
        rw [← hbytes]
        simp

/-- A record is its header, with the length of the payload, and the payload. -/
theorem next_consumed {r r' : RecordReader} {reads reads' : Reads} {ct : UInt8} {hdr payload : Bytes}
    (h : r.next reads = .ok ((ct, hdr, payload), r', reads')) :
    (∃ v₁ v₀, hdr = [ct, v₁, v₀] ++ Wire.be 2 payload.length) ∧ Consumed r.buf reads (hdr ++ payload) r'.buf reads' := by
  unfold next at h
  obtain ⟨⟨buf, reads₁⟩, hfill, h⟩ := bind_eq_ok.1 h
  obtain ⟨-, hhead⟩ := fill_consumed hfill
  dsimp only at h
  split at h
  · rename_i ct' v₁ v₀ l₁ l₀ tail
    split at h
    · cases h
    · obtain ⟨⟨buf₂, reads₂⟩, hfill, h⟩ := bind_eq_ok.1 h
      obtain ⟨hlen, hbody⟩ := fill_consumed hfill
      simp only [pure, Except.pure, Except.ok.injEq, Prod.mk.injEq] at h
      obtain ⟨⟨rfl, rfl, rfl⟩, rfl, rfl⟩ := h
      -- The second loop only adds to what the first one has read.
      obtain ⟨more, rfl⟩ : ∃ more, buf₂ = ct' :: v₁ :: v₀ :: l₁ :: l₀ :: more := by
        obtain ⟨chunks, -, heq⟩ := hbody
        exact ⟨_, heq.symm⟩
      have hpayload : (more.take (Wire.ofBe [l₁, l₀])).length = Wire.ofBe [l₁, l₀] := by
        simp only [List.length_cons] at hlen
        rw [List.length_take]
        omega
      refine ⟨⟨v₁, v₀, ?_⟩, ?_⟩
      · simp only [List.drop_succ_cons, List.drop_zero, hpayload]
        rw [show Wire.be 2 (Wire.ofBe [l₁, l₀]) = [l₁, l₀] from Wire.be_ofBe [l₁, l₀]]
        rfl
      · obtain ⟨chunks, hreads, heq⟩ := hhead.trans hbody
        refine ⟨chunks, hreads, heq.trans ?_⟩
        simp
  · cases h

end RecordReader

/-! ## The connection -/

/-- What the reads return, which of the coming writes and flushes fail, and the
bytes written so far. -/
structure Conn where
  reads : Reads
  faults : List (Option String)
  written : Bytes

namespace Conn

/-- The outcome of the next write or flush. -/
def attempt (s : Conn) (ctx : String) : Except Stop Conn :=
  match s.faults with
  | some e :: _ => io_err ctx e
  | none :: faults => .ok { s with faults := faults }
  | [] => .ok s

def write_all (s : Conn) (ctx : String) (data : Bytes) : Except Stop Conn := do
  let s ← s.attempt ctx
  return { s with written := s.written ++ data }

def flush (s : Conn) (ctx : String) : Except Stop Conn := s.attempt ctx

end Conn

def write_record (s : Conn) (content_type : UInt8) (version : Nat) (body : Bytes) : Except Stop Conn :=
  if MAX_TLS_PLAINTEXT < body.length then
    let len := body.length
    err s!"明文 record body {len} 超 2^14 上限"
  else s.write_all "写 record" (content_type :: Wire.be 2 version ++ Wire.be 2 body.length ++ body)

/-! ## The driver -/

structure HandshakeInput where
  client_hello : Bytes
  client_eph_secret : Block 32
  expected_session_id : Bytes

structure HandshakeOutput where
  recv_keys : RecordKeys
  send_keys : RecordKeys
  leftover : Bytes
  s_ap_secret : Block 32
  c_ap_secret : Block 32

/-- What the flight loop keeps between messages. -/
structure Flight where
  transcript : Bytes
  cert_verified : Bool

section
variable (c : Crypto) (verify_cert : Bytes → Except Stop Unit) (s_hs_secret : Block 32)

/-- One round of the `for` loop; `true` is `break 'outer`. -/
def on_message (f : Flight) (msg : Bytes) : Except Stop (Bool × Flight) :=
  let folded := { f with transcript := f.transcript ++ msg }
  match msg with
  | [] => .error .panicked
  | 0x08 :: _ => .ok (false, folded)
  | 0x0b :: _ => do
    verify_cert msg
    return (false, { folded with cert_verified := true })
  | 0x0f :: _ => .ok (false, folded)
  | 0x14 :: _ =>
    if !f.cert_verified then err "server flight 未含通过校验的 Certificate → REALITY auth 未执行，拒绝握手"
    else
      let th := transcript_hash c [f.transcript]
      let expected := compute_finished_verify_data c s_hs_secret th
      if msg.length < 4 then err "server Finished 截断"
      else if msg.drop 4 ≠ expected.1 then err "server Finished MAC 不匹配（握手完整性失败）"
      else .ok (true, folded)
  | other :: _ => err s!"flight 意外 handshake type 0x{hex2 other}"

/-- The messages of one record. Those behind the Finished message are dropped. -/
def on_messages (f : Flight) : List Bytes → Except Stop (Bool × Flight)
  | [] => .ok (false, f)
  | msg :: msgs => do
    let (done, f) ← on_message c verify_cert s_hs_secret f msg
    if done then return (true, f) else on_messages f msgs

/-- The outcome of one record of the flight. -/
def on_record (recv : RecordKeys) (reasm : HandshakeReassembler) (f : Flight) (ct : UInt8) (hdr payload : Bytes) :
    Except Stop (Bool × RecordKeys × HandshakeReassembler × Flight) :=
  if ct = 0x14 then .ok (false, recv, reasm, f)
  else if ct = 0x17 then
    match recv.open_record c hdr payload with
    | none => .error .panicked
    | some (.error m, _) => err m
    | some (.ok (inner_type, content), recv) =>
      if inner_type ≠ 0x16 then err s!"flight 阶段内层非 handshake（0x{hex2 inner_type}）"
      else do
        let (msgs, reasm) := reasm.push content
        let (done, f) ← on_messages c verify_cert s_hs_secret f msgs
        return (done, recv, reasm, f)
  else err s!"flight 阶段意外 record type 0x{hex2 ct}"

/-- The loop `'outer`. -/
def flight_loop (recv : RecordKeys) (reasm : HandshakeReassembler) (f : Flight) (reader : RecordReader) (reads : Reads) :
    Except Stop (Flight × RecordReader × Reads) :=
  match _h : reader.next reads with
  | .error e => .error e
  | .ok ((ct, hdr, payload), reader', reads') =>
    match on_record c verify_cert s_hs_secret recv reasm f ct hdr payload with
    | .error e => .error e
    | .ok (true, _, _, f) => .ok (f, reader', reads')
    | .ok (false, recv, reasm, f) => flight_loop recv reasm f reader' reads'
termination_by reader.buf.length + reads.size
decreasing_by
  obtain ⟨⟨v₁, v₀, rfl⟩, hc⟩ := RecordReader.next_consumed _h
  have := hc.size_le
  simp at this
  omega

variable {c verify_cert s_hs_secret} in
/-- A round of the loop, as a sequence of steps. -/
theorem flight_loop_round (recv : RecordKeys) (reasm : HandshakeReassembler) (f : Flight) (reader : RecordReader)
    (reads : Reads) : flight_loop c verify_cert s_hs_secret recv reasm f reader reads =
      reader.next reads >>= fun x => on_record c verify_cert s_hs_secret recv reasm f x.1.1 x.1.2.1 x.1.2.2 >>= fun y =>
        if y.1 then .ok (y.2.2.2, x.2)
        else flight_loop c verify_cert s_hs_secret y.2.1 y.2.2.1 y.2.2.2 x.2.1 x.2.2 := by
  rw [flight_loop]
  split
  · rename_i hnext
    rw [hnext]
    rfl
  · rename_i hnext
    rw [hnext]
    split <;>
    · rename_i hrec
      simp [Except.bind, bind, hrec]

end

/-- The body of a Finished message has 32 bytes. -/
def finished_message (verify_data : Block 32) : Bytes := [0x14, 0x00, 0x00, 0x20] ++ verify_data.1

def drive (c : Crypto) (s : Conn) (input : HandshakeInput) (verify_cert : Bytes → Except Stop Unit) :
    Except Stop (HandshakeOutput × Conn) := do
  let s ← write_record s 0x16 0x0301 input.client_hello
  let s ← s.write_all "写 client CCS" [0x14, 0x03, 0x03, 0x00, 0x01, 0x01]
  let s ← s.flush "flush CH"
  let ((ct, _, sh_msg), reader, reads) ← RecordReader.new.next s.reads
  if ct ≠ 0x16 then err s!"首条 record 非 handshake（type 0x{hex2 ct}，期望 ServerHello）"
  let sh ← ServerHello.parse_server_hello sh_msg input.expected_session_id
  let ecdhe := c.x25519 input.client_eph_secret sh.server_key_share
  let hs ← derive_handshake_keys c ecdhe input.client_hello sh_msg
  let f : Flight := { transcript := input.client_hello ++ sh_msg, cert_verified := false }
  let (f, reader, reads) ←
    flight_loop c verify_cert hs.s_hs_secret (.new hs.server_key hs.server_iv) .new f reader reads
  let th_sfin := transcript_hash c [f.transcript]
  let cfin := compute_finished_verify_data c hs.c_hs_secret th_sfin
  match (RecordKeys.new hs.client_key hs.client_iv).seal_record c 0x16 (finished_message cfin) with
  | none => .error .panicked
  | some (fin_record, _) =>
    let s ← { s with reads := reads }.write_all "写 client Finished" fin_record
    let s ← s.flush "flush client Finished"
    let app := derive_application_keys c hs.handshake_secret th_sfin
    return ({
      recv_keys := .new app.server_key app.server_iv
      send_keys := .new app.client_key app.client_iv
      leftover := reader.buf
      s_ap_secret := app.s_ap_secret
      c_ap_secret := app.c_ap_secret }, s)

end Reality

end MiniVpn
