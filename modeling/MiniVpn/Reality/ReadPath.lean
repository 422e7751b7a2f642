import MiniVpn.Reality.WritePath
/-!
# What the consumer reads

The server sends records as `Tls13.transmit` does, from the first application
secret on. `Reading` says where the stream is in them: the keys are those of the
next record, the bytes that are buffered or still to come are the records that
remain, and what was delivered, what is ready and the data of the remaining
records together are the server's payload.
-/
open Lib

namespace MiniVpn

namespace Reality

namespace RealityStream

/-! ## Decoding a record of the server -/

/-- The stream can open the record at `p`, answer it and flush the answer. -/
structure Ready (c : Crypto) (p : Tls13.Position (Block 32)) (s : RealityStream) : Prop where
  keys : s.recv_keys = keys_at c p
  secret : s.server_ap_secret = p.secret
  send : s.send_keys.seq + 1 < 2 ^ 64
  writer : WriterOk s.write_half

/-- What `decode_one` makes of a record. -/
def decoded : Tls13.Content → Decoded
  | .data b => .Data b
  | .post _ _ => .Drop
  | .close => .Eof

section
variable {c : Crypto}

theorem on_handshake_nil (s : RealityStream) : s.on_handshake c [] = some (.ok (), s) := by
  rw [on_handshake]
  intro _ _ _ _ _ h
  cases h

/-- A message that is not a KeyUpdate is skipped. -/
theorem on_handshake_ticket (s : RealityStream) {body : Bytes} (hlen : body.length < 2 ^ 24) (rest : Bytes) :
    s.on_handshake c (Tls13.message 0x04 body ++ rest) = s.on_handshake c rest := by
  obtain ⟨l₂, l₁, l₀, hbe⟩ : ∃ l₂ l₁ l₀, Wire.be 3 body.length = [l₂, l₁, l₀] := ⟨_, _, _, rfl⟩
  have hsize : Wire.ofBe [l₂, l₁, l₀] = body.length := by
    rw [← hbe]
    exact Wire.ofBe_be_of_lt hlen
  rw [Tls13.message, hbe]
  simp only [List.cons_append, List.nil_append]
  rw [on_handshake, hsize, if_neg (by simp), if_neg (by decide), List.drop_left]

theorem on_handshake_tickets (s : RealityStream) {tickets : List Bytes} (hlen : ∀ b ∈ tickets, b.length < 2 ^ 24)
    (rest : Bytes) : s.on_handshake c ((tickets.map (Tls13.message 0x04)).flatten ++ rest) = s.on_handshake c rest := by
  induction tickets with
  | nil => rfl
  | cons b tickets ih =>
    rw [List.map_cons, List.flatten_cons, List.append_assoc, on_handshake_ticket s (hlen b List.mem_cons_self),
      ih fun b' hb' => hlen b' (List.mem_cons_of_mem _ hb')]

/-- A KeyUpdate that ends a record. -/
theorem on_handshake_key_update {s s' : RealityStream} {request_update : UInt8}
    (h : s.on_key_update c [0x18, 0x00, 0x00, 0x01, request_update] = some (.ok (), s')) :
    s.on_handshake c [0x18, 0x00, 0x00, 0x01, request_update] = some (.ok (), s') := by
  have hsize : Wire.ofBe [0x00, 0x00, 0x01] = 1 := rfl
  rw [on_handshake, hsize, if_neg (by simp), if_pos rfl, List.take_one, List.head?_cons, Option.toList_some, h]
  exact on_handshake_nil s'

theorem Ready.on_key_update {p : Tls13.Position (Block 32)} {s : RealityStream} (h : Ready c p s) (requested : Bool) :
    ∃ s', s.on_key_update c (Tls13.keyUpdate requested) = some (.ok (), s') ∧ s'.inbound = s.inbound ∧
      Ready c { secret := next_application_traffic_secret c p.secret, seq := 0 } s' := by
  rw [← h.secret]
  cases requested with
  | false => exact ⟨_, rfl, rfl, rfl, rfl, h.send, h.writer⟩
  | true =>
    obtain ⟨reply, hseal⟩ := exists_seal_record (c := c) s.send_keys h.send 0x16 [0x18, 0x00, 0x00, 0x01, 0x00]
    have heq : s.on_key_update c (Tls13.keyUpdate true) = some (.ok (), { s with
        server_ap_secret := next_application_traffic_secret c s.server_ap_secret
        recv_keys := record_keys_from_secret c (next_application_traffic_secret c s.server_ap_secret)
        write_pending := s.write_pending ++ reply
        client_ap_secret := next_application_traffic_secret c s.client_ap_secret
        send_keys := record_keys_from_secret c (next_application_traffic_secret c s.client_ap_secret)
        key_updates := s.key_updates ++ [1] }) := by
      show s.on_key_update c [0x18, 0x00, 0x00, 0x01, 0x01] = _
      rw [RealityStream.on_key_update, if_neg (by decide)]
      dsimp only
      rw [if_pos rfl, hseal]
      rfl
    exact ⟨_, heq, rfl, rfl, rfl, Nat.lt_of_sub_eq_succ rfl, h.writer⟩

variable {hc : c.Lawful} {p : Tls13.Position (Block 32)} {s : RealityStream}

/-- The messages of a record, after its sequence number was counted. -/
theorem Ready.on_handshake (h : Ready c (p.after hc.suite false) s) {tickets : List Bytes}
    (hlen : ∀ b ∈ tickets, b.length < 2 ^ 24) (update : Option Bool) :
    ∃ s', s.on_handshake c (Tls13.Content.post tickets update).bytes = some (.ok (), s') ∧ s'.inbound = s.inbound ∧
      Ready c (p.after hc.suite (Tls13.Content.post tickets update).rotates) s' := by
  rw [Tls13.Content.bytes, on_handshake_tickets s hlen]
  cases update with
  | none => exact ⟨s, on_handshake_nil s, rfl, h⟩
  | some requested =>
    obtain ⟨s', hkey, hin, hready⟩ := h.on_key_update requested
    refine ⟨s', ?_, hin, hready⟩
    have hmsg : Tls13.keyUpdate requested = [0x18, 0x00, 0x00, 0x01, if requested then 1 else 0] := by
      cases requested <;> rfl
    rw [hmsg] at hkey
    rw [Option.map_some, Option.getD_some, hmsg]
    exact on_handshake_key_update hkey

/-- A message is no longer than the content of its record. -/
theorem ticket_length_lt {tickets : List Bytes} {update : Option Bool} {padding : Nat}
    (h : Tls13.Record.Fits { content := .post tickets update, padding := padding }) {b : Bytes} (hb : b ∈ tickets) :
    b.length < 2 ^ 24 := by
  have hmem : Tls13.message 0x04 b ∈ tickets.map (Tls13.message 0x04) := List.mem_map_of_mem hb
  have hle := (List.sublist_flatten_of_mem hmem).length_le
  simp only [Tls13.Record.Fits, Tls13.Content.bytes, List.length_append] at h
  simp only [Tls13.message, List.cons_append, List.length_cons, List.length_append] at hle
  omega

theorem Ready.on_content (h : Ready c (p.after hc.suite false) s) {r : Tls13.Record} (hfits : r.Fits) :
    ∃ s', s.on_content c r.content.typ r.content.bytes = some (.ok (decoded r.content), s') ∧ s'.inbound = s.inbound ∧
      Ready c (p.after hc.suite r.content.rotates) s' := by
  obtain ⟨content, padding⟩ := r
  cases content with
  | data b => exact ⟨s, rfl, rfl, h⟩
  | close => exact ⟨s, rfl, rfl, h⟩
  | post tickets update =>
    obtain ⟨s', hmsgs, hin, hready⟩ := h.on_handshake (fun b hb => ticket_length_lt hfits hb) update
    refine ⟨s', ?_, hin, hready⟩
    show s.on_content c 0x16 (Tls13.Content.post tickets update).bytes = some (.ok .Drop, s')
    rw [RealityStream.on_content, if_neg (by decide), if_neg (by decide), if_pos rfl, hmsgs]

/-- A record that is complete is decoded, and the keys are those of the next. -/
theorem Ready.decode_one (h : Ready c p s) {r : Tls13.Record} (hfits : r.Fits) (hseq : p.seq + 1 < 2 ^ 64) {rest : Bytes}
    (hraw : s.read_raw = r.protect hc.suite p ++ rest) :
    ∃ s', s.decode_one c = some (.ok (some (decoded r.content)), s') ∧
      s'.inbound = { s with read_raw := rest }.inbound ∧ Ready c (p.after hc.suite r.content.rotates) s' := by
  obtain ⟨l₁, l₀, ct, hframe, hct, hsize, hle⟩ := Tls13.protect_frame hc.suite p r.content.typ hfits
  have hopen := open_record_protect hc r.content.typ_ne_zero r.content.bytes r.padding hseq [0x17, 0x03, 0x03, l₁, l₀]
  have hnext : Ready c (p.after hc.suite false)
      { s with read_raw := rest, recv_keys := keys_at c (p.after hc.suite false) } := ⟨rfl, h.secret, h.send, h.writer⟩
  obtain ⟨s', hcont, hin, hready⟩ := hnext.on_content hfits
  refine ⟨s', ?_, hin, hready⟩
  rw [Tls13.Record.protect, hframe] at hraw
  simp only [List.cons_append] at hraw
  unfold RealityStream.decode_one
  rw [hraw]
  dsimp only
  rw [hsize, if_neg (by rw [MAX_TLS_RECORD]; omega), if_neg (by rw [List.length_append]; omega), List.take_left,
    List.drop_left, h.keys, hct, hopen]
  dsimp only
  rw [hcont]

/-- A record that is not complete waits. -/
theorem decode_one_incomplete {r : Tls13.Record} (hfits : r.Fits) {more rest : Bytes}
    (hraw : s.read_raw ++ more = r.protect hc.suite p ++ rest) (hlen : s.read_raw.length < (r.protect hc.suite p).length) :
    s.decode_one c = some (.ok none, s) := by
  obtain ⟨l₁', l₀', ct, hframe, -, hsize, hle⟩ := Tls13.protect_frame hc.suite p r.content.typ hfits
  rw [Tls13.Record.protect, hframe] at hraw hlen
  unfold RealityStream.decode_one
  split
  · rename_i h₀ h₁ h₂ l₁ l₀ tail heq
    rw [heq] at hraw hlen
    simp only [List.cons_append, List.cons.injEq] at hraw
    obtain ⟨-, -, -, rfl, rfl, -⟩ := hraw
    simp only [List.length_cons] at hlen
    dsimp only
    rw [hsize, if_neg (by rw [MAX_TLS_RECORD]; omega), if_pos (by omega)]
  · rfl

end

/-! ## Stripping the response header -/

/-- A VLESS response header: a version, the length of the addons, the addons. -/
def IsResponseHeader (header : Bytes) : Prop :=
  ∃ version addons_len addons, header = version :: addons_len :: addons ∧ addons.length = addons_len.toNat

theorem strip_header {header : Bytes} (h : IsResponseHeader header) (rest : Bytes) :
    VlessResponseStripper.strip { stripped := false } (header ++ rest) = (true, { stripped := true }, rest) := by
  obtain ⟨version, addons_len, addons, rfl, hlen⟩ := h
  unfold VlessResponseStripper.strip
  rw [if_neg (by decide)]
  simp only [List.cons_append]
  rw [← hlen, if_neg (by simp; omega), Nat.add_comm, List.drop_succ_cons, List.drop_succ_cons, List.drop_left]

theorem strip_incomplete {header : Bytes} (h : IsResponseHeader header) {buf more rest : Bytes}
    (hbuf : buf ++ more = header ++ rest) (hlen : buf.length < header.length) :
    VlessResponseStripper.strip { stripped := false } buf = (false, { stripped := false }, buf) := by
  obtain ⟨version, addons_len, addons, rfl, haddons⟩ := h
  unfold VlessResponseStripper.strip
  rw [if_neg (by decide)]
  split
  · simp only [List.cons_append, List.cons.injEq] at hbuf
    obtain ⟨-, rfl, -⟩ := hbuf
    simp only [List.length_cons] at hlen
    dsimp only
    rw [if_pos (by simp only [List.length_cons]; omega)]
  · rfl

/-- What a server sends after the handshake: its records, and the header and the
payload that their data is. -/
structure Response where
  records : List Tls13.Record
  header : Bytes
  payload : Bytes
  conforming : Tls13.Conforming 0 records
  isHeader : IsResponseHeader header
  data : Tls13.appData records = header ++ payload

/-- The payload is what was delivered, what is ready, and what follows the header in
the data staged and still to come. -/
def Owes (v : Response) (delivered todo : Bytes) (s : RealityStream) : Prop :=
  if s.resp.stripped then delivered ++ s.plaintext_out ++ todo = v.payload
  else delivered = [] ∧ s.plaintext_out = [] ∧ s.staging ++ todo = v.header ++ v.payload ∧
    s.staging.length < v.header.length

theorem Owes.congr {v : Response} {delivered todo : Bytes} {s s' : RealityStream} (hin : s'.inbound = s.inbound)
    (h : Owes v delivered todo s) : Owes v delivered todo s' := by
  simp only [inbound, Prod.mk.injEq] at hin
  obtain ⟨-, -, hstaging, hplain, hresp⟩ := hin
  unfold Owes at h ⊢
  rwa [hstaging, hplain, hresp]

theorem Owes.absorb_app {v : Response} {delivered content todo : Bytes} {s : RealityStream}
    (h : Owes v delivered (content ++ todo) s) : Owes v delivered todo (s.absorb_app content) := by
  unfold Owes at h
  unfold RealityStream.absorb_app
  split at h
  · rename_i hstripped
    rw [if_pos hstripped, Owes, if_pos hstripped]
    simpa using h
  · rename_i hstripped
    obtain ⟨rfl, hplain, hdata, hstaging⟩ := h
    have hresp : s.resp = { stripped := false } := by
      cases hs : s.resp
      simpa [hs] using hstripped
    rw [← List.append_assoc] at hdata
    rw [if_neg hstripped, hresp]
    rcases Nat.lt_or_ge (s.staging ++ content).length v.header.length with hlt | hge
    · rw [strip_incomplete v.isHeader hdata hlt]
      exact ⟨rfl, hplain, hdata, hlt⟩
    · obtain ⟨rest, hrest, hpayload⟩ : ∃ rest, s.staging ++ content = v.header ++ rest ∧ v.payload = rest ++ todo := by
        rcases List.append_eq_append_iff.1 hdata with ⟨as, hhead, htodo⟩ | ⟨rest, hbuf, hpay⟩
        · have hnil : as = [] := by
            have := congrArg List.length hhead
            rw [List.length_append] at this
            exact List.eq_nil_of_length_eq_zero (by omega)
          subst hnil
          exact ⟨[], by simpa using hhead.symm, by simpa using htodo.symm⟩
        · exact ⟨rest, hbuf, hpay⟩
      rw [hrest, strip_header v.isHeader]
      show [] ++ (s.plaintext_out ++ rest) ++ todo = v.payload
      rw [hplain, hpayload]
      rfl

/-- Without data to come and with nothing ready, all of the payload was delivered. -/
theorem Owes.delivered {v : Response} {delivered : Bytes} {s : RealityStream} (h : Owes v delivered [] s)
    (hplain : s.plaintext_out = []) : delivered = v.payload := by
  unfold Owes at h
  split at h
  · simpa [hplain] using h
  · obtain ⟨-, -, hdata, hlt⟩ := h
    have := congrArg List.length hdata
    simp only [List.append_nil, List.length_append] at this
    omega

/-! ## The position of the reader -/

/-- The bytes a call has given to the consumer. -/
def Outcome.delivered : Outcome → Bytes
  | .read r => read_bytes r
  | _ => []

/-- A reader without I/O errors, and with nothing after the end of the stream. -/
def ReaderOk : List (Poll Bytes) → Prop
  | [] => True
  | .error _ :: _ => False
  | .pending :: reads => ReaderOk reads
  | .ready [] :: reads => reads.flatMap read_bytes = [] ∧ ReaderOk reads
  | .ready _ :: reads => ReaderOk reads

instance decidableReaderOk : (reads : List (Poll Bytes)) → Decidable (ReaderOk reads)
  | [] => isTrue trivial
  | .error _ :: _ => isFalse id
  | .pending :: reads => decidableReaderOk reads
  | .ready [] :: reads =>
    have := decidableReaderOk reads
    inferInstanceAs (Decidable (_ ∧ _))
  | .ready (_ :: _) :: reads => decidableReaderOk reads

theorem ReaderOk.tail {x : Poll Bytes} {reads : List (Poll Bytes)} (h : ReaderOk (x :: reads)) : ReaderOk reads := by
  unfold ReaderOk at h
  split at h
  · trivial
  · exact h.elim
  · rename_i heq
    rwa [← (List.cons.inj heq).2] at h
  · rename_i heq
    rw [← (List.cons.inj heq).2] at h
    exact h.2
  · rename_i heq
    rwa [← (List.cons.inj heq).2] at h

section
variable {c : Crypto} (hc : c.Lawful) (v : Response) (reads : List (Poll Bytes))

/-- The records `rs` remain, the first of them at `p`. -/
structure Located (p : Tls13.Position (Block 32)) (rs : List Tls13.Record) (s : RealityStream) : Prop where
  ready : Ready c p s
  conforming : Tls13.Conforming p.seq rs
  bytes : s.read_raw ++ s.read_half.flatMap read_bytes = Tls13.transmit hc.suite p rs
  reader : ReaderOk s.read_half
  records : rs <:+ v.records
  script : s.read_half <:+ reads

structure ReadingAt (delivered : Bytes) (p : Tls13.Position (Block 32)) (rs : List Tls13.Record) (s : RealityStream) :
    Prop extends Located hc v reads p rs s where
  owes : Owes v delivered (Tls13.appData rs) s

def Reading (delivered : Bytes) (s : RealityStream) : Prop := ∃ p rs, ReadingAt hc v reads delivered p rs s

/-- What a call of `poll_read` may return. No bytes are the end: every record was
decoded, and the last was close_notify or the connection has just ended. -/
structure Answers (delivered : Bytes) (r : Poll Bytes) (s : RealityStream) : Prop where
  reading : Reading hc v reads (delivered ++ read_bytes r) s
  no_error : ∀ e, r ≠ .error e
  zero : r = .ready [] → delivered = v.payload ∧ s.read_raw = [] ∧ s.read_half.flatMap read_bytes = [] ∧
    ((∃ r ∈ v.records, r.content = .close) ∨ .ready [] :: s.read_half <:+ reads)
  idle : r = .pending → s.read_half = [] → delivered = v.payload

variable {hc v reads} {delivered : Bytes} {p : Tls13.Position (Block 32)} {rs : List Tls13.Record} {s : RealityStream}

theorem ReadingAt.congr {s' : RealityStream} (h : ReadingAt hc v reads delivered p rs s) (hin : s'.inbound = s.inbound)
    (hready : Ready c p s') : ReadingAt hc v reads delivered p rs s' := by
  have howes := h.owes.congr hin
  simp only [inbound, Prod.mk.injEq] at hin
  obtain ⟨hhalf, hraw, -⟩ := hin
  exact ⟨⟨hready, h.conforming, by rw [hhalf, hraw]; exact h.bytes, hhalf ▸ h.reader, h.records, hhalf ▸ h.script⟩, howes⟩

theorem ReadingAt.flushed (h : ReadingAt hc v reads delivered p rs s) :
    (∀ e, s.flushed.1 ≠ .error e) ∧ ReadingAt hc v reads delivered p rs s.flushed.2 := by
  refine ⟨fun e => ?_, h.congr s.flushed_inbound ?_⟩
  · unfold RealityStream.flushed
    split
    · simp
    · exact h.ready.writer.poll_flush_pending e
  · unfold RealityStream.flushed
    split
    · exact h.ready
    · exact ⟨h.ready.keys, h.ready.secret, h.ready.send, (h.ready.writer.flush_loop _ _).2⟩

/-! ## A round of the loop -/

/-- A read is taken from the connection. -/
theorem ReadingAt.take_read (h : ReadingAt hc v reads delivered p rs s) {x : Poll Bytes} {rest : List (Poll Bytes)}
    (hhalf : s.read_half = x :: rest) :
    ReadingAt hc v reads delivered p rs { s with read_half := rest, read_raw := s.read_raw ++ read_bytes x } := by
  have hbytes := h.bytes
  have hreader := h.reader
  have hscript := h.script
  rw [hhalf] at hbytes hreader hscript
  refine ⟨⟨⟨h.ready.keys, h.ready.secret, h.ready.send, h.ready.writer⟩, h.conforming, ?_, hreader.tail, h.records,
    (List.suffix_cons x rest).trans hscript⟩, h.owes⟩
  rw [← hbytes, List.flatMap_cons, List.append_assoc]

theorem ReadingAt.skip_read (h : ReadingAt hc v reads delivered p rs s) {x : Poll Bytes} {rest : List (Poll Bytes)}
    (hhalf : s.read_half = x :: rest) (hx : read_bytes x = []) :
    ReadingAt hc v reads delivered p rs { s with read_half := rest } := by
  have hnext := h.take_read hhalf
  rwa [hx, List.append_nil] at hnext

/-- The next record is not complete, or there is none. -/
def Waits (hc : c.Lawful) (p : Tls13.Position (Block 32)) (rs : List Tls13.Record) (s : RealityStream) : Prop :=
  ∀ r rs', rs = r :: rs' → s.read_raw.length < (r.protect hc.suite p).length

/-- With no bytes to come, a record that waits is not there. -/
theorem ReadingAt.eq_nil (h : ReadingAt hc v reads delivered p rs s) (hwait : Waits hc p rs s)
    (hmore : s.read_half.flatMap read_bytes = []) : rs = [] ∧ s.read_raw = [] := by
  have hbytes := h.bytes
  rw [hmore, List.append_nil] at hbytes
  cases rs with
  | nil => exact ⟨rfl, hbytes⟩
  | cons r rs =>
    have hlt := hwait r rs rfl
    rw [hbytes, Tls13.transmit, List.length_append] at hlt
    omega

theorem ReadingAt.delivered_eq (h : ReadingAt hc v reads delivered p rs s) (hplain : s.plaintext_out = [])
    (hwait : Waits hc p rs s) (hmore : s.read_half.flatMap read_bytes = []) : delivered = v.payload := by
  have howes := h.owes
  rw [(h.eq_nil hwait hmore).1] at howes
  exact howes.delivered hplain

theorem Answers.ended (h : Reading hc v reads delivered s) (hpay : delivered = v.payload) (hraw : s.read_raw = [])
    (hmore : s.read_half.flatMap read_bytes = [])
    (hend : (∃ r ∈ v.records, r.content = .close) ∨ .ready [] :: s.read_half <:+ reads) :
    Answers hc v reads delivered (.ready []) s where
  reading := by
    rw [read_bytes, List.append_nil]
    exact h
  no_error e he := by cases he
  zero _ := ⟨hpay, hraw, hmore, hend⟩
  idle hidle := by cases hidle

theorem ReadingAt.pending (h : ReadingAt hc v reads delivered p rs s) (hplain : s.plaintext_out = [])
    (hwait : Waits hc p rs s) : Answers hc v reads delivered .pending s where
  reading := ⟨p, rs, by simpa [read_bytes] using h⟩
  no_error e he := by cases he
  zero hz := by cases hz
  idle _ hhalf := h.delivered_eq hplain hwait (by rw [hhalf]; rfl)

theorem ReadingAt.read_more (h : ReadingAt hc v reads delivered p rs s) (hplain : s.plaintext_out = [])
    (hwait : Waits hc p rs s) :
    (∃ s', s.read_more = (none, s') ∧ Reading hc v reads delivered s') ∨
      ∃ r s', s.read_more = (some r, s') ∧ Answers hc v reads delivered r s' := by
  unfold RealityStream.read_more
  split
  · exact .inr ⟨_, _, rfl, h.pending hplain hwait⟩
  · rename_i rest hhalf
    exact .inr ⟨_, _, rfl, (h.skip_read hhalf rfl).pending hplain hwait⟩
  · rename_i e rest hhalf
    have hreader := h.reader
    rw [hhalf] at hreader
    exact hreader.elim
  · rename_i rest hhalf
    have hreader := h.reader
    rw [hhalf] at hreader
    have hnext := h.skip_read hhalf rfl
    have hraw : s.read_raw = [] := (hnext.eq_nil hwait hreader.1).2
    have hdone : delivered = v.payload := hnext.delivered_eq hplain hwait hreader.1
    have hscript : .ready [] :: rest <:+ reads := by
      rw [← hhalf]
      exact h.script
    exact .inr ⟨_, _, by rw [hraw]; rfl, .ended ⟨p, rs, hnext⟩ hdone hraw hreader.1 (.inr hscript)⟩
  · rename_i b filled rest hhalf
    exact .inl ⟨_, rfl, p, rs, h.take_read hhalf⟩

/-- Bytes that are ready go to the consumer. -/
theorem ReadingAt.hand_over (h : ReadingAt hc v reads delivered p rs s) (hplain : s.plaintext_out ≠ []) {n : Nat}
    (hn : 1 ≤ n) :
    Answers hc v reads delivered (.ready (s.plaintext_out.take n)) { s with plaintext_out := s.plaintext_out.drop n } where
  reading := by
    refine ⟨p, rs, ⟨⟨h.ready.keys, h.ready.secret, h.ready.send, h.ready.writer⟩, h.conforming, h.bytes, h.reader,
      h.records, h.script⟩, ?_⟩
    have howes := h.owes
    unfold Owes at howes ⊢
    split at howes
    · rename_i hstripped
      rw [if_pos hstripped, ← howes]
      simp [read_bytes]
    · exact absurd howes.2.1 hplain
  no_error e he := by cases he
  zero hz := by
    have hnil := Poll.ready.inj hz
    rw [List.take_eq_nil_iff] at hnil
    exact (hnil.elim (by omega) hplain).elim
  idle hidle := by cases hidle

theorem Waits.decode_one (h : Located hc v reads p rs s) (hwait : Waits hc p rs s) :
    s.decode_one c = some (.ok none, s) := by
  cases rs with
  | nil =>
    have hraw : s.read_raw = [] := (List.append_eq_nil_iff.1 h.bytes).1
    unfold RealityStream.decode_one
    rw [hraw]
  | cons r rs => exact decode_one_incomplete h.conforming.1 h.bytes (hwait r rs rfl)

/-- The next record is decoded. -/
theorem Located.decode_one {r : Tls13.Record} (h : Located hc v reads p (r :: rs) s)
    (hlen : (r.protect hc.suite p).length ≤ s.read_raw.length) :
    ∃ s', s.decode_one c = some (.ok (some (decoded r.content)), s') ∧
      Located hc v reads (p.after hc.suite r.content.rotates) rs s' ∧
      ∀ {delivered todo}, Owes v delivered todo s → Owes v delivered todo s' := by
  obtain ⟨hfits, hseq, -, hconf⟩ := h.conforming
  obtain ⟨rest, hraw, hrest⟩ : ∃ rest, s.read_raw = r.protect hc.suite p ++ rest ∧
      rest ++ s.read_half.flatMap read_bytes = Tls13.transmit hc.suite (p.after hc.suite r.content.rotates) rs := by
    have hpre := List.prefix_of_prefix_length_le (List.prefix_append _ _) ⟨_, h.bytes⟩ hlen
    obtain ⟨rest, hraw⟩ := hpre
    refine ⟨rest, hraw.symm, ?_⟩
    have hbytes := h.bytes
    rw [← hraw, List.append_assoc, Tls13.transmit] at hbytes
    exact List.append_cancel_left hbytes
  obtain ⟨s', hdec, hin, hready⟩ := h.ready.decode_one hfits hseq hraw
  refine ⟨s', hdec, ?_, fun howes => Owes.congr hin howes⟩
  simp only [inbound, Prod.mk.injEq] at hin
  obtain ⟨hhalf, hraw', -⟩ := hin
  refine ⟨hready, ?_, by rw [hhalf, hraw']; exact hrest, hhalf ▸ h.reader, (List.suffix_cons r rs).trans h.records,
    hhalf ▸ h.script⟩
  rw [Tls13.Position.after_seq]
  exact hconf

theorem Located.absorb_app (h : Located hc v reads p rs s) (content : Bytes) :
    Located hc v reads p rs (s.absorb_app content) := by
  obtain ⟨resp, staging, plaintext_out, heq⟩ := s.absorb_app_frame content
  rw [heq]
  exact ⟨⟨h.ready.keys, h.ready.secret, h.ready.send, h.ready.writer⟩, h.conforming, h.bytes, h.reader, h.records, h.script⟩

theorem ReadingAt.read_step (h : ReadingAt hc v reads delivered p rs s) {n : Nat} (hn : 1 ≤ n) :
    (∃ s', s.read_step c n = some (none, s') ∧ Reading hc v reads delivered s') ∨
      ∃ r s', s.read_step c n = some (some r, s') ∧ Answers hc v reads delivered r s' := by
  unfold RealityStream.read_step
  by_cases hplain : s.plaintext_out = []
  swap
  · rw [if_pos (by simpa using hplain)]
    have hpos := List.length_pos_iff.2 hplain
    exact .inr ⟨_, _, rfl, h.hand_over hplain (by omega)⟩
  rw [if_neg (by simpa using hplain)]
  by_cases hwait : Waits hc p rs s
  · rw [hwait.decode_one h.toLocated]
    simpa only [Option.some.injEq] using h.read_more hplain hwait
  simp only [Waits, not_forall, Nat.not_lt] at hwait
  obtain ⟨r, rs', rfl, hlen⟩ := hwait
  obtain ⟨s', hdec, hloc, howes⟩ := h.toLocated.decode_one hlen
  have hown := howes h.owes
  rw [hdec]
  obtain ⟨content, padding⟩ := r
  cases content with
  | data b => exact .inl ⟨_, rfl, _, _, hloc.absorb_app b, hown.absorb_app⟩
  | post tickets update => exact .inl ⟨_, rfl, _, _, hloc, hown⟩
  | close =>
    obtain rfl : rs' = [] := h.conforming.2.2.1 rfl
    obtain ⟨hraw, hmore⟩ := List.append_eq_nil_iff.1 hloc.bytes
    have hdone : delivered = v.payload := Owes.delivered h.owes hplain
    exact .inr ⟨_, _, rfl, .ended ⟨_, _, hloc, hown⟩ hdone hraw hmore
      (.inl ⟨_, h.records.subset List.mem_cons_self, rfl⟩)⟩

theorem Reading.read_turn (h : Reading hc v reads delivered s) {n : Nat} (hn : 1 ≤ n) :
    (∃ s', s.read_turn c n = some (none, s') ∧ Reading hc v reads delivered s') ∨
      ∃ r s', s.read_turn c n = some (some r, s') ∧ Answers hc v reads delivered r s' := by
  obtain ⟨p, rs, h⟩ := h
  obtain ⟨hok, hflushed⟩ := h.flushed
  unfold RealityStream.read_turn
  split
  · rename_i e s₁ hs
    exact absurd (congrArg Prod.fst hs) (hok e)
  · rename_i hs
    rw [hs] at hflushed
    exact hflushed.read_step hn

theorem Reading.poll_read (h : Reading hc v reads delivered s) {n : Nat} (hn : 1 ≤ n) :
    ∃ r s', s.poll_read c n = some (r, s') ∧ Answers hc v reads delivered r s' :=
  poll_read_loop c (fun _ hs => hs.read_turn hn) h

/-! ## Progress -/

/-- A round reads nothing, or it takes the next read; only then it can wait. -/
theorem read_step_read_half {s s' : RealityStream} {n : Nat} {r : Option (Poll Bytes)}
    (h : s.read_step c n = some (r, s')) :
    (s'.read_half = s.read_half ∧ r ≠ some .pending) ∨ s'.read_half = s.read_half.tail := by
  unfold RealityStream.read_step at h
  split at h
  · obtain ⟨rfl, rfl⟩ := Prod.mk.inj (Option.some.inj h)
    exact .inl ⟨rfl, by simp⟩
  · split at h
    · cases h
    · rename_i hd
      obtain ⟨rfl, rfl⟩ := Prod.mk.inj (Option.some.inj h)
      exact .inl ⟨decode_one_read_half hd, by simp⟩
    · rename_i content s₁ hd
      obtain ⟨rfl, rfl⟩ := Prod.mk.inj (Option.some.inj h)
      obtain ⟨resp, staging, plaintext_out, heq⟩ := s₁.absorb_app_frame content
      have hhalf := decode_one_read_half hd
      rw [heq]
      exact .inl ⟨hhalf, by simp⟩
    · rename_i hd
      obtain ⟨rfl, rfl⟩ := Prod.mk.inj (Option.some.inj h)
      exact .inl ⟨decode_one_read_half hd, by simp⟩
    · rename_i hd
      obtain ⟨rfl, rfl⟩ := Prod.mk.inj (Option.some.inj h)
      exact .inl ⟨decode_one_read_half hd, by simp⟩
    · rename_i s₁ hd
      have hmore := congrArg RealityStream.read_half (read_more_snd s₁)
      rw [Option.some.inj h] at hmore
      exact .inr (hmore.trans (congrArg List.tail (decode_one_read_half hd)))

theorem read_turn_read_half {s s' : RealityStream} {n : Nat} {r : Option (Poll Bytes)}
    (h : s.read_turn c n = some (r, s')) :
    (s'.read_half = s.read_half ∧ r ≠ some .pending) ∨ s'.read_half = s.read_half.tail := by
  have hflush : s.flushed.2.read_half = s.read_half := congrArg Prod.fst s.flushed_inbound
  unfold RealityStream.read_turn at h
  split at h
  · rename_i hs
    rw [hs] at hflush
    obtain ⟨rfl, rfl⟩ := Prod.mk.inj (Option.some.inj h)
    exact .inl ⟨hflush, by simp⟩
  · rename_i hs
    rw [hs] at hflush
    rw [← hflush]
    exact read_step_read_half h

theorem poll_read_read_half {s s' : RealityStream} {n : Nat} {r : Poll Bytes} (h : s.poll_read c n = some (r, s')) :
    s'.read_half.length ≤ s.read_half.length ∧ (r = .pending → s'.read_half.length ≤ s.read_half.length - 1) := by
  fun_induction RealityStream.poll_read c s n with
  | case1 => cases h
  | case2 s r₁ s₁ hturn =>
    obtain ⟨rfl, rfl⟩ := Prod.mk.inj (Option.some.inj h)
    rcases read_turn_read_half hturn with ⟨hhalf, hr⟩ | hhalf
    · exact ⟨by rw [hhalf], fun hp => (hr (congrArg some hp)).elim⟩
    · rw [hhalf, List.length_tail]
      exact ⟨Nat.sub_le _ _, fun _ => le_rfl⟩
  | case3 s s₁ hturn ih =>
    obtain ⟨hle, hpend⟩ := ih h
    have hturn_le : s₁.read_half.length ≤ s.read_half.length := by
      rcases read_turn_read_half hturn with ⟨hhalf, -⟩ | hhalf
      · rw [hhalf]
      · rw [hhalf, List.length_tail]
        exact Nat.sub_le _ _
    exact ⟨hle.trans hturn_le, fun hp => (hpend hp).trans (Nat.sub_le_sub_right hturn_le 1)⟩

/-! ## Runs -/

/-- What was delivered is the beginning of the payload. -/
theorem Reading.payload_begins (h : Reading hc v reads delivered s) : delivered <+: v.payload := by
  obtain ⟨p, rs, h⟩ := h
  have howes := h.owes
  unfold Owes at howes
  split at howes
  · rw [List.append_assoc] at howes
    exact ⟨_, howes⟩
  · rw [howes.1]
    exact List.nil_prefix

/-- A call delivers something or uses up a read, until the payload is there. -/
theorem Answers.progress {s s' : RealityStream} {n : Nat} {r : Poll Bytes} (h : Answers hc v reads delivered r s')
    (hr : s.poll_read c n = some (r, s')) (hne : delivered ≠ v.payload) :
    v.payload.length - (delivered ++ read_bytes r).length + s'.read_half.length + 1 ≤
      v.payload.length - delivered.length + s.read_half.length := by
  have hle := h.reading.payload_begins.length_le
  obtain ⟨hhalf, hpend⟩ := poll_read_read_half hr
  rw [List.length_append] at hle ⊢
  cases r with
  | error e => exact (h.no_error e rfl).elim
  | ready b =>
    have hb : b ≠ [] := fun hb => hne (h.zero (congrArg Poll.ready hb)).1
    have hpos := List.length_pos_iff.2 hb
    simp only [read_bytes] at hle ⊢
    omega
  | pending =>
    have hpos : s'.read_half ≠ [] := fun hnil => hne (h.idle rfl hnil)
    have := List.length_pos_iff.2 hpos
    have := hpend rfl
    omega

theorem Reading.run {sizes : List Nat} (h : Reading hc v reads delivered s) (hsizes : ∀ n ∈ sizes, 1 ≤ n) :
    ∃ os s', s.run c (sizes.map .read) = some (os, s') ∧
      Reading hc v reads (delivered ++ os.flatMap Outcome.delivered) s' ∧
      (delivered ++ os.flatMap Outcome.delivered = v.payload ∨
        v.payload.length - (delivered ++ os.flatMap Outcome.delivered).length + s'.read_half.length + sizes.length ≤
          v.payload.length - delivered.length + s.read_half.length) := by
  induction sizes generalizing s delivered with
  | nil => exact ⟨[], s, rfl, by simpa using h, .inr (by simp)⟩
  | cons n sizes ih =>
    obtain ⟨r, s₁, hread, hans⟩ := h.poll_read (hsizes n List.mem_cons_self)
    obtain ⟨os, s₂, hrun, hreading, hdone⟩ := ih hans.reading fun m hm => hsizes m (List.mem_cons_of_mem _ hm)
    have happend : delivered ++ (Outcome.read r :: os).flatMap Outcome.delivered =
        delivered ++ read_bytes r ++ os.flatMap Outcome.delivered := by simp [Outcome.delivered]
    refine ⟨.read r :: os, s₂, ?_, ?_, ?_⟩
    · simp only [List.map_cons, RealityStream.run, call, hread, Option.map_some, Option.bind_eq_bind, Option.bind_some, hrun,
        Option.pure_def]
    · rw [happend]
      exact hreading
    · rw [happend]
      by_cases hpay : delivered = v.payload
      · have hle : v.payload.length ≤ (delivered ++ read_bytes r ++ os.flatMap Outcome.delivered).length := by
          rw [List.append_assoc, List.length_append, hpay]
          omega
        exact .inl (hreading.payload_begins.eq_of_length_le hle)
      · have hstep := hans.progress hread hpay
        rw [List.length_cons]
        exact hdone.imp_right fun hdone => by omega

/-- A stream that was just opened, with the first bytes of the server in `leftover`. -/
theorem Reading.new {writes : List (Poll Nat)} {send_keys : RecordKeys} {leftover : Bytes} {s_ap c_ap : Block 32}
    (hsend : send_keys.seq + 1 < 2 ^ 64) (hwriter : WriterOk writes) (hreader : ReaderOk reads)
    (hbytes : leftover ++ reads.flatMap read_bytes = Tls13.transmit hc.suite { secret := s_ap, seq := 0 } v.records) :
    Reading hc v reads []
      (RealityStream.new reads writes (record_keys_from_secret c s_ap) send_keys leftover s_ap c_ap) := by
  refine ⟨_, _, ⟨⟨rfl, rfl, hsend, hwriter⟩, v.conforming, hbytes, hreader, List.suffix_rfl, List.suffix_rfl⟩, ?_⟩
  refine ⟨rfl, rfl, v.data, ?_⟩
  obtain ⟨version, addons_len, addons, hheader, -⟩ := v.isHeader
  rw [hheader]
  exact Nat.succ_pos _

/-- However the bytes of a conforming server are cut into reads, the first of them
in `leftover`, and however large the buffers of the calls are: the calls deliver
the payload in order, all of it after enough calls, and none fails. A call that
returns no bytes is at the end, with every byte of the server decoded, and what it
has seen is close_notify or the end of the connection. -/
theorem read_path_exact (hc : c.Lawful) (v : Response) {reads : List (Poll Bytes)} {writes : List (Poll Nat)}
    {send_keys : RecordKeys} {leftover : Bytes} {s_ap c_ap : Block 32}
    (hbytes : leftover ++ reads.flatMap read_bytes = Tls13.transmit hc.suite { secret := s_ap, seq := 0 } v.records)
    (hreader : ReaderOk reads) (hwriter : WriterOk writes) (hsend : send_keys.seq + 1 < 2 ^ 64) {sizes : List Nat}
    (hsizes : ∀ n ∈ sizes, 1 ≤ n) :
    ∃ os s, (RealityStream.new reads writes (record_keys_from_secret c s_ap) send_keys leftover s_ap c_ap).run c
        (sizes.map .read) = some (os, s) ∧
      os.flatMap Outcome.delivered <+: v.payload ∧
      (v.payload.length + reads.length ≤ sizes.length → os.flatMap Outcome.delivered = v.payload) ∧
      ∀ n, 1 ≤ n → ∃ r s', s.poll_read c n = some (r, s') ∧ (∀ e, r ≠ .error e) ∧
        (r = .ready [] → os.flatMap Outcome.delivered = v.payload ∧ s'.read_raw = [] ∧
          s'.read_half.flatMap read_bytes = [] ∧
          ((∃ x ∈ v.records, x.content = .close) ∨ .ready [] :: s'.read_half <:+ reads)) := by
  have hnew : Reading hc v reads []
      (RealityStream.new reads writes (record_keys_from_secret c s_ap) send_keys leftover s_ap c_ap) :=
    .new hsend hwriter hreader hbytes
  obtain ⟨os, s, hrun, hreading, hdone⟩ := hnew.run hsizes
  rw [List.nil_append] at hreading hdone
  refine ⟨os, s, hrun, hreading.payload_begins, fun hlen => ?_, fun n hn => ?_⟩
  · rcases hdone with hdone | hle
    · exact hdone
    · simp only [List.length_nil, RealityStream.new] at hle
      exact hreading.payload_begins.eq_of_length_le (by omega)
  · obtain ⟨r, s', hread, hans⟩ := hreading.poll_read hn
    exact ⟨r, s', hread, hans.no_error, hans.zero⟩

end

end RealityStream

namespace Sample

/-- The records of the session and what they carry. -/
def response : RealityStream.Response where
  records := [⟨.data [0x00, 0x01, 0xaa, 0x68], 2⟩, ⟨.post [ticket] (some true), 0⟩, ⟨.data [0x69], 0⟩, ⟨.close, 0⟩]
  header := [0x00, 0x01, 0xaa]
  payload := [0x68, 0x69]
  conforming := by decide
  isHeader := ⟨0x00, 0x01, [0xaa], rfl, rfl⟩
  data := rfl

/-- The reads after the first seven bytes; the KeyUpdate is cut in two. -/
def reads : List (Poll Bytes) :=
  [.ready (wire₁.drop 7 ++ wire₂.take 20), .pending, .ready (wire₂.drop 20), .ready (wire₃ ++ wire₄)]

end Sample

theorem read_path_exact_session :
    ∃ os s, (RealityStream.new Sample.reads [.ready 3, .pending]
        (record_keys_from_secret Sample.stream_crypto Sample.s_ap) (keys_at Sample.stream_crypto ⟨Sample.c_ap, 1⟩)
        (Sample.wire₁.take 7) Sample.s_ap Sample.c_ap).run Sample.stream_crypto
        ([1, 8, 1, 8, 1, 8].map .read) = some (os, s) ∧
      os.flatMap RealityStream.Outcome.delivered = [0x68, 0x69] := by
  have hbytes : Sample.wire₁.take 7 ++ Sample.reads.flatMap RealityStream.read_bytes =
      Tls13.transmit Sample.lawful.suite { secret := Sample.s_ap, seq := 0 } Sample.response.records := by decide +kernel
  have hreader : RealityStream.ReaderOk Sample.reads := by decide +kernel
  have hwriter : RealityStream.WriterOk [.ready 3, .pending] := by simp [RealityStream.WriterOk]
  have hsend : (keys_at Sample.stream_crypto ⟨Sample.c_ap, 1⟩).seq + 1 < 2 ^ 64 := by
    show 1 + 1 < 2 ^ 64
    decide
  have hsizes : ∀ n ∈ [1, 8, 1, 8, 1, 8], 1 ≤ n := by decide
  obtain ⟨os, s, hrun, -, hdone, -⟩ :=
    RealityStream.read_path_exact Sample.lawful Sample.response hbytes hreader hwriter hsend hsizes
  exact ⟨os, s, hrun, hdone (by decide)⟩

end Reality

end MiniVpn
