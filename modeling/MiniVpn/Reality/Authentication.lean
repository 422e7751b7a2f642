import MiniVpn.Reality.Handshake
/-!
# A completed handshake is an authenticated one

The server chooses every byte: how the records are cut, how messages are spread
over them, what stands between them. The flight loop carries one invariant
through all of it, `FlightOk`: the transcript is what was agreed before the
flight and the messages so far, and the flag is set by verified certificates
only. `Authenticated` is what `drive` has established when it returns.
-/
open Lib

namespace MiniVpn

namespace Reality

/-! ## Records and messages -/

/-- A record as it stands on the wire. -/
structure OuterRecord where
  content_type : UInt8
  version : UInt8 × UInt8
  payload : Bytes

namespace OuterRecord

def header (r : OuterRecord) : Bytes := [r.content_type, r.version.1, r.version.2] ++ Wire.be 2 r.payload.length

def bytes (r : OuterRecord) : Bytes := r.header ++ r.payload

end OuterRecord

theorem RecordReader.next_record {r r' : RecordReader} {reads reads' : Reads} {ct : UInt8} {hdr payload : Bytes}
    (h : r.next reads = .ok ((ct, hdr, payload), r', reads')) :
    ∃ rec : OuterRecord, rec.content_type = ct ∧ rec.header = hdr ∧ rec.payload = payload ∧
      Consumed r.buf reads rec.bytes r'.buf reads' := by
  obtain ⟨⟨v₁, v₀, rfl⟩, hc⟩ := next_consumed h
  exact ⟨⟨ct, (v₁, v₀), payload⟩, rfl, rfl, rfl, hc⟩

/-- The handshake bytes that the protected records of a flight carry, opened in
order under consecutive sequence numbers. ChangeCipherSpec records stand in
between and use none. -/
inductive Decrypts (c : Crypto) : RecordKeys → List OuterRecord → Bytes → Prop
  | nil {keys : RecordKeys} : Decrypts c keys [] []
  | ccs {keys : RecordKeys} {r : OuterRecord} {rs : List OuterRecord} {content : Bytes} :
      r.content_type = 0x14 → Decrypts c keys rs content → Decrypts c keys (r :: rs) content
  | handshake {keys keys' : RecordKeys} {r : OuterRecord} {rs : List OuterRecord} {content rest : Bytes} :
      r.content_type = 0x17 → keys.open_record c r.header r.payload = some (.ok (0x16, content), keys') →
      Decrypts c keys' rs rest → Decrypts c keys (r :: rs) (content ++ rest)

def IsMessage (msg : Bytes) : Prop := ∃ typ body, msg = typ :: Wire.be 3 body.length ++ body

/-- Cutting loses nothing and cuts whole messages only. -/
theorem cut_messages_spec (buf : Bytes) :
    (∀ m ∈ (cut_messages buf).1, IsMessage m) ∧ (cut_messages buf).1.flatten ++ (cut_messages buf).2 = buf := by
  fun_induction cut_messages buf with
  | case1 typ l₂ l₁ l₀ rest len hlt => simp
  | case2 typ l₂ l₁ l₀ rest len hge out buf heq ih =>
    rw [heq] at ih
    refine ⟨?_, ?_⟩
    · intro m hm
      rcases List.mem_cons.1 hm with rfl | hm
      · refine ⟨typ, rest.take len, ?_⟩
        have hlen : (rest.take len).length = len := by rw [List.length_take]; omega
        rw [hlen, show Wire.be 3 len = [l₂, l₁, l₀] from Wire.be_ofBe [l₂, l₁, l₀]]
        rfl
      · exact ih.1 m hm
    · rw [List.flatten_cons, List.append_assoc, ih.2]
      simp
  | case3 buf => simp

/-! ## The flight -/

section
variable {c : Crypto} {verify_cert : Bytes → Except Stop Unit} {s_hs_secret : Block 32} {start : Bytes}

/-- The state of the loop after the messages `msgs`. -/
structure FlightOk (verify_cert : Bytes → Except Stop Unit) (start : Bytes) (msgs : List Bytes) (f : Flight) : Prop where
  transcript : f.transcript = start ++ msgs.flatten
  certified : f.cert_verified = true → ∃ m ∈ msgs, m.head? = some 0x0b
  verified : ∀ m ∈ msgs, m.head? = some 0x0b → verify_cert m = .ok ()

/-- A Finished message that the flight before it authenticates. -/
structure Accepted (c : Crypto) (verify_cert : Bytes → Except Stop Unit) (s_hs_secret : Block 32) (start : Bytes)
    (flight : List Bytes) (fin : Bytes) : Prop where
  certified : ∃ m ∈ flight, m.head? = some 0x0b
  verified : ∀ m ∈ flight, m.head? = some 0x0b → verify_cert m = .ok ()
  finished : fin.head? = some 0x14
  mac : fin.drop 4 =
    (compute_finished_verify_data c s_hs_secret (transcript_hash c [start ++ flight.flatten])).1

theorem FlightOk.fold {msgs : List Bytes} {f : Flight} (h : FlightOk verify_cert start msgs f) (msg : Bytes) :
    f.transcript ++ msg = start ++ (msgs ++ [msg]).flatten := by
  rw [h.transcript, List.flatten_append, List.append_assoc]
  simp

/-- A certificate that passes, or a message that is none. -/
theorem FlightOk.snoc {msgs : List Bytes} {f : Flight} (h : FlightOk verify_cert start msgs f) {msg : Bytes} {cv : Bool}
    (hcert : msg.head? = some 0x0b → verify_cert msg = .ok ())
    (hcv : cv = true → msg.head? = some 0x0b ∨ f.cert_verified = true) :
    FlightOk verify_cert start (msgs ++ [msg]) { transcript := f.transcript ++ msg, cert_verified := cv } := by
  refine ⟨h.fold msg, fun hc => ?_, fun m hm => ?_⟩
  · rcases hcv hc with hb | hc
    · exact ⟨msg, by simp, hb⟩
    · obtain ⟨m, hin, hm⟩ := h.certified hc
      exact ⟨m, List.mem_append_left _ hin, hm⟩
  · rcases List.mem_append.1 hm with hm | hm
    · exact h.verified m hm
    · rw [List.mem_singleton] at hm
      exact hm ▸ hcert

/-- A message is folded into the transcript; the one that ends the loop is an
accepted Finished message. -/
theorem FlightOk.on_message {msgs : List Bytes} {f f' : Flight} {msg : Bytes} {done : Bool}
    (h : FlightOk verify_cert start msgs f) (hm : on_message c verify_cert s_hs_secret f msg = .ok (done, f')) :
    f'.transcript = start ++ (msgs ++ [msg]).flatten ∧
    (done = true → Accepted c verify_cert s_hs_secret start msgs msg) ∧
    (done = false → FlightOk verify_cert start (msgs ++ [msg]) f') := by
  unfold Reality.on_message at hm
  split at hm
  · cases hm
  · obtain ⟨rfl, rfl⟩ : false = done ∧ _ = f' := by simpa using hm
    exact ⟨h.fold _, by simp, fun _ => h.snoc (by simp) .inr⟩
  · rename_i rest
    obtain ⟨⟨⟩, hcert, hm⟩ := bind_eq_ok.1 hm
    obtain ⟨rfl, rfl⟩ : false = done ∧ _ = f' := by simpa [pure, Except.pure] using hm
    exact ⟨h.fold _, by simp, fun _ => h.snoc (fun _ => hcert) fun _ => .inl rfl⟩
  · obtain ⟨rfl, rfl⟩ : false = done ∧ _ = f' := by simpa using hm
    exact ⟨h.fold _, by simp, fun _ => h.snoc (by simp) .inr⟩
  · split at hm
    · cases hm
    · rename_i hcv
      dsimp only at hm
      split at hm
      · cases hm
      · split at hm
        · cases hm
        · rename_i hmac
          obtain ⟨rfl, rfl⟩ : true = done ∧ _ = f' := by simpa using hm
          refine ⟨h.fold _, fun _ => ⟨h.certified (by simpa using hcv), h.verified, rfl, ?_⟩, by simp⟩
          rw [← h.transcript]
          exact Classical.not_not.1 hmac
  · cases hm

theorem FlightOk.on_messages {msgs new : List Bytes} {f f' : Flight} {done : Bool}
    (h : FlightOk verify_cert start msgs f) (hm : on_messages c verify_cert s_hs_secret f new = .ok (done, f')) :
    (done = false → FlightOk verify_cert start (msgs ++ new) f') ∧
    (done = true → ∃ mid fin rest, new = mid ++ fin :: rest ∧ Accepted c verify_cert s_hs_secret start (msgs ++ mid) fin ∧
      f'.transcript = start ++ (msgs ++ mid ++ [fin]).flatten) := by
  induction new generalizing msgs f with
  | nil =>
    obtain ⟨rfl, rfl⟩ : false = done ∧ f = f' := by simpa [Reality.on_messages] using hm
    exact ⟨fun _ => by simpa using h, by simp⟩
  | cons msg new ih =>
    obtain ⟨⟨d, f₁⟩, h₁, hm⟩ := bind_eq_ok.1 hm
    obtain ⟨htr, hacc, hok⟩ := h.on_message h₁
    cases d with
    | true =>
      obtain ⟨rfl, rfl⟩ : true = done ∧ f₁ = f' := by simpa [pure, Except.pure] using hm
      exact ⟨by simp, fun _ => ⟨[], msg, new, rfl, by simpa using hacc rfl, by simpa using htr⟩⟩
    | false =>
      obtain ⟨hcont, hend⟩ := ih (hok rfl) hm
      refine ⟨fun hd => by simpa using hcont hd, fun hd => ?_⟩
      obtain ⟨mid, fin, rest, rfl, hfin, htr'⟩ := hend hd
      exact ⟨msg :: mid, fin, rest, rfl, by simpa using hfin, by simpa using htr'⟩

/-- A record adds its content to what the reassembler holds; the messages cut off
are processed up to the Finished message. -/
theorem FlightOk.on_record {recv recv' : RecordKeys} {reasm reasm' : HandshakeReassembler} {f f' : Flight} {done : Bool}
    {msgs : List Bytes} {r : OuterRecord} (h : FlightOk verify_cert start msgs f)
    (hr : on_record c verify_cert s_hs_secret recv reasm f r.content_type r.header r.payload =
      .ok (done, recv', reasm', f')) :
    ∃ content, (∀ rs rest, Decrypts c recv' rs rest → Decrypts c recv (r :: rs) (content ++ rest)) ∧
      (done = false → ∃ new, (∀ m ∈ new, IsMessage m) ∧ FlightOk verify_cert start (msgs ++ new) f' ∧
        reasm.buf ++ content = new.flatten ++ reasm'.buf) ∧
      (done = true → ∃ mid fin trailing, (∀ m ∈ mid ++ [fin], IsMessage m) ∧
        Accepted c verify_cert s_hs_secret start (msgs ++ mid) fin ∧
        f'.transcript = start ++ (msgs ++ mid ++ [fin]).flatten ∧
        reasm.buf ++ content = (mid ++ [fin]).flatten ++ trailing) := by
  unfold Reality.on_record at hr
  split at hr
  · rename_i hccs
    simp only [Except.ok.injEq, Prod.mk.injEq] at hr
    obtain ⟨rfl, rfl, rfl, rfl⟩ := hr
    exact ⟨[], fun _ _ hd => .ccs hccs hd, fun _ => ⟨[], by simp, by simpa using h, by simp⟩, by simp⟩
  · split at hr
    · rename_i hdata
      split at hr
      · cases hr
      · cases hr
      · rename_i inner_type content recv₁ hopen
        split at hr
        · cases hr
        · rename_i hinner
          obtain rfl := Classical.not_not.1 hinner
          obtain ⟨hmsgs, hcut⟩ := cut_messages_spec (reasm.buf ++ content)
          simp only [HandshakeReassembler.push] at hr
          obtain ⟨⟨d, f₁⟩, hmsg, hr⟩ := bind_eq_ok.1 hr
          simp only [pure, Except.pure, Except.ok.injEq, Prod.mk.injEq] at hr
          obtain ⟨rfl, rfl, rfl, rfl⟩ := hr
          obtain ⟨hcont, hend⟩ := h.on_messages hmsg
          refine ⟨content, fun _ _ hd => .handshake hdata hopen hd, fun hd => ⟨_, hmsgs, hcont hd, hcut.symm⟩,
            fun hd => ?_⟩
          obtain ⟨mid, fin, rest, heq, hfin, htr⟩ := hend hd
          rw [heq] at hmsgs hcut
          refine ⟨mid, fin, rest.flatten ++ (cut_messages (reasm.buf ++ content)).2, fun m hm => hmsgs m ?_, hfin, htr, ?_⟩
          · rw [List.append_cons]
            exact List.mem_append_left _ hm
          · refine hcut.symm.trans ?_
            simp
    · cases hr

/-- The whole loop: the records it consumed decrypt to the messages it processed,
and the last of them is accepted. -/
theorem FlightOk.flight_loop {recv : RecordKeys} {reasm : HandshakeReassembler} {f f' : Flight}
    {reader reader' : RecordReader} {reads reads' : Reads} {msgs : List Bytes}
    (h : FlightOk verify_cert start msgs f) (hmsgs : ∀ m ∈ msgs, IsMessage m)
    (hl : flight_loop c verify_cert s_hs_secret recv reasm f reader reads = .ok (f', reader', reads')) :
    ∃ recs content flight fin trailing, Consumed reader.buf reads (recs.flatMap OuterRecord.bytes) reader'.buf reads' ∧
      Decrypts c recv recs content ∧ msgs.flatten ++ reasm.buf ++ content = (flight ++ [fin]).flatten ++ trailing ∧
      (∀ m ∈ flight ++ [fin], IsMessage m) ∧ Accepted c verify_cert s_hs_secret start flight fin ∧
      f'.transcript = start ++ (flight ++ [fin]).flatten := by
  fun_induction Reality.flight_loop c verify_cert s_hs_secret recv reasm f reader reads generalizing msgs with
  | case1 => cases hl
  | case2 => cases hl
  | case3 recv reasm f reader reads ct hdr payload reader₁ reads₁ hnext recv₁ reasm₁ f₁ hrec =>
    simp only [Except.ok.injEq, Prod.mk.injEq] at hl
    obtain ⟨rfl, rfl, rfl⟩ := hl
    obtain ⟨r, rfl, rfl, rfl, hcons⟩ := RecordReader.next_record hnext
    obtain ⟨content, hdec, -, hend⟩ := h.on_record hrec
    obtain ⟨mid, fin, trailing, hmid, hfin, htr, hcut⟩ := hend rfl
    refine ⟨[r], content, msgs ++ mid, fin, trailing, by simpa using hcons, by simpa using hdec _ _ .nil, ?_, ?_, hfin, htr⟩
    · rw [List.append_assoc, hcut]
      simp
    · intro m hm
      rw [List.append_assoc] at hm
      rcases List.mem_append.1 hm with hm | hm
      · exact hmsgs m hm
      · exact hmid m hm
  | case4 recv reasm f reader reads ct hdr payload reader₁ reads₁ hnext recv₁ reasm₁ f₁ hrec ih =>
    obtain ⟨r, rfl, rfl, rfl, hcons⟩ := RecordReader.next_record hnext
    obtain ⟨content, hdec, hcont, -⟩ := h.on_record hrec
    obtain ⟨new, hnew, hok, hcut⟩ := hcont rfl
    have hall : ∀ m ∈ msgs ++ new, IsMessage m := by
      intro m hm
      rcases List.mem_append.1 hm with hm | hm
      · exact hmsgs m hm
      · exact hnew m hm
    obtain ⟨recs, rest, flight, fin, trailing, hcons', hdec', hbytes, hmsgs', hfin, htr⟩ := ih hok hall hl
    refine ⟨r :: recs, content ++ rest, flight, fin, trailing, ?_, hdec _ _ hdec', ?_, hmsgs', hfin, htr⟩
    · rw [List.flatMap_cons]
      exact hcons.trans hcons'
    · rw [← hbytes, List.flatten_append, ← List.append_assoc, List.append_assoc _ reasm.buf, hcut]
      simp

end

/-! ## The driver -/

/-- The server's side of a handshake: its first record and what it says, the
records after it, the messages in them up to the Finished message, and the
handshake bytes behind that. -/
structure ServerFlight where
  first : OuterRecord
  sh : ServerHello.ParsedServerHello
  records : List OuterRecord
  flight : List Bytes
  fin : Bytes
  trailing : Bytes

namespace ServerFlight
variable (c : Crypto) (input : HandshakeInput) (w : ServerFlight)

def hellos : Bytes := input.client_hello ++ w.first.payload

/-- The transcript up to and with the server's Finished message. -/
def transcript : Bytes := w.hellos input ++ (w.flight ++ [w.fin]).flatten

def ecdhe : Block 32 := c.x25519 input.client_eph_secret w.sh.server_key_share

def hs : HsKeys := handshake_keys c (w.ecdhe c input) input.client_hello w.first.payload

end ServerFlight

/-- What the client writes before the server's flight. -/
def client_opening (input : HandshakeInput) : Bytes :=
  (0x16 :: Wire.be 2 0x0301 ++ Wire.be 2 input.client_hello.length ++ input.client_hello) ++
    [0x14, 0x03, 0x03, 0x00, 0x01, 0x01]

/-- What a completed handshake has established. -/
structure Authenticated (c : Crypto) (s : Conn) (input : HandshakeInput) (verify_cert : Bytes → Except Stop Unit)
    (out : HandshakeOutput) (s' : Conn) (w : ServerFlight) : Prop where
  consumed : Consumed [] s.reads (w.first.bytes ++ w.records.flatMap OuterRecord.bytes) out.leftover s'.reads
  first_handshake : w.first.content_type = 0x16
  server_hello : ServerHello.parse_server_hello w.first.payload input.expected_session_id = .ok w.sh
  ecdhe_ne_zero : w.ecdhe c input ≠ Block.zero 32
  decrypts : Decrypts c (.new (w.hs c input).server_key (w.hs c input).server_iv) w.records
    ((w.flight ++ [w.fin]).flatten ++ w.trailing)
  messages : ∀ m ∈ w.flight ++ [w.fin], IsMessage m
  accepted : Accepted c verify_cert (w.hs c input).s_hs_secret (w.hellos input) w.flight w.fin
  client_finished : ∃ record keys,
    (RecordKeys.new (w.hs c input).client_key (w.hs c input).client_iv).seal_record c 0x16 (finished_message
      (compute_finished_verify_data c (w.hs c input).c_hs_secret (transcript_hash c [w.transcript input]))) =
        some (record, keys) ∧
    s'.written = s.written ++ client_opening input ++ record
  app_keys : ∃ app, app = derive_application_keys c (w.hs c input).handshake_secret (transcript_hash c [w.transcript input]) ∧
    out.s_ap_secret = app.s_ap_secret ∧ out.c_ap_secret = app.c_ap_secret ∧
    out.recv_keys = .new app.server_key app.server_iv ∧ out.send_keys = .new app.client_key app.client_iv

theorem Conn.attempt_ok {s s' : Conn} {ctx : String} (h : s.attempt ctx = .ok s') :
    s'.reads = s.reads ∧ s'.written = s.written := by
  unfold attempt at h
  split at h
  · cases h
  · obtain rfl := Except.ok.inj h
    exact ⟨rfl, rfl⟩
  · obtain rfl := Except.ok.inj h
    exact ⟨rfl, rfl⟩

theorem Conn.write_all_ok {s s' : Conn} {ctx : String} {data : Bytes} (h : s.write_all ctx data = .ok s') :
    s'.reads = s.reads ∧ s'.written = s.written ++ data := by
  obtain ⟨s₁, h₁, h⟩ := bind_eq_ok.1 h
  obtain ⟨hr, hw⟩ := attempt_ok h₁
  obtain rfl := Except.ok.inj h
  exact ⟨hr, by rw [← hw]⟩

theorem write_record_ok {s s' : Conn} {ct : UInt8} {version : Nat} {body : Bytes}
    (h : write_record s ct version body = .ok s') :
    s'.reads = s.reads ∧ s'.written = s.written ++ (ct :: Wire.be 2 version ++ Wire.be 2 body.length ++ body) := by
  unfold write_record at h
  split at h
  · cases h
  · exact Conn.write_all_ok h

theorem derive_handshake_keys_ok {c : Crypto} {ecdhe : Block 32} {ch sh : Bytes} {hs : HsKeys}
    (h : derive_handshake_keys c ecdhe ch sh = .ok hs) : ecdhe ≠ Block.zero 32 ∧ hs = handshake_keys c ecdhe ch sh := by
  unfold derive_handshake_keys at h
  split at h
  · cases h
  · exact ⟨‹_›, (Except.ok.inj h).symm⟩

/-- Whatever the server sends, a handshake that completes is authenticated. -/
theorem drive_authenticated {c : Crypto} {s s' : Conn} {input : HandshakeInput} {verify_cert : Bytes → Except Stop Unit}
    {out : HandshakeOutput} (h : drive c s input verify_cert = .ok (out, s')) :
    ∃ w, Authenticated c s input verify_cert out s' w := by
  unfold drive at h
  obtain ⟨s₁, h₁, h⟩ := bind_eq_ok.1 h
  obtain ⟨s₂, h₂, h⟩ := bind_eq_ok.1 h
  obtain ⟨s₃, h₃, h⟩ := bind_eq_ok.1 h
  obtain ⟨⟨⟨ct, hdr, sh_msg⟩, reader, reads⟩, hnext, h⟩ := bind_eq_ok.1 h
  obtain ⟨hr₁, hw₁⟩ := write_record_ok h₁
  obtain ⟨hr₂, hw₂⟩ := Conn.write_all_ok h₂
  obtain ⟨hr₃, hw₃⟩ := Conn.attempt_ok h₃
  obtain ⟨first, rfl, -, rfl, hfirst⟩ := RecordReader.next_record hnext
  dsimp only at h
  split at h
  · cases h
  · rename_i hct
    obtain ⟨sh, hsh, h⟩ := bind_eq_ok.1 h
    obtain ⟨hs, hhs, h⟩ := bind_eq_ok.1 h
    obtain ⟨⟨f, reader', reads'⟩, hloop, h⟩ := bind_eq_ok.1 h
    obtain ⟨hne, rfl⟩ := derive_handshake_keys_ok hhs
    have hstart : FlightOk verify_cert (input.client_hello ++ first.payload) []
        { transcript := input.client_hello ++ first.payload, cert_verified := false } :=
      ⟨by simp, by simp, by simp⟩
    obtain ⟨records, content, flight, fin, trailing, hrecs, hdec, hbytes, hmsgs, hacc, htr⟩ :=
      hstart.flight_loop (by simp) hloop
    dsimp only at h
    split at h
    · cases h
    · rename_i record keys hseal
      obtain ⟨s₄, h₄, h⟩ := bind_eq_ok.1 h
      obtain ⟨s₅, h₅, h⟩ := bind_eq_ok.1 h
      obtain ⟨hr₄, hw₄⟩ := Conn.write_all_ok h₄
      obtain ⟨hr₅, hw₅⟩ := Conn.attempt_ok h₅
      simp only [pure, Except.pure, Except.ok.injEq, Prod.mk.injEq] at h
      obtain ⟨rfl, rfl⟩ := h
      have hcons := hfirst.trans hrecs
      rw [hr₃, hr₂, hr₁] at hcons
      rw [htr] at hseal ⊢
      refine ⟨⟨first, sh, records, flight, fin, trailing⟩, ?_, Classical.not_not.1 hct, hsh, hne, ?_, hmsgs, hacc,
        ⟨record, keys, hseal, ?_⟩, ⟨_, rfl, rfl, rfl, rfl, rfl⟩⟩
      · rw [hr₅, hr₄]
        exact hcons
      · rw [← hbytes]
        exact hdec
      · rw [hw₅, hw₄, hw₃, hw₂, hw₁, client_opening]
        simp

/-! ## A completed handshake -/

namespace Sample

/-! A handshake with the key share of RFC 8448, a short ClientHello, and a flight
of EncryptedExtensions, an empty Certificate and Finished, cut into two records
inside the Certificate. The values are those of the real primitives. -/

def client_hello : Bytes := Wire.be 6 0x010000020303

def server_hello : Bytes :=
  Wire.be 45 0x020000560303a6af06a4121860dc5e6e60249cd34c95930c8ac5cb1434dac155772ed3e2692800130100002e00 ++
  Wire.be 45 0x330024001d0020c9828876112095fe66762bdbf7c672e156d6cc253b833df1dd69b1b04e751f0f002b00020304

def client_eph_secret : Block 32 := .ofNat 32 0x49af42ba7f7994852d713ef2784bcbcaa7911de26adc5642cb634540e7ea5005

def encrypted_extensions : Bytes := Wire.be 6 0x080000020000

def certificate : Bytes := Wire.be 8 0x0b00000400000000

def finished : Bytes := finished_message (.ofNat 32 0xffd238f65c68538cc74397bd7391325f6b0343611daaeca56a916961c0938359)

def flight : Bytes := encrypted_extensions ++ certificate ++ finished

def handshake_secret : Block 32 := .ofNat 32 0x1dc826e93606aa6fdc0aadc12f741b01046aa6b99f691ed221a9f0ca043fbeac
def c_hs : Block 32 := .ofNat 32 0x258057a5a962e1cc5de54f1a6f9a8321b129bd0fa50195b70520deb17fe56fc1
def s_hs : Block 32 := .ofNat 32 0x807847a8a6726df17e89cdce5ca46b4afbf1a5cc0b3180af053ed2cb26d36142
def client_key : Block 16 := .ofNat 16 0x57fc2553347e81213989652bd96b4574
def server_key : Block 16 := .ofNat 16 0x730450440945d6caa9fcad0e0aab5ae3
def client_iv : Block 12 := .ofNat 12 0xba0344e9eff300af3e85250a
def server_iv : Block 12 := .ofNat 12 0xdf9d54b024c30b4597e0adfe
def master : Block 32 := .ofNat 32 0x18df06843d13a08bf2a449844c5f8a478001bc4d4c627984d5a41da8d0402919
def c_ap : Block 32 := .ofNat 32 0x9d6b8ea6641e5161094fb115bd52ea6aa7533698d7ebdcc23d1fe9b020c1198b
def s_ap : Block 32 := .ofNat 32 0x522bedd3aaab87c16f902e9176135f2982407514673d181f24c89c8c279134c9
def th_empty : Block 32 := .ofNat 32 0xe3b0c44298fc1c149afbf4c8996fb92427ae41e4649b934ca495991b7852b855
def th_hellos : Block 32 := .ofNat 32 0x2c5581e8785d029ded65dda6e656011a4337727c49ccb89d70729fbffee109ef
def th_flight : Block 32 := .ofNat 32 0x31efa639bdb3154503a1e696a252854c9c21eee7f2214abcb5feb758bbd208fb
def th_finished : Block 32 := .ofNat 32 0x214950e94152395ab57bc53b6250ff6b23fb417da47816325676f3daef2e63cf
def early : Block 32 := .ofNat 32 0x33ad0a1c607ec03b09e6cd9893680ce210adf300aa1f2660e1b22e10f170f92a
def derived1 : Block 32 := .ofNat 32 0x6f2615a108c702c5678f54fc9dbab69716c076189c48250cebeac3576c3611ba
def derived2 : Block 32 := .ofNat 32 0x43de77e0c77713859a944db9db2590b53190a65b3ee2e4f12dd7a0bb7ce254b4
def c_verify : Block 32 := .ofNat 32 0x76eebfe3d229858f8a234e8b4aa8e252897e12e738a677c5ec4ac2cff53e4262

/-- The two records of the flight. -/
def ciphertext₁ : Bytes := Wire.be 26 0xb38dbf4574867175095d23d63d6a81147b31604702c9218294ee

def ciphertext₂ : Bytes :=
  Wire.be 29 0x2f1a77f78d2f4e996fdb34ea0e0598882c932c2210e636ef5481f2ed52 ++
  Wire.be 29 0x680fc42f9eb9561b38c1a1a708dd9948ababe3cd4fd61a72a91f9c8604

def client_ciphertext : Bytes :=
  Wire.be 27 0x623f559b8401951256c692a65ad7435833bb1a1238fa9878ee3755 ++
  Wire.be 26 0x167671475a1ed26958303314378e0c94a2d100e6416dba788dd9

def crypto : Crypto where
  sha256 := known 32 [([], 0xe3b0c44298fc1c149afbf4c8996fb92427ae41e4649b934ca495991b7852b855),
    (client_hello ++ server_hello, 0x2c5581e8785d029ded65dda6e656011a4337727c49ccb89d70729fbffee109ef),
    (client_hello ++ server_hello ++ encrypted_extensions ++ certificate,
      0x31efa639bdb3154503a1e696a252854c9c21eee7f2214abcb5feb758bbd208fb),
    (client_hello ++ server_hello ++ flight, 0x214950e94152395ab57bc53b6250ff6b23fb417da47816325676f3daef2e63cf)]
  hmac key msg := known 32 [
    ((Wire.be 32 0xdab03d7bad1f24cecd1a55b69e3a3facf1fa70447b3dbfe8b46cc9cf2db8cce1, th_flight.1),
      0xffd238f65c68538cc74397bd7391325f6b0343611daaeca56a916961c0938359),
    ((Wire.be 32 0xa55c83b3053cba2540045c55a8df0b97e5ce33d6ba54eb2eefe3b260bc87f5c6, th_finished.1),
      0x76eebfe3d229858f8a234e8b4aa8e252897e12e738a677c5ec4ac2cff53e4262)] (key, msg)
  hkdf_extract salt ikm := known 32 [
    (((Block.zero 32).1, (Block.zero 32).1), 0x33ad0a1c607ec03b09e6cd9893680ce210adf300aa1f2660e1b22e10f170f92a),
    ((derived1.1, Wire.be 32 0x8bd4054fb55b9d63fdfbacf9f04b9f0d35e6d63f537563efd46272900f89492d),
      0x1dc826e93606aa6fdc0aadc12f741b01046aa6b99f691ed221a9f0ca043fbeac),
    ((derived2.1, (Block.zero 32).1), 0x18df06843d13a08bf2a449844c5f8a478001bc4d4c627984d5a41da8d0402919)] (salt, ikm)
  hkdf_expand prk info n := known n [
    ((early, hkdf_label 32 "derived" th_empty.1), 0x6f2615a108c702c5678f54fc9dbab69716c076189c48250cebeac3576c3611ba),
    ((handshake_secret, hkdf_label 32 "c hs traffic" th_hellos.1),
      0x258057a5a962e1cc5de54f1a6f9a8321b129bd0fa50195b70520deb17fe56fc1),
    ((handshake_secret, hkdf_label 32 "s hs traffic" th_hellos.1),
      0x807847a8a6726df17e89cdce5ca46b4afbf1a5cc0b3180af053ed2cb26d36142),
    ((handshake_secret, hkdf_label 32 "derived" th_empty.1),
      0x43de77e0c77713859a944db9db2590b53190a65b3ee2e4f12dd7a0bb7ce254b4),
    ((c_hs, hkdf_label 16 "key" []), 0x57fc2553347e81213989652bd96b4574),
    ((s_hs, hkdf_label 16 "key" []), 0x730450440945d6caa9fcad0e0aab5ae3),
    ((c_hs, hkdf_label 12 "iv" []), 0xba0344e9eff300af3e85250a),
    ((s_hs, hkdf_label 12 "iv" []), 0xdf9d54b024c30b4597e0adfe),
    ((c_hs, hkdf_label 32 "finished" []), 0xa55c83b3053cba2540045c55a8df0b97e5ce33d6ba54eb2eefe3b260bc87f5c6),
    ((s_hs, hkdf_label 32 "finished" []), 0xdab03d7bad1f24cecd1a55b69e3a3facf1fa70447b3dbfe8b46cc9cf2db8cce1),
    ((master, hkdf_label 32 "c ap traffic" th_finished.1),
      0x9d6b8ea6641e5161094fb115bd52ea6aa7533698d7ebdcc23d1fe9b020c1198b),
    ((master, hkdf_label 32 "s ap traffic" th_finished.1),
      0x522bedd3aaab87c16f902e9176135f2982407514673d181f24c89c8c279134c9),
    ((c_ap, hkdf_label 16 "key" []), 0x51de76be5a457f1d0dd1df9a03363ee7),
    ((s_ap, hkdf_label 16 "key" []), 0xa524a457dedb6ab8e38010496464edfa),
    ((c_ap, hkdf_label 12 "iv" []), 0x50042303589170ed279eaa01),
    ((s_ap, hkdf_label 12 "iv" []), 0x8fec7a7fa18946a9a9e81d8b)] (prk, info)
  x25519 scalar point := known 32 [
    ((client_eph_secret, .ofNat 32 0xc9828876112095fe66762bdbf7c672e156d6cc253b833df1dd69b1b04e751f0f),
      0x8bd4054fb55b9d63fdfbacf9f04b9f0d35e6d63f537563efd46272900f89492d)] (scalar, point)
  encrypt key nonce aad msg :=
    if (key, nonce, aad, msg) = (client_key, client_iv, record_header 53, finished_message c_verify ++ [0x16]) then
      client_ciphertext
    else []
  decrypt key nonce aad msg :=
    if (key, nonce, aad, msg) = (server_key, per_record_nonce server_iv 0, record_header 26, ciphertext₁) then
      some (flight.take 9 ++ [0x16])
    else if (key, nonce, aad, msg) = (server_key, per_record_nonce server_iv 1, record_header 58, ciphertext₂) then
      some (flight.drop 9 ++ [0x16])
    else none

/-- The ServerHello, a ChangeCipherSpec and the flight, arriving in two pieces. -/
def server_bytes : Bytes :=
  [0x16, 0x03, 0x03] ++ Wire.be 2 90 ++ server_hello ++ [0x14, 0x03, 0x03, 0x00, 0x01, 0x01] ++
    record_header 26 ++ ciphertext₁ ++ record_header 58 ++ ciphertext₂

def conn : Conn := { reads := [.ok (server_bytes.take 40), .ok (server_bytes.drop 40)], faults := [], written := [] }

def input : HandshakeInput :=
  { client_hello := client_hello, client_eph_secret := client_eph_secret, expected_session_id := [] }

def verify_cert (msg : Bytes) : Except Stop Unit := if msg = certificate then .ok () else err "HMAC"

end Sample

open Sample in
/-- The handshake above completes. -/
theorem drive_authenticated_sample : ∃ out s', drive crypto conn input verify_cert = .ok (out, s') ∧
    ∃ w, Authenticated crypto conn input verify_cert out s' w := by
  have hok : (drive crypto conn input verify_cert).toOption.isSome = true := by decide +kernel
  cases h : drive crypto conn input verify_cert with
  | error e => simp [h, Except.toOption] at hok
  | ok r => exact ⟨r.1, r.2, rfl, drive_authenticated h⟩

end Reality

end MiniVpn
