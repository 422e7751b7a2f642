import MiniVpn.Reality.Messages
/-!
# What stands behind the Finished message

The loop of `drive` is left in the middle of the messages of a record. Nothing
looks at the messages behind the Finished message or at the bytes the
reassembler still holds; `is_empty` has no caller. `flight_trace` is the loop
with a record of the handshake contents it has decrypted.
-/
open Lib

namespace MiniVpn

namespace Reality

/-! ## The flight with its contents -/

section
variable (c : Crypto) (verify_cert : Bytes → Except Stop Unit) (s_hs_secret : Block 32)

/-- The handshake bytes a record of the flight carries. -/
def record_content (recv : RecordKeys) (ct : UInt8) (hdr payload : Bytes) : Bytes :=
  if ct = 0x17 then
    match recv.open_record c hdr payload with
    | some (.ok (_, content), _) => content
    | _ => []
  else []

/-- `flight_loop`, with the handshake contents of its records behind `seen`. -/
def flight_trace (recv : RecordKeys) (reasm : HandshakeReassembler) (f : Flight) (reader : RecordReader) (reads : Reads)
    (seen : Bytes) : Except Stop (Bytes × Flight × RecordReader × Reads) :=
  match _h : reader.next reads with
  | .error e => .error e
  | .ok ((ct, hdr, payload), reader', reads') =>
    match on_record c verify_cert s_hs_secret recv reasm f ct hdr payload with
    | .error e => .error e
    | .ok (true, _, _, f) => .ok (seen ++ record_content c recv ct hdr payload, f, reader', reads')
    | .ok (false, recv', reasm, f) =>
      flight_trace recv' reasm f reader' reads' (seen ++ record_content c recv ct hdr payload)
termination_by reader.buf.length + reads.size
decreasing_by
  obtain ⟨⟨v₁, v₀, rfl⟩, hc⟩ := RecordReader.next_consumed _h
  have := hc.size_le
  simp at this
  omega

end

/-- The decrypted handshake contents of the flight of a handshake, and the bytes
of the messages that its loop has appended to the transcript. -/
def flight_of (c : Crypto) (s : Conn) (input : HandshakeInput) (verify_cert : Bytes → Except Stop Unit) :
    Except Stop (Bytes × Bytes) := do
  let ((_, _, sh_msg), reader, reads) ← RecordReader.new.next s.reads
  let sh ← ServerHello.parse_server_hello sh_msg input.expected_session_id
  let ecdhe := c.x25519 input.client_eph_secret sh.server_key_share
  let hs ← derive_handshake_keys c ecdhe input.client_hello sh_msg
  let start := input.client_hello ++ sh_msg
  let (contents, f, _, _) ← flight_trace c verify_cert hs.s_hs_secret (.new hs.server_key hs.server_iv) .new
    { transcript := start, cert_verified := false } reader reads []
  return (contents, f.transcript.drop start.length)

/-- Whole messages, the last of them and no other a Finished message. -/
def EndsAtFinished (contents : Bytes) : Prop :=
  ∃ msgs fin, (∀ m ∈ msgs ++ [fin], Framed m) ∧ (∀ m ∈ msgs, m.head? ≠ some 0x14) ∧ fin.head? = some 0x14 ∧
    contents = msgs.flatten ++ fin

section
variable {c : Crypto} {verify_cert : Bytes → Except Stop Unit} {s_hs_secret : Block 32}

/-- The record of contents changes nothing. -/
theorem flight_trace_erase (recv : RecordKeys) (reasm : HandshakeReassembler) (f : Flight) (reader : RecordReader)
    (reads : Reads) (seen : Bytes) :
    (flight_trace c verify_cert s_hs_secret recv reasm f reader reads seen).map (·.2) =
      flight_loop c verify_cert s_hs_secret recv reasm f reader reads := by
  fun_induction flight_trace c verify_cert s_hs_secret recv reasm f reader reads seen with
  | case1 recv reasm f reader reads seen e h =>
    rw [flight_loop_round, h]
    rfl
  | case2 recv reasm f reader reads seen ct hdr payload reader' reads' h e hrec =>
    rw [flight_loop_round, h]
    simp only [Except.bind, bind, hrec]
    rfl
  | case3 recv reasm f reader reads seen ct hdr payload reader' reads' h recv' reasm' f' hrec =>
    rw [flight_loop_round, h]
    simp only [Except.bind, bind, hrec]
    rfl
  | case4 recv reasm f reader reads seen ct hdr payload reader' reads' h recv' reasm' f' hrec ih =>
    rw [flight_loop_round, h, ih]
    simp only [Except.bind, bind, hrec]
    rfl

/-- A message is appended to the transcript; Finished and nothing else ends the
loop. -/
theorem on_message_ok {f f' : Flight} {msg : Bytes} {done : Bool}
    (h : on_message c verify_cert s_hs_secret f msg = .ok (done, f')) :
    f'.transcript = f.transcript ++ msg ∧ (done = true ↔ msg.head? = some 0x14) := by
  unfold on_message at h
  split at h
  · cases h
  · obtain ⟨rfl, rfl⟩ : false = done ∧ _ = f' := by simpa using h
    exact ⟨rfl, by simp⟩
  · obtain ⟨⟨⟩, -, h⟩ := bind_eq_ok.1 h
    obtain ⟨rfl, rfl⟩ : false = done ∧ _ = f' := by simpa [pure, Except.pure] using h
    exact ⟨rfl, by simp⟩
  · obtain ⟨rfl, rfl⟩ : false = done ∧ _ = f' := by simpa using h
    exact ⟨rfl, by simp⟩
  · split at h
    · cases h
    · dsimp only at h
      split at h
      · cases h
      · split at h
        · cases h
        · obtain ⟨rfl, rfl⟩ : true = done ∧ _ = f' := by simpa using h
          exact ⟨rfl, by simp⟩
  · cases h

theorem on_messages_ok {f f' : Flight} {msgs : List Bytes} {done : Bool}
    (h : on_messages c verify_cert s_hs_secret f msgs = .ok (done, f')) :
    (done = false → f'.transcript = f.transcript ++ msgs.flatten ∧ ∀ m ∈ msgs, m.head? ≠ some 0x14) ∧
    (done = true → ∃ mid fin rest, msgs = mid ++ fin :: rest ∧ f'.transcript = f.transcript ++ (mid.flatten ++ fin) ∧
      (∀ m ∈ mid, m.head? ≠ some 0x14) ∧ fin.head? = some 0x14) := by
  induction msgs generalizing f with
  | nil =>
    obtain ⟨rfl, rfl⟩ : false = done ∧ f = f' := by simpa [on_messages] using h
    exact ⟨fun _ => by simp, by simp⟩
  | cons msg msgs ih =>
    obtain ⟨⟨d, f₁⟩, h₁, h⟩ := bind_eq_ok.1 h
    obtain ⟨htr, hfin⟩ := on_message_ok h₁
    cases d with
    | true =>
      obtain ⟨rfl, rfl⟩ : true = done ∧ f₁ = f' := by simpa [pure, Except.pure] using h
      exact ⟨by simp, fun _ => ⟨[], msg, msgs, rfl, by simpa using htr, by simp, hfin.1 rfl⟩⟩
    | false =>
      have hmsg : msg.head? ≠ some 0x14 := fun hm => by cases hfin.2 hm
      obtain ⟨hcont, hend⟩ := ih h
      refine ⟨fun hd => ?_, fun hd => ?_⟩
      · obtain ⟨htr', hno⟩ := hcont hd
        refine ⟨by rw [htr', htr]; simp, fun m hm => ?_⟩
        rcases List.mem_cons.1 hm with rfl | hm
        · exact hmsg
        · exact hno m hm
      · obtain ⟨mid, fin, rest, rfl, htr', hno, hf⟩ := hend hd
        refine ⟨msg :: mid, fin, rest, rfl, by rw [htr', htr]; simp, fun m hm => ?_, hf⟩
        rcases List.mem_cons.1 hm with rfl | hm
        · exact hmsg
        · exact hno m hm

/-- A record feeds its content to the reassembler, and the messages cut off are
processed up to a Finished message. -/
theorem on_record_ok {recv recv' : RecordKeys} {reasm reasm' : HandshakeReassembler} {f f' : Flight} {done : Bool}
    {ct : UInt8} {hdr payload : Bytes}
    (h : on_record c verify_cert s_hs_secret recv reasm f ct hdr payload = .ok (done, recv', reasm', f')) :
    (ct = 0x14 ∧ done = false ∧ reasm' = reasm ∧ f' = f ∧ record_content c recv ct hdr payload = []) ∨
    ∃ new, cut_messages (reasm.buf ++ record_content c recv ct hdr payload) = (new, reasm'.buf) ∧
      on_messages c verify_cert s_hs_secret f new = .ok (done, f') := by
  unfold on_record at h
  split at h
  · rename_i hccs
    simp only [Except.ok.injEq, Prod.mk.injEq] at h
    obtain ⟨rfl, -, rfl, rfl⟩ := h
    exact .inl ⟨hccs, rfl, rfl, rfl, by simp [record_content, hccs]⟩
  · split at h
    · rename_i hdata
      split at h
      · cases h
      · cases h
      · rename_i inner_type content recv₁ hopen
        split at h
        · cases h
        · have hcontent : record_content c recv ct hdr payload = content := by simp [record_content, hdata, hopen]
          simp only [HandshakeReassembler.push] at h
          obtain ⟨⟨d, f₁⟩, hmsg, h⟩ := bind_eq_ok.1 h
          simp only [pure, Except.pure, Except.ok.injEq, Prod.mk.injEq] at h
          obtain ⟨rfl, -, rfl, rfl⟩ := h
          exact .inr ⟨_, by rw [hcontent], hmsg⟩
    · cases h

/-- Through the loop the contents seen are the messages processed and what the
reassembler holds. At its end they may go on behind the Finished message. -/
theorem flight_trace_ok {recv : RecordKeys} {reasm : HandshakeReassembler} {f f' : Flight} {reader reader' : RecordReader}
    {reads reads' : Reads} {seen contents start : Bytes} {msgs : List Bytes}
    (hcut : cut_messages seen = (msgs, reasm.buf)) (hno : ∀ m ∈ msgs, m.head? ≠ some 0x14)
    (htr : f.transcript = start ++ msgs.flatten)
    (h : flight_trace c verify_cert s_hs_secret recv reasm f reader reads seen = .ok (contents, f', reader', reads')) :
    ∃ mid fin rest buf, cut_messages contents = (mid ++ fin :: rest, buf) ∧
      f'.transcript = start ++ (mid.flatten ++ fin) ∧ (∀ m ∈ mid, m.head? ≠ some 0x14) ∧ fin.head? = some 0x14 := by
  fun_induction flight_trace c verify_cert s_hs_secret recv reasm f reader reads seen generalizing msgs with
  | case1 => cases h
  | case2 => cases h
  | case3 recv reasm f reader reads seen ct hdr payload reader₁ reads₁ hnext recv₁ reasm₁ f₁ hrec =>
    simp only [Except.ok.injEq, Prod.mk.injEq] at h
    obtain ⟨rfl, rfl, -, -⟩ := h
    rcases on_record_ok hrec with ⟨-, hd, -⟩ | ⟨new, hnew, hmsgs⟩
    · cases hd
    · obtain ⟨mid, fin, rest, rfl, htr', hmid, hfin⟩ := (on_messages_ok hmsgs).2 rfl
      refine ⟨msgs ++ mid, fin, rest, reasm₁.buf, ?_, ?_, fun m hm => ?_, hfin⟩
      · rw [cut_messages_append, hcut, hnew]
        simp
      · rw [htr', htr]
        simp
      · rcases List.mem_append.1 hm with hm | hm
        · exact hno m hm
        · exact hmid m hm
  | case4 recv reasm f reader reads seen ct hdr payload reader₁ reads₁ hnext recv₁ reasm₁ f₁ hrec ih =>
    rcases on_record_ok hrec with ⟨-, -, rfl, rfl, hempty⟩ | ⟨new, hnew, hmsgs⟩
    · exact ih (by rw [hempty, List.append_nil]; exact hcut) hno htr h
    · obtain ⟨htr', hnew'⟩ := (on_messages_ok hmsgs).1 rfl
      have hcut' : cut_messages (seen ++ record_content c recv ct hdr payload) = (msgs ++ new, reasm₁.buf) := by
        rw [cut_messages_append, hcut, hnew]
      refine ih hcut' (fun m hm => ?_) ?_ h
      · rcases List.mem_append.1 hm with hm | hm
        · exact hno m hm
        · exact hnew' m hm
      · rw [htr', htr]
        simp

end

/-- The messages up to the first Finished message are all of the contents
exactly when the contents end at it. -/
theorem eq_iff_endsAtFinished {contents fin buf : Bytes} {mid rest : List Bytes}
    (hcut : cut_messages contents = (mid ++ fin :: rest, buf)) (hmid : ∀ m ∈ mid, m.head? ≠ some 0x14)
    (hfin : fin.head? = some 0x14) : contents = mid.flatten ++ fin ↔ EndsAtFinished contents := by
  have hframed : ∀ m ∈ mid ++ [fin], Framed m := by
    intro m hm
    have hmem : m ∈ (cut_messages contents).1 := by
      rw [hcut, List.append_cons]
      exact List.mem_append_left _ hm
    exact framed_of_mem_cut hmem
  constructor
  · intro h
    exact ⟨mid, fin, hframed, hmid, hfin, h⟩
  · rintro ⟨msgs, fin', hmsgs, hno, hfin', rfl⟩
    have hcut' := cut_messages_flatten hmsgs []
    simp only [cut_messages_nil, List.append_nil, List.flatten_append, List.flatten_singleton] at hcut'
    rw [hcut'] at hcut
    obtain ⟨hlist, -⟩ := Prod.mk.inj hcut
    -- Both lists have their only Finished message at the end of what is compared.
    obtain rfl : rest = [] := by
      rcases List.eq_nil_or_concat rest with rfl | ⟨rest', last, rfl⟩
      · rfl
      · have hl : msgs ++ [fin'] = (mid ++ fin :: rest') ++ [last] := by rw [hlist]; simp
        have hmem : fin ∈ msgs := by
          rw [(List.append_inj' hl rfl).1]
          simp
        exact absurd hfin (hno fin hmem)
    obtain ⟨rfl, heq⟩ := List.append_inj' hlist rfl
    rw [List.singleton_inj.1 heq]

/-- The contents of the flight are the messages appended to the transcript
exactly when the server puts nothing behind its Finished message. -/
theorem flight_ends_cleanly_iff {c : Crypto} {s s' : Conn} {input : HandshakeInput}
    {verify_cert : Bytes → Except Stop Unit} {out : HandshakeOutput} (h : drive c s input verify_cert = .ok (out, s')) :
    ∃ contents appended, flight_of c s input verify_cert = .ok (contents, appended) ∧
      (contents = appended ↔ EndsAtFinished contents) := by
  unfold drive at h
  obtain ⟨s₁, h₁, h⟩ := bind_eq_ok.1 h
  obtain ⟨s₂, h₂, h⟩ := bind_eq_ok.1 h
  obtain ⟨s₃, h₃, h⟩ := bind_eq_ok.1 h
  obtain ⟨⟨⟨ct, hdr, sh_msg⟩, reader, reads⟩, hnext, h⟩ := bind_eq_ok.1 h
  obtain ⟨hr₁, -⟩ := write_record_ok h₁
  obtain ⟨hr₂, -⟩ := Conn.write_all_ok h₂
  obtain ⟨hr₃, -⟩ := Conn.attempt_ok h₃
  rw [hr₃, hr₂, hr₁] at hnext
  dsimp only at h
  split at h
  · cases h
  · obtain ⟨sh, hsh, h⟩ := bind_eq_ok.1 h
    obtain ⟨hs, hhs, h⟩ := bind_eq_ok.1 h
    obtain ⟨⟨f, reader', reads'⟩, hloop, -⟩ := bind_eq_ok.1 h
    -- The loop with its contents ends as the loop does.
    rw [← flight_trace_erase _ _ _ _ _ []] at hloop
    cases htrace : flight_trace c verify_cert hs.s_hs_secret (.new hs.server_key hs.server_iv) .new
        { transcript := input.client_hello ++ sh_msg, cert_verified := false } reader reads [] with
    | error e =>
      rw [htrace] at hloop
      cases hloop
    | ok r =>
      obtain ⟨contents, f', reader₁, reads₁⟩ := r
      obtain ⟨mid, fin, rest, buf, hcut, htr, hmid, hfin⟩ := flight_trace_ok
        cut_messages_nil (by simp) (List.append_nil (input.client_hello ++ sh_msg)).symm htrace
      refine ⟨contents, mid.flatten ++ fin, ?_, eq_iff_endsAtFinished hcut hmid hfin⟩
      refine bind_eq_ok.2 ⟨_, hnext, bind_eq_ok.2 ⟨sh, hsh, bind_eq_ok.2 ⟨hs, hhs, bind_eq_ok.2 ⟨_, htrace, ?_⟩⟩⟩⟩
      simp only [htr, List.drop_left]
      rfl

/-! ## Something behind the Finished message -/

open Sample in
/-- The flight of the sample ends at its Finished message. -/
theorem flight_ends_cleanly_sample : ∃ out s', drive crypto conn input verify_cert = .ok (out, s') ∧
    ∃ contents appended, flight_of crypto conn input verify_cert = .ok (contents, appended) ∧
      (contents = appended ↔ EndsAtFinished contents) ∧ contents = flight := by
  have hok : (drive crypto conn input verify_cert).toOption.isSome = true := by decide +kernel
  have hflight : (flight_of crypto conn input verify_cert).toOption.map (·.1) = some flight := by decide +kernel
  cases h : drive crypto conn input verify_cert with
  | error e => simp [h, Except.toOption] at hok
  | ok r =>
    obtain ⟨contents, appended, hf, hiff⟩ := flight_ends_cleanly_iff h
    refine ⟨r.1, r.2, rfl, contents, appended, hf, hiff, ?_⟩
    rw [hf] at hflight
    exact Option.some.inj hflight

namespace Sample

/-- A message that the server sends in the record of its Finished message. -/
def behind : Bytes := [0x04, 0x00, 0x00, 0x00]

/-- The second record of the flight, with that message. -/
def ciphertext₃ : Bytes :=
  Wire.be 31 0x2f1a77f78d2f4e996fdb34ea0e0598882c932c2210e636ef5481f2ed52680f ++
  Wire.be 31 0xc42f9eb9561b38c1a1a71aee22db7b38f3ff11261d96a06893c160658a973d

def crypto_behind : Crypto :=
  { crypto with
    decrypt := fun key nonce aad msg =>
      if (key, nonce, aad, msg) = (server_key, per_record_nonce server_iv 1, record_header 62, ciphertext₃) then
        some (flight.drop 9 ++ behind ++ [0x16])
      else crypto.decrypt key nonce aad msg }

def conn_behind : Conn :=
  { conn with
    reads := [.ok ([0x16, 0x03, 0x03] ++ Wire.be 2 90 ++ server_hello ++ record_header 26 ++ ciphertext₁ ++
      record_header 62 ++ ciphertext₃)] }

end Sample

open Sample in
/-- The handshake completes, and a whole message of its flight is in no
transcript. -/
theorem flight_drops_message : ∃ out s', drive crypto_behind conn_behind input verify_cert = .ok (out, s') ∧
    ∃ contents appended, flight_of crypto_behind conn_behind input verify_cert = .ok (contents, appended) ∧
      contents = appended ++ [0x04, 0x00, 0x00, 0x00] := by
  have hok : (drive crypto_behind conn_behind input verify_cert).toOption.isSome = true := by decide +kernel
  have hflight : (flight_of crypto_behind conn_behind input verify_cert).toOption = some (flight ++ behind, flight) := by
    decide +kernel
  cases h : drive crypto_behind conn_behind input verify_cert with
  | error e => simp [h, Except.toOption] at hok
  | ok r =>
    cases hf : flight_of crypto_behind conn_behind input verify_cert with
    | error e => simp [hf, Except.toOption] at hflight
    | ok x =>
      rw [hf] at hflight
      obtain rfl := Option.some.inj hflight
      exact ⟨r.1, r.2, rfl, _, _, rfl, rfl⟩

end Reality

end MiniVpn
