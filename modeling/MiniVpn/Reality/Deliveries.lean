import MiniVpn.Lib.Framing
import MiniVpn.Reality.Authentication
/-!
# Deliveries of the server's bytes

The server's bytes reach the client in reads of any size. `cut_record` cuts the
records off the whole byte string. A handshake over reads that deliver the string
ends as on the string itself, and leaves over what is behind the record of the
Finished message.
-/
open Lib

namespace MiniVpn

namespace Reality

/-! ## Records of a byte string -/

def cut_record (buf : Bytes) : Front UInt8 OuterRecord Nat :=
  match buf with
  | ct :: v₁ :: v₀ :: l₁ :: l₀ :: rest =>
    let len := Wire.ofBe [l₁, l₀]
    if MAX_TLS_RECORD < len then .bad len
    else if rest.length < len then .more
    else .item ⟨ct, (v₁, v₀), rest.take len⟩ (rest.drop len)
  | _ => .more

/-- What `cut_record` can find. -/
inductive Cut : Bytes → Front UInt8 OuterRecord Nat → Prop
  | short {buf : Bytes} : buf.length < 5 → Cut buf .more
  | tooLong {ct v₁ v₀ l₁ l₀ : UInt8} {rest : Bytes} : MAX_TLS_RECORD < Wire.ofBe [l₁, l₀] →
      Cut (ct :: v₁ :: v₀ :: l₁ :: l₀ :: rest) (.bad (Wire.ofBe [l₁, l₀]))
  | waits {ct v₁ v₀ l₁ l₀ : UInt8} {rest : Bytes} : ¬ MAX_TLS_RECORD < Wire.ofBe [l₁, l₀] →
      rest.length < Wire.ofBe [l₁, l₀] → Cut (ct :: v₁ :: v₀ :: l₁ :: l₀ :: rest) .more
  | whole {ct v₁ v₀ l₁ l₀ : UInt8} {rest : Bytes} : ¬ MAX_TLS_RECORD < Wire.ofBe [l₁, l₀] →
      ¬ rest.length < Wire.ofBe [l₁, l₀] → Cut (ct :: v₁ :: v₀ :: l₁ :: l₀ :: rest)
        (.item ⟨ct, (v₁, v₀), rest.take (Wire.ofBe [l₁, l₀])⟩ (rest.drop (Wire.ofBe [l₁, l₀])))

theorem cut_record_cons (ct v₁ v₀ l₁ l₀ : UInt8) (rest : Bytes) :
    cut_record (ct :: v₁ :: v₀ :: l₁ :: l₀ :: rest) =
      if MAX_TLS_RECORD < Wire.ofBe [l₁, l₀] then .bad (Wire.ofBe [l₁, l₀])
      else if rest.length < Wire.ofBe [l₁, l₀] then .more
      else .item ⟨ct, (v₁, v₀), rest.take (Wire.ofBe [l₁, l₀])⟩ (rest.drop (Wire.ofBe [l₁, l₀])) := rfl

theorem exists_header {buf : Bytes} (h : 5 ≤ buf.length) : ∃ ct v₁ v₀ l₁ l₀ rest, buf = ct :: v₁ :: v₀ :: l₁ :: l₀ :: rest := by
  match buf, h with
  | ct :: v₁ :: v₀ :: l₁ :: l₀ :: rest, _ => exact ⟨ct, v₁, v₀, l₁, l₀, rest, rfl⟩

theorem cut_record_short {buf : Bytes} (h : buf.length < 5) : cut_record buf = .more := by
  unfold cut_record
  split
  · simp only [List.length_cons] at h
    omega
  · rfl

theorem cut_record_cut (buf : Bytes) : Cut buf (cut_record buf) := by
  rcases lt_or_ge buf.length 5 with hshort | hlen
  · rw [cut_record_short hshort]
    exact .short hshort
  · obtain ⟨ct, v₁, v₀, l₁, l₀, rest, rfl⟩ := exists_header hlen
    rw [cut_record_cons]
    split
    · exact .tooLong ‹_›
    · split
      · exact .waits ‹_› ‹_›
      · exact .whole ‹_› ‹_›

theorem cut_of_eq {buf : Bytes} {x : Front UInt8 OuterRecord Nat} (h : cut_record buf = x) : Cut buf x :=
  h ▸ cut_record_cut buf

/-- The header that was read is that of the record with this payload. -/
theorem OuterRecord.header_take {ct v₁ v₀ l₁ l₀ : UInt8} {rest : Bytes} (h : Wire.ofBe [l₁, l₀] ≤ rest.length) :
    (OuterRecord.mk ct (v₁, v₀) (rest.take (Wire.ofBe [l₁, l₀]))).header = [ct, v₁, v₀, l₁, l₀] := by
  rw [header, List.length_take_of_le h, show Wire.be 2 (Wire.ofBe [l₁, l₀]) = [l₁, l₀] from Wire.be_ofBe [l₁, l₀]]
  rfl

theorem cut_record_eq_item {buf rest : Bytes} {r : OuterRecord} :
    cut_record buf = .item r rest ↔ buf = r.bytes ++ rest ∧ r.payload.length ≤ MAX_TLS_RECORD := by
  constructor
  · intro h
    cases cut_of_eq h with
    | whole hmax hbody =>
      rw [OuterRecord.bytes, OuterRecord.header_take (not_lt.1 hbody), List.length_take_of_le (not_lt.1 hbody)]
      exact ⟨by simp, not_lt.1 hmax⟩
  · rintro ⟨rfl, hmax⟩
    obtain ⟨ct, ⟨v₁, v₀⟩, payload⟩ := r
    have hlen : Wire.ofBe [UInt8.ofNat (payload.length / 256), UInt8.ofNat payload.length] = payload.length :=
      Wire.ofBe_be_of_lt (n := 2) (Nat.lt_of_le_of_lt hmax (by decide))
    rw [show (OuterRecord.mk ct (v₁, v₀) payload).bytes ++ rest = ct :: v₁ :: v₀ ::
        UInt8.ofNat (payload.length / 256) :: UInt8.ofNat payload.length :: (payload ++ rest) from rfl,
      cut_record_cons, hlen, if_neg (not_lt.2 hmax), if_neg (by simp), List.take_left' rfl, List.drop_left' rfl]

theorem cut_record_eq_bad {buf : Bytes} {len : Nat} : cut_record buf = .bad len ↔
    MAX_TLS_RECORD < len ∧ len < 65536 ∧ ∃ ct v₁ v₀ tail, buf = ct :: v₁ :: v₀ :: Wire.be 2 len ++ tail := by
  constructor
  · intro h
    cases cut_of_eq h with
    | @tooLong ct v₁ v₀ l₁ l₀ tail hmax =>
      refine ⟨hmax, Wire.ofBe_pair_lt l₁ l₀, ct, v₁, v₀, tail, ?_⟩
      rw [show Wire.be 2 (Wire.ofBe [l₁, l₀]) = [l₁, l₀] from Wire.be_ofBe [l₁, l₀]]
      rfl
  · rintro ⟨hmax, hlen, ct, v₁, v₀, tail, rfl⟩
    have hbe : Wire.ofBe [UInt8.ofNat (len / 256), UInt8.ofNat len] = len := Wire.ofBe_be_of_lt (n := 2) hlen
    rw [Wire.be_two]
    refine (cut_record_cons ..).trans ?_
    rw [hbe, if_pos hmax]

/-- The records of TLS: what is wrong with one is its length. -/
def tls : Framer UInt8 OuterRecord Nat where
  front := cut_record
  item_append h tail := by
    obtain ⟨rfl, hmax⟩ := cut_record_eq_item.1 h
    exact cut_record_eq_item.2 ⟨List.append_assoc .., hmax⟩
  bad_append h tail := by
    cases cut_of_eq h with
    | tooLong hmax => exact if_pos hmax
  item_lt h := by
    obtain ⟨rfl, -⟩ := cut_record_eq_item.1 h
    simp only [OuterRecord.bytes, OuterRecord.header, List.length_append, List.length_cons]
    omega

/-- How a byte string ends behind its last record: with a header whose length is too
great, or with less than a record. -/
inductive Ending where
  | tooLong (len : Nat)
  | short (tail : Bytes)

def records (t : Bytes) : List OuterRecord := (tls.split t).1

def ending (t : Bytes) : Ending :=
  match (tls.split t).2 with
  | (_, some len) => .tooLong len
  | (tail, none) => .short tail

theorem records_item {t rest : Bytes} {r : OuterRecord} (h : cut_record t = .item r rest) :
    records t = r :: records rest ∧ ending t = ending rest := by
  have hs := Framer.split_item (F := tls) h
  exact ⟨congrArg Prod.fst hs, by rw [ending, hs, ending]⟩

theorem records_bad {t : Bytes} {len : Nat} (h : cut_record t = .bad len) : records t = [] ∧ ending t = .tooLong len := by
  have hs := Framer.split_bad (F := tls) h
  exact ⟨congrArg Prod.fst hs, by rw [ending, hs]⟩

theorem records_more {t : Bytes} (h : cut_record t = .more) : records t = [] ∧ ending t = .short t := by
  have hs := Framer.split_more (F := tls) h
  exact ⟨congrArg Prod.fst hs, by rw [ending, hs]⟩

/-- The records of a byte string stop at the first header whose length is too great. -/
theorem ending_eq_tooLong (t : Bytes) (len : Nat) : ending t = .tooLong len ↔
    MAX_TLS_RECORD < len ∧ len < 65536 ∧ ∃ ct v₁ v₀ tail,
      t = ((records t).map OuterRecord.bytes).flatten ++ (ct :: v₁ :: v₀ :: Wire.be 2 len ++ tail) := by
  cases hc : cut_record t with
  | item r rest =>
    have hlt : rest.length < t.length := tls.item_lt hc
    obtain ⟨hrecs, hend⟩ := records_item hc
    rw [hend, hrecs, ending_eq_tooLong rest len, (cut_record_eq_item.1 hc).1]
    simp only [List.map_cons, List.flatten_cons, List.append_assoc, List.append_cancel_left_eq]
  | bad len' =>
    obtain ⟨hrecs, hend⟩ := records_bad hc
    rw [hend, hrecs, List.map_nil, List.flatten_nil]
    simp only [List.nil_append]
    rw [← cut_record_eq_bad, hc, Ending.tooLong.injEq, Front.bad.injEq]
  | more =>
    obtain ⟨hrecs, hend⟩ := records_more hc
    rw [hend, hrecs, List.map_nil, List.flatten_nil]
    simp only [List.nil_append]
    rw [← cut_record_eq_bad, hc]
    simp
termination_by t.length

/-! ## The reader of the handshake -/

/-- The reads of a connection that delivers `chunks` and ends. -/
def delivery (chunks : List Bytes) : Reads := chunks.map .ok ++ [.ok []]

/-- What has been read and what is coming make up `t`, after which the connection
ends. -/
def Delivers (buf : Bytes) (reads : Reads) (t : Bytes) : Prop :=
  ∃ chunks, (∀ b ∈ chunks, b ≠ []) ∧ reads = delivery chunks ∧ buf ++ chunks.flatten = t

/-- The result of `next` when all of `t` has been read ahead and nothing follows. -/
def next_on (t : Bytes) : Except Stop (OuterRecord × Bytes) :=
  match cut_record t with
  | .item r rest => .ok (r, rest)
  | .bad len => err s!"record 长度 {len} 超 TLS 上限"
  | .more => err (if t.length < 5 then "连接关闭（读 record 头 EOF）" else "连接关闭（读 record body EOF）")

namespace RecordReader

theorem fill_ok {buf t : Bytes} {reads : Reads} {n : Nat} (h : Delivers buf reads t) (hn : n ≤ t.length)
    (ctx eof : String) :
    ∃ buf' reads', fill ctx eof n buf reads = .ok (buf', reads') ∧ n ≤ buf'.length ∧ Delivers buf' reads' t := by
  obtain ⟨chunks, hne, rfl, rfl⟩ := h
  induction chunks generalizing buf with
  | nil =>
    rw [List.flatten_nil, List.append_nil] at hn ⊢
    unfold fill
    rw [if_pos hn]
    exact ⟨_, _, rfl, hn, [], by simp, rfl, by simp⟩
  | cons chunk chunks ih =>
    rcases le_or_gt n buf.length with hle | hgt
    · unfold fill
      rw [if_pos hle]
      exact ⟨_, _, rfl, hle, chunk :: chunks, hne, rfl, rfl⟩
    · -- A read returns at least a byte, so the loop goes round.
      obtain ⟨b, bs, rfl⟩ := List.exists_cons_of_ne_nil (hne chunk (by simp))
      unfold fill
      rw [if_neg (not_le.2 hgt)]
      rw [List.flatten_cons, ← List.append_assoc] at hn ⊢
      exact ih (fun x hx => hne x (by simp [hx])) hn

theorem fill_eof {buf t : Bytes} {reads : Reads} {n : Nat} (h : Delivers buf reads t) (hn : t.length < n)
    (ctx eof : String) : fill ctx eof n buf reads = err eof := by
  obtain ⟨chunks, hne, rfl, rfl⟩ := h
  have hbuf : ¬ n ≤ buf.length := by
    rw [List.length_append] at hn
    omega
  induction chunks generalizing buf with
  | nil =>
    unfold fill
    rw [if_neg hbuf]
    rfl
  | cons chunk chunks ih =>
    obtain ⟨b, bs, rfl⟩ := List.exists_cons_of_ne_nil (hne chunk (by simp))
    unfold fill
    rw [if_neg hbuf]
    rw [List.flatten_cons, ← List.append_assoc] at hn
    refine ih (fun x hx => hne x (by simp [hx])) hn ?_
    rw [List.length_append] at hn
    omega

theorem next_delivers {r : RecordReader} {reads : Reads} {t : Bytes} (h : Delivers r.buf reads t) :
    Alike (fun a b => b.1 = (a.1.content_type, a.1.header, a.1.payload) ∧ Delivers b.2.1.buf b.2.2 a.2)
      (next_on t) (r.next reads) := by
  unfold next next_on
  rcases lt_or_ge t.length 5 with hshort | hlen
  · rw [fill_eof h hshort, cut_record_short hshort, if_pos hshort]
    exact .error _
  · obtain ⟨buf, reads₁, hfill, hbuf, hread⟩ := fill_ok h hlen "读 record 头" "连接关闭（读 record 头 EOF）"
    obtain ⟨ct, v₁, v₀, l₁, l₀, tail, rfl⟩ := exists_header hbuf
    obtain ⟨more, rfl⟩ : ∃ more, t = ct :: v₁ :: v₀ :: l₁ :: l₀ :: more := by
      obtain ⟨chunks, -, -, rfl⟩ := hread
      exact ⟨_, rfl⟩
    rw [hfill, cut_record_cons, if_neg (not_lt.2 hlen)]
    change Alike _ _ (if MAX_TLS_RECORD < Wire.ofBe [l₁, l₀] then _ else _)
    by_cases hmax : MAX_TLS_RECORD < Wire.ofBe [l₁, l₀]
    · rw [if_pos hmax, if_pos hmax]
      exact .error _
    · rw [if_neg hmax, if_neg hmax]
      rcases lt_or_ge more.length (Wire.ofBe [l₁, l₀]) with hmore | hbody
      · rw [fill_eof hread (by simp only [List.length_cons]; omega), if_pos hmore]
        exact .error _
      · obtain ⟨buf₂, reads₂, hfill₂, hbuf₂, chunks, hne, rfl, hsplit⟩ := fill_ok (n := 5 + Wire.ofBe [l₁, l₀]) hread
          (by simp only [List.length_cons]; omega) "读 record body" "连接关闭（读 record body EOF）"
        rw [hfill₂, if_neg (not_lt.2 hbody)]
        obtain ⟨ct', v₁', v₀', l₁', l₀', body, rfl⟩ := exists_header (Nat.le_of_add_right_le hbuf₂)
        simp only [List.cons_append, List.cons.injEq] at hsplit
        obtain ⟨rfl, rfl, rfl, rfl, rfl, rfl⟩ := hsplit
        have hlen₂ : Wire.ofBe [l₁', l₀'] ≤ body.length := by
          simp only [List.length_cons] at hbuf₂
          omega
        refine .ok ⟨?_, chunks, hne, rfl, ?_⟩
        · rw [OuterRecord.header_take hbody, List.take_append_of_le_length hlen₂]
          rfl
        · rw [List.drop_append_of_le_length hlen₂]
          rfl

end RecordReader

theorem next_on_eq_ok {t rest : Bytes} {r : OuterRecord} (h : next_on t = .ok (r, rest)) : cut_record t = .item r rest := by
  unfold next_on at h
  split at h
  · rename_i hc
    cases h
    exact hc
  · cases h
  · cases h

/-! ## The handshake -/

section
variable (c : Crypto) (verify_cert : Bytes → Except Stop Unit) (s_hs_secret : Block 32)

/-- The loop `'outer` on a byte string: the flight, and what is behind its last
record. -/
def flight_on (recv : RecordKeys) (reasm : HandshakeReassembler) (f : Flight) (t : Bytes) : Except Stop (Flight × Bytes) :=
  match _h : next_on t with
  | .error e => .error e
  | .ok (r, rest) =>
    match on_record c verify_cert s_hs_secret recv reasm f r.content_type r.header r.payload with
    | .error e => .error e
    | .ok (true, _, _, f) => .ok (f, rest)
    | .ok (false, recv, reasm, f) => flight_on recv reasm f rest
termination_by t.length
decreasing_by exact tls.item_lt (next_on_eq_ok _h)

/-- `fin` carries the Finished message of the flight: the records before it leave
the loop running, and it ends it. -/
inductive EndsFlight : RecordKeys → HandshakeReassembler → Flight → List OuterRecord → OuterRecord → Prop
  | here {recv recv' : RecordKeys} {reasm reasm' : HandshakeReassembler} {f f' : Flight} {fin : OuterRecord} :
      on_record c verify_cert s_hs_secret recv reasm f fin.content_type fin.header fin.payload =
        .ok (true, recv', reasm', f') →
      EndsFlight recv reasm f [] fin
  | later {recv recv' : RecordKeys} {reasm reasm' : HandshakeReassembler} {f f' : Flight} {r fin : OuterRecord}
      {recs : List OuterRecord} :
      on_record c verify_cert s_hs_secret recv reasm f r.content_type r.header r.payload =
        .ok (false, recv', reasm', f') →
      EndsFlight recv' reasm' f' recs fin → EndsFlight recv reasm f (r :: recs) fin

variable {c verify_cert s_hs_secret}

theorem flight_on_ends {recv : RecordKeys} {reasm : HandshakeReassembler} {f f' : Flight} {t rest : Bytes}
    (h : flight_on c verify_cert s_hs_secret recv reasm f t = .ok (f', rest)) :
    ∃ recs fin, EndsFlight c verify_cert s_hs_secret recv reasm f recs fin ∧
      t = (recs ++ [fin]).flatMap OuterRecord.bytes ++ rest ∧
      ∀ r ∈ recs ++ [fin], r.payload.length ≤ MAX_TLS_RECORD := by
  fun_induction flight_on c verify_cert s_hs_secret recv reasm f t with
  | case1 => cases h
  | case2 => cases h
  | case3 recv reasm f t r rest₁ hnext recv₁ reasm₁ f₁ hrec =>
    cases h
    obtain ⟨rfl, hmax⟩ := cut_record_eq_item.1 (next_on_eq_ok hnext)
    exact ⟨[], r, .here hrec, by simp, by simpa using hmax⟩
  | case4 recv reasm f t r rest₁ hnext recv₁ reasm₁ f₁ hrec ih =>
    obtain ⟨rfl, hmax⟩ := cut_record_eq_item.1 (next_on_eq_ok hnext)
    obtain ⟨recs, fin, hend, rfl, hall⟩ := ih h
    exact ⟨r :: recs, fin, .later hrec hend, by simp, List.forall_mem_cons.2 ⟨hmax, hall⟩⟩

theorem flight_loop_delivers {recv : RecordKeys} {reasm : HandshakeReassembler} {f : Flight} {reader : RecordReader}
    {reads : Reads} {t : Bytes} (h : Delivers reader.buf reads t) :
    Alike (fun a b => b.1 = a.1 ∧ Delivers b.2.1.buf b.2.2 a.2) (flight_on c verify_cert s_hs_secret recv reasm f t)
      (flight_loop c verify_cert s_hs_secret recv reasm f reader reads) := by
  have hnext := RecordReader.next_delivers h
  rw [flight_loop_round]
  fun_induction flight_on c verify_cert s_hs_secret recv reasm f t generalizing reader reads with
  | case1 recv reasm f t e he =>
    rw [(hnext.error_iff e).1 he]
    exact .error e
  | case2 recv reasm f t r rest hr e hrec =>
    rw [hr] at hnext
    obtain ⟨⟨_, reader', reads'⟩, hnext, rfl, -⟩ := hnext.to_ok
    rw [hnext]
    simp only [Except.bind, bind, hrec]
    exact .error e
  | case3 recv reasm f t r rest hr recv₁ reasm₁ f₁ hrec =>
    rw [hr] at hnext
    obtain ⟨⟨_, reader', reads'⟩, hnext, rfl, hrest⟩ := hnext.to_ok
    rw [hnext]
    simp only [Except.bind, bind, hrec]
    exact .ok ⟨rfl, hrest⟩
  | case4 recv reasm f t r rest hr recv₁ reasm₁ f₁ hrec ih =>
    rw [hr] at hnext
    obtain ⟨⟨_, reader', reads'⟩, hnext, rfl, hrest⟩ := hnext.to_ok
    have hloop := ih hrest (RecordReader.next_delivers hrest)
    rw [← flight_loop_round] at hloop
    rw [hnext]
    simp only [Except.bind, bind, hrec]
    exact hloop

end

/-- `drive` on a byte string, read by nothing of `s`. What is behind the Finished
message is left over. -/
def drive_on (c : Crypto) (s : Conn) (t : Bytes) (input : HandshakeInput) (verify_cert : Bytes → Except Stop Unit) :
    Except Stop (HandshakeOutput × Conn) := do
  let s ← write_record s 0x16 0x0301 input.client_hello
  let s ← s.write_all "写 client CCS" [0x14, 0x03, 0x03, 0x00, 0x01, 0x01]
  let s ← s.flush "flush CH"
  let (first, t) ← next_on t
  if first.content_type ≠ 0x16 then
    err s!"首条 record 非 handshake（type 0x{hex2 first.content_type}，期望 ServerHello）"
  let sh ← ServerHello.parse_server_hello first.payload input.expected_session_id
  let ecdhe := c.x25519 input.client_eph_secret sh.server_key_share
  let hs ← derive_handshake_keys c ecdhe input.client_hello first.payload
  let f : Flight := { transcript := input.client_hello ++ first.payload, cert_verified := false }
  let (f, t) ← flight_on c verify_cert hs.s_hs_secret (.new hs.server_key hs.server_iv) .new f t
  let th_sfin := transcript_hash c [f.transcript]
  let cfin := compute_finished_verify_data c hs.c_hs_secret th_sfin
  match (RecordKeys.new hs.client_key hs.client_iv).seal_record c 0x16 (finished_message cfin) with
  | none => .error .panicked
  | some (fin_record, _) =>
    let s ← s.write_all "写 client Finished" fin_record
    let s ← s.flush "flush client Finished"
    let app := derive_application_keys c hs.handshake_secret th_sfin
    return ({
      recv_keys := .new app.server_key app.server_iv
      send_keys := .new app.client_key app.client_iv
      leftover := t
      s_ap_secret := app.s_ap_secret
      c_ap_secret := app.c_ap_secret }, s)

/-- The part of the connection that is written to. -/
def Conn.SameWrites (s s' : Conn) : Prop := s'.faults = s.faults ∧ s'.written = s.written

namespace Conn
variable {s s' : Conn}

theorem SameWrites.attempt (h : SameWrites s s') (ctx : String) :
    Alike (fun a b => SameWrites a b ∧ b.reads = s'.reads) (s.attempt ctx) (s'.attempt ctx) := by
  unfold Conn.attempt
  rw [h.1]
  split
  · exact .error _
  · exact .ok ⟨⟨rfl, h.2⟩, rfl⟩
  · exact .ok ⟨h, rfl⟩

theorem SameWrites.write_all (h : SameWrites s s') (ctx : String) (data : Bytes) :
    Alike (fun a b => SameWrites a b ∧ b.reads = s'.reads) (s.write_all ctx data) (s'.write_all ctx data) :=
  (h.attempt ctx).bind fun _ _ hab => .ok ⟨⟨hab.1.1, by rw [hab.1.2]⟩, hab.2⟩

end Conn

theorem write_record_same {s s' : Conn} (h : Conn.SameWrites s s') (content_type : UInt8) (version : Nat) (body : Bytes) :
    Alike (fun a b => Conn.SameWrites a b ∧ b.reads = s'.reads) (write_record s content_type version body)
      (write_record s' content_type version body) :=
  .ite (.error _) (h.write_all ..)

/-- A handshake over a connection has the results of one on a byte string, up to
where what is left over stands. -/
def SameResult (a b : HandshakeOutput × Conn) : Prop :=
  b.1 = { a.1 with leftover := b.1.leftover } ∧ Conn.SameWrites a.2 b.2 ∧ Delivers b.1.leftover b.2.reads a.1.leftover

/-- A handshake whose reads deliver `t` goes as on `t`. -/
theorem drive_delivers (c : Crypto) {s s' : Conn} {t : Bytes} (hw : Conn.SameWrites s s') (h : Delivers [] s'.reads t)
    (input : HandshakeInput) (verify_cert : Bytes → Except Stop Unit) :
    Alike SameResult (drive_on c s t input verify_cert) (drive c s' input verify_cert) := by
  unfold drive_on drive
  refine (write_record_same hw ..).bind ?_
  rintro s₁ s₁' ⟨hw₁, hr₁⟩
  refine (hw₁.write_all ..).bind ?_
  rintro s₂ s₂' ⟨hw₂, hr₂⟩
  refine (hw₂.attempt ..).bind ?_
  rintro s₃ s₃' ⟨hw₃, hr₃⟩
  rw [← hr₁, ← hr₂, ← hr₃] at h
  refine (RecordReader.next_delivers (r := .new) h).bind ?_
  rintro ⟨first, t₁⟩ ⟨_, reader, reads⟩ ⟨rfl, hread⟩
  dsimp only at hread ⊢
  refine Alike.ite (.error _) ?_
  refine Alike.bind_same fun sh => Alike.bind_same fun hs => ?_
  refine (flight_loop_delivers hread).bind ?_
  rintro ⟨f, t₂⟩ ⟨_, reader₂, reads₂⟩ ⟨rfl, hread₂⟩
  dsimp only at hread₂ ⊢
  -- Both seal the same Finished message.
  generalize RecordKeys.seal_record c _ _ _ = fin
  cases fin with
  | none => exact .error _
  | some fin =>
    refine (@Conn.SameWrites.write_all s₃ { s₃' with reads := reads₂ } hw₃ _ _).bind ?_
    rintro s₄ s₄' ⟨hw₄, hr₄⟩
    refine (hw₄.attempt ..).bind ?_
    rintro s₅ s₅' ⟨hw₅, hr₅⟩
    refine .ok ⟨rfl, hw₅, ?_⟩
    rw [hr₅, hr₄]
    exact hread₂

/-- `rest` is what follows the record that carries the Finished message in `t`. -/
def BehindFinished (c : Crypto) (input : HandshakeInput) (verify_cert : Bytes → Except Stop Unit) (t rest : Bytes) : Prop :=
  ∃ first recs fin sh hs,
    ServerHello.parse_server_hello first.payload input.expected_session_id = .ok sh ∧
    derive_handshake_keys c (c.x25519 input.client_eph_secret sh.server_key_share) input.client_hello first.payload = .ok hs ∧
    EndsFlight c verify_cert hs.s_hs_secret (.new hs.server_key hs.server_iv) .new
      { transcript := input.client_hello ++ first.payload, cert_verified := false } recs fin ∧
    t = (first :: recs ++ [fin]).flatMap OuterRecord.bytes ++ rest ∧
    ∀ r ∈ first :: recs ++ [fin], r.payload.length ≤ MAX_TLS_RECORD

theorem drive_on_behind {c : Crypto} {s s' : Conn} {t : Bytes} {input : HandshakeInput}
    {verify_cert : Bytes → Except Stop Unit} {out : HandshakeOutput}
    (h : drive_on c s t input verify_cert = .ok (out, s')) : BehindFinished c input verify_cert t out.leftover := by
  unfold drive_on at h
  obtain ⟨s₁, -, h⟩ := bind_eq_ok.1 h
  obtain ⟨s₂, -, h⟩ := bind_eq_ok.1 h
  obtain ⟨s₃, -, h⟩ := bind_eq_ok.1 h
  obtain ⟨⟨first, t₁⟩, hnext, h⟩ := bind_eq_ok.1 h
  dsimp only at h
  split at h
  · cases h
  · obtain ⟨sh, hsh, h⟩ := bind_eq_ok.1 h
    obtain ⟨hs, hhs, h⟩ := bind_eq_ok.1 h
    obtain ⟨⟨f, t₂⟩, hflight, h⟩ := bind_eq_ok.1 h
    dsimp only at h
    split at h
    · cases h
    · obtain ⟨s₄, -, h⟩ := bind_eq_ok.1 h
      obtain ⟨s₅, -, h⟩ := bind_eq_ok.1 h
      cases h
      obtain ⟨rfl, hmax⟩ := cut_record_eq_item.1 (next_on_eq_ok hnext)
      obtain ⟨recs, fin, hend, rfl, hall⟩ := flight_on_ends hflight
      exact ⟨first, recs, fin, sh, hs, hsh, hhs, hend, by simp, List.forall_mem_cons.2 ⟨hmax, hall⟩⟩

end Reality

end MiniVpn
