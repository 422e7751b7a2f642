import MiniVpn.Reality.Deliveries
import MiniVpn.Reality.Stream
/-!
# Segmentation of the server's bytes

`RecordReader` cuts records off the connection during the handshake, and
`RealityStream` goes on from what the reader had read ahead. Both cut where the
byte string is cut as a whole, so neither the handshake nor the records behind it
depend on the reads.
-/
open Lib

namespace MiniVpn

namespace Reality

/-! ## The stream behind the handshake -/

namespace RealityStream

/-- A call that takes no record off and does not fail changes nothing. -/
theorem decode_one_kept {c : Crypto} {s s' : RealityStream} {d : Option Decoded}
    (h : s.decode_one c = some (.ok d, s')) (hlt : ¬ s'.read_raw.length < s.read_raw.length) : s' = s := by
  by_contra hne
  have hd : d ≠ none := fun hd => hne ((decode_one_unread h).1 hd)
  have hunread := (decode_one_unread h).2 hd
  rw [unread, unread, decode_one_read_half h] at hunread
  omega

section
variable (c : Crypto)

/-- A round of the reading loop: a record is taken off the buffer, whether it opens
or not, or the buffer grows, or neither and a call returns. -/
inductive FrameStep where
  | took (record : Bytes) (s : RealityStream)
  | grew (s : RealityStream)
  | ends (last : Poll Bytes)

def frame_step (s : RealityStream) : Option FrameStep :=
  match s.decode_one c with
  | none => none
  | some (r, s') =>
    if s'.read_raw.length < s.read_raw.length then
      some (.took (s.read_raw.take (s.read_raw.length - s'.read_raw.length)) s')
    else
      match r with
      | .error e => some (.ends (.error e))
      | .ok _ =>
        match s'.read_more with
        | (none, s'') => some (.grew s'')
        | (some last, _) => some (.ends last)

variable {c} in
theorem took_unread {s s' : RealityStream} {record : Bytes} (h : s.frame_step c = some (.took record s')) :
    s'.unread < s.unread := by
  unfold frame_step at h
  split at h
  · cases h
  · rename_i r s₁ hdec
    split at h
    · cases h
      rw [unread, unread, decode_one_read_half hdec]
      omega
    · split at h
      · cases h
      · split at h <;> cases h

variable {c} in
theorem grew_unread {s s' : RealityStream} (h : s.frame_step c = some (.grew s')) : s'.unread < s.unread := by
  unfold frame_step at h
  split at h
  · cases h
  · rename_i r s₁ hdec
    split at h
    · cases h
    · rename_i hlt
      split at h
      · cases h
      · split at h
        · rename_i hmore
          cases h
          rw [decode_one_kept hdec hlt] at hmore
          exact read_more_unread hmore
        · cases h

/-- All records that a consumer's calls take off the connection, and the result of
the call that finds no other one. -/
def frames (s : RealityStream) : Option (List Bytes × Poll Bytes) :=
  match _h : s.frame_step c with
  | none => none
  | some (.took record s') =>
    match frames s' with
    | none => none
    | some (recs, last) => some (record :: recs, last)
  | some (.grew s') => frames s'
  | some (.ends last) => some ([], last)
termination_by s.unread
decreasing_by
  · exact took_unread _h
  · exact grew_unread _h

/-- The stream over another connection. -/
def withIo (s : RealityStream) (raw : Bytes) (reads : List (Poll Bytes)) (writes : List (Poll Nat)) : RealityStream :=
  { s with read_raw := raw, read_half := reads, write_half := writes }

/-- What `decode_one` does once a record is cut off. -/
def decode_record (s : RealityStream) (r : OuterRecord) : Option (Except IoError (Option Decoded) × RealityStream) :=
  match s.recv_keys.open_record c r.header r.payload with
  | none => none
  | some (.error m, keys) => some (.error ⟨.InvalidData, "REALITY error: " ++ m⟩, { s with recv_keys := keys })
  | some (.ok (inner, content), keys) =>
    match { s with recv_keys := keys }.on_content c inner content with
    | none => none
    | some (.error e, s) => some (.error e, s)
    | some (.ok d, s) => some (.ok (some d), s)

variable {c} {raw : Bytes} {reads : List (Poll Bytes)} {writes : List (Poll Nat)}

theorem on_key_update_withIo (s : RealityStream) (msg : Bytes) :
    (s.withIo raw reads writes).on_key_update c msg =
      (s.on_key_update c msg).map fun r => (r.1, r.2.withIo raw reads writes) := by
  unfold on_key_update
  split
  · split
    · rfl
    · dsimp only
      split
      · change Option.bind (s.send_keys.seal_record c _ _) _ = Option.map _ (Option.bind (s.send_keys.seal_record c _ _) _)
        cases s.send_keys.seal_record c 0x16 [0x18, 0x00, 0x00, 0x01, 0x00] with
        | none => rfl
        | some x => rfl
      · rfl
  · rfl

theorem on_handshake_withIo (s : RealityStream) (rest : Bytes) :
    (s.withIo raw reads writes).on_handshake c rest =
      (s.on_handshake c rest).map fun r => (r.1, r.2.withIo raw reads writes) := by
  fun_induction on_handshake c s rest with
  | case1 s typ l₂ l₁ l₀ tail len hlen =>
    unfold on_handshake
    dsimp only
    rw [if_pos hlen]
    rfl
  | case2 s l₂ l₁ l₀ tail len hlen hk =>
    rw [on_handshake, if_neg hlen, if_pos rfl, on_key_update_withIo, hk]
    rfl
  | case3 s l₂ l₁ l₀ tail len hlen e s₁ hk =>
    rw [on_handshake, if_neg hlen, if_pos rfl, on_key_update_withIo, hk]
    rfl
  | case4 s l₂ l₁ l₀ tail len hlen s₁ hk ih =>
    rw [on_handshake, if_neg hlen, if_pos rfl, on_key_update_withIo, hk]
    exact ih
  | case5 s typ l₂ l₁ l₀ tail len hlen htyp ih =>
    rw [on_handshake, if_neg hlen, if_neg htyp]
    exact ih
  | case6 s rest hrest =>
    rw [on_handshake]
    · rfl
    · exact hrest

theorem on_content_withIo (s : RealityStream) (inner : UInt8) (content : Bytes) :
    (s.withIo raw reads writes).on_content c inner content =
      (s.on_content c inner content).map fun r => (r.1, r.2.withIo raw reads writes) := by
  unfold on_content
  rw [on_handshake_withIo]
  split
  · rfl
  · split
    · split <;> rfl
    · split
      · cases s.on_handshake c content with
        | none => rfl
        | some x =>
          obtain ⟨_ | _, _⟩ := x <;> rfl
      · rfl

theorem decode_one_item {r : OuterRecord} {rest : Bytes} (h : cut_record raw = .item r rest) (s : RealityStream) :
    (s.withIo raw reads writes).decode_one c =
      (s.decode_record c r).map fun x => (x.1, x.2.withIo rest reads writes) := by
  cases cut_of_eq h with
  | @whole ct v₁ v₀ l₁ l₀ tail hmax hbody =>
    unfold decode_one decode_record
    rw [OuterRecord.header_take (not_lt.1 hbody)]
    simp only [withIo, if_neg hmax, if_neg hbody]
    cases s.recv_keys.open_record c [ct, v₁, v₀, l₁, l₀] (tail.take (Wire.ofBe [l₁, l₀])) with
    | none => rfl
    | some x =>
      obtain ⟨_ | ⟨inner, content⟩, keys⟩ := x
      · rfl
      · have hcont := @on_content_withIo c (tail.drop (Wire.ofBe [l₁, l₀])) reads writes { s with recv_keys := keys } inner
          content
        simp only [withIo] at hcont
        simp only [hcont]
        cases { s with recv_keys := keys }.on_content c inner content with
        | none => rfl
        | some y => obtain ⟨_ | _, _⟩ := y <;> rfl

theorem decode_one_bad {len : Nat} (h : cut_record raw = .bad len) (s : RealityStream) :
    (s.withIo raw reads writes).decode_one c =
      some (.error ⟨.InvalidData, "REALITY record 超长"⟩, s.withIo raw reads writes) := by
  cases cut_of_eq h with
  | tooLong hmax => exact if_pos hmax

theorem decode_one_more (h : cut_record raw = .more) (s : RealityStream) :
    (s.withIo raw reads writes).decode_one c = some (.ok none, s.withIo raw reads writes) := by
  cases cut_of_eq h with
  | short hshort =>
    unfold decode_one
    split
    · rename_i hraw
      rw [show (s.withIo raw reads writes).read_raw = raw from rfl] at hraw
      simp only [hraw, List.length_cons] at hshort
      omega
    · rfl
  | waits hmax hbody => exact (if_neg hmax).trans (if_pos hbody)

theorem frames_panics {s : RealityStream} (h : s.frame_step c = none) : s.frames c = none := by
  rw [frames]
  split <;> simp_all

theorem frames_took {s s' : RealityStream} {record : Bytes} (h : s.frame_step c = some (.took record s')) :
    s.frames c = (s'.frames c).map fun x => (record :: x.1, x.2) := by
  rw [frames]
  split <;> simp_all
  split <;> simp_all

theorem frames_grew {s s' : RealityStream} (h : s.frame_step c = some (.grew s')) : s.frames c = s'.frames c := by
  rw [frames]
  split <;> simp_all

theorem frames_ends {s : RealityStream} {last : Poll Bytes} (h : s.frame_step c = some (.ends last)) :
    s.frames c = some ([], last) := by
  rw [frames]
  split <;> simp_all

theorem frames_item {r : OuterRecord} {rest : Bytes} (h : cut_record raw = .item r rest) (s : RealityStream) :
    (s.withIo raw reads writes).frames c = (s.decode_record c r).bind fun x =>
      ((x.2.withIo rest reads writes).frames c).map fun y => (r.bytes :: y.1, y.2) := by
  have hdec := @decode_one_item c raw reads writes r rest h s
  cases hrec : s.decode_record c r with
  | none =>
    rw [hrec] at hdec
    apply frames_panics
    rw [frame_step, hdec]
    rfl
  | some x =>
    obtain ⟨rfl, -⟩ := cut_record_eq_item.1 h
    have hlt : rest.length < (r.bytes ++ rest).length := tls.item_lt h
    have htake : (r.bytes ++ rest).take ((r.bytes ++ rest).length - rest.length) = r.bytes := by
      rw [List.length_append, Nat.add_sub_cancel, List.take_left' rfl]
    rw [hrec] at hdec
    refine frames_took ?_
    rw [frame_step, hdec]
    exact (if_pos hlt).trans (congrArg (fun b => some (FrameStep.took b _)) htake)

theorem frames_bad {len : Nat} (h : cut_record raw = .bad len) (s : RealityStream) :
    (s.withIo raw reads writes).frames c = some ([], .error ⟨.InvalidData, "REALITY record 超长"⟩) := by
  apply frames_ends
  rw [frame_step, decode_one_bad h]
  exact if_neg (lt_irrefl _)

theorem frames_more (h : cut_record raw = .more) (s : RealityStream) (b : UInt8) (bs : Bytes) :
    (s.withIo raw (.ready (b :: bs) :: reads) writes).frames c = (s.withIo (raw ++ b :: bs) reads writes).frames c := by
  apply frames_grew
  rw [frame_step, decode_one_more h]
  exact if_neg (lt_irrefl _)

theorem frames_eof (h : cut_record raw = .more) (s : RealityStream) :
    (s.withIo raw [.ready []] writes).frames c =
      some ([], if raw.isEmpty then .ready [] else .error ⟨.UnexpectedEof, "REALITY 流在 record 中途被截断"⟩) := by
  apply frames_ends
  rw [frame_step, decode_one_more h]
  refine (if_neg (lt_irrefl _)).trans ?_
  cases raw <;> rfl

/-- The reads of a stream whose connection delivers `chunks` and ends. -/
def polls (chunks : List Bytes) : List (Poll Bytes) := chunks.map .ready ++ [.ready []]

theorem frames_delivered (s : RealityStream) (raw : Bytes) (chunks : List Bytes) (hne : ∀ b ∈ chunks, b ≠ []) :
    (s.withIo raw (polls chunks) writes).frames c = (s.withIo (raw ++ chunks.flatten) (polls []) []).frames c := by
  cases hc : cut_record raw with
  | item r rest =>
    have hlt : rest.length < raw.length := tls.item_lt hc
    rw [frames_item hc, frames_item (tls.item_append hc chunks.flatten)]
    refine congrArg (Option.bind _) (funext fun x => ?_)
    rw [frames_delivered x.2 rest chunks hne]
  | bad len => rw [frames_bad hc, frames_bad (tls.bad_append hc chunks.flatten)]
  | more =>
    cases chunks with
    | nil =>
      rw [List.flatten_nil, List.append_nil]
      exact (frames_eof hc s).trans (frames_eof hc s).symm
    | cons chunk chunks =>
      obtain ⟨b, bs, rfl⟩ := List.exists_cons_of_ne_nil (hne chunk (by simp))
      rw [List.flatten_cons, ← List.append_assoc, ← frames_delivered s (raw ++ b :: bs) chunks fun x hx => hne x (by simp [hx])]
      exact frames_more hc s b bs
termination_by (chunks.length, raw.length)

end

end RealityStream

/-- What the reader of the handshake says at the end of its records. -/
def Ending.stop : Ending → Stop
  | .tooLong len => .error s!"record 长度 {len} 超 TLS 上限"
  | .short tail => .error (if tail.length < 5 then "连接关闭（读 record 头 EOF）" else "连接关闭（读 record body EOF）")

/-- What the stream returns there. -/
def Ending.poll : Ending → Poll Bytes
  | .tooLong _ => .error ⟨.InvalidData, "REALITY record 超长"⟩
  | .short tail => if tail.isEmpty then .ready [] else .error ⟨.UnexpectedEof, "REALITY 流在 record 中途被截断"⟩

theorem RealityStream.frames_records {c : Crypto} {s : RealityStream} {t : Bytes} {writes : List (Poll Nat)}
    {recs : List Bytes} {last : Poll Bytes} (h : (s.withIo t (polls []) writes).frames c = some (recs, last)) :
    recs = (records t).map OuterRecord.bytes ∧ last = (ending t).poll := by
  cases hc : cut_record t with
  | item r rest =>
    have hlt : rest.length < t.length := tls.item_lt hc
    rw [frames_item hc] at h
    obtain ⟨x, -, hx⟩ := Option.bind_eq_some_iff.1 h
    obtain ⟨y, hy, heq⟩ := Option.map_eq_some_iff.1 hx
    cases heq
    obtain ⟨hrecs, hend⟩ := frames_records hy
    rw [(records_item hc).1, (records_item hc).2, hrecs, hend]
    exact ⟨rfl, rfl⟩
  | bad len =>
    rw [frames_bad hc] at h
    cases h
    rw [(records_bad hc).1, (records_bad hc).2]
    exact ⟨rfl, rfl⟩
  | more =>
    rw [polls, List.map_nil, List.nil_append, frames_eof hc] at h
    cases h
    rw [(records_more hc).1, (records_more hc).2]
    exact ⟨rfl, rfl⟩
termination_by t.length

/-- `next`, called until it fails. -/
def RecordReader.next_all (r : RecordReader) (reads : Reads) : List Bytes × Stop :=
  match _h : r.next reads with
  | .error e => ([], e)
  | .ok ((_, hdr, payload), r', reads') =>
    let (recs, e) := next_all r' reads'
    ((hdr ++ payload) :: recs, e)
termination_by r.buf.length + reads.size
decreasing_by
  obtain ⟨⟨v₁, v₀, rfl⟩, hc⟩ := RecordReader.next_consumed _h
  have := hc.size_le
  simp at this
  omega

namespace RecordReader

theorem next_all_error {r : RecordReader} {reads : Reads} {e : Stop} (h : r.next reads = .error e) :
    r.next_all reads = ([], e) := by
  rw [next_all]
  split <;> simp_all

theorem next_all_ok {r r' : RecordReader} {reads reads' : Reads} {x : UInt8 × Bytes × Bytes}
    (h : r.next reads = .ok (x, r', reads')) :
    r.next_all reads = ((x.2.1 ++ x.2.2) :: (r'.next_all reads').1, (r'.next_all reads').2) := by
  rw [next_all]
  split
  · simp_all
  · rename_i hnext
    rw [h] at hnext
    cases hnext
    rfl

theorem next_all_delivers {r : RecordReader} {reads : Reads} {t : Bytes} (h : Delivers r.buf reads t) :
    r.next_all reads = ((records t).map OuterRecord.bytes, (ending t).stop) := by
  have hnext := next_delivers h
  rw [next_on] at hnext
  cases hc : cut_record t with
  | item o rest =>
    have hlt : rest.length < t.length := tls.item_lt hc
    rw [hc] at hnext
    obtain ⟨⟨x, r', reads'⟩, heq, rfl, hrest⟩ := hnext.to_ok
    rw [next_all_ok heq, next_all_delivers hrest, (records_item hc).1, (records_item hc).2]
    rfl
  | bad len =>
    rw [hc] at hnext
    rw [next_all_error ((hnext.error_iff _).1 rfl), (records_bad hc).1, (records_bad hc).2]
    rfl
  | more =>
    rw [hc] at hnext
    rw [next_all_error ((hnext.error_iff _).1 rfl), (records_more hc).1, (records_more hc).2]
    rfl
termination_by t.length

end RecordReader

/-! ## Two deliveries of one byte string -/

/-- A connection that delivers `chunks` and ends. -/
def connection (faults : List (Option String)) (chunks : List Bytes) : Conn :=
  { reads := delivery chunks, faults := faults, written := [] }

/-- The stream over the connection of a handshake. -/
def HandshakeOutput.stream (out : HandshakeOutput) (reads : List (Poll Bytes)) (writes : List (Poll Nat)) : RealityStream :=
  .new reads writes out.recv_keys out.send_keys out.leftover out.s_ap_secret out.c_ap_secret

/-- Two handshakes over `s` ended alike, and the streams behind them have the same
records to come. -/
structure SameHandshake (c : Crypto) (input : HandshakeInput) (verify_cert : Bytes → Except Stop Unit) (s : Bytes)
    (a b : HandshakeOutput × Conn) : Prop where
  written : a.2.written = b.2.written
  recv_keys : a.1.recv_keys = b.1.recv_keys
  send_keys : a.1.send_keys = b.1.send_keys
  s_ap_secret : a.1.s_ap_secret = b.1.s_ap_secret
  c_ap_secret : a.1.c_ap_secret = b.1.c_ap_secret
  behind : ∃ rest unread₁ unread₂, BehindFinished c input verify_cert s rest ∧
    a.2.reads = delivery unread₁ ∧ a.1.leftover ++ unread₁.flatten = rest ∧
    b.2.reads = delivery unread₂ ∧ b.1.leftover ++ unread₂.flatten = rest ∧
    ∀ writes₁ writes₂,
      (a.1.stream (RealityStream.polls unread₁) writes₁).frames c =
        (b.1.stream (RealityStream.polls unread₂) writes₂).frames c ∧
      ∀ recs last, (a.1.stream (RealityStream.polls unread₁) writes₁).frames c = some (recs, last) →
        recs = (records rest).map OuterRecord.bytes

theorem HandshakeOutput.frames_stream {c : Crypto} {out out' : HandshakeOutput} {unread : List Bytes}
    {writes : List (Poll Nat)} (hout : out' = { out with leftover := out'.leftover }) (hne : ∀ b ∈ unread, b ≠ [])
    (h : out'.leftover ++ unread.flatten = out.leftover) :
    (out'.stream (RealityStream.polls unread) writes).frames c = (out.stream (RealityStream.polls []) []).frames c := by
  have hframes := @RealityStream.frames_delivered c writes (out.stream [] []) out'.leftover unread hne
  rw [h] at hframes
  rw [hout]
  exact hframes

theorem SameResult.handshakes {c : Crypto} {input : HandshakeInput} {verify_cert : Bytes → Except Stop Unit} {s : Bytes}
    {conn : Conn} {x a b : HandshakeOutput × Conn} (hok : drive_on c conn s input verify_cert = .ok x)
    (ha : SameResult x a) (hb : SameResult x b) : SameHandshake c input verify_cert s a b := by
  obtain ⟨hout₁, hw₁, unread₁, hne₁, hr₁, hl₁⟩ := ha
  obtain ⟨hout₂, hw₂, unread₂, hne₂, hr₂, hl₂⟩ := hb
  refine ⟨hw₁.2.trans hw₂.2.symm, ?_, ?_, ?_, ?_, x.1.leftover, unread₁, unread₂, drive_on_behind hok, hr₁, hl₁, hr₂, hl₂,
    fun writes₁ writes₂ => ?_⟩
  · rw [hout₁, hout₂]
  · rw [hout₁, hout₂]
  · rw [hout₁, hout₂]
  · rw [hout₁, hout₂]
  · rw [HandshakeOutput.frames_stream hout₁ hne₁ hl₁, HandshakeOutput.frames_stream hout₂ hne₂ hl₂]
    exact ⟨rfl, fun recs last h => (RealityStream.frames_records (s := x.1.stream [] []) h).1⟩

/-- How the server's bytes are cut into reads changes neither the handshake nor the
records behind it, and the two readers refuse the same record. -/
theorem segmentation_irrelevant (c : Crypto) (input : HandshakeInput) (verify_cert : Bytes → Except Stop Unit)
    (faults : List (Option String)) {s : Bytes} {chunks₁ chunks₂ : List Bytes} (hne₁ : ∀ b ∈ chunks₁, b ≠ [])
    (hne₂ : ∀ b ∈ chunks₂, b ≠ []) (hs₁ : chunks₁.flatten = s) (hs₂ : chunks₂.flatten = s) :
    Alike (SameHandshake c input verify_cert s) (drive c (connection faults chunks₁) input verify_cert)
      (drive c (connection faults chunks₂) input verify_cert) ∧
    ∀ (t : Bytes) (reader : RecordReader) (reads : Reads) (stream : RealityStream) (chunks recs : List Bytes)
      (last : Poll Bytes), Delivers reader.buf reads t → (∀ b ∈ chunks, b ≠ []) →
      stream.read_half = RealityStream.polls chunks → stream.read_raw ++ chunks.flatten = t →
      stream.frames c = some (recs, last) →
      ∃ e : Ending, reader.next_all reads = (recs, e.stop) ∧ last = e.poll ∧
        ∀ len, e = .tooLong len ↔ MAX_TLS_RECORD < len ∧ len < 65536 ∧ ∃ ct v₁ v₀ tail,
          t = recs.flatten ++ (ct :: v₁ :: v₀ :: Wire.be 2 len ++ tail) := by
  refine ⟨?_, ?_⟩
  · have h₁ := @drive_delivers c (connection faults []) (connection faults chunks₁) s ⟨rfl, rfl⟩ ⟨chunks₁, hne₁, rfl, hs₁⟩
      input verify_cert
    have h₂ := @drive_delivers c (connection faults []) (connection faults chunks₂) s ⟨rfl, rfl⟩ ⟨chunks₂, hne₂, rfl, hs₂⟩
      input verify_cert
    exact h₁.join h₂ fun x a b hok ha hb => ha.handshakes hok hb
  · intro t reader reads stream chunks recs last hread hne hhalf hraw hframes
    have heq : stream = stream.withIo stream.read_raw (RealityStream.polls chunks) stream.write_half := by
      rw [← hhalf]
      rfl
    rw [heq, RealityStream.frames_delivered _ _ _ hne, hraw] at hframes
    obtain ⟨rfl, rfl⟩ := RealityStream.frames_records hframes
    exact ⟨ending t, RecordReader.next_all_delivers hread, rfl, ending_eq_tooLong t⟩

namespace Sample

/-- Behind the handshake: a record that does not open, and a header that announces
65535 bytes. -/
def behind_handshake : Bytes := [0x17, 0x03, 0x03, 0x00, 0x02, 0xaa, 0xbb, 0x17, 0x03, 0x03, 0xff, 0xff]

def sent : Bytes := server_bytes ++ behind_handshake

def stream : RealityStream := .new (RealityStream.polls [behind_handshake.drop 3]) [] (.new server_key server_iv)
  (.new client_key client_iv) (behind_handshake.take 3) s_ap c_ap

end Sample

open Sample in
/-- The handshake completes, once with the bytes behind it read ahead and once cut
in the middle of a header. -/
theorem segmentation_irrelevant_read_ahead :
    (∃ a b, drive crypto (connection [] [sent]) input verify_cert = .ok a ∧
      drive crypto (connection [] [sent.take 98, sent.drop 98]) input verify_cert = .ok b ∧
      SameHandshake crypto input verify_cert sent a b) ∧
    ∃ e : Ending, (RecordReader.new.next_all (delivery [behind_handshake])) = ([behind_handshake.take 7], e.stop) ∧
      Poll.error ⟨.InvalidData, "REALITY record 超长"⟩ = e.poll := by
  have hsplit : ([sent.take 98, sent.drop 98] : List Bytes).flatten = sent := by simp
  have hsame := @segmentation_irrelevant crypto input verify_cert [] sent [sent] [sent.take 98, sent.drop 98]
    (by decide +kernel) (by decide +kernel) (by simp) hsplit
  refine ⟨?_, ?_⟩
  · have hok : (drive crypto (connection [] [sent]) input verify_cert).toOption.isSome = true := by decide +kernel
    cases h : drive crypto (connection [] [sent]) input verify_cert with
    | error e => simp [h, Except.toOption] at hok
    | ok a =>
      have halike := hsame.1
      rw [h] at halike
      obtain ⟨b, hb, hab⟩ := halike.to_ok
      exact ⟨a, b, rfl, hb, hab⟩
  · have hframes : stream.frames crypto =
        some ([behind_handshake.take 7], .error ⟨.InvalidData, "REALITY record 超长"⟩) := by decide +kernel
    obtain ⟨e, hall, hlast, -⟩ := hsame.2 behind_handshake .new (delivery [behind_handshake]) stream
      [behind_handshake.drop 3] _ _ ⟨[behind_handshake], by decide +kernel, rfl, rfl⟩ (by decide +kernel) rfl rfl hframes
    exact ⟨e, hall, hlast⟩

end Reality

end MiniVpn
