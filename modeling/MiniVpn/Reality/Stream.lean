import MiniVpn.Reality.Record
/-!
# An application stream

`RealityStream` of `reality_upstream.rs`: records are opened and sealed over a
TCP connection, the VLESS response header is cut off the server's data, and a
KeyUpdate of the server rotates the keys, also those of the sending side when it
asks for it. The two halves of the connection are scripts of what the coming
polls return. A model is `none` where the sequence number of a direction would
leave 64 bits, which panics.
-/
open Lib

namespace MiniVpn

namespace Reality

inductive ErrorKind where
  | InvalidData
  | ConnectionAborted
  | WriteZero
  | UnexpectedEof
  | Other
deriving DecidableEq, Repr

structure IoError where
  kind : ErrorKind
  message : String
deriving DecidableEq, Repr

/-- `Poll<io::Result<T>>`. -/
inductive Poll (α : Type) where
  | ready (a : α)
  | error (e : IoError)
  | pending
deriving DecidableEq, Repr

/-! ## The stream -/

/-- `VlessResponseStripper`. -/
structure VlessResponseStripper where
  stripped : Bool
deriving DecidableEq

namespace VlessResponseStripper

/-- Cuts the header off once all of it is there. -/
def strip (v : VlessResponseStripper) (buf : Bytes) : Bool × VlessResponseStripper × Bytes :=
  if v.stripped then (true, v, buf)
  else
    match buf with
    | _ :: addons_len :: _ =>
      let header_len := 2 + addons_len.toNat
      if buf.length < header_len then (false, v, buf) else (true, { stripped := true }, buf.drop header_len)
    | _ => (false, v, buf)

end VlessResponseStripper

structure RealityStream where
  /-- What the coming reads return; no bytes is the end of the stream. -/
  read_half : List (Poll Bytes)
  /-- How many bytes the coming writes take at most. -/
  write_half : List (Poll Nat)
  recv_keys : RecordKeys
  send_keys : RecordKeys
  read_raw : Bytes
  staging : Bytes
  plaintext_out : Bytes
  write_pending : Bytes
  resp : VlessResponseStripper
  server_ap_secret : Block 32
  client_ap_secret : Block 32
  /-- The bytes written so far. No code reads this. -/
  wire : Bytes
  /-- `request_update` of the KeyUpdate messages processed. No code reads this. -/
  key_updates : List UInt8

inductive Decoded where
  | Data (content : Bytes)
  | Drop
  | Eof
deriving DecidableEq

/-- `{:?}` of an `Option<u8>`. -/
def debug_option : Option UInt8 → String
  | some b => s!"Some({b})"
  | none => "None"

namespace RealityStream

def new (read_half : List (Poll Bytes)) (write_half : List (Poll Nat)) (recv_keys send_keys : RecordKeys) (leftover : Bytes)
    (server_ap_secret client_ap_secret : Block 32) : RealityStream :=
  { read_half := read_half
    write_half := write_half
    recv_keys := recv_keys
    send_keys := send_keys
    read_raw := leftover
    staging := []
    plaintext_out := []
    write_pending := []
    resp := { stripped := false }
    server_ap_secret := server_ap_secret
    client_ap_secret := client_ap_secret
    wire := []
    key_updates := [] }

section
variable (c : Crypto)

/-! ## Decoding -/

/-- The keys of the receiving side first; when the server asks for it, the reply is
sealed under the old sending keys before those rotate. -/
def on_key_update (s : RealityStream) (msg : Bytes) : Option (Except IoError Unit × RealityStream) :=
  match msg with
  | [_, 0x00, 0x00, 0x01, request_update] =>
    if 1 < request_update then
      some (.error ⟨.InvalidData, "REALITY KeyUpdate request_update 非法值（须 0/1）"⟩, s)
    else do
      let server_ap_secret := next_application_traffic_secret c s.server_ap_secret
      let s := { s with
        server_ap_secret := server_ap_secret
        recv_keys := record_keys_from_secret c server_ap_secret
        key_updates := s.key_updates ++ [request_update] }
      if request_update = 1 then
        let (reply, send_keys) ← s.send_keys.seal_record c 0x16 [0x18, 0x00, 0x00, 0x01, 0x00]
        let s := { s with send_keys := send_keys, write_pending := s.write_pending ++ reply }
        let client_ap_secret := next_application_traffic_secret c s.client_ap_secret
        return (.ok (), { s with
          client_ap_secret := client_ap_secret
          send_keys := record_keys_from_secret c client_ap_secret })
      else return (.ok (), s)
  | _ => some (.error ⟨.InvalidData, "REALITY KeyUpdate 帧非法（须 18 00 00 01 RU）"⟩, s)

/-- The loop over the messages of a handshake record. A message that is not
complete ends it. -/
def on_handshake (s : RealityStream) (rest : Bytes) : Option (Except IoError Unit × RealityStream) :=
  match rest with
  | typ :: l₂ :: l₁ :: l₀ :: tail =>
    let msg_len := Wire.ofBe [l₂, l₁, l₀]
    if tail.length < msg_len then some (.ok (), s)
    else if typ = 0x18 then
      match s.on_key_update c (typ :: l₂ :: l₁ :: l₀ :: tail.take msg_len) with
      | none => none
      | some (.error e, s) => some (.error e, s)
      | some (.ok (), s) => on_handshake s (tail.drop msg_len)
    else on_handshake s (tail.drop msg_len)
  | _ => some (.ok (), s)
termination_by rest.length
decreasing_by all_goals exact Wire.length_drop_lt ..

/-- What the content of a record means, by its inner type. -/
def on_content (s : RealityStream) (inner : UInt8) (content : Bytes) : Option (Except IoError Decoded × RealityStream) :=
  if inner = 0x17 then some (.ok (.Data content), s)
  else if inner = 0x15 then
    if content.head? = some 1 ∧ content[1]? = some 0 then some (.ok .Eof, s)
    else
      let level := debug_option content.head?
      let desc := debug_option content[1]?
      some (.error ⟨.ConnectionAborted, s!"REALITY 收到 TLS alert level={level} desc={desc}（server 拒绝/错误）"⟩, s)
  else if inner = 0x16 then
    match s.on_handshake c content with
    | none => none
    | some (.error e, s) => some (.error e, s)
    | some (.ok (), s) => some (.ok .Drop, s)
  else some (.ok .Drop, s)

def decode_one (s : RealityStream) : Option (Except IoError (Option Decoded) × RealityStream) :=
  match s.read_raw with
  | h₀ :: h₁ :: h₂ :: l₁ :: l₀ :: rest =>
    let header := [h₀, h₁, h₂, l₁, l₀]
    let len := Wire.ofBe [l₁, l₀]
    if MAX_TLS_RECORD < len then some (.error ⟨.InvalidData, "REALITY record 超长"⟩, s)
    else if rest.length < len then some (.ok none, s)
    else
      match s.recv_keys.open_record c header (rest.take len) with
      | none => none
      | some (.error m, keys) =>
        some (.error ⟨.InvalidData, "REALITY error: " ++ m⟩, { s with read_raw := rest.drop len, recv_keys := keys })
      | some (.ok (inner, content), keys) =>
        match { s with read_raw := rest.drop len, recv_keys := keys }.on_content c inner content with
        | none => none
        | some (.error e, s) => some (.error e, s)
        | some (.ok d, s) => some (.ok (some d), s)
  | _ => some (.ok none, s)

def absorb_app (s : RealityStream) (content : Bytes) : RealityStream :=
  if s.resp.stripped then { s with plaintext_out := s.plaintext_out ++ content }
  else
    let (done, resp, staging) := s.resp.strip (s.staging ++ content)
    if done then { s with resp := resp, plaintext_out := s.plaintext_out ++ staging, staging := [] }
    else { s with resp := resp, staging := staging }

/-! ## Writing -/

/-- The loop of `poll_flush_pending`: the answers of the writer still to come, what
is to be written, what has been written. -/
def flush_loop : List (Poll Nat) → Bytes → Bytes → Poll Unit × List (Poll Nat) × Bytes × Bytes
  | writes, [], wire => (.ready (), writes, [], wire)
  | [], pending, wire => (.pending, [], pending, wire)
  | .pending :: writes, pending, wire => (.pending, writes, pending, wire)
  | .error e :: writes, pending, wire => (.error e, writes, pending, wire)
  | .ready 0 :: writes, pending, wire => (.error ⟨.WriteZero, "REALITY 写 0 字节"⟩, writes, pending, wire)
  | .ready (k + 1) :: writes, pending, wire => flush_loop writes (pending.drop (k + 1)) (wire ++ pending.take (k + 1))

def poll_flush_pending (s : RealityStream) : Poll Unit × RealityStream :=
  let (r, writes, pending, wire) := flush_loop s.write_half s.write_pending s.wire
  (r, { s with write_half := writes, write_pending := pending, wire := wire })

def MAX_PLAINTEXT : Nat := 16384

def poll_write (s : RealityStream) (buf : Bytes) : Option (Poll Nat × RealityStream) :=
  match s.poll_flush_pending with
  | (.pending, s) => some (.pending, s)
  | (.error e, s) => some (.error e, s)
  | (.ready (), s) =>
    if buf.isEmpty then some (.ready 0, s)
    else do
      let n := min buf.length MAX_PLAINTEXT
      let (rec, send_keys) ← s.send_keys.seal_record c 0x17 (buf.take n)
      let s := { s with send_keys := send_keys, write_pending := s.write_pending ++ rec }
      match s.poll_flush_pending with
      | (.error e, s) => return (.error e, s)
      | (_, s) => return (.ready n, s)

/-- `inner` is the answer of the writer to its own flush. -/
def poll_flush (s : RealityStream) (inner : Poll Unit) : Poll Unit × RealityStream :=
  match s.poll_flush_pending with
  | (.ready (), s) => (inner, s)
  | (r, s) => (r, s)

/-! ## Reading -/

/-- The flush at the head of the loop. -/
def flushed (s : RealityStream) : Poll Unit × RealityStream :=
  if s.write_pending.isEmpty then (.ready (), s) else s.poll_flush_pending

/-- More bytes from the connection: `none` when there are some. -/
def read_more (s : RealityStream) : Option (Poll Bytes) × RealityStream :=
  match s.read_half with
  | [] => (some .pending, s)
  | .pending :: reads => (some .pending, { s with read_half := reads })
  | .error e :: reads => (some (.error e), { s with read_half := reads })
  | .ready [] :: reads =>
    let s := { s with read_half := reads }
    if s.read_raw.isEmpty then (some (.ready []), s)
    else (some (.error ⟨.UnexpectedEof, "REALITY 流在 record 中途被截断"⟩), s)
  | .ready (b :: filled) :: reads => (none, { s with read_half := reads, read_raw := s.read_raw ++ b :: filled })

/-- A round of the loop after its flush. -/
def read_step (s : RealityStream) (remaining : Nat) : Option (Option (Poll Bytes) × RealityStream) :=
  if !s.plaintext_out.isEmpty then
    let n := min remaining s.plaintext_out.length
    some (some (.ready (s.plaintext_out.take n)), { s with plaintext_out := s.plaintext_out.drop n })
  else
    match s.decode_one c with
    | none => none
    | some (.error e, s) => some (some (.error e), s)
    | some (.ok (some (.Data content)), s) => some (none, s.absorb_app content)
    | some (.ok (some .Drop), s) => some (none, s)
    | some (.ok (some .Eof), s) => some (some (.ready []), s)
    | some (.ok none, s) => some s.read_more

/-- One round of the loop of `poll_read`: a result, or another round. -/
def read_turn (s : RealityStream) (remaining : Nat) : Option (Option (Poll Bytes) × RealityStream) :=
  match s.flushed with
  | (.error e, s) => some (some (.error e), s)
  | (_, s) => s.read_step c remaining

/-! ### The loop ends -/

/-- What decoding and flushing leave alone. -/
def inbound (s : RealityStream) : List (Poll Bytes) × Bytes × Bytes × Bytes × VlessResponseStripper :=
  (s.read_half, s.read_raw, s.staging, s.plaintext_out, s.resp)

variable {c}

theorem on_key_update_inbound {s s' : RealityStream} {msg : Bytes} {r : Except IoError Unit}
    (h : s.on_key_update c msg = some (r, s')) : s'.inbound = s.inbound := by
  unfold on_key_update at h
  split at h
  · split at h
    · simp only [Option.some.injEq, Prod.mk.injEq] at h
      rw [← h.2]
    · dsimp only at h
      split at h
      · simp only [Option.bind_eq_bind, Option.bind_eq_some_iff, Option.pure_def, Option.some.injEq, Prod.mk.injEq] at h
        obtain ⟨_, _, _, rfl⟩ := h
        rfl
      · simp only [Option.pure_def, Option.some.injEq, Prod.mk.injEq] at h
        rw [← h.2]
        rfl
  · simp only [Option.some.injEq, Prod.mk.injEq] at h
    rw [← h.2]

/-- What every KeyUpdate keeps, the messages of a record keep. -/
theorem on_handshake_inv {P : RealityStream → Prop}
    (hkey : ∀ s msg r s', P s → s.on_key_update c msg = some (r, s') → P s') {s s' : RealityStream} {rest : Bytes}
    {r : Except IoError Unit} (h : P s) (hr : s.on_handshake c rest = some (r, s')) : P s' := by
  fun_induction on_handshake c s rest with
  | case1 | case6 =>
    obtain ⟨-, rfl⟩ := Prod.mk.inj (Option.some.inj hr)
    exact h
  | case2 => cases hr
  | case3 s l₂ l₁ l₀ tail len hlen e s₁ hk =>
    obtain ⟨-, rfl⟩ := Prod.mk.inj (Option.some.inj hr)
    exact hkey _ _ _ _ h hk
  | case4 s l₂ l₁ l₀ tail len hlen s₁ hk ih => exact ih (hkey _ _ _ _ h hk) hr
  | case5 s typ l₂ l₁ l₀ tail len hlen htyp ih => exact ih h hr

theorem on_content_inv {P : RealityStream → Prop}
    (hkey : ∀ s msg r s', P s → s.on_key_update c msg = some (r, s') → P s') {s s' : RealityStream} {inner : UInt8}
    {content : Bytes} {r : Except IoError Decoded} (h : P s) (hr : s.on_content c inner content = some (r, s')) : P s' := by
  unfold on_content at hr
  split at hr
  · obtain ⟨-, rfl⟩ := Prod.mk.inj (Option.some.inj hr)
    exact h
  · split at hr
    · split at hr <;>
      · obtain ⟨-, rfl⟩ := Prod.mk.inj (Option.some.inj hr)
        exact h
    · split at hr
      · split at hr
        · cases hr
        all_goals
          rename_i hs
          obtain ⟨-, rfl⟩ := Prod.mk.inj (Option.some.inj hr)
          exact on_handshake_inv hkey h hs
      · obtain ⟨-, rfl⟩ := Prod.mk.inj (Option.some.inj hr)
        exact h

theorem on_content_inbound {s s' : RealityStream} {inner : UInt8} {content : Bytes} {r : Except IoError Decoded}
    (h : s.on_content c inner content = some (r, s')) : s'.inbound = s.inbound :=
  on_content_inv (P := fun t => t.inbound = s.inbound) (fun _ _ _ _ ht hk => (on_key_update_inbound hk).trans ht) rfl h

/-- The bytes of a read. -/
def read_bytes : Poll Bytes → Bytes
  | .ready b => b
  | _ => []

/-- Bytes that were read and not decoded, and those still to be read. -/
def unread (s : RealityStream) : Nat :=
  s.read_raw.length + (s.read_half.map fun r => 1 + (read_bytes r).length).sum

theorem unread_congr {s s' : RealityStream} (h : s'.inbound = s.inbound) : s'.unread = s.unread := by
  simp only [inbound, Prod.mk.injEq] at h
  rw [unread, unread, h.1, h.2.1]

/-- What `decode_one` can do: nothing, drop a record that does not open, or hand on
the content of one. -/
inductive DecodeStep (c : Crypto) (s : RealityStream) : Except IoError (Option Decoded) → RealityStream → Prop
  | waits : DecodeStep c s (.ok none) s
  | refused (e : IoError) : DecodeStep c s (.error e) s
  | unopened (e : IoError) (rest : Bytes) (keys : RecordKeys) :
      DecodeStep c s (.error e) { s with read_raw := rest, recv_keys := keys }
  | content {rest : Bytes} {keys : RecordKeys} {inner : UInt8} {content : Bytes} {r : Except IoError Decoded}
      {s' : RealityStream} (hrest : rest.length < s.read_raw.length)
      (hcont : { s with read_raw := rest, recv_keys := keys }.on_content c inner content = some (r, s')) :
      DecodeStep c s (r.map some) s'

theorem decode_one_step {s s' : RealityStream} {r : Except IoError (Option Decoded)} (h : s.decode_one c = some (r, s')) :
    DecodeStep c s r s' := by
  unfold decode_one at h
  split at h
  · rename_i h₀ h₁ h₂ l₁ l₀ rest hraw
    have hrest : (rest.drop (Wire.ofBe [l₁, l₀])).length < s.read_raw.length := by
      rw [hraw, List.length_drop]
      simp only [List.length_cons]
      omega
    dsimp only at h
    split at h
    · obtain ⟨rfl, rfl⟩ := Prod.mk.inj (Option.some.inj h)
      exact .refused _
    · split at h
      · obtain ⟨rfl, rfl⟩ := Prod.mk.inj (Option.some.inj h)
        exact .waits
      · split at h
        · cases h
        · obtain ⟨rfl, rfl⟩ := Prod.mk.inj (Option.some.inj h)
          exact .unopened _ _ _
        · split at h
          · cases h
          all_goals
            rename_i hcont
            obtain ⟨rfl, rfl⟩ := Prod.mk.inj (Option.some.inj h)
            exact .content hrest hcont
  · obtain ⟨rfl, rfl⟩ := Prod.mk.inj (Option.some.inj h)
    exact .waits

/-- A record that is decoded leaves the buffer; without one nothing changes. -/
theorem decode_one_unread {s s' : RealityStream} {d : Option Decoded} (h : s.decode_one c = some (.ok d, s')) :
    (d = none → s' = s) ∧ (d ≠ none → s'.unread < s.unread) := by
  generalize hr : Except.ok d = r at h
  cases decode_one_step h with
  | waits => simp_all
  | refused e => cases hr
  | unopened e rest keys => cases hr
  | content hrest hcont =>
    rename_i r'
    obtain ⟨d', rfl⟩ : ∃ d', d = some d' := by
      cases r' with
      | error e => cases hr
      | ok d' => exact ⟨d', Except.ok.inj hr⟩
    refine ⟨by simp, fun _ => ?_⟩
    rw [unread_congr (on_content_inbound hcont)]
    simp only [unread]
    omega

theorem decode_one_read_half {s s' : RealityStream} {r : Except IoError (Option Decoded)}
    (h : s.decode_one c = some (r, s')) : s'.read_half = s.read_half := by
  cases decode_one_step h with
  | content hrest hcont => exact congrArg Prod.fst (on_content_inbound hcont)
  | _ => rfl

/-- Absorbing data moves it from the records to the consumer's side. -/
theorem absorb_app_frame (s : RealityStream) (content : Bytes) : ∃ resp staging plaintext_out,
    s.absorb_app content = { s with resp := resp, staging := staging, plaintext_out := plaintext_out } := by
  unfold absorb_app
  split
  · exact ⟨_, _, _, rfl⟩
  · dsimp only
    split <;> exact ⟨_, _, _, rfl⟩

theorem absorb_app_unread (s : RealityStream) (content : Bytes) : (s.absorb_app content).unread = s.unread := by
  obtain ⟨resp, staging, plaintext_out, heq⟩ := s.absorb_app_frame content
  rw [heq]
  rfl

theorem flushed_inbound (s : RealityStream) : s.flushed.2.inbound = s.inbound := by
  unfold flushed
  split <;> rfl

theorem read_more_unread {s s' : RealityStream} (h : s.read_more = (none, s')) : s'.unread < s.unread := by
  unfold read_more at h
  split at h
  · cases h
  · cases h
  · cases h
  · dsimp only at h
    split at h <;> cases h
  · rename_i b filled reads hreads
    obtain rfl := (Prod.mk.inj h).2
    simp only [unread, hreads, List.length_append, List.map_cons, List.sum_cons, read_bytes]
    omega

theorem read_step_unread {s s' : RealityStream} {n : Nat} (h : s.read_step c n = some (none, s')) :
    s'.unread < s.unread := by
  unfold read_step at h
  split at h
  · simp at h
  · split at h
    · cases h
    · simp at h
    · rename_i content s₁ hd
      simp only [Option.some.injEq, Prod.mk.injEq, true_and] at h
      rw [← h, absorb_app_unread]
      exact (decode_one_unread hd).2 (by simp)
    · rename_i s₁ hd
      simp only [Option.some.injEq, Prod.mk.injEq, true_and] at h
      rw [← h]
      exact (decode_one_unread hd).2 (by simp)
    · simp at h
    · rename_i s₁ hd
      rw [(decode_one_unread hd).1 rfl] at h
      exact read_more_unread (Option.some.inj h)

theorem read_turn_unread {s s' : RealityStream} {n : Nat} (h : s.read_turn c n = some (none, s')) :
    s'.unread < s.unread := by
  have hflush := unread_congr s.flushed_inbound
  unfold read_turn at h
  split at h
  · simp at h
  · rename_i r s₁ _ hf
    rw [hf] at hflush
    rw [← hflush]
    exact read_step_unread h

variable (c)

def poll_read (s : RealityStream) (remaining : Nat) : Option (Poll Bytes × RealityStream) :=
  match _h : s.read_turn c remaining with
  | none => none
  | some (some r, s') => some (r, s')
  | some (none, s') => poll_read s' remaining
termination_by s.unread
decreasing_by exact read_turn_unread _h

/-- The rule of the loop: when every round keeps `P` or ends the call in `Q`, the
call ends in `Q`. -/
theorem poll_read_loop {P : RealityStream → Prop} {Q : Poll Bytes → RealityStream → Prop} {n : Nat}
    (hturn : ∀ s, P s → (∃ s', s.read_turn c n = some (none, s') ∧ P s') ∨
      ∃ r s', s.read_turn c n = some (some r, s') ∧ Q r s') {s : RealityStream} (h : P s) :
    ∃ r s', s.poll_read c n = some (r, s') ∧ Q r s' := by
  fun_induction poll_read c s n with
  | case1 s hnone =>
    rcases hturn s h with ⟨s', hr, -⟩ | ⟨r, s', hr, -⟩ <;>
    · rw [hnone] at hr
      cases hr
  | case2 s r s₁ hlast =>
    rcases hturn s h with ⟨s', hr, -⟩ | ⟨r', s', hr, hq⟩
    · rw [hlast] at hr
      cases hr
    · rw [hlast] at hr
      cases hr
      exact ⟨_, _, rfl, hq⟩
  | case3 s s₁ hnext ih =>
    rcases hturn s h with ⟨s', hr, hp⟩ | ⟨r', s', hr, -⟩
    · rw [hnext] at hr
      cases hr
      exact ih hp
    · rw [hnext] at hr
      cases hr

/-! ### What reading keeps -/

/-- The part of the stream that only a flush and a KeyUpdate change. -/
def outward (s : RealityStream) : List (Poll Nat) × Bytes × Bytes × RecordKeys × Block 32 × List UInt8 :=
  (s.write_half, s.wire, s.write_pending, s.send_keys, s.client_ap_secret, s.key_updates)

theorem absorb_app_outward (s : RealityStream) (content : Bytes) : (s.absorb_app content).outward = s.outward := by
  obtain ⟨resp, staging, plaintext_out, heq⟩ := s.absorb_app_frame content
  rw [heq]
  rfl

/-- Whatever the next read is, it is used up, with its bytes in the buffer. -/
theorem read_more_snd (s : RealityStream) : s.read_more.2 = { s with
    read_half := s.read_half.tail
    read_raw := s.read_raw ++ (s.read_half.head?.map read_bytes).getD [] } := by
  unfold read_more
  split
  · rename_i hhalf
    cases s
    obtain rfl := hhalf
    simp
  all_goals
    rename_i hhalf
    simp only [hhalf, List.head?_cons, Option.map_some, Option.getD_some, List.tail_cons, read_bytes, List.append_nil]
  split <;> rfl

theorem read_more_outward (s : RealityStream) : s.read_more.2.outward = s.outward := by
  rw [read_more_snd]
  rfl

section
variable {c} {P : RealityStream → Prop}
variable (hout : ∀ s s', s'.outward = s.outward → P s → P s')
variable (hkey : ∀ s msg r s', P s → s.on_key_update c msg = some (r, s') → P s')
include hout hkey

theorem decode_one_inv {s s' : RealityStream} {r : Except IoError (Option Decoded)} (h : P s)
    (hr : s.decode_one c = some (r, s')) : P s' := by
  cases decode_one_step hr with
  | waits => exact h
  | refused e => exact h
  | unopened e rest keys => exact hout s _ rfl h
  | content hrest hcont =>
    refine on_content_inv hkey ?_ hcont
    exact hout s _ rfl h

theorem read_step_inv {s s' : RealityStream} {n : Nat} {r : Option (Poll Bytes)} (h : P s)
    (hr : s.read_step c n = some (r, s')) : P s' := by
  unfold read_step at hr
  split at hr
  · obtain ⟨-, rfl⟩ := Prod.mk.inj (Option.some.inj hr)
    exact hout s _ rfl h
  · split at hr
    · cases hr
    · rename_i hd
      obtain ⟨-, rfl⟩ := Prod.mk.inj (Option.some.inj hr)
      exact decode_one_inv hout hkey h hd
    · rename_i content s₁ hd
      obtain ⟨-, rfl⟩ := Prod.mk.inj (Option.some.inj hr)
      exact hout s₁ _ (absorb_app_outward s₁ content) (decode_one_inv hout hkey h hd)
    · rename_i hd
      obtain ⟨-, rfl⟩ := Prod.mk.inj (Option.some.inj hr)
      exact decode_one_inv hout hkey h hd
    · rename_i hd
      obtain ⟨-, rfl⟩ := Prod.mk.inj (Option.some.inj hr)
      exact decode_one_inv hout hkey h hd
    · rename_i s₁ hd
      have hmore := read_more_outward s₁
      rw [Option.some.inj hr] at hmore
      exact hout s₁ _ hmore (decode_one_inv hout hkey h hd)

variable (hflush : ∀ s, P s → P s.poll_flush_pending.2)
include hflush

theorem read_turn_inv {s s' : RealityStream} {n : Nat} {r : Option (Poll Bytes)} (h : P s)
    (hr : s.read_turn c n = some (r, s')) : P s' := by
  have hf : P s.flushed.2 := by
    unfold flushed
    split
    · exact h
    · exact hflush s h
  unfold read_turn at hr
  split at hr
  · rename_i hs
    rw [hs] at hf
    obtain ⟨-, rfl⟩ := Prod.mk.inj (Option.some.inj hr)
    exact hf
  · rename_i hs
    rw [hs] at hf
    exact read_step_inv hout hkey hf hr

/-- What flushes and KeyUpdates keep, a call of `poll_read` keeps. -/
theorem poll_read_inv {s s' : RealityStream} {n : Nat} {r : Poll Bytes} (h : P s) (hr : s.poll_read c n = some (r, s')) :
    P s' := by
  fun_induction poll_read c s n with
  | case1 => cases hr
  | case2 s r₁ s₁ hturn =>
    obtain ⟨-, rfl⟩ := Prod.mk.inj (Option.some.inj hr)
    exact read_turn_inv hout hkey hflush h hturn
  | case3 s s₁ hturn ih => exact ih (read_turn_inv hout hkey hflush h hturn) hr

end

/-! ## Using the stream -/

/-- A call of the consumer. -/
inductive Op where
  | read (remaining : Nat)
  | write (buf : Bytes)
  | flush (inner : Poll Unit)

inductive Outcome where
  | read (r : Poll Bytes)
  | write (buf : Bytes) (r : Poll Nat)
  | flush (r : Poll Unit)

def call (s : RealityStream) : Op → Option (Outcome × RealityStream)
  | .read remaining => (s.poll_read c remaining).map fun r => (.read r.1, r.2)
  | .write buf => (s.poll_write c buf).map fun r => (.write buf r.1, r.2)
  | .flush inner => some (.flush (s.poll_flush inner).1, (s.poll_flush inner).2)

/-- The outcomes of a sequence of calls. -/
def run (s : RealityStream) : List Op → Option (List Outcome × RealityStream)
  | [] => some ([], s)
  | op :: ops => do
    let (o, s) ← s.call c op
    let (os, s) ← s.run ops
    return (o :: os, s)

end

end RealityStream

end Reality

end MiniVpn
