import MiniVpn.Reality.Authentication
import MiniVpn.Reality.Stream
/-!
# What the peer can decrypt

Records enter `write_pending` from two sides: `poll_write` seals application
data, and the read path seals the answer to a KeyUpdate and rotates the sending
keys, also while older records are only partly written. What has been written
and what is pending is always one sequence of records that the receiver of
RFC 8446 reads, and it ends at the secret and sequence number the stream is at.
-/
open Lib

namespace MiniVpn

namespace Reality

namespace RealityStream

/-- The position of the sending side. -/
def position (s : RealityStream) : Tls13.Position (Block 32) := { secret := s.client_ap_secret, seq := s.send_keys.seq }

/-- A writer without I/O errors: it takes some bytes, or none for now. -/
def WriterOk (writes : List (Poll Nat)) : Prop := ∀ w ∈ writes, w = .pending ∨ ∃ k, w = .ready (k + 1)

/-- A receiver that starts at `start` reads all that was sent: the bytes accepted
from the consumer, and one KeyUpdate that asks for none for every one received
that asks for one. -/
structure Decryptable {c : Crypto} (hc : c.Lawful) (start : Tls13.Position (Block 32)) (accepted : Bytes)
    (s : RealityStream) : Prop where
  keys : s.send_keys = keys_at c s.position
  sent : ∃ items, Tls13.receive hc.suite start (s.wire ++ s.write_pending) = some (items, s.position) ∧
    items.flatMap Tls13.Item.app = accepted ∧
    items.flatMap Tls13.Item.requests = List.replicate (s.key_updates.count 1) false
  writer : WriterOk s.write_half

/-- The bytes a call has taken from the consumer. -/
def Outcome.accepted : Outcome → Bytes
  | .write buf (.ready n) => buf.take n
  | _ => []

/-! ## Flushing -/

theorem flush_loop_sent (writes : List (Poll Nat)) (pending wire : Bytes) :
    (flush_loop writes pending wire).2.2.2 ++ (flush_loop writes pending wire).2.2.1 = wire ++ pending := by
  fun_induction flush_loop writes pending wire with
  | case6 => simp_all
  | _ => rfl

theorem WriterOk.flush_loop {writes : List (Poll Nat)} (h : WriterOk writes) (pending wire : Bytes) :
    (∀ e, (flush_loop writes pending wire).1 ≠ .error e) ∧ WriterOk (flush_loop writes pending wire).2.1 := by
  fun_induction RealityStream.flush_loop writes pending wire with
  | case1 | case2 => exact ⟨by simp, h⟩
  | case3 writes => exact ⟨by simp, fun w hw => h w (List.mem_cons_of_mem _ hw)⟩
  | case4 e writes => simpa using h _ List.mem_cons_self
  | case5 writes => simpa using h _ List.mem_cons_self
  | case6 k writes pending wire hne ih => exact ih fun w hw => h w (List.mem_cons_of_mem _ hw)

theorem WriterOk.poll_flush_pending {s : RealityStream} (h : WriterOk s.write_half) (e : IoError) :
    s.poll_flush_pending.1 ≠ .error e := (h.flush_loop _ _).1 e

/-! ## Sealing -/

section
variable {c : Crypto} {hc : c.Lawful} {start : Tls13.Position (Block 32)} {accepted : Bytes}

theorem Decryptable.congr {s s' : RealityStream} (hout : s'.outward = s.outward) (h : Decryptable hc start accepted s) :
    Decryptable hc start accepted s' := by
  simp only [outward, Prod.mk.injEq] at hout
  obtain ⟨hwrites, hwire, hpending, hkeys, hsecret, hupd⟩ := hout
  have hpos : s'.position = s.position := by rw [position, position, hkeys, hsecret]
  exact ⟨by rw [hkeys, hpos]; exact h.keys, by rw [hwire, hpending, hpos, hupd]; exact h.sent, hwrites ▸ h.writer⟩

theorem Decryptable.flush {s : RealityStream} (h : Decryptable hc start accepted s) :
    Decryptable hc start accepted s.poll_flush_pending.2 := by
  refine ⟨h.keys, ?_, (h.writer.flush_loop _ _).2⟩
  simp only [poll_flush_pending, flush_loop_sent]
  exact h.sent

/-- One more record, sealed at the position of the stream. -/
theorem Decryptable.seal {s : RealityStream} (h : Decryptable hc start accepted s) {typ : UInt8} {content rec : Bytes}
    {keys : RecordKeys} {item : Tls13.Item} (hrec : s.send_keys.seal_record c typ content = some (rec, keys))
    (hlen : content.length ≤ MAX_PLAINTEXT) (hitem : Tls13.readItem (Tls13.inner typ content 0) = some item) :
    keys = keys_at c (s.position.after hc.suite false) ∧
    ∃ items, Tls13.receive hc.suite start (s.wire ++ s.write_pending ++ rec) =
        some (items, s.position.after hc.suite item.rotates) ∧
      items.flatMap Tls13.Item.app = accepted ++ item.app ∧
      items.flatMap Tls13.Item.requests = List.replicate (s.key_updates.count 1) false ++ item.requests := by
  rw [h.keys, seal_record_eq hc] at hrec
  obtain ⟨k, hk, heq⟩ := Option.map_eq_some_iff.1 hrec
  obtain ⟨rfl, rfl⟩ := Prod.mk.inj heq
  obtain ⟨items, hrecv, happ, hreq⟩ := h.sent
  refine ⟨?_, items ++ [item], ?_, by simp [happ], by simp [hreq]⟩
  · unfold RecordKeys.bump at hk
    split at hk
    · exact (Option.some.inj hk).symm
    · cases hk
  · have hone := Tls13.receive_protect s.position (S := hc.suite)
      (by simp only [MAX_PLAINTEXT] at hlen; omega) hitem []
    rw [List.append_nil, Tls13.receive_nil] at hone
    rw [Tls13.receive_append hrecv, hone]
    rfl

theorem Decryptable.seal_data {s : RealityStream} (h : Decryptable hc start accepted s) {content rec : Bytes}
    {keys : RecordKeys} (hrec : s.send_keys.seal_record c 0x17 content = some (rec, keys))
    (hlen : content.length ≤ MAX_PLAINTEXT) :
    Decryptable hc start (accepted ++ content)
      { s with send_keys := keys, write_pending := s.write_pending ++ rec } := by
  obtain ⟨rfl, items, hrecv, happ, hreq⟩ := h.seal hrec hlen
    (Tls13.readItem_data (by simp only [MAX_PLAINTEXT] at hlen; omega))
  refine ⟨rfl, ⟨items, ?_, happ, by simpa [Tls13.Item.requests] using hreq⟩, h.writer⟩
  rw [← List.append_assoc]
  exact hrecv

/-- The reply to a KeyUpdate, and the keys behind it. -/
theorem Decryptable.seal_update {s : RealityStream} (h : Decryptable hc start accepted s) {rec : Bytes} {keys : RecordKeys}
    (hrec : s.send_keys.seal_record c 0x16 [0x18, 0x00, 0x00, 0x01, 0x00] = some (rec, keys)) :
    Decryptable hc start accepted
      { s with
        write_pending := s.write_pending ++ rec
        client_ap_secret := next_application_traffic_secret c s.client_ap_secret
        send_keys := record_keys_from_secret c (next_application_traffic_secret c s.client_ap_secret)
        key_updates := s.key_updates ++ [1] } := by
  obtain ⟨-, items, hrecv, happ, hreq⟩ := h.seal hrec (by decide) (Tls13.readItem_keyUpdate false)
  refine ⟨rfl, ⟨items, ?_, by simpa [Tls13.Item.app] using happ, ?_⟩, h.writer⟩
  · rw [← List.append_assoc]
    exact hrecv
  · rw [hreq, List.count_append, List.count_singleton_self, List.replicate_add]
    rfl

/-! ## The calls of the consumer -/

theorem Decryptable.poll_write {s s' : RealityStream} {buf : Bytes} {r : Poll Nat} (h : Decryptable hc start accepted s)
    (hr : s.poll_write c buf = some (r, s')) :
    Decryptable hc start (accepted ++ (Outcome.write buf r).accepted) s' := by
  have h₁ := h.flush
  unfold RealityStream.poll_write at hr
  split at hr
  · rename_i s₁ hs
    rw [hs] at h₁
    obtain ⟨rfl, rfl⟩ := Prod.mk.inj (Option.some.inj hr)
    simpa [Outcome.accepted] using h₁
  · rename_i e s₁ hs
    exact absurd (congrArg Prod.fst hs) (h.writer.poll_flush_pending e)
  · rename_i s₁ hs
    rw [hs] at h₁
    split at hr
    · obtain ⟨rfl, rfl⟩ := Prod.mk.inj (Option.some.inj hr)
      simpa [Outcome.accepted] using h₁
    · simp only [Option.bind_eq_bind, Option.bind_eq_some_iff, Prod.exists] at hr
      obtain ⟨rec, keys, hseal, hr⟩ := hr
      have h₂ := h₁.seal_data hseal (by rw [List.length_take]; omega)
      have h₃ := h₂.flush
      split at hr
      · rename_i e s₂ hs₂
        exact absurd (congrArg Prod.fst hs₂) (h₂.writer.poll_flush_pending e)
      · rename_i hs₂
        rw [hs₂] at h₃
        obtain ⟨rfl, rfl⟩ := Prod.mk.inj (Option.some.inj hr)
        exact h₃

theorem Decryptable.poll_flush {s : RealityStream} (h : Decryptable hc start accepted s) (inner : Poll Unit) :
    Decryptable hc start accepted (s.poll_flush inner).2 := by
  have hf := h.flush
  unfold RealityStream.poll_flush
  split <;>
  · rename_i hs
    rwa [hs] at hf

theorem Decryptable.on_key_update {s s' : RealityStream} {msg : Bytes} {r : Except IoError Unit}
    (h : Decryptable hc start accepted s) (hr : s.on_key_update c msg = some (r, s')) : Decryptable hc start accepted s' := by
  unfold RealityStream.on_key_update at hr
  split at hr
  · rename_i typ request_update
    split at hr
    · obtain ⟨-, rfl⟩ := Prod.mk.inj (Option.some.inj hr)
      exact h
    · dsimp only at hr
      split at hr
      · rename_i h1
        subst h1
        simp only [Option.bind_eq_bind, Option.bind_eq_some_iff, Prod.exists] at hr
        obtain ⟨rec, keys, hseal, hr⟩ := hr
        obtain ⟨-, rfl⟩ := Prod.mk.inj (Option.some.inj hr)
        refine Decryptable.congr ?_ (h.seal_update hseal)
        rfl
      · rename_i h1
        obtain ⟨-, rfl⟩ := Prod.mk.inj (Option.some.inj hr)
        obtain ⟨items, hrecv, happ, hreq⟩ := h.sent
        refine ⟨h.keys, ⟨items, hrecv, happ, ?_⟩, h.writer⟩
        rw [hreq, List.count_append, List.count_singleton, if_neg (by simpa using h1)]
        rfl
  · obtain ⟨-, rfl⟩ := Prod.mk.inj (Option.some.inj hr)
    exact h

theorem Decryptable.call {s s' : RealityStream} {op : Op} {o : Outcome} (h : Decryptable hc start accepted s)
    (hr : s.call c op = some (o, s')) : Decryptable hc start (accepted ++ o.accepted) s' := by
  cases op with
  | read n =>
    obtain ⟨⟨r, s₁⟩, hread, heq⟩ := Option.map_eq_some_iff.1 hr
    obtain ⟨rfl, rfl⟩ := Prod.mk.inj heq
    rw [show (Outcome.read r).accepted = [] from rfl, List.append_nil]
    exact poll_read_inv (fun _ _ hout h => h.congr hout) (fun _ _ _ _ h hk => h.on_key_update hk) (fun _ h => h.flush)
      h hread
  | write buf =>
    obtain ⟨⟨r, s₁⟩, hwrite, heq⟩ := Option.map_eq_some_iff.1 hr
    obtain ⟨rfl, rfl⟩ := Prod.mk.inj heq
    exact h.poll_write hwrite
  | flush inner =>
    obtain ⟨rfl, rfl⟩ := Prod.mk.inj (Option.some.inj hr)
    rw [show (Outcome.flush (s.poll_flush inner).1).accepted = [] from rfl, List.append_nil]
    exact h.poll_flush inner

theorem Decryptable.run {s s' : RealityStream} {ops : List Op} {os : List Outcome} (h : Decryptable hc start accepted s)
    (hr : s.run c ops = some (os, s')) : Decryptable hc start (accepted ++ os.flatMap Outcome.accepted) s' := by
  induction ops generalizing s accepted os with
  | nil =>
    obtain ⟨rfl, rfl⟩ := Prod.mk.inj (Option.some.inj hr)
    simpa using h
  | cons op ops ih =>
    simp only [RealityStream.run, Option.bind_eq_bind, Option.bind_eq_some_iff, Prod.exists] at hr
    obtain ⟨o, s₁, hcall, os', s₂, hrun, hr⟩ := hr
    obtain ⟨rfl, rfl⟩ := Prod.mk.inj (Option.some.inj hr)
    rw [List.flatMap_cons, ← List.append_assoc]
    exact ih (h.call hcall) hrun

end

/-! ## Sequence numbers -/

/-- The sequence numbers have room for `k` more records sent, and for a record in
every byte that is not decoded. -/
structure Room (k : Nat) (s : RealityStream) : Prop where
  send : s.send_keys.seq + k < 2 ^ 64
  recv : s.recv_keys.seq + s.unread < 2 ^ 64

section
variable {c : Crypto} {k : Nat}

theorem exists_seal_record (keys : RecordKeys) (h : keys.seq + 1 < 2 ^ 64) (typ : UInt8) (content : Bytes) :
    ∃ rec, keys.seal_record c typ content = some (rec, { keys with seq := keys.seq + 1 }) := by
  have hbump : keys.bump = some { keys with seq := keys.seq + 1 } := if_pos h
  exact ⟨_, by rw [RecordKeys.seal_record, hbump]; rfl⟩

theorem exists_open_record (keys : RecordKeys) (h : keys.seq + 1 < 2 ^ 64) (header ct : Bytes) :
    ∃ r keys', keys.open_record c header ct = some (r, keys') ∧ keys'.seq ≤ keys.seq + 1 := by
  have hbump : keys.bump = some { keys with seq := keys.seq + 1 } := if_pos h
  unfold RecordKeys.open_record
  split
  · exact ⟨_, _, rfl, Nat.le_succ _⟩
  · rw [hbump]
    simp only [Option.bind_eq_bind, Option.bind_some]
    split <;> exact ⟨_, _, rfl, le_rfl⟩

theorem Room.on_key_update {s : RealityStream} (h : Room (k + 1) s) (msg : Bytes) :
    ∃ r s', s.on_key_update c msg = some (r, s') ∧ Room (k + 1) s' := by
  have hsend := h.send
  have hrecv := h.recv
  unfold RealityStream.on_key_update
  split
  · split
    · exact ⟨_, _, rfl, h⟩
    · dsimp only
      split
      · obtain ⟨reply, hseal⟩ := exists_seal_record (c := c) s.send_keys (by omega) 0x16 [0x18, 0x00, 0x00, 0x01, 0x00]
        rw [hseal]
        refine ⟨_, _, rfl, ?_, ?_⟩
        · show 0 + (k + 1) < 2 ^ 64
          omega
        · show 0 + s.unread < 2 ^ 64
          omega
      · refine ⟨_, _, rfl, h.send, ?_⟩
        show 0 + s.unread < 2 ^ 64
        omega
  · exact ⟨_, _, rfl, h⟩

theorem Room.on_handshake {s : RealityStream} (h : Room (k + 1) s) (rest : Bytes) :
    ∃ r s', s.on_handshake c rest = some (r, s') ∧ Room (k + 1) s' := by
  fun_induction RealityStream.on_handshake c s rest with
  | case1 | case6 => exact ⟨_, _, rfl, h⟩
  | case2 s l₂ l₁ l₀ tail len hlen hnone =>
    obtain ⟨r, s', hsome, -⟩ := h.on_key_update (c := c) (0x18 :: l₂ :: l₁ :: l₀ :: tail.take len)
    rw [hnone] at hsome
    cases hsome
  | case3 s l₂ l₁ l₀ tail len hlen e s₁ hk =>
    obtain ⟨r, s', hsome, hroom⟩ := h.on_key_update (c := c) (0x18 :: l₂ :: l₁ :: l₀ :: tail.take len)
    rw [hk] at hsome
    cases hsome
    exact ⟨_, _, rfl, hroom⟩
  | case4 s l₂ l₁ l₀ tail len hlen s₁ hk ih =>
    obtain ⟨r, s', hsome, hroom⟩ := h.on_key_update (c := c) (0x18 :: l₂ :: l₁ :: l₀ :: tail.take len)
    rw [hk] at hsome
    cases hsome
    exact ih hroom
  | case5 s typ l₂ l₁ l₀ tail len hlen htyp ih => exact ih h

theorem Room.on_content {s : RealityStream} (h : Room (k + 1) s) (inner : UInt8) (content : Bytes) :
    ∃ r s', s.on_content c inner content = some (r, s') ∧ Room (k + 1) s' := by
  obtain ⟨r, s', hmsgs, hroom⟩ := h.on_handshake (c := c) content
  unfold RealityStream.on_content
  rw [hmsgs]
  split
  · exact ⟨_, _, rfl, h⟩
  · split
    · split <;> exact ⟨_, _, rfl, h⟩
    · split
      · cases r <;> exact ⟨_, _, rfl, hroom⟩
      · exact ⟨_, _, rfl, h⟩

theorem Room.decode_one {s : RealityStream} (h : Room (k + 1) s) :
    ∃ r s', s.decode_one c = some (r, s') ∧ Room (k + 1) s' := by
  unfold RealityStream.decode_one
  split
  · rename_i h₀ h₁ h₂ l₁ l₀ rest hraw
    dsimp only
    split
    · exact ⟨_, _, rfl, h⟩
    · split
      · exact ⟨_, _, rfl, h⟩
      · have hrecv := h.recv
        rw [unread, hraw] at hrecv
        simp only [List.length_cons] at hrecv
        obtain ⟨r, keys, hopen, hseq⟩ := exists_open_record (c := c) s.recv_keys (by omega) [h₀, h₁, h₂, l₁, l₀]
          (rest.take (Wire.ofBe [l₁, l₀]))
        have hroom : Room (k + 1) { s with read_raw := rest.drop (Wire.ofBe [l₁, l₀]), recv_keys := keys } := by
          refine ⟨h.send, ?_⟩
          simp only [unread, List.length_drop]
          omega
        rw [hopen]
        rcases r with m | ⟨inner, content⟩
        · exact ⟨_, _, rfl, hroom⟩
        · obtain ⟨r, s', hcont, hroom'⟩ := hroom.on_content (c := c) inner content
          dsimp only
          rw [hcont]
          cases r <;> exact ⟨_, _, rfl, hroom'⟩
  · exact ⟨_, _, rfl, h⟩

theorem Room.congr {s s' : RealityStream} (h : Room k s) (hsend : s'.send_keys = s.send_keys)
    (hrecv : s'.recv_keys = s.recv_keys) (hunread : s'.unread ≤ s.unread) : Room k s' := by
  have := h.recv
  exact ⟨hsend ▸ h.send, by rw [hrecv]; omega⟩

theorem Room.absorb_app {s : RealityStream} (h : Room k s) (content : Bytes) : Room k (s.absorb_app content) := by
  obtain ⟨resp, staging, plaintext_out, heq⟩ := s.absorb_app_frame content
  rw [heq]
  exact ⟨h.send, h.recv⟩

theorem Room.read_more {s : RealityStream} (h : Room k s) : Room k s.read_more.2 := by
  rw [read_more_snd]
  refine h.congr rfl rfl ?_
  cases hhalf : s.read_half with
  | nil => simp [unread, hhalf]
  | cons x reads =>
    simp only [unread, hhalf, List.tail_cons, List.head?_cons, Option.map_some, Option.getD_some, List.length_append,
      List.map_cons, List.sum_cons]
    omega

theorem Room.poll_flush_pending {s : RealityStream} (h : Room k s) : Room k s.poll_flush_pending.2 :=
  h.congr rfl rfl le_rfl

theorem Room.read_step {s : RealityStream} (h : Room (k + 1) s) (n : Nat) :
    ∃ r s', s.read_step c n = some (r, s') ∧ Room (k + 1) s' := by
  obtain ⟨r, s', hdec, hroom⟩ := h.decode_one (c := c)
  unfold RealityStream.read_step
  rw [hdec]
  split
  · exact ⟨_, _, rfl, h.congr rfl rfl le_rfl⟩
  · rcases r with e | (_ | (content | _ | _))
    · exact ⟨_, _, rfl, hroom⟩
    · exact ⟨_, _, rfl, hroom.read_more⟩
    · exact ⟨_, _, rfl, hroom.absorb_app content⟩
    · exact ⟨_, _, rfl, hroom⟩
    · exact ⟨_, _, rfl, hroom⟩

theorem Room.read_turn {s : RealityStream} (h : Room (k + 1) s) (n : Nat) :
    ∃ r s', s.read_turn c n = some (r, s') ∧ Room (k + 1) s' := by
  have hf : Room (k + 1) s.flushed.2 := by
    unfold RealityStream.flushed
    split
    · exact h
    · exact h.poll_flush_pending
  unfold RealityStream.read_turn
  split
  · rename_i hs
    rw [hs] at hf
    exact ⟨_, _, rfl, hf⟩
  · rename_i hs
    rw [hs] at hf
    exact hf.read_step n

theorem Room.poll_read {s : RealityStream} (h : Room (k + 1) s) (n : Nat) :
    ∃ r s', s.poll_read c n = some (r, s') ∧ Room (k + 1) s' := by
  refine poll_read_loop c (fun s hs => ?_) h
  obtain ⟨r, s', hturn, hroom⟩ := Room.read_turn hs n
  cases r with
  | none => exact .inl ⟨s', hturn, hroom⟩
  | some r => exact .inr ⟨r, s', hturn, hroom⟩

theorem Room.of_succ {s : RealityStream} (h : Room (k + 1) s) : Room k s := by
  have := h.send
  exact ⟨by omega, h.recv⟩

theorem Room.poll_write {s : RealityStream} (h : Room (k + 1) s) (buf : Bytes) :
    ∃ r s', s.poll_write c buf = some (r, s') ∧ Room k s' := by
  have h₁ := h.poll_flush_pending
  unfold RealityStream.poll_write
  split
  · rename_i hs
    rw [hs] at h₁
    exact ⟨_, _, rfl, h₁.of_succ⟩
  · rename_i hs
    rw [hs] at h₁
    exact ⟨_, _, rfl, h₁.of_succ⟩
  · rename_i s₁ hs
    rw [hs] at h₁
    split
    · exact ⟨_, _, rfl, h₁.of_succ⟩
    · have hsend : s₁.send_keys.seq + (k + 1) < 2 ^ 64 := h₁.send
      obtain ⟨rec, hseal⟩ := exists_seal_record (c := c) s₁.send_keys (by omega) 0x17
        (buf.take (min buf.length MAX_PLAINTEXT))
      dsimp only
      rw [hseal]
      simp only [Option.bind_eq_bind, Option.bind_some]
      have h₂ : Room k { s₁ with
          send_keys := { s₁.send_keys with seq := s₁.send_keys.seq + 1 }
          write_pending := s₁.write_pending ++ rec } := by
        refine ⟨?_, h₁.recv⟩
        show s₁.send_keys.seq + 1 + k < 2 ^ 64
        omega
      have h₃ := h₂.poll_flush_pending
      split <;>
      · rename_i hs₂
        rw [hs₂] at h₃
        exact ⟨_, _, rfl, h₃⟩

theorem Room.call {s : RealityStream} (h : Room (k + 1) s) (op : Op) :
    ∃ o s', s.call c op = some (o, s') ∧ Room k s' := by
  cases op with
  | read n =>
    obtain ⟨r, s', hread, hroom⟩ := h.poll_read (c := c) n
    exact ⟨.read r, s', by rw [RealityStream.call, hread]; rfl, hroom.of_succ⟩
  | write buf =>
    obtain ⟨r, s', hwrite, hroom⟩ := h.poll_write (c := c) buf
    exact ⟨.write buf r, s', by rw [RealityStream.call, hwrite]; rfl, hroom⟩
  | flush inner =>
    refine ⟨_, _, rfl, ?_⟩
    have hf := h.of_succ.poll_flush_pending
    unfold RealityStream.poll_flush
    split <;>
    · rename_i hs
      rwa [hs] at hf

theorem Room.run {s : RealityStream} {ops : List Op} (h : Room ops.length s) : ∃ os s', s.run c ops = some (os, s') := by
  induction ops generalizing s with
  | nil => exact ⟨[], s, rfl⟩
  | cons op ops ih =>
    obtain ⟨o, s₁, hcall, hroom⟩ := Room.call (c := c) h op
    obtain ⟨os, s₂, hrun⟩ := ih hroom
    exact ⟨o :: os, s₂, by rw [RealityStream.run, hcall]; simp [hrun]⟩

end

/-- From the first call on, whatever the server sends and however the writer takes
the bytes: what was written and what is pending is a sequence of records that the
peer decrypts from the secret and the sequence number the stream began with. No
call panics while the sequence numbers have room. -/
theorem write_path_decryptable {c : Crypto} (hc : c.Lawful) (start : Tls13.Position (Block 32)) (reads : List (Poll Bytes))
    {writes : List (Poll Nat)} (hwriter : WriterOk writes) (recv_keys : RecordKeys) (leftover : Bytes)
    (server_ap_secret : Block 32) (ops : List Op) :
    let s₀ := RealityStream.new reads writes recv_keys (keys_at c start) leftover server_ap_secret start.secret
    (∀ os s, s₀.run c ops = some (os, s) → Decryptable hc start (os.flatMap Outcome.accepted) s) ∧
    (Room ops.length s₀ → ∃ os s, s₀.run c ops = some (os, s)) := by
  intro s₀
  have hstart : Decryptable hc start [] s₀ := ⟨rfl, ⟨[], Tls13.receive_nil start, rfl, rfl⟩, hwriter⟩
  exact ⟨fun os s hrun => hstart.run hrun, Room.run⟩

end RealityStream

/-! ## A session -/

namespace Sample

/-! The session goes on: the server sends a response header with the first byte of
its payload, a NewSessionTicket with a KeyUpdate that asks for one, the last byte
under the next secret, and close_notify. -/

def c_ap₂ : Block 32 := .ofNat 32 0xcc63ba2eea4cb6336d2432036c7b5e957059473083c984eb8705d4add79ec5de
def s_ap₂ : Block 32 := .ofNat 32 0x50836175124e7a43690e523081325dc64781bfbbf7a8ae418fa2f398dff29952

def c_key : Block 16 := .ofNat 16 0x51de76be5a457f1d0dd1df9a03363ee7
def c_iv : Block 12 := .ofNat 12 0x50042303589170ed279eaa01
def c_key₂ : Block 16 := .ofNat 16 0xab27a55168ab285422c47b22cb48e4d1
def c_iv₂ : Block 12 := .ofNat 12 0xacf2ea445160fc1d167e3138
def s_key : Block 16 := .ofNat 16 0xa524a457dedb6ab8e38010496464edfa
def s_iv : Block 12 := .ofNat 12 0x8fec7a7fa18946a9a9e81d8b
def s_key₂ : Block 16 := .ofNat 16 0x09046c62a4592597af0a968d3c1ff71f
def s_iv₂ : Block 12 := .ofNat 12 0xd8809a09ec8e256861339386

def ticket : Bytes := Wire.be 14 0x00001c2001020304000001ee0000

def records : List (Sealed 16) := [
  ⟨s_key, per_record_nonce s_iv 0, record_header 23, [0x00, 0x01, 0xaa, 0x68, 0x17, 0x00, 0x00],
    Wire.be 23 0x294b11ea3a7d38a6c86146dc7155bf8418ceffe13d5ce3⟩,
  ⟨s_key, per_record_nonce s_iv 1, record_header 40, (Tls13.Content.post [ticket] (some true)).bytes ++ [0x16],
    Wire.be 40 0x34cdf06b2debd308775ab310aff5677931ccd63ae295f054adcf4a83c5e5478175e9b5b32fef2e57⟩,
  ⟨s_key₂, per_record_nonce s_iv₂ 0, record_header 18, [0x69, 0x17],
    Wire.be 18 0x6a95d9c85592ae1157797db0514123c8e29a⟩,
  ⟨s_key₂, per_record_nonce s_iv₂ 1, record_header 19, [0x01, 0x00, 0x15],
    Wire.be 19 0x29d77b91170e25cb4ddcae601d7ae5aff97b2a⟩,
  ⟨c_key, per_record_nonce c_iv 1, record_header 18, [0x61, 0x17],
    Wire.be 18 0x783e7f378f0c408ccc421f85c7bfe50cec9c⟩,
  ⟨c_key, per_record_nonce c_iv 1, record_header 22, Tls13.keyUpdate false ++ [0x16],
    Wire.be 22 0x0129d487b9c2d4f19231a060237bd69b2bb97f9a8572⟩,
  ⟨c_key, per_record_nonce c_iv 2, record_header 22, Tls13.keyUpdate false ++ [0x16],
    Wire.be 22 0x530e2ed485c25264a49869910ed4108f394e469a9c69⟩,
  ⟨c_key₂, per_record_nonce c_iv₂ 0, record_header 18, [0x62, 0x17],
    Wire.be 18 0x41c95957b6e21f410c5235982a2ad4ab0cb7⟩]

/-- The primitives, as far as the session uses them. -/
def stream_crypto : Crypto where
  sha256 _ := .zero 32
  hmac _ _ := .zero 32
  hkdf_extract _ _ := .zero 32
  x25519 _ _ := .zero 32
  hkdf_expand prk info n := known n [
    ((c_ap, hkdf_label 16 "key" []), 0x51de76be5a457f1d0dd1df9a03363ee7),
    ((c_ap, hkdf_label 12 "iv" []), 0x50042303589170ed279eaa01),
    ((c_ap₂, hkdf_label 16 "key" []), 0xab27a55168ab285422c47b22cb48e4d1),
    ((c_ap₂, hkdf_label 12 "iv" []), 0xacf2ea445160fc1d167e3138),
    ((s_ap, hkdf_label 16 "key" []), 0xa524a457dedb6ab8e38010496464edfa),
    ((s_ap, hkdf_label 12 "iv" []), 0x8fec7a7fa18946a9a9e81d8b),
    ((s_ap₂, hkdf_label 16 "key" []), 0x09046c62a4592597af0a968d3c1ff71f),
    ((s_ap₂, hkdf_label 12 "iv" []), 0xd8809a09ec8e256861339386),
    ((c_ap, hkdf_label 32 "traffic upd" []),
      0xcc63ba2eea4cb6336d2432036c7b5e957059473083c984eb8705d4add79ec5de),
    ((s_ap, hkdf_label 32 "traffic upd" []),
      0x50836175124e7a43690e523081325dc64781bfbbf7a8ae418fa2f398dff29952)] (prk, info)
  encrypt := Sealed.encrypt records
  decrypt := Sealed.decrypt records

theorem distinct_records : Sealed.Distinct records := by decide +kernel

theorem lawful : stream_crypto.Lawful where
  decrypt_encrypt := Sealed.decrypt_encrypt distinct_records
  length_encrypt := Sealed.length_encrypt distinct_records

def wire₁ : Bytes := Wire.be 28 0x1703030017294b11ea3a7d38a6c86146dc7155bf8418ceffe13d5ce3
def wire₂ : Bytes := Wire.be 45 0x170303002834cdf06b2debd308775ab310aff5677931ccd63ae295f054adcf4a83c5e5478175e9b5b32fef2e57
def wire₃ : Bytes := Wire.be 23 0x17030300126a95d9c85592ae1157797db0514123c8e29a
def wire₄ : Bytes := Wire.be 24 0x170303001329d77b91170e25cb4ddcae601d7ae5aff97b2a

/-- A stream of the session whose writer often takes nothing. -/
def session : RealityStream :=
  .new [.ready (wire₁ ++ wire₂)] [.ready 5, .pending, .pending, .pending, .pending, .pending, .ready 30, .pending, .ready 100]
    (record_keys_from_secret stream_crypto s_ap) (keys_at stream_crypto ⟨c_ap, 1⟩) [] s_ap c_ap

end Sample

/-- The KeyUpdate is answered while the record of the first write is only partly
written; the second write is sealed under the next secret. -/
theorem write_path_decryptable_interleaved :
    ∃ os s, Sample.session.run Sample.stream_crypto [.write [0x61], .read 8, .read 8, .write [0x62]] = some (os, s) ∧
      s.key_updates = [1] ∧ s.wire.length = 50 ∧ s.write_pending.length = 23 ∧
      RealityStream.Decryptable Sample.lawful ⟨Sample.c_ap, 1⟩ [0x61, 0x62] s := by
  have hrun : (Sample.session.run Sample.stream_crypto [.write [0x61], .read 8, .read 8, .write [0x62]]).map (fun r => (r.1.flatMap RealityStream.Outcome.accepted,
      r.2.key_updates, r.2.wire.length, r.2.write_pending.length)) = some ([0x61, 0x62], [1], 50, 23) := by decide +kernel
  obtain ⟨r, hr, heq⟩ := Option.map_eq_some_iff.1 hrun
  simp only [Prod.mk.injEq] at heq
  obtain ⟨hacc, hupd, hwire, hpend⟩ := heq
  refine ⟨r.1, r.2, hr, hupd, hwire, hpend, ?_⟩
  rw [← hacc]
  exact (RealityStream.write_path_decryptable Sample.lawful ⟨Sample.c_ap, 1⟩ _
    (by simp [RealityStream.WriterOk]) _ _ _ _).1 _ _ hr

end Reality

end MiniVpn
