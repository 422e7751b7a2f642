import MiniVpn.Handshakes
import MiniVpn.Scheduling
/-!
# Buffering during a handshake

While a handshake is in flight, what the client sends is read and buffered. The
buffer is bounded, and a payload that does not fit is dropped although smoltcp has
acknowledged it. `buffering_lossless_iff` says when no byte is lost.
-/
open Lib

namespace MiniVpn

/-- The reads since the handshake was spawned. -/
def SocketCtx.sinceSpawn (ctx : SocketCtx) : List (Bytes × Option IpEndpoint) :=
  ctx.hist.extracted.drop (ctx.hist.spawned.getD 0)

namespace Sys

/-- The step delivers a successful result that its slot waits for. -/
structure Arrives (t : Taken Sys Event) (done : Handshake) (ctx : SocketCtx) : Prop where
  event : ∃ i now, t.ev = .handshake_done i true now ∧ t.pre.handshakes[i]? = some done
  slot : Matches t.pre done ctx

/-- When a handshake succeeds, the slot gets an uplink whose first message is all
that was read since the spawn, or it is torn down. -/
def HandshakeLossless (t : Taken Sys Event) : Prop :=
  ∀ done ctx, Arrives t done ctx → RearmedIn t.pre t.post done.handle ∨
    ∃ ctx' tx r, t.post.socket_ctxs.get done.handle = some ctx' ∧ ctx'.uplink_tx = some tx ∧
      t.post.relays[tx]? = some r ∧ r.rx = [readBytes ctx.sinceSpawn]

theorem Arrives.post {t : Taken Sys Event} {done : Handshake} {ctx : SocketCtx} (ha : Arrives t done ctx)
    (hstep : t.pre.step t.ev = some t.post) : ∃ i, t.post = t.pre.install i done ctx := by
  obtain ⟨i, now, hev, hi⟩ := ha.event
  rw [hev] at hstep
  obtain ⟨d, hd, hdone⟩ := step_handshake_done hstep
  obtain rfl : done = d := by simpa [hi] using hd
  rcases handshake_done_cases hdone with ⟨hno, -⟩ | ⟨c, hm, ⟨-, hpost⟩ | ⟨hok, -⟩⟩
  · exact absurd ha.slot (hno ctx)
  · obtain rfl : ctx = c := by simpa [ha.slot.get] using hm.get
    exact ⟨i, hpost⟩
  · cases hok

/-- The installed uplink starts with the buffer, so it starts with all that was read
exactly when the buffer could keep it. -/
theorem handshakeLossless_iff {pool_size : Nat} {t : Taken Sys Event} (hreach : Reachable pool_size t.pre)
    (hstep : t.pre.step t.ev = some t.post) :
    HandshakeLossless t ↔ ∀ done ctx, Arrives t done ctx → Keepable ctx.sinceSpawn := by
  refine forall₃_congr fun done ctx ha => ?_
  obtain ⟨i, hpost⟩ := ha.post hstep
  obtain ⟨k, -, hk, hbuf⟩ := (hreach.slotsOk _ ctx ha.slot.get).buffered ha.slot.pending
  have hsince : ctx.sinceSpawn = ctx.hist.extracted.drop k := by simp [SocketCtx.sinceSpawn, hk]
  have hget : t.post.socket_ctxs.get done.handle = some (ctx.installed t.pre.relays.length) := by
    rw [hpost]
    exact Table.get_insert_self _ _ _
  have hrel : t.post.relays[t.pre.relays.length]? =
      some (.new done.handle done.target [ctx.uplink_buffer] ctx.hist.rearms) := by
    rw [hpost]
    simp [install, firstMessages, hbuf.nonempty]
  rw [hsince, ← hbuf.exact]
  constructor
  · rintro (⟨c, -, hslot⟩ | ⟨ctx', tx, r, hget', htx, hr, hrx⟩)
    · have := (slot_eq_some.1 hslot).1
      rw [hget, Option.some.injEq] at this
      have := congrArg SocketCtx.state this
      cases this
    · obtain rfl : ctx.installed _ = ctx' := by simpa [hget] using hget'
      obtain rfl : t.pre.relays.length = tx := by simpa [SocketCtx.installed] using htx
      obtain rfl := Option.some.inj (hrel.symm.trans hr)
      exact List.singleton_inj.1 hrx
  · intro he
    exact .inr ⟨_, _, _, hget, rfl, hrel, congrArg (fun b => [b]) he⟩

/-- In every run: no byte read during a handshake is lost exactly when, at each
handshake that succeeds, what was read since the spawn is `Keepable`: it fits the
buffer, and each read found the connection still there. -/
theorem buffering_lossless_iff {pool_size : Nat} {tr : List (Taken Sys Event)} {s : Sys}
    (hrun : Run (new pool_size) step tr s) :
    (∀ t ∈ tr, HandshakeLossless t) ↔ ∀ t ∈ tr, ∀ done ctx, Arrives t done ctx → Keepable ctx.sinceSpawn := by
  refine forall₂_congr fun t ht => ?_
  obtain ⟨hreach, hstep⟩ := hrun.taken (fun _ _ => True) (fun _ _ => trivial) t ht
  exact handshakeLossless_iff hreach hstep

/-- Two payloads are buffered and the handshake succeeds. -/
theorem buffering_lossless_short : ∃ tr s, Run (new 2) step tr s ∧ s.installed.length = 1 ∧
    ((∀ t ∈ tr, HandshakeLossless t) ↔ ∀ t ∈ tr, ∀ done ctx, Arrives t done ctx → Keepable ctx.sinceSpawn) := by
  have hrun : (runEvents step (new 2) (connect ⟨false, true⟩ (ipv4 93 184 216 34) ++
      packet ⟨false, true⟩ [.data [1]] ++ packet ⟨false, true⟩ [.data [2, 3]] ++ [Event.handshake_done 0 true 60])).any
      (fun s => decide (s.installed.length = 1)) = true := by
    decide +kernel
  obtain ⟨tr, s, hs, hp⟩ := exists_run_of_any hrun
  exact ⟨tr, s, hs, of_decide_eq_true hp, buffering_lossless_iff hs⟩

/-! ## A client that sends more than the buffer holds -/

/-- Data for socket `h` arrives at a time when no slot is dirty. -/
theorem step_rx_data {s : Sys} {port : UInt16} {h : SocketHandle} {hs : List SocketHandle} {data : Bytes}
    (htodo : s.todo = []) (hdirty : s.dirty = ∅) (hports : s.registry.handles_for_port port = hs) (hnodup : hs.Nodup)
    (hlen : s.sockets.len > h) (hacc : (s.sockets.get h).accepts port (.data data) = true) :
    s.step (.rx (.tcp port false true) none (some (h, [.data data])) [] hs 0) = some { s with
      sockets := s.sockets.set h ((s.sockets.get h).process (.data data))
      dirty := hs.toFinset
      todo := hs } := by
  simp [step, htodo, on_select, on_tcp, inspect_inbound_tcp, rx_tcp, inspect_syn, poll_ingress,
    poll_egress, snapshot_dirty, isSyn, hdirty, hports, hnodup, hlen, hacc]

/-- A slot with a handshake in flight is processed, and its socket read empty. -/
theorem step_listener_buffer {s : Sys} {h : SocketHandle} {todo : List SocketHandle} {ctx : SocketCtx}
    {socket' : TcpSocket} {payload : Bytes} {endpoint : IpEndpoint} {target : TargetAddr} {fake_ip : Option Ipv4Addr}
    (upstream : Upstream) (htodo : s.todo = h :: todo) (hget : s.socket_ctxs.get h = some ctx)
    (hstate : ctx.state = .HandshakePending) (hup : ctx.uplink_tx = none) (hpend : ctx.downlink_pending = [])
    (hx : extract_socket_payload (s.sockets.get h) = some (some payload, socket'))
    (hep : socket'.local_endpoint = some endpoint) (hres : resolve_target endpoint s.fake_pool = .Direct target fake_ip)
    (hempty : socket'.can_recv = false) :
    s.step (.listener upstream 0) = some { s.put h socket' ((ctx.noteExtracted payload (some endpoint)).buffer_uplink
        payload).2 with
      todo := todo
      dirty := s.dirty.erase h } := by
  have hpend' : ((ctx.noteExtracted payload (some endpoint)).buffer_uplink payload).2.downlink_pending = [] := by
    obtain ⟨buffer, he⟩ := buffer_uplink_frame (ctx.noteExtracted payload (some endpoint)) payload
    rw [he]
    exact hpend
  have hstate' : (ctx.noteExtracted payload (some endpoint)).state = .HandshakePending := hstate
  simp [step, htodo, process_dirty_slot, process_listener_activity, hget, flush_downlink_nil hpend, hup, first_payload,
    put, hx, hep, hres, handle_local_payload, hstate', hpend', hempty]

/-- A slot with nothing to do is processed. -/
theorem step_listener_quiet {s : Sys} {h : SocketHandle} {todo : List SocketHandle} {socket : TcpSocket}
    {ctx : SocketCtx} (upstream : Upstream) (htodo : s.todo = h :: todo) (hq : Quiet s h socket ctx) :
    s.step (.listener upstream 0) = some { s.put h socket ctx with todo := todo, dirty := s.dirty.erase h } := by
  obtain ⟨hrx, hpend⟩ := not_or.1 hq.idle
  have hnorecv := TcpSocket.can_recv_eq_false (Decidable.not_not.1 hrx)
  have hq' : Quiet { s with todo := todo } h socket ctx := ⟨hq.slot, hq.idle, hq.open_⟩
  have hvisit := hq'.visit upstream 0
  simp [step, htodo, process_dirty_slot, hvisit, put, hnorecv, Decidable.not_not.1 hpend]

/-- Bytes in one packet of the client: less than a packet of the default MTU
carries, and a divisor of the size of the receive buffer. -/
def CHUNK : Nat := 1285

def chunk : Bytes := List.replicate CHUNK 0

theorem chunk_length : chunk.length = CHUNK := List.length_replicate

/-- One packet is read with one call when the ring starts at a multiple of its
size. -/
theorem extract_chunk {socket : TcpSocket} (hstate : socket.state = .Established) (hrx : socket.rx_buffer.data = [])
    (hat : CHUNK ∣ socket.rx_buffer.read_at.val) :
    ∃ rest, extract_socket_payload (socket.process (.data chunk)) = some (some chunk, socket.afterRead rest) ∧
      rest.data = [] ∧ CHUNK ∣ rest.read_at.val := by
  obtain ⟨k, hk⟩ := hat
  have hlt := socket.rx_buffer.read_at.isLt
  have hwin : socket.rx_buffer.window = TCP_SOCKET_BUFFER_SIZE := by simp [SocketBuffer.window, hrx]
  obtain ⟨b, hb, hdata, hread⟩ : ∃ b, socket.rx_buffer.enqueue_unallocated chunk = b ∧ b.data = chunk ∧
      b.read_at = socket.rx_buffer.read_at := by
    refine ⟨_, rfl, ?_, rfl⟩
    simp only [SocketBuffer.enqueue_unallocated, hrx, hwin, List.nil_append]
    exact List.take_of_length_le (by rw [chunk_length]; decide)
  have hcont : b.contiguous = CHUNK := by
    simp only [SocketBuffer.contiguous, hdata, chunk_length, hread, hk]
    simp only [TCP_SOCKET_BUFFER_SIZE, CHUNK] at *
    omega
  have hproc : socket.process (.data chunk) = { socket with rx_buffer := b } := by
    simp only [TcpSocket.process, hstate, hb]
  refine ⟨b.dequeue_allocated CHUNK, ?_, ?_, ?_⟩
  · have hrecv : (socket.process (.data chunk)).can_recv = true := by
      rw [TcpSocket.can_recv_iff, hproc, hdata]
      exact List.length_pos_iff.1 (by rw [chunk_length]; decide)
    have hmay : (socket.process (.data chunk)).may_recv = true := (Bool.and_eq_true_iff.1 hrecv).1
    simp only [extract_socket_payload, hrecv, Bool.not_true, Bool.false_eq_true, if_false, TcpSocket.recv, hmay, if_true]
    simp only [hproc, SocketBuffer.dequeue_many, hcont, hdata, TcpSocket.afterRead]
    rw [List.take_of_length_le chunk_length.le]
    rfl
  · simp only [SocketBuffer.dequeue_allocated, hdata]
    exact List.drop_eq_nil_of_le chunk_length.le
  · simp only [SocketBuffer.dequeue_allocated, hdata, chunk_length, hread, hk]
    simp only [TCP_SOCKET_BUFFER_SIZE, CHUNK] at *
    omega

/-- The client of slot 0 has sent `n` packets since its handshake was spawned, and
all of them have been read. -/
structure Feeding (s : Sys) (done : Handshake) (n : Nat) : Prop where
  reach : Reachable 2 s
  todo : s.todo = []
  dirty : s.dirty = ∅
  ports : s.registry.handles_for_port 80 = [0, 1]
  handshakes : s.handshakes = [done]
  established : (s.sockets.get 0).state = .Established
  endpoint : (s.sockets.get 0).local_endpoint = some ⟨ipv4 93 184 216 34, 80⟩
  read : (s.sockets.get 0).rx_buffer.data = []
  aligned : CHUNK ∣ (s.sockets.get 0).rx_buffer.read_at.val
  direct : ∃ target, resolve_target ⟨ipv4 93 184 216 34, 80⟩ s.fake_pool = .Direct target none
  waiting : ∃ ctx, Matches s done ctx ∧ done.handle = 0 ∧ ctx.hist.spawned = some 0 ∧
    (readBytes ctx.hist.extracted).length = n * CHUNK
  spare : ∃ socket ctx, s.slot 1 = some (socket, ctx) ∧ ¬ Busy socket ctx ∧ ctx.uplink_tx = none

theorem Feeding.packet {s : Sys} {done : Handshake} {n : Nat} (hf : Feeding s done n) :
    ∃ s', Feeding s' done (n + 1) := by
  obtain ⟨ctx, hm, hh, hsp, hlen⟩ := hf.waiting
  obtain ⟨target, hres⟩ := hf.direct
  obtain ⟨socket₁, ctx₁, hslot₁, hidle₁, hup₁⟩ := hf.spare
  obtain ⟨rest, hx, hrest, hat⟩ := extract_chunk hf.established hf.read hf.aligned
  have hget : s.socket_ctxs.get 0 = some ctx := hh ▸ hm.get
  have hinv := hf.reach.slotsOk 0 ctx hget
  have hnr : ctx.state ≠ .Relaying := by simp [hm.pending]
  have hup := hinv.uplink_eq_none hnr
  have hpend := hinv.pending_eq_nil hnr
  have hacc : (s.sockets.get 0).accepts 80 (.data chunk) = true := by
    obtain ⟨t, ht, he⟩ := Option.map_eq_some_iff.1 hf.endpoint
    simp [TcpSocket.accepts, ht, he]
  have hempty : ((s.sockets.get 0).afterRead rest).can_recv = false := TcpSocket.can_recv_eq_false hrest
  have hx' : extract_socket_payload ((s.sockets.set 0 ((s.sockets.get 0).process (.data chunk))).get 0) =
      some (some chunk, (s.sockets.get 0).afterRead rest) := by
    rw [SocketSet.get_set_self]
    exact hx
  obtain ⟨buf, hbuf⟩ := buffer_uplink_frame (ctx.noteExtracted chunk (some ⟨ipv4 93 184 216 34, 80⟩)) chunk
  -- The packet arrives, its slot reads it, and the spare slot has nothing to do.
  have h1 := step_rx_data hf.todo hf.dirty hf.ports (by decide) (hf.reach.wired.lt hget) hacc
  have h2 := step_listener_buffer (s := { s with
      sockets := s.sockets.set 0 ((s.sockets.get 0).process (.data chunk))
      dirty := [0, 1].toFinset
      todo := [0, 1] }) ⟨false, true⟩ rfl hget hm.pending hup hpend hx' hf.endpoint hres hempty
  rw [hbuf] at h2
  obtain ⟨hget₁, hsock₁⟩ := slot_eq_some.1 hslot₁
  have h3 := step_listener_quiet (s := { s with
      sockets := (s.sockets.set 0 ((s.sockets.get 0).process (.data chunk))).set 0 ((s.sockets.get 0).afterRead rest)
      socket_ctxs := s.socket_ctxs.insert 0
        { ctx.noteExtracted chunk (some ⟨ipv4 93 184 216 34, 80⟩) with uplink_buffer := buf }
      dirty := [0, 1].toFinset.erase 0
      todo := [1] }) ⟨false, true⟩ rfl
    ⟨slot_eq_some.2 ⟨(Table.get_insert_ne _ _ (by decide)).trans hget₁, by simp [SocketSet.get_set, hsock₁]⟩, hidle₁,
      by simp [hup₁]⟩
  have hsock : (((s.sockets.set 0 ((s.sockets.get 0).process (.data chunk))).set 0
      ((s.sockets.get 0).afterRead rest)).set 1 socket₁).get 0 = (s.sockets.get 0).afterRead rest := by
    simp [SocketSet.get_set]
  refine ⟨_, {
    reach := .step (.step (.step hf.reach trivial h1) trivial h2) trivial h3
    todo := rfl
    dirty := (by decide : ([0, 1].toFinset.erase 0).erase 1 = ∅)
    ports := hf.ports
    handshakes := hf.handshakes
    established := (congrArg _ hsock).trans hf.established
    endpoint := (congrArg _ hsock).trans hf.endpoint
    read := (congrArg (fun x : TcpSocket => x.rx_buffer.data) hsock).trans hrest
    aligned := (congrArg (fun x : TcpSocket => x.rx_buffer) hsock).symm ▸ hat
    direct := hf.direct
    waiting := ⟨{ ctx.noteExtracted chunk (some ⟨ipv4 93 184 216 34, 80⟩) with uplink_buffer := buf },
      ⟨?_, hm.epoch, hm.pending⟩, hh, hsp, ?_⟩
    spare := ⟨socket₁, ctx₁, slot_eq_some.2 ⟨Table.get_insert_self _ _ _, SocketSet.get_set_self _ _ _⟩, hidle₁, hup₁⟩ }⟩
  · rw [hh]
    exact (Table.get_insert_ne _ _ (by decide)).trans (Table.get_insert_self _ _ _)
  · simp only [SocketCtx.noteExtracted, readBytes_append, readBytes_singleton, List.length_append, hlen, chunk_length,
      Nat.succ_mul]

theorem Feeding.packets {s : Sys} {done : Handshake} {n : Nat} (hf : Feeding s done n) (k : Nat) :
    ∃ s', Feeding s' done (n + k) := by
  induction k with
  | zero => exact ⟨s, hf⟩
  | succ k ih =>
    obtain ⟨s', hf'⟩ := ih
    exact hf'.packet

/-- A client connects and its first packet spawns a handshake. -/
theorem exists_feeding : ∃ s done, Feeding s done 1 := by
  have hrun : (runEvents step (new 2) (connect ⟨false, true⟩ (ipv4 93 184 216 34) ++
      packet ⟨false, true⟩ [.data chunk])).any (fun s =>
        decide (s.todo = [] ∧ s.dirty = ∅ ∧ s.registry.handles_for_port 80 = [0, 1] ∧ s.handshakes.length = 1 ∧
          (s.sockets.get 0).state = .Established ∧
          (s.sockets.get 0).local_endpoint = some ⟨ipv4 93 184 216 34, 80⟩ ∧ (s.sockets.get 0).rx_buffer.data = [] ∧
          CHUNK ∣ (s.sockets.get 0).rx_buffer.read_at.val ∧
          resolve_target ⟨ipv4 93 184 216 34, 80⟩ s.fake_pool =
            .Direct (target_from_endpoint ⟨ipv4 93 184 216 34, 80⟩) none) &&
        (s.handshakes.head?.any fun done => (s.socket_ctxs.get 0).any fun ctx => decide (done.handle = 0 ∧
          ctx.conn_epoch = done.epoch ∧ ctx.state = .HandshakePending ∧ ctx.hist.spawned = some 0 ∧
          (readBytes ctx.hist.extracted).length = 1 * CHUNK)) &&
        (s.socket_ctxs.get 1).any fun ctx => decide ((s.sockets.get 1).rx_buffer.data = [] ∧
          ctx.downlink_pending = [] ∧ ctx.uplink_tx = none)) = true := by
    decide +kernel
  obtain ⟨s, hs, hp⟩ := exists_reach_of_any hrun
  simp only [Bool.and_eq_true, decide_eq_true_eq, Option.any_eq_true] at hp
  obtain ⟨⟨⟨htodo, hdirty, hports, hlen, hstate, hep, hrx, hat, hres⟩, done, hdone, ctx, hget, hh, hepoch, hpend, hsp,
    hread⟩, ctx₁, hget₁, hrx₁, hpend₁, hup₁⟩ := hp
  have hlist : s.handshakes = [done] := by
    obtain ⟨d, hd⟩ := List.length_eq_one_iff.1 hlen
    rw [hd] at hdone ⊢
    simpa using hdone
  refine ⟨s, done, hs, htodo, hdirty, hports, hlist, hstate, hep, hrx, hat, ⟨_, hres⟩,
    ⟨ctx, ⟨hh ▸ hget, hepoch, hpend⟩, hh, hsp, hread⟩, ⟨_, ctx₁, slot_eq_some.2 ⟨hget₁, rfl⟩, ?_, hup₁⟩⟩
  simp [Busy, hrx₁, hpend₁]

/-- A client sends 205 packets of 1285 bytes while its handshake is in flight. The
last one is dropped, and when the handshake succeeds the relay starts without it. -/
theorem buffered_bytes_lost :
    ∃ t : Taken Sys Event, Reachable 2 t.pre ∧ t.pre.step t.ev = some t.post ∧ ¬ HandshakeLossless t := by
  obtain ⟨s₀, done, hf₀⟩ := exists_feeding
  obtain ⟨s, hf⟩ := hf₀.packets 204
  obtain ⟨ctx, hm, -, hsp, hlen⟩ := hf.waiting
  have hi : s.handshakes[0]? = some done := by rw [hf.handshakes]; rfl
  obtain ⟨post, hpost⟩ : ∃ post, s.step (.handshake_done 0 true 60) = some post := by
    simp [step, hf.todo, on_select, hi, handle_handshake_done, hm.get, hm.epoch, hm.pending, flush_uplink_buffer_eq]
  refine ⟨⟨s, .handshake_done 0 true 60, post⟩, hf.reach, hpost, fun hloss => ?_⟩
  have hkeep := (handshakeLossless_iff hf.reach hpost).1 hloss done ctx ⟨⟨0, 60, rfl, hi⟩, hm⟩
  have hmax := hkeep.1
  simp only [SocketCtx.sinceSpawn, hsp, Option.getD_some, List.drop_zero, hlen] at hmax
  exact absurd hmax (by decide)

end Sys

end MiniVpn
