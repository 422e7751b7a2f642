import MiniVpn.Effects
/-!
# Invariants of a slot

`Effect.slot` says what an effect can do to one slot: nothing, create it, or one
of the `Move`s. `SlotInv` is kept by every move, so it holds for every slot in
every state the loop can be in.
-/
open Lib

namespace MiniVpn

/-! ## Moves of a slot -/

/-- What one effect can do to a slot. -/
inductive Move (socket : TcpSocket) (ctx : SocketCtx) : Sys.Label → TcpSocket → SocketCtx → Prop
  | same (l : Sys.Label) : Move socket ctx l socket ctx
  | segment (port : UInt16) (seg : TcpSocket.Segment) : socket.accepts port seg = true →
      Move socket ctx .quiet (socket.process seg) ctx
  | dispatch (t : TcpSocket.Timer) : Move socket ctx .quiet (socket.dispatch t) ctx
  | turn (socket' : TcpSocket) (ctx' : SocketCtx) : Turn socket ctx socket' ctx' →
      Move socket ctx .quiet socket' ctx'
  | receive (payload : Bytes) (tx : RelayId) (socket' : TcpSocket) (ctx' : SocketCtx) (l : Sys.Label) :
      ctx.uplink_tx = some tx → flush_downlink socket (ctx.received payload) = (socket', ctx') →
      (l ≠ .overflow → socket.may_send = true →
        ctx.downlink_pending.length + payload.length ≤ socket.tx_buffer.window) →
      Move socket ctx l socket' { ctx' with state := .Relaying }
  | rearm : ctx.local_port ≠ 0 → Move socket ctx .quiet (.listening ctx.local_port) ctx.rearmed
  | relayed (tx : RelayId) (payload : Bytes) (rest : SocketBuffer) : ctx.uplink_tx = some tx →
      Read socket payload rest →
      Move socket ctx .quiet (socket.afterRead rest) (ctx.relayed payload socket.local_endpoint)
  | opened (payload : Bytes) (rest : SocketBuffer) (endpoint : IpEndpoint) (tx : RelayId)
      (fake_ip : Option Ipv4Addr) (l : Sys.Label) : ctx.uplink_tx = none → ctx.state ≠ .HandshakePending →
      Read socket payload rest → socket.local_endpoint = some endpoint →
      (l ≠ .reopen → ctx.state ≠ .OpeningRemote) →
      Move socket ctx l (socket.afterRead rest) (ctx.opened payload endpoint tx fake_ip)
  | spawned (payload : Bytes) (rest : SocketBuffer) (endpoint : IpEndpoint) (fake_ip : Option Ipv4Addr) :
      ctx.uplink_tx = none → ctx.state ≠ .HandshakePending → Read socket payload rest →
      socket.local_endpoint = some endpoint →
      Move socket ctx .quiet (socket.afterRead rest) (ctx.spawned payload endpoint fake_ip)
  | installed (tx : RelayId) : ctx.state = .HandshakePending → Move socket ctx .quiet socket (ctx.installed tx)

namespace Sys

/-- Writing slot `h` moves that slot and leaves the others alone. -/
theorem put_slot {s s' : Sys} {h x : SocketHandle} {l : Label} {ctx ctx' ctx'' : SocketCtx} {socket' : TcpSocket}
    (hsock : s'.sockets = s.sockets.set h socket') (hctxs : s'.socket_ctxs = s.socket_ctxs.insert h ctx')
    (hget : s.socket_ctxs.get h = some ctx) (hm : Move (s.sockets.get h) ctx l socket' ctx')
    (hx : s'.socket_ctxs.get x = some ctx'') :
    ∃ c, s.socket_ctxs.get x = some c ∧ Move (s.sockets.get x) c l (s'.sockets.get x) ctx'' := by
  rw [hctxs, Table.get_insert] at hx
  rw [hsock, SocketSet.get_set]
  split at hx
  · rename_i hxh
    subst hxh
    obtain rfl := Option.some.inj hx
    exact ⟨ctx, hget, by rw [if_pos rfl]; exact hm⟩
  · rename_i hne
    exact ⟨ctx'', hx, by rw [if_neg hne]; exact .same l⟩

/-- A change that touches no socket and no context. -/
theorem same_slot {s s' : Sys} {x : SocketHandle} {l : Label} {ctx' : SocketCtx} (hsock : s'.sockets = s.sockets)
    (hctxs : s'.socket_ctxs = s.socket_ctxs) (hx : s'.socket_ctxs.get x = some ctx') :
    ∃ c, s.socket_ctxs.get x = some c ∧ Move (s.sockets.get x) c l (s'.sockets.get x) ctx' :=
  ⟨ctx', hctxs ▸ hx, hsock ▸ .same l⟩

/-- A change of one socket only. -/
theorem sock_slot {s s' : Sys} {h x : SocketHandle} {l : Label} {ctx' : SocketCtx} {socket' : TcpSocket}
    (hsock : s'.sockets = s.sockets.set h socket') (hctxs : s'.socket_ctxs = s.socket_ctxs)
    (hm : ∀ c, Move (s.sockets.get h) c l socket' c) (hx : s'.socket_ctxs.get x = some ctx') :
    ∃ c, s.socket_ctxs.get x = some c ∧ Move (s.sockets.get x) c l (s'.sockets.get x) ctx' := by
  refine ⟨ctx', hctxs ▸ hx, ?_⟩
  rw [hsock, SocketSet.get_set]
  split
  · subst_vars; exact hm ctx'
  · exact .same l

/-- A slot after an effect is new, or moved from what it was. -/
theorem Effect.slot {s s' : Sys} {l : Label} (h : Effect s l s') {x : SocketHandle} {ctx' : SocketCtx}
    (hx : s'.socket_ctxs.get x = some ctx') :
    (∃ port, port ≠ 0 ∧ s.sockets.len ≤ x ∧ ctx' = .new port ∧ s'.sockets.get x = .listening port) ∨
    (∃ ctx, s.socket_ctxs.get x = some ctx ∧ Move (s.sockets.get x) ctx l (s'.sockets.get x) ctx') := by
  cases h with
  | pool | flows | mark | unmark | schedule | discard | dropHandshake | relay => exact .inr (same_slot rfl rfl hx)
  | grow port n l hg =>
    have hx' := hg.ctx x
    have hs' := hg.sock x
    rw [hx] at hx'
    split at hx'
    · rename_i hnew
      rw [if_pos hnew] at hs'
      exact .inl ⟨port, hg.port_ne (by omega), hnew.1, Option.some.inj hx', hs'⟩
    · rename_i hold
      rw [if_neg hold] at hs'
      exact .inr ⟨ctx', hx'.symm, hs' ▸ .same _⟩
  | segment port h seg _ ha => exact .inr (sock_slot rfl rfl (fun _ => .segment port seg ha) hx)
  | dispatch h t => exact .inr (sock_slot rfl rfl (fun _ => .dispatch t) hx)
  | turn h ctx socket' ctx' hget ht => exact .inr (put_slot rfl rfl hget (.turn _ _ ht) hx)
  | deliver msg rest ctx tx socket' ctx' l _ _ hget htx hfl hroom =>
    refine .inr (put_slot rfl rfl hget (.receive msg.payload tx socket' ctx' l htx hfl fun hl hsend => ?_) hx)
    by_contra hover
    exact hroom hl ⟨ctx, hget, hsend, by omega⟩
  | rearm h ctx now hget hport => exact .inr (put_slot rfl rfl hget (.rearm hport) hx)
  | eof msg rest ctx now _ _ hget hport => exact .inr (put_slot rfl rfl hget (.rearm hport) hx)
  | relayed h ctx tx payload rest hget htx _ hr => exact .inr (put_slot rfl rfl hget (.relayed tx payload rest htx hr) hx)
  | opened h ctx payload rest endpoint target fake_ip now l hget hup hstate hr hep hl =>
    exact .inr (put_slot rfl rfl hget (.opened payload rest endpoint _ fake_ip l hup hstate hr hep hl) hx)
  | spawned h ctx payload rest endpoint target fake_ip now hget hup hstate hr hep =>
    exact .inr (put_slot rfl rfl hget (.spawned payload rest endpoint fake_ip hup hstate hr hep) hx)
  | install i done ctx _ hm => exact .inr (put_slot rfl rfl hm.get (.installed _ hm.pending) hx)
  | refuse i done ctx now _ hm hport => exact .inr (put_slot rfl rfl hm.get (.rearm hport) hx)

end Sys

/-! ## Buffering during a handshake -/

/-- The bytes of a list of reads. -/
def readBytes (reads : List (Bytes × Option IpEndpoint)) : Bytes := (reads.map (·.1)).flatten

@[simp] theorem readBytes_append (xs ys : List (Bytes × Option IpEndpoint)) :
    readBytes (xs ++ ys) = readBytes xs ++ readBytes ys := by
  simp [readBytes]

@[simp] theorem readBytes_singleton (x : Bytes × Option IpEndpoint) : readBytes [x] = x.1 := by
  simp [readBytes]

/-- The reads all found a connection and fit the buffer together. -/
def Keepable (reads : List (Bytes × Option IpEndpoint)) : Prop :=
  (readBytes reads).length ≤ MAX_UPLINK_BUFFER ∧ ∀ x ∈ reads, x.2 ≠ none

/-- `buffer` is what is left of the reads since the spawn: all of it exactly when
they are `Keepable`. -/
structure Buffered (reads : List (Bytes × Option IpEndpoint)) (buffer : Bytes) : Prop where
  nonempty : buffer ≠ []
  le : buffer.length ≤ (readBytes reads).length
  max : buffer.length ≤ MAX_UPLINK_BUFFER
  exact : buffer = readBytes reads ↔ Keepable reads

theorem Buffered.first {payload : Bytes} {endpoint : IpEndpoint} (hne : payload ≠ [])
    (hmax : payload.length ≤ MAX_UPLINK_BUFFER) : Buffered [(payload, some endpoint)] payload where
  nonempty := hne
  le := by simp
  max := hmax
  exact := by simp [Keepable, hmax]

/-- A read after which the socket has no connection is not buffered. -/
theorem Buffered.orphan {reads : List (Bytes × Option IpEndpoint)} {buffer payload : Bytes} (h : Buffered reads buffer)
    (hne : payload ≠ []) : Buffered (reads ++ [(payload, none)]) buffer where
  nonempty := h.nonempty
  le := by
    have := h.le
    simp only [readBytes_append, List.length_append]
    omega
  max := h.max
  exact := by
    constructor
    · intro he
      have hlen := congrArg List.length he
      have := h.le
      have := List.length_pos_iff.2 hne
      simp only [readBytes_append, readBytes_singleton, List.length_append] at hlen
      omega
    · intro hk
      exact absurd rfl (hk.2 (payload, none) (by simp))

theorem Buffered.buffer {reads : List (Bytes × Option IpEndpoint)} {ctx : SocketCtx} {payload : Bytes}
    {endpoint : IpEndpoint} (h : Buffered reads ctx.uplink_buffer) (hne : payload ≠ []) :
    Buffered (reads ++ [(payload, some endpoint)]) (ctx.buffer_uplink payload).2.uplink_buffer := by
  have hle := h.le
  have hpos := List.length_pos_iff.2 hne
  rcases buffer_uplink_cases ctx payload with ⟨hfit, he⟩ | ⟨hover, he⟩ <;> rw [he]
  · -- The payload fits: it is kept, and the buffer is exact if it was.
    have hkeep : Keepable (reads ++ [(payload, some endpoint)]) ↔ Keepable reads ∧
        (readBytes reads).length + payload.length ≤ MAX_UPLINK_BUFFER := by
      simp only [Keepable, readBytes_append, readBytes_singleton, List.length_append, List.mem_append,
        List.mem_singleton]
      constructor
      · rintro ⟨h1, h2⟩
        exact ⟨⟨by omega, fun x hx => h2 x (.inl hx)⟩, h1⟩
      · rintro ⟨⟨-, h2⟩, h3⟩
        refine ⟨h3, ?_⟩
        rintro x (hx | rfl)
        · exact h2 x hx
        · simp
    refine ⟨by simp [hne], by simp only [readBytes_append, readBytes_singleton, List.length_append]; omega,
      by simp only [List.length_append]; exact hfit, ?_⟩
    rw [hkeep, readBytes_append, readBytes_singleton, List.append_left_inj, h.exact]
    refine ⟨fun hk => ⟨hk, ?_⟩, And.left⟩
    rw [← h.exact.2 hk]
    exact hfit
  · -- The payload does not fit and is dropped whole.
    refine ⟨h.nonempty, by simp only [readBytes_append, List.length_append]; omega, h.max, ?_⟩
    constructor
    · intro heq
      have hlen := congrArg List.length heq
      simp only [readBytes_append, readBytes_singleton, List.length_append] at hlen
      omega
    · rintro ⟨h1, h2⟩
      simp only [readBytes_append, readBytes_singleton, List.length_append] at h1
      have hk : Keepable reads := ⟨by omega, fun x hx => h2 x (List.mem_append_left _ hx)⟩
      rw [h.exact.2 hk] at hover
      omega

/-! ## The invariant of a slot -/

structure SlotInv (socket : TcpSocket) (ctx : SocketCtx) : Prop where
  port : ctx.local_port ≠ 0
  onPort : socket.OnPort ctx.local_port
  sock : socket.Inv
  phase : ctx.state ≠ .Closing ∧ ctx.state ≠ .Rearming
  uplink : ctx.uplink_tx ≠ none ↔ ctx.state = .Relaying
  fake : ctx.fake_ip ≠ none → ctx.state = .HandshakePending ∨ ctx.state = .Relaying
  buffer : ctx.state ≠ .HandshakePending → ctx.uplink_buffer = []
  pending : ctx.downlink_pending ≠ [] → ctx.state = .Relaying
  ledger : ctx.hist.accepted ++ ctx.downlink_pending = ctx.hist.delivered
  epoch : ctx.conn_epoch = UInt64.ofNat ctx.hist.bumps
  buffered : ctx.state = .HandshakePending →
    ∃ k ≤ ctx.hist.extracted.length, ctx.hist.spawned = some k ∧
      Buffered (ctx.hist.extracted.drop k) ctx.uplink_buffer

theorem SlotInv.relaying {socket : TcpSocket} {ctx : SocketCtx} (h : SlotInv socket ctx) {tx : RelayId}
    (htx : ctx.uplink_tx = some tx) : ctx.state = .Relaying := h.uplink.1 (by simp [htx])

theorem SlotInv.not_relaying {socket : TcpSocket} {ctx : SocketCtx} (h : SlotInv socket ctx)
    (hup : ctx.uplink_tx = none) : ctx.state ≠ .Relaying := fun hrel => h.uplink.2 hrel hup

theorem SlotInv.uplink_eq_none {socket : TcpSocket} {ctx : SocketCtx} (h : SlotInv socket ctx)
    (hs : ctx.state ≠ .Relaying) : ctx.uplink_tx = none := by
  by_contra hup
  exact hs (h.uplink.1 hup)

theorem SlotInv.pending_eq_nil {socket : TcpSocket} {ctx : SocketCtx} (h : SlotInv socket ctx)
    (hs : ctx.state ≠ .Relaying) : ctx.downlink_pending = [] := by
  by_contra hp
  exact hs (h.pending hp)

/-- A slot that listens with an empty context. -/
theorem slotInv_listening {port : UInt16} {ctx : SocketCtx} (hport : port ≠ 0) (hp : ctx.local_port = port)
    (hs : ctx.state = .Listening) (hu : ctx.uplink_tx = none) (hf : ctx.fake_ip = none) (hb : ctx.uplink_buffer = [])
    (hd : ctx.downlink_pending = []) (hl : ctx.hist.accepted = ctx.hist.delivered)
    (he : ctx.conn_epoch = UInt64.ofNat ctx.hist.bumps) : SlotInv (.listening port) ctx where
  port := hp ▸ hport
  onPort := hp ▸ TcpSocket.listening_onPort port
  sock := TcpSocket.listening_inv port
  phase := by simp [hs]
  uplink := by simp [hu, hs]
  fake h := absurd hf h
  buffer _ := hb
  pending h := absurd hd h
  ledger := by rw [hd, List.append_nil, hl]
  epoch := he
  buffered h := by simp [hs] at h

theorem slotInv_new {port : UInt16} (hport : port ≠ 0) : SlotInv (.listening port) (.new port) :=
  slotInv_listening hport rfl rfl rfl rfl rfl rfl rfl rfl

theorem epoch_succ {e : UInt64} {n : Nat} (h : e = UInt64.ofNat n) : e + 1 = UInt64.ofNat (n + 1) := by
  rw [h, UInt64.ofNat_add]
  rfl

theorem SlotInv.rearm {socket : TcpSocket} {ctx : SocketCtx} (h : SlotInv socket ctx) :
    SlotInv (.listening ctx.local_port) ctx.rearmed :=
  slotInv_listening h.port rfl rfl rfl rfl rfl rfl rfl (epoch_succ h.epoch)

/-- A read keeps what the invariant says about the socket. -/
theorem TcpSocket.Inv.read {socket : TcpSocket} {payload : Bytes} {rest : SocketBuffer} (h : socket.Inv)
    (hr : Read socket payload rest) : (socket.afterRead rest).Inv where
  bare := h.bare
  unread hs := by
    have := hr.split
    rw [h.unread hs] at this
    exact (List.append_eq_nil_iff.1 this).2

theorem TcpSocket.OnPort.read {port : UInt16} {socket : TcpSocket} (h : socket.OnPort port) (rest : SocketBuffer) :
    (socket.afterRead rest).OnPort port := ⟨h.listen, h.tuple⟩

theorem Read.length_le {socket : TcpSocket} {payload : Bytes} {rest : SocketBuffer} (h : Read socket payload rest) :
    payload.length ≤ MAX_UPLINK_BUFFER := by
  have hlen := congrArg List.length h.split
  have hfit := socket.rx_buffer.fits
  simp only [List.length_append, TCP_SOCKET_BUFFER_SIZE, MAX_UPLINK_BUFFER] at *
  omega

/-- A flush keeps the invariant: the ledger moves bytes from one column to the
other. -/
theorem SlotInv.flush {socket : TcpSocket} {ctx : SocketCtx} (h : SlotInv socket ctx) :
    SlotInv (flush_downlink socket ctx).1 (flush_downlink socket ctx).2 := by
  obtain ⟨n, tx, diag, he⟩ := flush_downlink_cases socket ctx
  rw [he]
  exact { port := h.port
          onPort := ⟨h.onPort.listen, h.onPort.tuple⟩
          sock := ⟨h.sock.bare, h.sock.unread⟩
          phase := h.phase
          uplink := h.uplink
          fake := h.fake
          buffer := h.buffer
          pending := fun hp => h.pending fun h0 => hp (by simp [h0])
          ledger := by
            simp only [List.append_assoc, List.take_append_drop]
            exact h.ledger
          epoch := h.epoch
          buffered := h.buffered }

theorem SlotInv.turn {socket socket' : TcpSocket} {ctx ctx' : SocketCtx} (h : SlotInv socket ctx)
    (ht : Turn socket ctx socket' ctx') : SlotInv socket' ctx' := by
  cases ht with
  | flush => exact h.flush
  | tunFlush ok =>
    exact ⟨h.port, h.onPort, h.sock, h.phase, h.uplink, h.fake, h.buffer, h.pending, h.ledger, h.epoch, h.buffered⟩
  | orphan payload rest hup hr hep =>
    refine ⟨h.port, h.onPort.read rest, h.sock.read hr, h.phase, h.uplink, h.fake, h.buffer, h.pending, h.ledger,
      h.epoch, fun hs => ?_⟩
    obtain ⟨k, hk, hsp, hb⟩ := h.buffered hs
    refine ⟨k, by simp [SocketCtx.noteExtracted]; omega, hsp, ?_⟩
    simp only [SocketCtx.noteExtracted, List.drop_append_of_le_length hk]
    exact hb.orphan hr.nonempty
  | buffer payload rest endpoint hup hr hep hs =>
    obtain ⟨k, hk, hsp, hb⟩ := h.buffered hs
    have hb₀ : Buffered _ (ctx.noteExtracted payload (some endpoint)).uplink_buffer := hb
    have hb' : Buffered (ctx.hist.extracted.drop k ++ [(payload, some endpoint)])
        ((ctx.noteExtracted payload (some endpoint)).buffer_uplink payload).2.uplink_buffer := hb₀.buffer hr.nonempty
    obtain ⟨buffer, he⟩ := buffer_uplink_frame (ctx.noteExtracted payload (some endpoint)) payload
    rw [he] at hb' ⊢
    refine ⟨h.port, h.onPort.read rest, h.sock.read hr, h.phase, h.uplink, h.fake, fun hns => absurd hs hns,
      h.pending, h.ledger, h.epoch, fun _ => ⟨k, by simp [SocketCtx.noteExtracted]; omega, hsp, ?_⟩⟩
    simp only [SocketCtx.noteExtracted, List.drop_append_of_le_length hk]
    exact hb'
  | openFailed payload rest endpoint hup hr hep hs =>
    have hnr := h.not_relaying hup
    exact { port := h.port
            onPort := h.onPort.read rest
            sock := h.sock.read hr
            phase := by simp [SocketCtx.openFailed]
            uplink := by simp [SocketCtx.openFailed, SocketCtx.noteExtracted, hup]
            fake := fun hf => (h.fake hf).elim (absurd · hs) (absurd · hnr)
            buffer := fun _ => h.buffer hs
            pending := fun hp => absurd (h.pending hp) hnr
            ledger := h.ledger
            epoch := h.epoch
            buffered := by simp [SocketCtx.openFailed] }

theorem SlotInv.receive {socket socket' : TcpSocket} {ctx ctx' : SocketCtx} {payload : Bytes} {tx : RelayId}
    (h : SlotInv socket ctx) (htx : ctx.uplink_tx = some tx)
    (hfl : flush_downlink socket (ctx.received payload) = (socket', ctx')) :
    SlotInv socket' { ctx' with state := .Relaying } := by
  have hrel := h.relaying htx
  have hr : SlotInv socket (ctx.received payload) :=
    ⟨h.port, h.onPort, h.sock, h.phase, h.uplink, h.fake, h.buffer, fun _ => hrel, by
      simp only [SocketCtx.received, ← List.append_assoc, h.ledger], h.epoch, h.buffered⟩
  have hf := hr.flush
  have hstate : ctx'.state = .Relaying := by
    obtain ⟨n, buf, diag, he⟩ := flush_downlink_cases socket (ctx.received payload)
    rw [hfl, Prod.mk.injEq] at he
    rw [he.2]
    exact hrel
  rw [hfl] at hf
  rw [← hstate]
  exact hf

theorem SlotInv.opened {socket : TcpSocket} {ctx : SocketCtx} {payload : Bytes} {rest : SocketBuffer}
    (h : SlotInv socket ctx) (hr : Read socket payload rest) (hs : ctx.state ≠ .HandshakePending)
    (endpoint : IpEndpoint) (tx : RelayId) (fake_ip : Option Ipv4Addr) :
    SlotInv (socket.afterRead rest) (ctx.opened payload endpoint tx fake_ip) := by
  cases fake_ip <;>
    exact ⟨h.port, h.onPort.read rest, h.sock.read hr, by simp [SocketCtx.opened, SocketCtx.hold_fake_ip, SocketCtx.noteFed],
      by simp [SocketCtx.opened, SocketCtx.hold_fake_ip, SocketCtx.noteFed], fun _ => .inr rfl, fun _ => h.buffer hs,
      fun _ => rfl, h.ledger, h.epoch, by simp [SocketCtx.opened, SocketCtx.hold_fake_ip, SocketCtx.noteFed]⟩

/-- The buffer is empty when a handshake is spawned, so it takes the payload. -/
theorem spawned_eq {ctx : SocketCtx} {payload : Bytes} (hb : ctx.uplink_buffer = [])
    (hlen : payload.length ≤ MAX_UPLINK_BUFFER) (endpoint : IpEndpoint) (fake_ip : Option Ipv4Addr) :
    ctx.spawned payload endpoint fake_ip =
      { ctx.hold_fake_ip fake_ip with
        state := .HandshakePending
        conn_epoch := ctx.conn_epoch + 1
        uplink_buffer := payload
        hist := { ctx.hist with
          extracted := ctx.hist.extracted ++ [(payload, some endpoint)]
          bumps := ctx.hist.bumps + 1
          spawned := some ctx.hist.extracted.length } } := by
  cases fake_ip <;>
    simp [SocketCtx.spawned, SocketCtx.hold_fake_ip, SocketCtx.noteExtracted, SocketCtx.buffer_uplink, hb,
      Nat.not_lt.2 hlen]

theorem SlotInv.spawned {socket : TcpSocket} {ctx : SocketCtx} {payload : Bytes} {rest : SocketBuffer}
    (h : SlotInv socket ctx) (hr : Read socket payload rest) (hup : ctx.uplink_tx = none)
    (hs : ctx.state ≠ .HandshakePending) (endpoint : IpEndpoint) (fake_ip : Option Ipv4Addr) :
    SlotInv (socket.afterRead rest) (ctx.spawned payload endpoint fake_ip) := by
  have hpend := h.pending_eq_nil (h.not_relaying hup)
  rw [spawned_eq (h.buffer hs) hr.length_le]
  cases fake_ip <;>
    exact { port := h.port
            onPort := h.onPort.read rest
            sock := h.sock.read hr
            phase := by simp
            uplink := by simp [SocketCtx.hold_fake_ip, hup]
            fake := fun _ => .inl rfl
            buffer := fun hns => absurd rfl hns
            pending := fun hp => absurd hpend hp
            ledger := h.ledger
            epoch := epoch_succ h.epoch
            buffered := fun _ => ⟨ctx.hist.extracted.length, by simp, rfl, by
              simpa using Buffered.first hr.nonempty hr.length_le⟩ }

theorem SlotInv.installed {socket : TcpSocket} {ctx : SocketCtx} (h : SlotInv socket ctx)
    (hs : ctx.state = .HandshakePending) (tx : RelayId) : SlotInv socket (ctx.installed tx) where
  port := h.port
  onPort := h.onPort
  sock := h.sock
  phase := by simp [SocketCtx.installed]
  uplink := by simp [SocketCtx.installed]
  fake _ := .inr rfl
  buffer _ := rfl
  pending hp := by simpa [hs] using h.pending hp
  ledger := h.ledger
  epoch := h.epoch
  buffered := by simp [SocketCtx.installed]

/-- Every move keeps the invariant. -/
theorem SlotInv.move {socket socket' : TcpSocket} {ctx ctx' : SocketCtx} {l : Sys.Label} (h : SlotInv socket ctx)
    (hm : Move socket ctx l socket' ctx') : SlotInv socket' ctx' := by
  cases hm with
  | same => exact h
  | segment port seg ha =>
    obtain rfl := h.onPort.accepts ha
    exact { h with onPort := h.onPort.process ha, sock := h.sock.process seg }
  | dispatch t => exact { h with onPort := h.onPort.dispatch t, sock := h.sock.dispatch t }
  | turn _ _ ht => exact h.turn ht
  | receive payload tx socket' ctx' l htx hfl => exact h.receive htx hfl
  | rearm hport => exact h.rearm
  | relayed tx payload rest htx hr =>
    have hrel := h.relaying htx
    exact ⟨h.port, h.onPort.read rest, h.sock.read hr, by simp [SocketCtx.relayed, SocketCtx.noteFed, SocketCtx.noteExtracted],
      by simp [SocketCtx.relayed, SocketCtx.noteFed, SocketCtx.noteExtracted, htx], fun _ => .inr rfl,
      fun _ => h.buffer (by simp [hrel]), fun _ => rfl, h.ledger, h.epoch,
      by simp [SocketCtx.relayed, SocketCtx.noteFed, SocketCtx.noteExtracted]⟩
  | opened payload rest endpoint tx fake_ip l hup hs hr hep => exact h.opened hr hs endpoint tx fake_ip
  | spawned payload rest endpoint fake_ip hup hs hr hep => exact h.spawned hr hup hs endpoint fake_ip
  | installed tx hs => exact h.installed hs tx

/-! ## Sockets of slots that have been used -/

/-- A slot that has been used has an opened socket. -/
def Opened (socket : TcpSocket) (ctx : SocketCtx) : Prop := ctx.state ≠ .Listening → socket.unopened = false

theorem SlotInv.opened_of_read {socket : TcpSocket} {ctx : SocketCtx} (h : SlotInv socket ctx) {payload : Bytes}
    {rest : SocketBuffer} (hr : Read socket payload rest) : (socket.afterRead rest).unopened = false :=
  h.sock.unopened_eq_false fun h0 => hr.nonempty (List.append_eq_nil_iff.1 (hr.split.trans h0)).1

theorem Opened.move {socket socket' : TcpSocket} {ctx ctx' : SocketCtx} {l : Sys.Label} (ho : Opened socket ctx)
    (hi : SlotInv socket ctx) (hm : Move socket ctx l socket' ctx') : Opened socket' ctx' := by
  intro hs
  -- Neither segments nor timers take an opened socket back.
  have stays {socket' : TcpSocket} (hs : ctx.state ≠ .Listening) (hback : socket'.unopened = true → socket.unopened = true) :
      socket'.unopened = false := by
    rw [← Bool.not_eq_true]
    intro hun
    simpa [ho hs] using hback hun
  cases hm with
  | same => exact ho hs
  | segment port seg => exact stays hs TcpSocket.unopened_process
  | dispatch t => exact stays hs TcpSocket.unopened_dispatch
  | turn _ _ ht =>
    cases ht with
    | flush =>
      obtain ⟨n, tx, diag, he⟩ := flush_downlink_cases socket ctx
      rw [he] at hs ⊢
      exact ho hs
    | tunFlush ok => exact ho hs
    | orphan payload rest _ hr => exact hi.opened_of_read hr
    | openFailed payload rest endpoint _ hr => exact hi.opened_of_read hr
    | buffer payload rest endpoint _ hr => exact hi.opened_of_read hr
  | receive payload tx socket' ctx' l htx hfl =>
    obtain ⟨n, buf, diag, he⟩ := flush_downlink_cases socket (ctx.received payload)
    obtain ⟨rfl, -⟩ := Prod.mk.inj (hfl.symm.trans he)
    exact ho (by simp [hi.relaying htx])
  | rearm => exact absurd rfl hs
  | relayed tx payload rest _ hr => exact hi.opened_of_read hr
  | opened payload rest endpoint tx fake_ip l _ _ hr => exact hi.opened_of_read hr
  | spawned payload rest endpoint fake_ip _ _ hr => exact hi.opened_of_read hr
  | installed tx hpend => exact ho (by simp [hpend])

namespace Sys

/-- Every slot satisfies its invariant. -/
def SlotsOk (s : Sys) : Prop := ∀ h ctx, s.socket_ctxs.get h = some ctx → SlotInv (s.sockets.get h) ctx

theorem slotsOk_effect {s s' : Sys} {l : Label} (he : Effect s l s') (hs : SlotsOk s) : SlotsOk s' := by
  intro h ctx' hget
  rcases he.slot hget with ⟨port, hport, -, rfl, hsock⟩ | ⟨ctx, hctx, hm⟩
  · rw [hsock]
    exact slotInv_new hport
  · exact (hs h ctx hctx).move hm

theorem Reachable.slotsOk {pool_size : Nat} {s : Sys} (h : Reachable pool_size s) : SlotsOk s :=
  h.inv SlotsOk (fun h ctx hget => by simp [new] at hget) fun _ _ _ he hs => slotsOk_effect he hs

end Sys

end MiniVpn
