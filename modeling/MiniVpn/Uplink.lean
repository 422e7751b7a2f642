import MiniVpn.Wiring
/-!
# What the uplink is fed

On the inline path a payload is read from the local socket before the remote is
opened for it, and an open that fails drops the payload. The slot then waits in
`OpeningRemote` for the reaper; `uplink_prefix` says that the uplink gets no gap
as long as no later payload is opened for before the reaper comes.
-/
open Lib

namespace MiniVpn

/-- A listening slot has read only from a connection that is gone. -/
def ReadGone (socket : TcpSocket) (ctx : SocketCtx) : Prop :=
  ctx.state = .Listening → ctx.hist.extracted ≠ [] → socket.tuple = none ∧ socket.state = .Closed

theorem ReadGone.turn {socket socket' : TcpSocket} {ctx ctx' : SocketCtx} (hg : ReadGone socket ctx)
    (hi : SlotInv socket ctx) (ht : Turn socket ctx socket' ctx') : ReadGone socket' ctx' := by
  cases ht with
  | flush =>
    obtain ⟨n, tx, diag, he⟩ := flush_downlink_cases socket ctx
    rw [he]
    exact hg
  | tunFlush ok => exact hg
  | orphan payload rest _ hr hep =>
    have hnone : socket.tuple = none := Option.map_eq_none_iff.1 hep
    refine fun _ _ => ⟨hnone, ?_⟩
    -- Something was received, so the socket does not listen.
    refine (hi.sock.bare hnone).resolve_right fun hl => hr.nonempty ?_
    exact (List.append_eq_nil_iff.1 (hr.split.trans (hi.sock.unread (.inl hl)))).1
  | buffer payload rest endpoint _ _ _ hs =>
    obtain ⟨buffer, he⟩ := buffer_uplink_frame (ctx.noteExtracted payload (some endpoint)) payload
    rw [he]
    exact fun hl => by simp [SocketCtx.noteExtracted, hs] at hl
  | openFailed => exact fun hl => by simp [SocketCtx.openFailed] at hl

theorem ReadGone.move {socket socket' : TcpSocket} {ctx ctx' : SocketCtx} {l : Sys.Label} (hg : ReadGone socket ctx)
    (hi : SlotInv socket ctx) (hm : Move socket ctx l socket' ctx') : ReadGone socket' ctx' := by
  cases hm with
  | same => exact hg
  | segment port seg =>
    intro hs hne
    obtain ⟨htuple, hclosed⟩ := hg hs hne
    simp [TcpSocket.process, hclosed, htuple]
  | dispatch t =>
    intro hs hne
    obtain ⟨htuple, hclosed⟩ := hg hs hne
    cases t <;> simp [TcpSocket.dispatch, hclosed, htuple]
  | turn _ _ ht => exact hg.turn hi ht
  | rearm => exact fun _ hne => absurd rfl hne
  | receive | relayed | installed => exact fun hs => by cases hs
  | opened payload rest endpoint tx fake_ip => exact fun hs => by cases fake_ip <;> cases hs
  | spawned payload rest endpoint fake_ip _ hs hr =>
    rw [spawned_eq (hi.buffer hs) hr.length_le]
    exact fun hl => by cases hl

/-- On the inline path a relaying slot has fed all it read, any other slot has fed
nothing, and a listening slot has read only from a connection that is gone. -/
structure InlineFed (socket : TcpSocket) (ctx : SocketCtx) : Prop where
  fed : ctx.hist.spawned = none → ctx.hist.fed = if ctx.state = .Relaying then readBytes ctx.hist.extracted else []
  fresh : ReadGone socket ctx

namespace InlineFed

variable {socket socket' : TcpSocket} {ctx ctx' : SocketCtx}

theorem unfed (hk : InlineFed socket ctx) (hi : SlotInv socket ctx) (hup : ctx.uplink_tx = none)
    (hsp : ctx.hist.spawned = none) : ctx.hist.fed = [] := by
  rw [hk.fed hsp, if_neg (hi.not_relaying hup)]

theorem spawned_of_pending (hi : SlotInv socket ctx) (hs : ctx.state = .HandshakePending) : ctx.hist.spawned ≠ none := by
  obtain ⟨k, -, hk, -⟩ := hi.buffered hs
  simp [hk]

theorem turn (hk : InlineFed socket ctx) (hi : SlotInv socket ctx) (ht : Turn socket ctx socket' ctx') :
    InlineFed socket' ctx' := by
  refine ⟨?_, ReadGone.turn hk.fresh hi ht⟩
  cases ht with
  | flush =>
    obtain ⟨n, tx, diag, he⟩ := flush_downlink_cases socket ctx
    rw [he]
    exact hk.fed
  | tunFlush ok => exact hk.fed
  | orphan payload rest hup hr hep =>
    have hnr := hi.not_relaying hup
    intro hsp
    rw [if_neg (by exact hnr)]
    exact hk.unfed hi hup hsp
  | buffer payload rest endpoint hup hr hep hs =>
    have hsp := spawned_of_pending hi hs
    obtain ⟨buffer, he⟩ := buffer_uplink_frame (ctx.noteExtracted payload (some endpoint)) payload
    rw [he]
    exact fun hn => absurd hn hsp
  | openFailed payload rest endpoint hup =>
    intro hsp
    simpa [SocketCtx.openFailed, SocketCtx.noteExtracted] using hk.unfed hi hup hsp

/-- Every move but a second inline open keeps the invariant. -/
theorem move {l : Sys.Label} (hl : l ≠ .reopen) (hk : InlineFed socket ctx) (hi : SlotInv socket ctx)
    (hm : Move socket ctx l socket' ctx') : InlineFed socket' ctx' := by
  refine ⟨?_, ReadGone.move hk.fresh hi hm⟩
  cases hm with
  | same | segment | dispatch => exact hk.fed
  | turn _ _ ht => exact (hk.turn hi ht).fed
  | receive payload tx socket' ctx' l htx hfl =>
    have hrel := hi.relaying htx
    obtain ⟨n, buf, diag, he⟩ := flush_downlink_cases socket (ctx.received payload)
    obtain ⟨-, rfl⟩ := Prod.mk.inj (hfl.symm.trans he)
    exact fun hsp => by simpa [hrel, SocketCtx.received] using hk.fed hsp
  | rearm => exact fun _ => rfl
  | relayed tx payload rest htx =>
    have hrel := hi.relaying htx
    intro hsp
    have hfed := hk.fed hsp
    rw [if_pos hrel] at hfed
    simp [SocketCtx.relayed, SocketCtx.noteFed, SocketCtx.noteExtracted, hfed]
  | opened payload rest endpoint tx fake_ip l hup hs hr hep hopen =>
    -- The slot listens and its socket is connected, so nothing was read before.
    have hlisten : ctx.state = .Listening := by
      have h1 := hopen hl
      have h2 := hi.phase
      have h3 := hi.not_relaying hup
      cases hstate : ctx.state <;> simp_all
    have hread : ctx.hist.extracted = [] := by
      by_contra hne
      simp [TcpSocket.local_endpoint, (hk.fresh hlisten hne).1] at hep
    intro hsp
    have hfed : ctx.hist.fed = [] := hk.unfed hi hup (by cases fake_ip <;> exact hsp)
    cases fake_ip <;>
      simp [SocketCtx.opened, SocketCtx.hold_fake_ip, SocketCtx.noteFed, SocketCtx.noteExtracted, hfed, hread]
  | spawned payload rest endpoint fake_ip hup hs hr =>
    rw [spawned_eq (hi.buffer hs) hr.length_le]
    exact fun hsp => (by cases hsp)
  | installed tx hs =>
    have hsp := spawned_of_pending hi hs
    exact fun hn => absurd hn hsp

end InlineFed

namespace Sys

/-- What a slot put on its uplink in a generation without handshake is a prefix of
what it read in it. -/
def UplinkPrefix (s : Sys) : Prop :=
  ∀ h ctx, s.socket_ctxs.get h = some ctx → ctx.hist.spawned = none → ctx.hist.fed <+: readBytes ctx.hist.extracted

/-- In every run in which no inline open succeeds on a slot whose last one failed,
the uplink of every slot has no gap, in every state. -/
theorem uplink_prefix {pool_size : Nat} {tr : List (Taken Sys Event)} {s : Sys} (hrun : Run (new pool_size) step tr s)
    (hre : ∀ t ∈ tr, ¬ Reopens t.pre t.ev) : ∀ t ∈ tr, UplinkPrefix t.post := by
  intro t ht h ctx hget hsp
  obtain ⟨hpre, hstep⟩ := hrun.taken (fun s e => ¬ Reopens s e) hre t ht
  have hby : ReachableBy pool_size (fun s e => ¬ Reopens s e) t.post := .step hpre (hre t ht) hstep
  have hk : InlineFed (t.post.sockets.get h) ctx := hby.slot_inv (· ≠ .reopen) (by decide)
    (fun s e l hse hs => by
      cases hs with
      | silent | overflow => decide
      | reopen hr => exact absurd hr hse)
    InlineFed (fun port => ⟨fun _ => rfl, fun _ hne => absurd rfl hne⟩)
    (fun _ _ _ _ _ hl hi hk hm => hk.move hl hi hm) hget
  rw [hk.fed hsp]
  split
  · exact List.prefix_rfl
  · exact List.nil_prefix

/-- The step opens inline for a slot that is not waiting for the reaper, or does not
open at all. -/
def opensFresh (s : Sys) : Event → Bool
  | .listener upstream _ => !(upstream.open_is_cheap && upstream.open_tcp &&
      s.todo.head?.any fun h => (s.socket_ctxs.get h).any fun ctx => ctx.state == .OpeningRemote)
  | _ => true

theorem not_reopens_of_opensFresh {s : Sys} {e : Event} (h : s.opensFresh e = true) : ¬ Reopens s e := by
  rintro ⟨x, todo, upstream, now, htodo, rfl, hre⟩
  obtain ⟨ctx, hget, hstate⟩ := hre.failed
  simp [opensFresh, htodo, hre.cheap, hre.opens, hget, hstate] at h

/-- The first open fails, the reaper rearms the slot, and a second client is
relayed. -/
theorem uplink_prefix_reaped : ∃ tr s, Run (new 2) step tr s ∧ (∀ t ∈ tr, ¬ Reopens t.pre t.ev) ∧
    s.relays.length = 1 ∧ ∀ t ∈ tr, UplinkPrefix t.post := by
  have hrun : (runEvents (checked opensFresh step) (new 2) (connect ⟨true, true⟩ (ipv4 93 184 216 34) ++
      packet ⟨true, false⟩ [.data [1]] ++ [Event.udp_sweep 60] ++ connect ⟨true, true⟩ (ipv4 93 184 216 34) ++
      packet ⟨true, true⟩ [.data [2]])).any (fun s => decide (s.relays.length = 1)) = true := by
    decide +kernel
  obtain ⟨tr, s, hs, hok, hp⟩ := exists_checked_run_of_any hrun
  have hre : ∀ t ∈ tr, ¬ Reopens t.pre t.ev := fun t ht => not_reopens_of_opensFresh (hok t ht)
  exact ⟨tr, s, hs, hre, of_decide_eq_true hp, uplink_prefix hs hre⟩

/-- The first open fails and the next payload is opened for before the reaper
comes: the uplink starts with the second payload. -/
theorem uplink_gap_after_failed_open : ∃ s ctx, Reachable 2 s ∧ s.socket_ctxs.get 0 = some ctx ∧
    ctx.hist.spawned = none ∧ ctx.hist.extracted.map (·.1) = [[1], [2]] ∧ ctx.hist.fed = [2] ∧ ¬ UplinkPrefix s := by
  have hrun : (runEvents step (new 2) (connect ⟨true, true⟩ (ipv4 93 184 216 34) ++
      packet ⟨true, false⟩ [.data [1]] ++ packet ⟨true, true⟩ [.data [2]])).any (fun s =>
        (s.socket_ctxs.get 0).any fun ctx => decide (ctx.hist.spawned = none ∧
          ctx.hist.extracted.map (·.1) = [[1], [2]] ∧ ctx.hist.fed = [2])) = true := by
    decide +kernel
  obtain ⟨s, hs, hp⟩ := exists_reach_of_any hrun
  obtain ⟨ctx, hget, hp⟩ := (Option.any_eq_true _ _).1 hp
  obtain ⟨hsp, hread, hfed⟩ := of_decide_eq_true hp
  refine ⟨s, ctx, hs, hget, hsp, hread, hfed, fun hprefix => ?_⟩
  have := hprefix 0 ctx hget hsp
  rw [hfed, readBytes, hread] at this
  exact absurd this (by decide)

end Sys

end MiniVpn
