import MiniVpn.Changes
/-!
# The fields of a context agree

Six functions write the fields of a `SocketCtx`, with early returns between the
writes. Between two events the fields fit together all the same
(`WellFormed`). Which of the two waiting states a slot can be in depends on the
upstream: `open_is_cheap` is fixed when the upstream is built, so in one run all
opens are inline or all are spawned.
-/
open Lib

namespace MiniVpn

/-- The fields of a context fit its state. -/
structure SocketCtx.WellFormed (ctx : SocketCtx) : Prop where
  phase : ctx.state = .Listening ∨ ctx.state = .OpeningRemote ∨ ctx.state = .HandshakePending ∨ ctx.state = .Relaying
  uplink : ctx.uplink_tx.isSome = true ↔ ctx.state = .Relaying
  fake : ctx.fake_ip.isSome = true → ctx.state = .HandshakePending ∨ ctx.state = .Relaying
  buffer : ctx.uplink_buffer ≠ [] → ctx.state = .HandshakePending
  bound : ctx.uplink_buffer.length ≤ MAX_UPLINK_BUFFER
  pending : ctx.downlink_pending ≠ [] → ctx.state = .Relaying

theorem SlotInv.wellFormed {socket : TcpSocket} {ctx : SocketCtx} (h : SlotInv socket ctx) : ctx.WellFormed where
  phase := by
    obtain ⟨hc, hr⟩ := h.phase
    cases hs : ctx.state <;> simp_all
  uplink := by
    rw [Option.isSome_iff_ne_none]
    exact h.uplink
  fake hf := h.fake (Option.isSome_iff_ne_none.1 hf)
  buffer hb := by
    by_contra hs
    exact hb (h.buffer hs)
  bound := by
    by_cases hs : ctx.state = .HandshakePending
    · obtain ⟨k, -, -, hb⟩ := h.buffered hs
      exact hb.max
    · rw [h.buffer hs]
      exact Nat.zero_le _
  pending := h.pending

/-- A slot waits for an inline open only if opens are inline, and for a spawned
one only if they are spawned. -/
def SocketState.Fits (inline : Bool) : SocketState → Prop
  | .OpeningRemote => inline = true
  | .HandshakePending => inline = false
  | _ => True

theorem FirstPayload.fits {upstream : Upstream} {conn : Option IpEndpoint} {ctx ctx' : SocketCtx} {inline : Bool}
    (hk : upstream.open_is_cheap = inline) (hctx : ctx.state.Fits inline) (hf : FirstPayload upstream conn ctx ctx') :
    ctx'.state.Fits inline := by
  cases hf with
  | orphan => exact hctx
  | buffer payload endpoint =>
    obtain ⟨buffer, he⟩ := buffer_uplink_frame (ctx.noteExtracted payload (some endpoint)) payload
    rw [he]
    exact hctx
  | openFailed payload endpoint _ _ hcheap => exact hk.symm.trans hcheap
  | opened payload endpoint tx fake_ip => cases fake_ip <;> trivial
  | spawned payload endpoint fake_ip _ hcheap =>
    have hstate : (ctx.spawned payload endpoint fake_ip).state = .HandshakePending := by
      simp only [SocketCtx.spawned, SocketCtx.buffer_uplink]
      cases fake_ip <;> (split <;> rfl)
    rw [hstate]
    exact hk.symm.trans hcheap

namespace Sys

/-- The states of all slots fit the kind of the upstream. -/
def Fits (inline : Bool) (s : Sys) : Prop := ∀ h ctx, s.socket_ctxs.get h = some ctx → ctx.state.Fits inline

/-- The upstream asked in this step, if any, opens inline or not as said. -/
def OpensInline (inline : Bool) (_ : Sys) : Event → Prop
  | .listener upstream _ => upstream.open_is_cheap = inline
  | _ => True

theorem Fits.step {inline : Bool} {s s' : Sys} {e : Event} (hok : SlotsOk s) (hf : Fits inline s)
    (hk : OpensInline inline s e) (he : s.step e = some s') : Fits inline s' := by
  intro x ctx' hx
  cases step_ctx hok he hx with
  | created port _ hctx => exact hctx ▸ trivial
  | kept ctx hget hsame => exact hsame.state ▸ hf x ctx hget
  | rearmed ctx ctx₁ _ _ hctx => exact hctx ▸ trivial
  | installed i now done ctx tx _ _ _ _ hctx => exact hctx ▸ trivial
  | visited upstream now ctx ctx₁ hev hget hsame hv =>
    have hctx : ctx₁.state.Fits inline := hsame.state ▸ hf x ctx hget
    subst hev
    cases hv with
    | same => exact hctx
    | rearmed => trivial
    | relayed => trivial
    | first _ _ hf => exact hf.fits hk hctx

/-! ## The invariant -/

/-- In every state the loop can be in, between two slots of `process_dirty_relay`
included, the fields of every context fit its state. And if the upstream opens
inline, no slot waits for a spawned handshake; if it does not, none waits for an
inline open. -/
theorem socketCtx_wellFormed (pool_size : Nat) (s : Sys) :
    (Reachable pool_size s → ∀ h ctx, s.socket_ctxs.get h = some ctx → ctx.WellFormed) ∧
    ∀ inline, ReachableBy pool_size (OpensInline inline) s → ∀ h ctx, s.socket_ctxs.get h = some ctx →
      (ctx.state = .OpeningRemote → inline = true) ∧ (ctx.state = .HandshakePending → inline = false) := by
  refine ⟨fun hr h ctx hget => (hr.slotsOk h ctx hget).wellFormed, fun inline hr h ctx hget => ?_⟩
  have hfits : Fits inline s := Reach.inv (Fits inline) (fun h ctx hget => by simp [new] at hget)
    (fun _ _ _ hs hf hk he => hf.step (Reachable.slotsOk (Reach.mono (fun _ _ _ => trivial) hs)) hk he) hr
  have hstate := hfits h ctx hget
  refine ⟨fun hs => ?_, fun hs => ?_⟩
  · rwa [hs] at hstate
  · rwa [hs] at hstate

/-- A check for `OpensInline`. -/
def opensInline (inline : Bool) (_ : Sys) : Event → Bool
  | .listener upstream _ => upstream.open_is_cheap == inline
  | _ => true

/-- A client of an upstream that does not open inline waits for its handshake, with
the bytes it has sent in the buffer. -/
theorem socketCtx_wellFormed_pending : ∃ s, Reachable 2 s ∧ ReachableBy 2 (OpensInline false) s ∧
    (∃ ctx, s.socket_ctxs.get 0 = some ctx ∧ ctx.state = .HandshakePending ∧ ctx.uplink_buffer = [1, 2]) ∧
    (∀ h ctx, s.socket_ctxs.get h = some ctx → ctx.WellFormed) ∧
    ∀ h ctx, s.socket_ctxs.get h = some ctx →
      (ctx.state = .OpeningRemote → false = true) ∧ (ctx.state = .HandshakePending → false = false) := by
  have hrun : (runEvents (checked (opensInline false) step) (new 2) (connect ⟨false, true⟩ (ipv4 93 184 216 34) ++
      packet ⟨false, true⟩ [.data [1]] ++ packet ⟨false, true⟩ [.data [2]])).any (fun s =>
        (s.socket_ctxs.get 0).any fun ctx => decide (ctx.state = .HandshakePending ∧ ctx.uplink_buffer = [1, 2])) =
      true := by
    decide +kernel
  obtain ⟨tr, s, hs, hok, hp⟩ := exists_checked_run_of_any hrun
  obtain ⟨ctx, hget, hp⟩ := (Option.any_eq_true _ _).1 hp
  have hinline : ReachableBy 2 (OpensInline false) s := hs.reach fun t ht => by
    have := hok t ht
    cases hev : t.ev <;> simp_all [opensInline, OpensInline]
  have hreach : Reachable 2 s := Reach.mono (fun _ _ _ => trivial) hinline
  obtain ⟨hwf, hkind⟩ := socketCtx_wellFormed 2 s
  exact ⟨s, hreach, hinline, ⟨ctx, hget, of_decide_eq_true hp⟩, hwf hreach, hkind false hinline⟩

end Sys

end MiniVpn
