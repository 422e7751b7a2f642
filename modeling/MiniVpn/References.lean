import MiniVpn.Wiring
/-!
# Fake-IP references balance

Every `acquire` the loop makes is matched by a slot or a UDP flow that holds the
address, and every holder that lets go of it makes one `release`. So the calls
made so far say who holds what: nothing leaks and nothing is released twice.
-/
open Lib

namespace MiniVpn

namespace FakeIpPool

theorem acquires_acquireOpt (p : FakeIpPool) (o : Option Ipv4Addr) (ip : Ipv4Addr) (now : Nat) :
    (p.acquireOpt o now).acquires ip = p.acquires ip + if o = some ip then 1 else 0 := by
  cases o with
  | none => simp [acquireOpt]
  | some ip' => simp only [acquireOpt, acquires_acquire, Option.some.injEq]

@[simp] theorem releases_acquireOpt (p : FakeIpPool) (o : Option Ipv4Addr) (ip : Ipv4Addr) (now : Nat) :
    (p.acquireOpt o now).releases ip = p.releases ip := by
  cases o <;> simp [acquireOpt]

@[simp] theorem acquires_releaseOpt (p : FakeIpPool) (o : Option Ipv4Addr) (ip : Ipv4Addr) (now : Nat) :
    (p.releaseOpt o now).acquires ip = p.acquires ip := by
  cases o <;> simp [releaseOpt]

theorem releases_releaseOpt (p : FakeIpPool) (o : Option Ipv4Addr) (ip : Ipv4Addr) (now : Nat) :
    (p.releaseOpt o now).releases ip = p.releases ip + if o = some ip then 1 else 0 := by
  cases o with
  | none => simp [releaseOpt]
  | some ip' => simp only [releaseOpt, releases_release, Option.some.injEq]

end FakeIpPool

/-- Live associations whose flow holds a reference on `ip`. -/
def AssocTable.flowsHolding (t : AssocTable) (ip : Ipv4Addr) : Nat :=
  t.id_to_entry.iter.countP fun e => t.id_to_fake_ip.get e.1 == some ip

/-- Only live associations hold references, so counting them counts all. -/
theorem AssocTable.Live.flowsHolding_eq {t : AssocTable} (h : t.Live) (ip : Ipv4Addr) :
    t.flowsHolding ip = t.holders ip := by
  rw [flowsHolding, holders, ← Table.countP_iter_get fun k v hv _ => h k v hv]
  refine List.countP_congr fun e _ => ?_
  cases t.id_to_fake_ip.get e.1 <;> simp

namespace Sys

/-- Slots that hold a reference on `ip`. -/
def slotsHolding (s : Sys) (ip : Ipv4Addr) : Nat := s.socket_ctxs.count fun ctx => ctx.fake_ip == some ip

/-- Writing a slot moves the number of holders by what the slot gains or loses. -/
theorem slotsHolding_write {s s' : Sys} {h : SocketHandle} {ctx ctx' : SocketCtx} (hget : s.socket_ctxs.get h = some ctx)
    (hctxs : s'.socket_ctxs = s.socket_ctxs.insert h ctx') (ip : Ipv4Addr) :
    s'.slotsHolding ip + (if ctx.fake_ip = some ip then 1 else 0) =
      s.slotsHolding ip + if ctx'.fake_ip = some ip then 1 else 0 := by
  rw [slotsHolding, slotsHolding, hctxs, Table.count_insert, Table.count_of_get hget]
  simp only [beq_iff_eq]
  omega

structure Balance (s : Sys) : Prop where
  settled : s.assoc_table.Settled
  refs : ∀ ip, s.fake_pool.acquires ip = s.fake_pool.releases ip + s.slotsHolding ip + s.assoc_table.holders ip

/-- A slot is written, and the pool acquires what it gains and releases what it
loses. -/
theorem Balance.write {s s' : Sys} (hb : Balance s) {h : SocketHandle} {ctx ctx' : SocketCtx}
    (hget : s.socket_ctxs.get h = some ctx) (hctxs : s'.socket_ctxs = s.socket_ctxs.insert h ctx')
    (hassoc : s'.assoc_table = s.assoc_table)
    (hpool : ∀ ip, s'.fake_pool.acquires ip + s.fake_pool.releases ip + (if ctx.fake_ip = some ip then 1 else 0) =
      s.fake_pool.acquires ip + s'.fake_pool.releases ip + if ctx'.fake_ip = some ip then 1 else 0) : Balance s' where
  settled := hassoc ▸ hb.settled
  refs ip := by
    have h1 := hb.refs ip
    have h2 := slotsHolding_write hget hctxs ip
    have h3 := hpool ip
    rw [hassoc]
    omega

/-- A slot is written and keeps its reference. -/
theorem Balance.keep {s s' : Sys} (hb : Balance s) {h : SocketHandle} {ctx ctx' : SocketCtx}
    (hget : s.socket_ctxs.get h = some ctx) (hctxs : s'.socket_ctxs = s.socket_ctxs.insert h ctx')
    (hfake : ctx'.fake_ip = ctx.fake_ip) (hassoc : s'.assoc_table = s.assoc_table)
    (hpool : s'.fake_pool = s.fake_pool) : Balance s' :=
  hb.write hget hctxs hassoc fun ip => by rw [hpool, hfake]

/-- A rearmed slot gives its reference back. -/
theorem Balance.rearm {s s' : Sys} (hb : Balance s) {h : SocketHandle} {ctx : SocketCtx} {now : Nat}
    (hget : s.socket_ctxs.get h = some ctx) (hctxs : s'.socket_ctxs = s.socket_ctxs.insert h ctx.rearmed)
    (hassoc : s'.assoc_table = s.assoc_table) (hpool : s'.fake_pool = s.fake_pool.releaseOpt ctx.fake_ip now) :
    Balance s' :=
  hb.write hget hctxs hassoc fun ip => by
    have hnone : ctx.rearmed.fake_ip = none := rfl
    simp only [hpool, hnone, FakeIpPool.acquires_releaseOpt, FakeIpPool.releases_releaseOpt, reduceCtorEq, if_false]
    omega

/-- A slot that held nothing takes over the reference of its new target. -/
theorem Balance.hold {s s' : Sys} (hb : Balance s) {h : SocketHandle} {ctx ctx' : SocketCtx} {fake_ip : Option Ipv4Addr}
    {now : Nat} (hget : s.socket_ctxs.get h = some ctx) (hnone : ctx.fake_ip = none)
    (hctxs : s'.socket_ctxs = s.socket_ctxs.insert h ctx') (hfake : ctx'.fake_ip = fake_ip)
    (hassoc : s'.assoc_table = s.assoc_table) (hpool : s'.fake_pool = s.fake_pool.acquireOpt fake_ip now) :
    Balance s' :=
  hb.write hget hctxs hassoc fun ip => by
    simp only [hpool, hnone, hfake, FakeIpPool.releases_acquireOpt, FakeIpPool.acquires_acquireOpt, reduceCtorEq,
      if_false]
    omega

/-- A slot without uplink and handshake holds no reference. -/
theorem fake_ip_none {s : Sys} (hg : Good s) {h : SocketHandle} {ctx : SocketCtx} (hget : s.socket_ctxs.get h = some ctx)
    (hup : ctx.uplink_tx = none) (hstate : ctx.state ≠ .HandshakePending) : ctx.fake_ip = none := by
  have hi := hg.slots h ctx hget
  by_contra hf
  rcases hi.fake hf with hs | hs
  · exact hstate hs
  · exact hi.not_relaying hup hs

theorem balance_effect {s s' : Sys} {l : Label} (he : Effect s l s') (hg : Good s) (hb : Balance s) : Balance s' := by
  cases he with
  | mark | unmark | schedule | segment | dispatch | discard | dropHandshake | relay => exact ⟨hb.settled, hb.refs⟩
  | pool p hcalls =>
    refine ⟨hb.settled, fun ip => ?_⟩
    have := hb.refs ip
    simpa only [FakeIpPool.acquires, FakeIpPool.releases, hcalls, slotsHolding] using this
  | flows t p hk =>
    refine ⟨hk.settled hb.settled, fun ip => ?_⟩
    have h1 := hb.refs ip
    have h2 := hk.refs hb.settled ip
    simp only [slotsHolding] at h1 ⊢
    omega
  | grow port n l hgrow =>
    refine ⟨hb.settled, fun ip => ?_⟩
    have hcount := hgrow.count hg.wired.tight (fun ctx => ctx.fake_ip == some ip) rfl
    simp only [slotsHolding, hcount]
    exact hb.refs ip
  | turn h ctx socket' ctx' hget ht => exact hb.keep hget rfl ht.frame.2.2.1 rfl rfl
  | deliver msg rest ctx tx socket' ctx' l _ _ hget _ hfl =>
    exact hb.keep hget rfl (flush_downlink_frame hfl).2.2.1 rfl rfl
  | relayed h ctx tx payload rest hget => exact hb.keep hget rfl rfl rfl rfl
  | install i done ctx _ hm => exact hb.keep hm.get rfl rfl rfl rfl
  | rearm h ctx now hget => exact hb.rearm hget rfl rfl rfl
  | eof msg rest ctx now _ _ hget => exact hb.rearm hget rfl rfl rfl
  | refuse i done ctx now _ hm => exact hb.rearm hm.get rfl rfl rfl
  | opened h ctx payload rest endpoint target fake_ip now l hget hup hstate =>
    have hnone := fake_ip_none hg hget hup hstate
    refine hb.hold hget hnone rfl ?_ rfl rfl
    cases fake_ip with
    | none => exact hnone
    | some ip => rfl
  | spawned h ctx payload rest endpoint target fake_ip now hget hup hstate hr =>
    have hnone := fake_ip_none hg hget hup hstate
    refine hb.hold hget hnone rfl ?_ rfl rfl
    rw [spawned_eq ((hg.slots h ctx hget).buffer hstate) hr.length_le]
    cases fake_ip with
    | none => exact hnone
    | some ip => rfl

theorem new_balance (pool_size : Nat) : Balance (new pool_size) where
  settled := ⟨AssocTable.new_live, rfl⟩
  refs _ := rfl

theorem Reachable.balance {pool_size : Nat} {s : Sys} (h : Reachable pool_size s) : Balance s :=
  h.inv_good Balance (new_balance pool_size) fun _ _ _ he hg hb => balance_effect he hg hb

/-- Between any two steps of any run, the `acquire` calls made for an address
minus the `release` calls are the slots and the live UDP flows that hold it. -/
theorem references_balance {pool_size : Nat} {s : Sys} (h : Reachable pool_size s) (ip : Ipv4Addr) :
    (s.fake_pool.acquires ip : Int) - s.fake_pool.releases ip = s.slotsHolding ip + s.assoc_table.flowsHolding ip := by
  have hb := h.balance
  have hrefs := hb.refs ip
  rw [hb.settled.live.flowsHolding_eq]
  omega

/-- A name is resolved, a datagram is sent to it, and a client connects and waits
for its handshake: two references, one held by the flow and one by the slot. -/
theorem references_balance_two : ∃ s, Reachable 2 s ∧
    (s.fake_pool.acquires (ipv4 198 18 0 2) = 2 ∧ s.slotsHolding (ipv4 198 18 0 2) = 1) ∧
    (s.fake_pool.acquires (ipv4 198 18 0 2) : Int) - s.fake_pool.releases (ipv4 198 18 0 2) =
      s.slotsHolding (ipv4 198 18 0 2) + s.assoc_table.flowsHolding (ipv4 198 18 0 2) := by
  have hrun : (runEvents step (new 2)
      ([Event.rx (.udp ⟨ipv4 10 0 0 5, 5000, ipv4 10 0 0 1, 53, []⟩) (some ⟨"a.test", QTYPE_A⟩) none [] [] 0,
        Event.rx (.udp ⟨ipv4 10 0 0 5, 5001, ipv4 198 18 0 2, 80, []⟩) none none [] [] 0] ++
        connect ⟨false, true⟩ (ipv4 198 18 0 2) ++ packet ⟨false, true⟩ [.data [1]])).any
      (fun s => decide (s.fake_pool.acquires (ipv4 198 18 0 2) = 2 ∧ s.slotsHolding (ipv4 198 18 0 2) = 1)) = true := by
    decide +kernel
  obtain ⟨s, hs, hp⟩ := exists_reach_of_any hrun
  exact ⟨s, hs, of_decide_eq_true hp, references_balance hs _⟩

end Sys

end MiniVpn
