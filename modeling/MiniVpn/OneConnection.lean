import MiniVpn.TuicConnection
/-!
# One connection at a time

What holds of the shared connection in every interleaving of its tasks. `Move` says
what a step can do; the invariant and the theorems are case analyses over it.
-/
open Lib

namespace MiniVpn

namespace TuicConnection

/-! ## The invariant -/

/-- The connection a task has got from `live_conn` or `current_conn`. -/
def Stage.link? : Stage → Option Nat
  | .open_bi k _ | .write_connect k _ | .pump k | .write_uni_packet k _ => some k
  | _ => none

def Stage.phase? : Stage → Option Phase
  | .reconnect _ phase => some phase
  | _ => none

section
variable (me : Client)

/-- Requests and packets. -/
def Sent.isApp : Sent → Prop
  | .connect _ | .packet _ => True
  | _ => False

/-- Authentication is complete, and came first. -/
def Authenticated (k : Nat) (sent : List Sent) : Prop :=
  ∃ rest, sent = .authenticate (me.authenticate k) :: .finish :: rest ∧ ∀ x ∈ rest, x.isApp

/-- Nothing was sent but a part of the authentication, unless that is complete. -/
def AuthenticatesFirst (k : Nat) (sent : List Sent) : Prop :=
  sent <+: [.authenticate (me.authenticate k), .finish] ∨ Authenticated me k sent

/-- What has been sent in a phase of the handshake. -/
def Phase.sent (k : Nat) : Phase → List Sent
  | .authenticate _ _ .finish => [.authenticate (me.authenticate k)]
  | _ => []

structure Inv (s : State) : Prop where
  /-- The connection in the mutex is one that works, or has worked. -/
  conn : ∃ l, s.links[s.conn]? = some l ∧ Authenticated me s.conn l.sent
  first : ∀ k l, s.links[k]? = some l → AuthenticatesFirst me k l.sent
  /-- A task in its handshake has the lock, and the old connection is closed. -/
  reconnecting : ∀ t goal phase, s.tasks.get t = some (.reconnect goal phase) →
    s.guard = some t ∧ s.is_closed s.conn = true ∧ ∀ k, phase.link? = some k →
      k + 1 = s.links.length ∧ ∃ l, s.links[k]? = some l ∧ l.sent = phase.sent me k
  guarded : ∀ t, s.guard = some t → ∃ goal phase, s.tasks.get t = some (.reconnect goal phase)
  /-- Every connection is closed but the one in the mutex and the one being made. -/
  closed : ∀ k l, s.links[k]? = some l → l.closed = true ∨ k = s.conn ∨
    ∃ t goal phase, s.tasks.get t = some (.reconnect goal phase) ∧ phase.link? = some k
  used : ∀ t stage k, s.tasks.get t = some stage → stage.link? = some k →
    ∃ l, s.links[k]? = some l ∧ Authenticated me k l.sent

variable {me}

theorem inv_connected : Inv me (connected me) where
  conn := ⟨_, rfl, [], rfl, by simp⟩
  first := by
    intro k l hl
    rcases k with _ | k
    · obtain rfl := Option.some.inj hl
      exact .inl List.prefix_rfl
    · simp [connected] at hl
  reconnecting := by simp [connected]
  guarded := by simp [connected]
  closed := by
    intro k l hl
    rcases k with _ | k
    · exact .inr (.inl rfl)
    · simp [connected] at hl
  used := by simp [connected]

/-! ### The parts of a step -/

variable {s : State} {t k : Nat}

theorem links_close (s : State) (k j : Nat) :
    (s.close k).links[j]? = s.links[j]?.map fun l => { l with closed := l.closed || decide (k = j) } := by
  rw [State.close, List.getElem?_modify]
  cases s.links[j]? with
  | none => rfl
  | some l => by_cases h : k = j <;> simp [h]

theorem links_send (s : State) (k j : Nat) (x : Sent) :
    (s.send k x).links[j]? = s.links[j]?.map fun l => { l with sent := l.sent ++ if k = j then [x] else [] } := by
  rw [State.send, List.getElem?_modify]
  cases s.links[j]? with
  | none => rfl
  | some l => by_cases h : k = j <;> simp [h]

theorem get_put (s : State) (t t' : Nat) (stage : Option Stage) :
    (s.put t stage).tasks.get t' = if t' = t then stage else s.tasks.get t' := by
  cases stage with
  | none => exact Table.get_remove ..
  | some stage => exact Table.get_insert ..

theorem is_closed_close (s : State) (k j : Nat) : (s.close k).is_closed j = (s.is_closed j || decide (k = j)) := by
  rw [State.is_closed, links_close, State.is_closed]
  cases s.links[j]? <;> simp

theorem is_closed_send (s : State) (k j : Nat) (x : Sent) : (s.send k x).is_closed j = s.is_closed j := by
  rw [State.is_closed, links_send, State.is_closed]
  cases s.links[j]? <;> rfl

theorem closed_of_is_closed {l : Link} (hclosed : s.is_closed k = true) (h : s.links[k]? = some l) : l.closed = true := by
  rwa [State.is_closed, h, Option.all_some] at hclosed

theorem Authenticated.send {sent : List Sent} {x : Sent} (h : Authenticated me k sent) (hx : x.isApp) :
    Authenticated me k (sent ++ [x]) := by
  obtain ⟨rest, rfl, hrest⟩ := h
  refine ⟨rest ++ [x], rfl, fun y hy => ?_⟩
  rcases List.mem_append.1 hy with hy | hy
  · exact hrest y hy
  · rw [List.mem_singleton.1 hy]
    exact hx

theorem Inv.close (h : Inv me s) (k : Nat) : Inv me (s.close k) where
  conn := by
    obtain ⟨l, hl, hauth⟩ := h.conn
    exact ⟨_, (links_close s k _).trans (congrArg _ hl), hauth⟩
  first := by
    intro j l hl
    rw [links_close, Option.map_eq_some_iff] at hl
    obtain ⟨l, hl, rfl⟩ := hl
    exact h.first j l hl
  reconnecting := by
    intro t goal phase ht
    obtain ⟨hguard, hclosed, hlink⟩ := h.reconnecting t goal phase ht
    refine ⟨hguard, ?_, fun j hj => ?_⟩
    · rw [is_closed_close]
      exact Bool.or_eq_true_iff.2 (.inl hclosed)
    · obtain ⟨hlen, l, hl, hsent⟩ := hlink j hj
      refine ⟨hlen.trans (List.length_modify ..).symm, _, (links_close s k j).trans (congrArg _ hl), hsent⟩
  guarded := h.guarded
  closed := by
    intro j l hl
    rw [links_close, Option.map_eq_some_iff] at hl
    obtain ⟨l, hl, rfl⟩ := hl
    exact (h.closed j l hl).imp_left fun hclosed => Bool.or_eq_true_iff.2 (.inl hclosed)
  used := by
    intro t stage j ht hj
    obtain ⟨l, hl, hauth⟩ := h.used t stage j ht hj
    exact ⟨_, (links_close s k j).trans (congrArg _ hl), hauth⟩

/-- A connection that has been used is not one in its handshake. -/
theorem not_authenticated_sent (phase : Phase) (k : Nat) : ¬ Authenticated me k (phase.sent me k) := by
  rintro ⟨rest, heq, -⟩
  unfold Phase.sent at heq
  split at heq <;> simp at heq

/-- A request or a packet, on a connection that is in use. -/
theorem Inv.send (h : Inv me s) {x : Sent} (hx : x.isApp) (hauth : ∃ l, s.links[k]? = some l ∧ Authenticated me k l.sent) :
    Inv me (s.send k x) := by
  have hkeep : ∀ j, (∃ l, s.links[j]? = some l ∧ Authenticated me j l.sent) →
      ∃ l, (s.send k x).links[j]? = some l ∧ Authenticated me j l.sent := by
    rintro j ⟨l, hl, hl'⟩
    refine ⟨_, (links_send s k j x).trans (congrArg _ hl), ?_⟩
    by_cases hkj : k = j
    · simp only [hkj, if_true]
      exact hl'.send hx
    · simpa [hkj] using hl'
  refine ⟨hkeep _ h.conn, ?_, ?_, h.guarded, ?_, fun t stage j ht hj => hkeep j (h.used t stage j ht hj)⟩
  · intro j l hl
    rw [links_send, Option.map_eq_some_iff] at hl
    obtain ⟨l, hl, rfl⟩ := hl
    by_cases hkj : k = j
    · subst hkj
      obtain ⟨l', hl', hauth⟩ := hauth
      obtain rfl := Option.some.inj (hl.symm.trans hl')
      simp only [if_true]
      exact .inr (hauth.send hx)
    · simpa [hkj] using h.first j l hl
  · intro t goal phase ht
    obtain ⟨hguard, hclosed, hlink⟩ := h.reconnecting t goal phase ht
    refine ⟨hguard, (is_closed_send ..).trans hclosed, fun j hj => ?_⟩
    obtain ⟨hlen, l, hl, hsent⟩ := hlink j hj
    refine ⟨hlen.trans (List.length_modify ..).symm, _, (links_send s k j x).trans (congrArg _ hl), ?_⟩
    have hkj : k ≠ j := by
      rintro rfl
      obtain ⟨l', hl', hauth⟩ := hauth
      obtain rfl := Option.some.inj (hl.symm.trans hl')
      rw [hsent] at hauth
      exact not_authenticated_sent phase k hauth
    simpa [hkj] using hsent
  · intro j l hl
    rw [links_send, Option.map_eq_some_iff] at hl
    obtain ⟨l, hl, rfl⟩ := hl
    exact h.closed j l hl

/-- A stage outside the handshake, on a connection that is in use. -/
def Settled (me : Client) (s : State) (stage : Option Stage) : Prop :=
  ∀ st, stage = some st → st.phase? = none ∧
    ∀ k, st.link? = some k → ∃ l, s.links[k]? = some l ∧ Authenticated me k l.sent

theorem phase?_reconnect {goal : Goal} {phase : Phase} {stage : Option Stage} (h : Settled me s stage) :
    stage ≠ some (.reconnect goal phase) := fun heq => by cases (h _ heq).1

theorem Inv.put (h : Inv me s) {stage : Option Stage} (hold : ∀ goal phase, s.tasks.get t ≠ some (.reconnect goal phase))
    (hnew : Settled me s stage) : Inv me (s.put t stage) := by
  have hget : ∀ t' goal phase, (s.put t stage).tasks.get t' = some (.reconnect goal phase) ↔
      s.tasks.get t' = some (.reconnect goal phase) := by
    intro t' goal phase
    rw [get_put]
    split
    · rename_i ht
      rw [ht]
      exact ⟨fun heq => (phase?_reconnect hnew heq).elim, fun heq => (hold goal phase heq).elim⟩
    · rfl
  refine ⟨h.conn, h.first, fun t' goal phase ht => h.reconnecting t' goal phase ((hget ..).1 ht), ?_, ?_, ?_⟩
  · intro t' hguard
    obtain ⟨goal, phase, ht⟩ := h.guarded t' hguard
    exact ⟨goal, phase, (hget ..).2 ht⟩
  · intro j l hl
    refine (h.closed j l hl).imp_right fun hj => hj.imp_right ?_
    rintro ⟨t', goal, phase, ht, hphase⟩
    exact ⟨t', goal, phase, (hget ..).2 ht, hphase⟩
  · intro t' st j ht hj
    rw [get_put] at ht
    split at ht
    · exact (hnew st ht).2 j hj
    · exact h.used t' st j ht hj

/-! ### The handshake -/

variable {goal : Goal} {phase phase' : Phase}

/-- Only one task is in its handshake. -/
theorem Inv.only (h : Inv me s) (ht : s.tasks.get t = some (.reconnect goal phase)) {t' : Nat} {goal' : Goal}
    (ht' : s.tasks.get t' = some (.reconnect goal' phase')) : t' = t ∧ phase' = phase := by
  obtain rfl := Option.some.inj ((h.reconnecting t goal phase ht).1.symm.trans (h.reconnecting t' goal' phase' ht').1)
  obtain ⟨-, rfl⟩ := Stage.reconnect.inj (Option.some.inj (ht.symm.trans ht'))
  exact ⟨rfl, rfl⟩

section
variable {links : List Link}
variable (honly : ∀ t' goal' phase', s.tasks.get t' = some (.reconnect goal' phase') → t' = t)
variable (hkeep : ∀ j : Nat, (∃ l, s.links[j]? = some l ∧ Authenticated me j l.sent) →
  ∃ l, links[j]? = some l ∧ Authenticated me j l.sent)
variable (hfirst : ∀ (j : Nat) (l : Link), links[j]? = some l → AuthenticatesFirst me j l.sent)
include honly hkeep hfirst

/-- The task with the lock is in a phase, with the connections that belong to it. -/
theorem Inv.enter (h : Inv me s) (hconn : { s with links := links }.is_closed s.conn = true)
    (hphase : ∀ k, phase.link? = some k → k + 1 = links.length ∧ ∃ l, links[k]? = some l ∧ l.sent = phase.sent me k)
    (hclosed : ∀ (j : Nat) (l : Link), links[j]? = some l → l.closed = true ∨ j = s.conn ∨ phase.link? = some j) :
    Inv me ({ s with links := links, guard := some t }.put t (some (.reconnect goal phase))) := by
  refine ⟨hkeep _ h.conn, hfirst, ?_, ?_, ?_, ?_⟩
  · intro t' goal' phase' ht'
    rw [get_put] at ht'
    split at ht'
    · rename_i heq
      obtain ⟨-, rfl⟩ := Stage.reconnect.inj (Option.some.inj ht')
      exact ⟨congrArg some heq.symm, hconn, hphase⟩
    · rename_i hne
      exact (hne (honly _ _ _ ht')).elim
  · intro t' ht'
    obtain rfl := Option.some.inj ht'
    exact ⟨goal, phase, (get_put ..).trans (if_pos rfl)⟩
  · intro j l hl
    refine (hclosed j l hl).imp_right fun hj => hj.imp_right fun hj => ?_
    exact ⟨t, goal, phase, (get_put ..).trans (if_pos rfl), hj⟩
  · intro t' st j ht' hj
    rw [get_put] at ht'
    split at ht'
    · obtain rfl := Option.some.inj ht'
      cases hj
    · exact hkeep j (h.used t' st j ht' hj)

/-- The lock is left, with a connection in the mutex. -/
theorem Inv.leave (h : Inv me s) {conn : Nat} {stage : Option Stage}
    (hconn : ∃ l, links[conn]? = some l ∧ Authenticated me conn l.sent)
    (hclosed : ∀ (j : Nat) (l : Link), links[j]? = some l → l.closed = true ∨ j = conn)
    (hnew : Settled me { s with links := links } stage) :
    Inv me ({ s with links := links, conn := conn, guard := none }.put t stage) := by
  refine ⟨hconn, hfirst, ?_, fun _ => ?_, fun j l hl => (hclosed j l hl).imp_right .inl, ?_⟩
  · intro t' goal' phase' ht'
    rw [get_put] at ht'
    split at ht'
    · exact (phase?_reconnect hnew ht').elim
    · rename_i hne
      exact (hne (honly _ _ _ ht')).elim
  · rintro ⟨⟩
  · intro t' st j ht' hj
    rw [get_put] at ht'
    split at ht'
    · exact (hnew st ht').2 j hj
    · exact hkeep j (h.used t' st j ht' hj)

end

/-- A connection that is not closed, while a task is in its handshake. -/
theorem Inv.closed_or_new (h : Inv me s) (ht : s.tasks.get t = some (.reconnect goal phase)) {j : Nat} {l : Link}
    (hl : s.links[j]? = some l) : l.closed = true ∨ phase.link? = some j := by
  rcases h.closed j l hl with hj | rfl | ⟨t', goal', phase', ht', hj⟩
  · exact .inl hj
  · exact .inl (closed_of_is_closed (h.reconnecting t goal phase ht).2.1 hl)
  · obtain ⟨-, rfl⟩ := h.only ht ht'
    exact .inr hj

/-- The handshake goes on to a phase whose connection is as far. -/
theorem Inv.advance (h : Inv me s) (ht : s.tasks.get t = some (.reconnect goal phase))
    (hphase : ∀ k, phase'.link? = some k → k + 1 = s.links.length ∧
      ∃ l, s.links[k]? = some l ∧ l.sent = phase'.sent me k)
    (hclosed : ∀ k, phase.link? = some k → phase'.link? = some k ∨ s.is_closed k = true) :
    Inv me (s.put t (some (.reconnect goal phase'))) := by
  obtain ⟨hguard, hconn, -⟩ := h.reconnecting t goal phase ht
  have hstate : s = { s with guard := some t } := by rw [← hguard]
  rw [hstate]
  refine h.enter (fun _ _ _ ht' => (h.only ht ht').1) (fun _ hj => hj) h.first hconn hphase fun j l hl => ?_
  rcases h.closed_or_new ht hl with hj | hj
  · exact .inl hj
  · rcases hclosed j hj with hj | hj
    · exact .inr (.inr hj)
    · exact .inl (closed_of_is_closed hj hl)

theorem abandon_tasks (s : State) (phase : Phase) : (s.abandon phase).tasks = s.tasks ∧ (s.abandon phase).conn = s.conn := by
  unfold State.abandon
  split <;> exact ⟨rfl, rfl⟩

theorem is_closed_abandon (s : State) {phase : Phase} (h : phase.link? = some k) : (s.abandon phase).is_closed k = true := by
  rw [State.abandon, h]
  simp only [is_closed_close, decide_true, Bool.or_true]

theorem Inv.abandon (h : Inv me s) (phase : Phase) : Inv me (s.abandon phase) := by
  unfold State.abandon
  split
  · exact h.close _
  · exact h

/-- A handshake is given up. -/
theorem Inv.give_up (h : Inv me s) (ht : s.tasks.get t = some (.reconnect goal phase)) {stage : Option Stage}
    (hnew : Settled me (s.abandon phase) stage) : Inv me ({ s.abandon phase with guard := none }.put t stage) := by
  have habandon := h.abandon phase
  rw [← (abandon_tasks s phase).1] at ht
  refine habandon.leave (fun _ _ _ ht' => (habandon.only ht ht').1) (fun _ hj => hj) habandon.first habandon.conn
    (fun j l hl => .inl ?_) hnew
  rcases habandon.closed_or_new ht hl with hj | hj
  · exact hj
  · exact closed_of_is_closed (is_closed_abandon s hj) hl

theorem settled_none : Settled me s none := by rintro st ⟨⟩

theorem settled_of_link {st : Stage} (hphase : st.phase? = none)
    (hlink : ∀ k, st.link? = some k → ∃ l, s.links[k]? = some l ∧ Authenticated me k l.sent) :
    Settled me s (some st) := by
  rintro _ ⟨⟩
  exact ⟨hphase, hlink⟩

theorem settled_give_up (goal : Goal) : Settled me s goal.give_up := by
  cases goal with
  | start_udp attempt => exact settled_of_link rfl (by rintro k ⟨⟩)
  | _ => exact settled_none

theorem settled_go_on (goal : Goal) (h : ∃ l, s.links[k]? = some l ∧ Authenticated me k l.sent) :
    Settled me s (goal.go_on k) := by
  cases goal with
  | open_tcp target =>
    refine settled_of_link rfl ?_
    rintro _ ⟨⟩
    exact h
  | start_udp attempt =>
    refine settled_of_link rfl ?_
    rintro _ ⟨⟩
    exact h
  | probe => exact settled_none

theorem Inv.live_conn (h : Inv me s) (hfree : s.guard = none) (ht : s.tasks.get t = some (.lock goal)) :
    Inv me (live_conn me s t goal) := by
  unfold TuicConnection.live_conn
  split
  · rename_i hclosed
    have hno : ∀ t' goal' phase', s.tasks.get t' ≠ some (.reconnect goal' phase') := by
      intro t' goal' phase' ht'
      rw [(h.reconnecting t' goal' phase' ht').1] at hfree
      cases hfree
    refine h.enter (fun _ _ _ ht' => (hno _ _ _ ht').elim) (fun _ hj => hj) h.first hclosed (by rintro k ⟨⟩) fun j l hl => ?_
    refine (h.closed j l hl).imp_right fun hj => hj.imp_right ?_
    rintro ⟨t', goal', phase', ht', -⟩
    exact (hno _ _ _ ht').elim
  · refine h.put (fun goal' phase' ht' => ?_) (settled_go_on goal h.conn)
    rw [ht] at ht'
    cases ht'

/-- A new connection is made. -/
theorem Inv.connect (h : Inv me s) (ht : s.tasks.get t = some (.reconnect goal phase)) (hlink : phase.link? = none)
    (hphase : phase'.link? = some s.links.length) (hsent : phase'.sent me s.links.length = []) :
    Inv me (s.connect.2.put t (some (.reconnect goal phase'))) := by
  have hget : ∀ (j : Nat) (l : Link), s.links[j]? = some l → (s.links ++ [⟨false, []⟩])[j]? = some l := fun j l hl =>
    (List.getElem?_append_left (List.getElem?_eq_some_iff.1 hl).1).trans hl
  have hsplit : ∀ (j : Nat) (l : Link), (s.links ++ [⟨false, []⟩])[j]? = some l → s.links[j]? = some l ∨
      (j = s.links.length ∧ l = ⟨false, []⟩) := by
    intro j l hl
    rw [List.getElem?_append] at hl
    split at hl
    · exact .inl hl
    · obtain ⟨hj, rfl⟩ : j - s.links.length = 0 ∧ Link.mk false [] = l := by simpa [List.getElem?_singleton] using hl
      exact .inr ⟨by omega, rfl⟩
  obtain ⟨hguard, hclosed, -⟩ := h.reconnecting t goal phase ht
  obtain ⟨l₀, hl₀, -⟩ := h.conn
  have hstate : s.connect.2 = { s with links := s.links ++ [⟨false, []⟩], guard := some t } := by
    rw [← hguard]
    rfl
  rw [hstate]
  refine h.enter (fun _ _ _ ht' => (h.only ht ht').1) ?_ ?_ ?_ ?_ ?_
  · rintro j ⟨l, hl, hauth⟩
    exact ⟨l, hget j l hl, hauth⟩
  · intro j l hl
    rcases hsplit j l hl with hl | ⟨rfl, rfl⟩
    · exact h.first j l hl
    · exact .inl List.nil_prefix
  · rw [State.is_closed, hget _ _ hl₀, Option.all_some]
    exact closed_of_is_closed hclosed hl₀
  · intro k hk
    obtain rfl := Option.some.inj (hphase.symm.trans hk)
    exact ⟨by simp, ⟨false, []⟩, by simp, hsent.symm⟩
  · intro j l hl
    rcases hsplit j l hl with hl | ⟨rfl, -⟩
    · rcases h.closed_or_new ht hl with hj | hj
      · exact .inl hj
      · rw [hlink] at hj
        cases hj
    · exact .inr (.inr hphase)

/-- Sending on the connection of the handshake, which no one else has. -/
theorem Inv.send_new (h : Inv me s) (ht : s.tasks.get t = some (.reconnect goal phase)) (hlink : phase.link? = some k)
    {x : Sent} (hx : phase.sent me k ++ [x] <+: [.authenticate (me.authenticate k), .finish]) :
    (∃ l, (s.send k x).links[k]? = some l ∧ l.sent = phase.sent me k ++ [x]) ∧
      (∀ j l, (s.send k x).links[j]? = some l → AuthenticatesFirst me j l.sent) ∧
      (∀ j l, (s.send k x).links[j]? = some l → l.closed = true ∨ j = k) ∧
      ∀ j, (∃ l, s.links[j]? = some l ∧ Authenticated me j l.sent) →
        ∃ l, (s.send k x).links[j]? = some l ∧ Authenticated me j l.sent := by
  obtain ⟨-, l, hl, hsent⟩ := (h.reconnecting t goal phase ht).2.2 k hlink
  have hk : (s.send k x).links[k]? = some { l with sent := phase.sent me k ++ [x] } := by
    rw [links_send, hl]
    simp [hsent]
  have hother : ∀ j, j ≠ k → (s.send k x).links[j]? = s.links[j]? := by
    intro j hj
    rw [links_send]
    cases s.links[j]? <;> simp [Ne.symm hj]
  refine ⟨⟨_, hk, rfl⟩, ?_, ?_, ?_⟩
  · intro j l' hl'
    by_cases hj : j = k
    · subst hj
      obtain rfl := Option.some.inj (hk.symm.trans hl')
      exact .inl hx
    · exact h.first j l' ((hother j hj).symm.trans hl')
  · intro j l' hl'
    by_cases hj : j = k
    · exact .inr hj
    · refine (h.closed_or_new ht ((hother j hj).symm.trans hl')).imp_right fun hj' => ?_
      exact Option.some.inj (hj'.symm.trans hlink)
  · rintro j ⟨l', hl', hauth⟩
    have hj : j ≠ k := by
      rintro rfl
      obtain rfl := Option.some.inj (hl.symm.trans hl')
      rw [hsent] at hauth
      exact not_authenticated_sent phase j hauth
    exact ⟨l', (hother j hj).trans hl', hauth⟩

/-- The bytes of `authenticate` are written. -/
theorem Inv.write_authenticate {early : Bool} (h : Inv me s)
    (ht : s.tasks.get t = some (.reconnect goal (.authenticate early k .write_all))) :
    Inv me ((s.send k (.authenticate (me.authenticate k))).put t (some (.reconnect goal (.authenticate early k .finish)))) := by
  obtain ⟨hnew, hfirst, hclosed, hkeep⟩ := h.send_new ht rfl (x := .authenticate (me.authenticate k)) ⟨[.finish], rfl⟩
  obtain ⟨hguard, hconn, hphase⟩ := h.reconnecting t _ _ ht
  have hstate : s.send k (.authenticate (me.authenticate k)) =
      { s with links := (s.send k (.authenticate (me.authenticate k))).links, guard := some t } := by
    rw [← hguard]
    rfl
  rw [hstate]
  refine h.enter (fun _ _ _ ht' => (h.only ht ht').1) hkeep hfirst ((is_closed_send ..).trans hconn) ?_ fun j l hl => ?_
  · rintro _ ⟨⟩
    exact ⟨(hphase k rfl).1.trans (List.length_modify ..).symm, hnew⟩
  · exact (hclosed j l hl).imp_right fun hj => .inr (congrArg some hj.symm)

/-- The new connection takes the place of the old one. -/
theorem Inv.finish {early : Bool} (h : Inv me s)
    (ht : s.tasks.get t = some (.reconnect goal (.authenticate early k .finish))) :
    Inv me ({ s.send k .finish with conn := k, guard := none }.put t (goal.go_on k)) := by
  obtain ⟨⟨l, hl, hsent⟩, hfirst, hclosed, hkeep⟩ := h.send_new ht rfl (x := .finish) List.prefix_rfl
  have hauth : ∃ l, (s.send k .finish).links[k]? = some l ∧ Authenticated me k l.sent := ⟨l, hl, [], hsent, by simp⟩
  exact h.leave (fun _ _ _ ht' => (h.only ht ht').1) hkeep hfirst hauth hclosed (settled_go_on goal hauth)

theorem Inv.handshake (h : Inv me s) (ht : s.tasks.get t = some (.reconnect goal phase)) (ok : Bool) :
    Inv me (handshake me s t goal phase ok) := by
  have hphase := (h.reconnecting t goal phase ht).2.2
  unfold TuicConnection.handshake
  split
  · exact h.connect ht rfl rfl rfl
  · exact h.advance ht (by rintro k ⟨⟩) (by rintro k ⟨⟩)
  · exact h.connect ht rfl rfl rfl
  · exact h.advance ht hphase fun k hk => .inl hk
  · exact h.advance ht hphase fun k hk => .inl hk
  · exact h.advance ht hphase fun k hk => .inl hk
  · exact h.write_authenticate ht
  · exact h.finish ht
  · rename_i k step
    refine (h.close k).advance ht (by rintro k ⟨⟩) ?_
    rintro _ ⟨⟩
    exact .inr (by rw [is_closed_close]; simp)
  · exact h.give_up ht (settled_give_up goal)

/-! ### Steps -/

/-- The connection in the mutex, or one that a task has got. -/
def InUse (s : State) (k : Nat) : Prop := k = s.conn ∨ ∃ t stage, s.tasks.get t = some stage ∧ stage.link? = some k

theorem Inv.inUse (h : Inv me s) (hk : InUse s k) : ∃ l, s.links[k]? = some l ∧ Authenticated me k l.sent := by
  rcases hk with rfl | ⟨t, stage, ht, hk⟩
  · exact h.conn
  · exact h.used t stage k ht hk

variable (me) in
/-- What a step can do. Outside the handshake a task goes on with a connection that is
in use, or sends on one. -/
inductive Move (s : State) : Event → State → Prop
  | idle (e : Event) : Move s e s
  | put {e : Event} {t : Nat} {stage : Option Stage} (hold : ∀ goal phase, s.tasks.get t ≠ some (.reconnect goal phase))
      (hphase : ∀ st, stage = some st → st.phase? = none)
      (hlink : ∀ st k, stage = some st → st.link? = some k → InUse s k) : Move s e (s.put t stage)
  | send {e : Event} {k : Nat} {x : Sent} (hx : x.isApp) (hk : InUse s k) : Move s e (s.send k x)
  | sent {e : Event} {t k : Nat} {x : Sent} (hold : ∀ goal phase, s.tasks.get t ≠ some (.reconnect goal phase))
      (hx : x.isApp) (hk : InUse s k) : Move s e ((s.send k x).put t none)
  | lock {t : Nat} {goal : Goal} (hfree : s.guard = none) (ht : s.tasks.get t = some (.lock goal)) :
      Move s (.locked t) (live_conn me s t goal)
  | handshake {t : Nat} {goal : Goal} {phase : Phase} (ht : s.tasks.get t = some (.reconnect goal phase)) (ok : Bool) :
      Move s (.resume t ok) (handshake me s t goal phase ok)
  | give_up {e : Event} {t : Nat} {goal : Goal} {phase : Phase} {stage : Option Stage}
      (ht : s.tasks.get t = some (.reconnect goal phase)) (hstage : stage = none ∨ stage = goal.give_up) :
      Move s e ({ s.abandon phase with guard := none }.put t stage)
  | close (k : Nat) : Move s (.close k) (s.close k)

theorem Move.over {e : Event} {t : Nat} (hold : ∀ goal phase, s.tasks.get t ≠ some (.reconnect goal phase)) :
    Move me s e (s.put t none) := .put hold (by rintro _ ⟨⟩) (by rintro _ _ ⟨⟩)

/-- A stage without a connection. -/
theorem Move.waits {e : Event} {t : Nat} {stage : Stage} (hold : ∀ goal phase, s.tasks.get t ≠ some (.reconnect goal phase))
    (hphase : stage.phase? = none) (hlink : stage.link? = none) : Move me s e (s.put t (some stage)) := by
  refine .put hold ?_ ?_
  · rintro _ ⟨⟩
    exact hphase
  · rintro _ k ⟨⟩ hk
    rw [hlink] at hk
    cases hk

theorem Move.goes_on {e : Event} {t k : Nat} {stage : Stage}
    (hold : ∀ goal phase, s.tasks.get t ≠ some (.reconnect goal phase)) (hphase : stage.phase? = none)
    (hlink : stage.link? = some k) (hk : InUse s k) : Move me s e (s.put t (some stage)) := by
  refine .put hold ?_ ?_
  · rintro _ ⟨⟩
    exact hphase
  · rintro _ j ⟨⟩ hj
    obtain rfl := Option.some.inj (hlink.symm.trans hj)
    exact hk

theorem current_conn_eq_some (h : current_conn s = some k) : s.conn = k := by
  unfold current_conn at h
  split at h
  · cases h
  · split at h
    · cases h
    · exact Option.some.inj h

theorem resume_move {stage : Stage} (ht : s.tasks.get t = some stage) {ok : Bool} {s' : State}
    (hs : resume me s t ok stage = some s') : Move me s (.resume t ok) s' := by
  cases stage with
  | reconnect goal phase =>
    obtain rfl := Option.some.inj hs
    exact .handshake ht ok
  | open_bi k target =>
    obtain rfl := Option.some.inj hs
    cases ok with
    | false => exact .over (by simp [ht])
    | true => exact .goes_on (by simp [ht]) rfl rfl (.inr ⟨t, _, ht, rfl⟩)
  | write_connect k target =>
    obtain rfl := Option.some.inj hs
    cases ok with
    | false => exact .over (by simp [ht])
    | true => exact .sent (by simp [ht]) trivial (.inr ⟨t, _, ht, rfl⟩)
  | write_uni_packet k packet =>
    obtain rfl := Option.some.inj hs
    cases ok with
    | false => exact .over (by simp [ht])
    | true => exact .sent (by simp [ht]) trivial (.inr ⟨t, _, ht, rfl⟩)
  | pump k =>
    cases ok with
    | true => cases hs
    | false =>
      obtain rfl := Option.some.inj hs
      exact .waits (by simp [ht]) rfl rfl
  | backoff attempt =>
    cases ok with
    | false => cases hs
    | true =>
      obtain rfl := Option.some.inj hs
      exact .waits (by simp [ht]) rfl rfl
  | lock goal => cases hs
  | is_dead => cases hs

theorem step_move {e : Event} {s' : State} (hs : step me s e = some s') : Move me s e s' := by
  cases e with
  | call t goal =>
    obtain ⟨hfresh, hs⟩ := Option.ite_none_left_eq_some.1 hs
    obtain rfl := Option.some.inj hs
    exact .waits (by simp_all) rfl rfl
  | is_dead t =>
    obtain ⟨hfresh, hs⟩ := Option.ite_none_left_eq_some.1 hs
    obtain rfl := Option.some.inj hs
    exact .waits (by simp_all) rfl rfl
  | send_udp t stream packet =>
    obtain ⟨hfresh, hs⟩ := Option.ite_none_left_eq_some.1 hs
    split at hs
    · obtain rfl := Option.some.inj hs
      exact .idle _
    · rename_i k hk
      have huse : InUse s k := .inl (current_conn_eq_some hk).symm
      split at hs
      · obtain rfl := Option.some.inj hs
        exact .goes_on (by simp_all) rfl rfl huse
      · obtain rfl := Option.some.inj hs
        exact .send trivial huse
  | locked t =>
    obtain ⟨hfree, hs⟩ := Option.ite_none_left_eq_some.1 hs
    split at hs
    · rename_i goal ht
      obtain rfl := Option.some.inj hs
      exact .lock (by simpa using hfree) ht
    · rename_i ht
      obtain rfl := Option.some.inj hs
      exact .over (by simp [ht])
    · cases hs
  | resume t ok =>
    obtain ⟨stage, ht, hs⟩ := Option.bind_eq_some_iff.1 hs
    exact resume_move ht hs
  | heartbeat t =>
    simp only [step] at hs
    split at hs
    · rename_i k ht
      obtain rfl := Option.some.inj hs
      exact .send trivial (.inr ⟨t, _, ht, rfl⟩)
    · cases hs
  | timeout t =>
    simp only [step] at hs
    split at hs
    · rename_i goal phase ht
      obtain rfl := Option.some.inj hs
      exact .give_up ht (.inr rfl)
    · rename_i ht
      obtain rfl := Option.some.inj hs
      exact .over (by simp [ht])
    · rename_i ht
      obtain rfl := Option.some.inj hs
      exact .over (by simp [ht])
    · cases hs
  | cancel t =>
    simp only [step] at hs
    split at hs
    · rename_i goal phase ht
      obtain rfl := Option.some.inj hs
      exact .give_up ht (.inl rfl)
    · rename_i stage hne ht
      obtain rfl := Option.some.inj hs
      refine .over fun goal phase ht' => ?_
      rw [ht] at ht'
      exact hne _ _ (Option.some.inj ht')
    · cases hs
  | close k =>
    obtain rfl := Option.some.inj hs
    exact .close k

theorem Inv.step (h : Inv me s) {e : Event} {s' : State} (hs : Move me s e s') : Inv me s' := by
  cases hs with
  | idle => exact h
  | put hold hphase hlink =>
    exact h.put hold fun st hst => ⟨hphase st hst, fun k hk => h.inUse (hlink st k hst hk)⟩
  | send hx hk => exact h.send hx (h.inUse hk)
  | sent hold hx hk => exact (h.send hx (h.inUse hk)).put hold settled_none
  | lock hfree ht => exact h.live_conn hfree ht
  | handshake ht ok => exact h.handshake ht ok
  | give_up ht hstage =>
    refine h.give_up ht ?_
    rcases hstage with rfl | rfl
    · exact settled_none
    · exact settled_give_up _
  | close k => exact h.close k

/-! ## Every interleaving -/

variable (me) in
/-- Reached by any interleaving of the tasks. -/
def Reachable (s : State) : Prop := Reach (connected me) (step me) (fun _ _ => True) s

theorem Reachable.inv (h : Reachable me s) : Inv me s :=
  Reach.inv (Inv me) inv_connected (fun _ _ _ _ hi _ hs => hi.step (step_move hs)) h

/-- At no time are two connections open. On each, the authentication comes first
and is complete before anything else is sent. A task that has got a connection has
one that is authenticated, and the one in the mutex unless it is closed. -/
theorem one_connection (h : Reachable me s) :
    (∀ i j, i < s.links.length → j < s.links.length → s.is_closed i = false → s.is_closed j = false → i = j) ∧
    (∀ k l, s.links[k]? = some l → AuthenticatesFirst me k l.sent) ∧
    ∀ t stage k, s.tasks.get t = some stage → stage.link? = some k →
      ∃ l, s.links[k]? = some l ∧ Authenticated me k l.sent ∧ (l.closed = true ∨ k = s.conn) := by
  have hi := h.inv
  refine ⟨?_, hi.first, ?_⟩
  · intro i j hi' hj' hio hjo
    have hopen : ∀ k, k < s.links.length → s.is_closed k = false → k = s.conn ∨
        ∃ t goal phase, s.tasks.get t = some (.reconnect goal phase) ∧ phase.link? = some k := by
      intro k hk hko
      refine (hi.closed k _ (List.getElem?_eq_getElem hk)).resolve_left fun hclosed => ?_
      rw [State.is_closed, List.getElem?_eq_getElem hk, Option.all_some, hclosed] at hko
      cases hko
    rcases hopen i hi' hio with rfl | ⟨t, goal, phase, ht, hlink⟩
    · rcases hopen j hj' hjo with rfl | ⟨t, goal, phase, ht, -⟩
      · rfl
      · rw [(hi.reconnecting t goal phase ht).2.1] at hio
        cases hio
    · rcases hopen j hj' hjo with rfl | ⟨t', goal', phase', ht', hlink'⟩
      · rw [(hi.reconnecting t goal phase ht).2.1] at hjo
        cases hjo
      · obtain ⟨-, rfl⟩ := hi.only ht ht'
        exact Option.some.inj (hlink.symm.trans hlink')
  · intro t stage k ht hk
    obtain ⟨l, hl, hauth⟩ := hi.used t stage k ht hk
    refine ⟨l, hl, hauth, (hi.closed k l hl).imp_right fun hk' => hk'.resolve_right ?_⟩
    rintro ⟨t', goal, phase, ht', hphase⟩
    obtain ⟨-, l', hl', hsent⟩ := (hi.reconnecting t' goal phase ht').2.2 k hphase
    obtain rfl := Option.some.inj (hl.symm.trans hl')
    rw [hsent] at hauth
    exact not_authenticated_sent phase k hauth

end

/-! Early data is refused on the second connection while a probe waits for the lock; the
third one is authenticated, and the request goes out on it. -/

def sampleClient : Client where
  uuid := Vector.replicate 16 0x5a
  password := "secret"
  zero_rtt := true
  export_keying_material k _ _ := Vector.replicate 32 (UInt8.ofNat k)

def sampleTarget : TargetAddr := .IpPort (.v4 0x01020304 443)

def sampleRun : List Event :=
  [.call 1 (.open_tcp sampleTarget), .close 0, .call 2 .probe, .locked 1, .resume 1 true, .resume 1 true, .resume 1 false] ++
    List.replicate 6 (.resume 1 true) ++ [.locked 2, .resume 1 true, .call 3 .probe]

theorem one_connection_sample : ∃ s, Reachable sampleClient s ∧ s.conn = 2 ∧ s.links.length = 3 ∧
    (∀ i j, i < 3 → j < 3 → s.is_closed i = false → s.is_closed j = false → i = j) ∧
    ∃ l, s.links[2]? = some l ∧ Authenticated sampleClient 2 l.sent := by
  obtain ⟨s, hs, hp⟩ := @exists_reach_of_any _ _ (connected sampleClient) (step sampleClient)
    (fun s => s.conn == 2 && s.links.length == 3 && (s.tasks.get 1).any fun st => st.link? == some 2) sampleRun
    (by decide +kernel)
  simp only [Bool.and_eq_true, beq_iff_eq, Option.any_eq_true] at hp
  obtain ⟨⟨hconn, hlen⟩, stage, ht, hlink⟩ := hp
  obtain ⟨hone, -, hused⟩ := one_connection hs
  obtain ⟨l, hl, hauth, -⟩ := hused 1 stage 2 ht hlink
  rw [hlen] at hone
  exact ⟨s, hs, hconn, hlen, hone, l, hl, hauth⟩

section
variable {me : Client} {s : State} {t k : Nat} {goal : Goal} {phase : Phase}

/-! ## Reconnecting -/

end

end TuicConnection

end MiniVpn
